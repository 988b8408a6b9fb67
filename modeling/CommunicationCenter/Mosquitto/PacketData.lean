import CommunicationCenter.Encoding.Varint
import CommunicationCenter.Mosquitto.Utf8

open libc encoding

namespace communication_center.mosquitto

/-- What is left to read of a packet, from its position on. -/
abbrev mosquitto_packet := List UInt8

def packet_read_byte : mosquitto_packet → Except mosq_err_t (UInt8 × mosquitto_packet)
  | [] => .error .MOSQ_ERR_MALFORMED_PACKET
  | byte :: packet => .ok (byte, packet)

def packet_read_bytes (count : Nat) (packet : mosquitto_packet) :
    Except mosq_err_t (List UInt8 × mosquitto_packet) :=
  if count > packet.length then .error .MOSQ_ERR_MALFORMED_PACKET
  else .ok (packet.take count, packet.drop count)

def packet_read_uint16 : mosquitto_packet → Except mosq_err_t (UInt16 × mosquitto_packet)
  | msb :: lsb :: packet => .ok (UInt16.ofNat (msb.toNat <<< 8 + lsb.toNat), packet)
  | _ => .error .MOSQ_ERR_MALFORMED_PACKET

/-- Nothing for length zero. -/
def packet_read_binary (packet : mosquitto_packet) :
    Except mosq_err_t (Option (List UInt8) × mosquitto_packet) := do
  let (slen, packet) ← packet_read_uint16 packet
  if slen = 0 then .ok (none, packet)
  else
    let (data, packet) ← packet_read_bytes slen.toNat packet
    .ok (some data, packet)

def packet_read_string (packet : mosquitto_packet) :
    Except mosq_err_t (Option Text × mosquitto_packet) := do
  let (str, packet) ← packet_read_binary packet
  match str with
  | none => .ok (none, packet)
  | some str =>
    if mosquitto_validate_utf8 str ≠ .MOSQ_ERR_SUCCESS then .error .MOSQ_ERR_MALFORMED_UTF8
    else .ok (some str, packet)

def packet_write_uint16 (word : UInt16) : List UInt8 :=
  [((word &&& 0xFF00) >>> 8).toUInt8, (word &&& 0x00FF).toUInt8]

def packet_read_uint32 : mosquitto_packet → Except mosq_err_t (UInt32 × mosquitto_packet)
  | first :: second :: third :: last :: packet =>
    .ok (UInt32.ofNat
      (((first.toNat <<< 8 + second.toNat) <<< 8 + third.toNat) <<< 8 + last.toNat), packet)
  | _ => .error .MOSQ_ERR_MALFORMED_PACKET

def packet_write_uint32 (word : UInt32) : List UInt8 :=
  [((word &&& 0xFF000000) >>> 24).toUInt8, ((word &&& 0x00FF0000) >>> 16).toUInt8,
    ((word &&& 0x0000FF00) >>> 8).toUInt8, (word &&& 0x000000FF).toUInt8]

def packet_write_string (str : Text) (length : UInt16) : List UInt8 :=
  packet_write_uint16 length ++ str.take length.toNat

/-- The digits that are written while there is something left, at most so many. -/
def varint_digits : Nat → Nat → List UInt8
  | 0, _ => []
  | count + 1, word =>
    let byte := UInt8.ofNat (word % 128)
    if word / 128 > 0 then (byte ||| 0x80) :: varint_digits count (word / 128) else [byte]

/-- The bytes are written before their number is checked. -/
def packet_write_varint (word : Nat) : List UInt8 × mosq_err_t :=
  (varint_digits 5 word, if (varint_digits 5 word).length = 5 then .MOSQ_ERR_MALFORMED_PACKET
    else .MOSQ_ERR_SUCCESS)

def packet_varint_bytes (word : Nat) : Nat :=
  if word < 128 then 1
  else if word < 16384 then 2
  else if word < 2097152 then 3
  else if word < 268435456 then 4
  else 5

/-- The number, the count of its bytes and what is left. -/
def packet_read_varint_loop : Nat → Nat → Nat → Nat → mosquitto_packet →
    Except mosq_err_t (Nat × Nat × mosquitto_packet)
  | 0, _, _, _, _ => .error .MOSQ_ERR_MALFORMED_PACKET
  | _ + 1, _, _, _, [] => .error .MOSQ_ERR_MALFORMED_PACKET
  | i + 1, remaining_mult, lword, lbytes, byte :: packet =>
    let lword := lword + (byte &&& 127).toNat * remaining_mult
    if byte &&& 128 = 0 then
      if lbytes + 1 > 1 ∧ byte = 0 then .error .MOSQ_ERR_MALFORMED_PACKET
      else .ok (lword, lbytes + 1, packet)
    else packet_read_varint_loop i (remaining_mult * 128) lword (lbytes + 1) packet

def packet_read_varint (packet : mosquitto_packet) : Except mosq_err_t (Nat × Nat × mosquitto_packet) :=
  packet_read_varint_loop 4 1 0 0 packet

/-- The high bit of a byte adds 128. -/
theorem more_bit {byte : UInt8} (h : byte.toNat < 128) :
    (byte ||| 0x80).toNat = byte.toNat + 128 := by
  revert byte
  apply byte_cases
  decide +kernel

/-- The other seven bits are the byte modulo 128, and the high bit tells a byte of at least 128. -/
theorem digit_bits (byte : UInt8) :
    (byte &&& 127).toNat = byte.toNat % 128 ∧ (byte &&& 128 = 0 ↔ byte < 0x80) := by
  revert byte
  apply byte_cases
  decide +kernel

/-- The digits of a number are the one byte that it fits in, or a first digit with the high bit and
the digits of the rest. -/
theorem varint_digits_succ (count word : Nat) : varint_digits (count + 1) word =
    if word < 128 then [UInt8.ofNat word]
    else (UInt8.ofNat (word % 128) ||| 0x80) :: varint_digits count (word / 128) := by
  have hmore : word / 128 > 0 ↔ ¬ word < 128 := by omega
  rw [varint_digits]
  simp only [hmore, ite_not]
  split
  · rw [Nat.mod_eq_of_lt ‹_›]
  · rfl

/-- A number below 128 is one byte, also the number zero. -/
theorem varint_low {word : Nat} (h : word < 128) : Varint [UInt8.ofNat word] word := by
  have hbyte : (UInt8.ofNat word).toNat = word :=
    UInt8.toNat_ofNat_of_lt' (show word < 256 by omega)
  have hlow : UInt8.ofNat word < 0x80 := by
    rw [UInt8.lt_iff_toNat_lt, hbyte]
    exact h
  have hvarint := Varint.last hlow
  rwa [hbyte] at hvarint

/-- What is written for a number encodes the number, if the digits are enough for it. -/
theorem varint_varint_digits {count word : Nat} (hlt : word < 128 ^ (count + 1)) :
    Varint (varint_digits (count + 1) word) word := by
  induction count generalizing word with
  | zero =>
    have hlow : word < 128 := hlt
    rw [varint_digits_succ, if_pos hlow]
    exact varint_low hlow
  | succ count ih =>
    rw [varint_digits_succ]
    split
    · exact varint_low ‹_›
    · have hbyte : (UInt8.ofNat (word % 128)).toNat = word % 128 :=
        UInt8.toNat_ofNat_of_lt' (show word % 128 < 256 by omega)
      have hbit : (UInt8.ofNat (word % 128) ||| 0x80).toNat = (UInt8.ofNat (word % 128)).toNat + 128 :=
        more_bit (by omega)
      have hdiv : word / 128 < 128 ^ (count + 1) := by
        rw [Nat.pow_succ] at hlt
        omega
      have hhigh : ¬ (UInt8.ofNat (word % 128) ||| 0x80) < 0x80 := by
        rw [UInt8.lt_iff_toNat_lt, hbit]
        exact Nat.not_lt.mpr (Nat.le_add_left _ _)
      have hword : (UInt8.ofNat (word % 128) ||| 0x80).toNat - 128 + 128 * (word / 128) = word := by
        omega
      have hvarint := Varint.more hhigh (ih hdiv)
      rw [hword] at hvarint
      exact hvarint

/-- For a number other than 0 the last digit is not 0, so that no shorter encoding is possible. -/
theorem getLast?_varint_digits {count word : Nat} (hpos : 0 < word) (hlt : word < 128 ^ (count + 1)) :
    (varint_digits (count + 1) word).getLast? ≠ some 0 := by
  have hlast (word : Nat) (hpos : 0 < word) (hlow : word < 128) :
      [UInt8.ofNat word].getLast? ≠ some 0 := by
    rw [List.getLast?_singleton]
    intro hzero
    have hbyte := congrArg UInt8.toNat (Option.some.inj hzero)
    rw [UInt8.toNat_ofNat_of_lt' (show word < 256 by omega)] at hbyte
    exact hpos.ne' hbyte
  induction count generalizing word with
  | zero =>
    have hlow : word < 128 := hlt
    rw [varint_digits_succ, if_pos hlow]
    exact hlast word hpos hlow
  | succ count ih =>
    rw [varint_digits_succ]
    split
    · exact hlast word hpos ‹_›
    · have hdiv : word / 128 < 128 ^ (count + 1) := by
        rw [Nat.pow_succ] at hlt
        omega
      have hdigits := (varint_varint_digits hdiv).ne_nil
      obtain ⟨digit, digits, heq⟩ := List.exists_cons_of_ne_nil hdigits
      have hrest := ih (by omega) hdiv
      rw [heq] at hrest ⊢
      rw [List.getLast?_cons_cons]
      exact hrest

/-- So what is written has no needless digit: the highest one is not 0, unless it is the only one.
-/
theorem shortest_varint_digits {count word : Nat} (hlt : word < 128 ^ (count + 1)) :
    Shortest (varint_digits (count + 1) word) := by
  by_cases hpos : 0 < word
  · exact Or.inr (getLast?_varint_digits hpos hlt)
  · left
    rw [varint_digits_succ, if_pos (by omega)]
    rfl

/-- As many bytes are reckoned for a number as are written for it. -/
theorem varint_digits_length (word : Nat) :
    (varint_digits 5 word).length = packet_varint_bytes word := by
  simp only [varint_digits, packet_varint_bytes]
  grind

/-- The loop succeeds on the encodings that are short enough and do not end with a needless zero.
It adds the number, times the weight of its first digit, to what was read before, and counts the
bytes. -/
theorem packet_read_varint_loop_iff (i remaining_mult lword lbytes : Nat) (packet : mosquitto_packet)
    (result : Nat × Nat × mosquitto_packet) :
    packet_read_varint_loop i remaining_mult lword lbytes packet = .ok result ↔
      ∃ encoded n, Varint encoded n ∧ encoded.length ≤ i ∧
        (lbytes + encoded.length ≤ 1 ∨ encoded.getLast? ≠ some 0) ∧
        packet = encoded ++ result.2.2 ∧ result.1 = lword + n * remaining_mult ∧
        result.2.1 = lbytes + encoded.length := by
  induction i generalizing remaining_mult lword lbytes packet with
  | zero =>
    rw [packet_read_varint_loop]
    constructor
    · exact fun h => nomatch h
    · rintro ⟨encoded, n, hvarint, hlength, -⟩
      exact absurd hvarint.length_pos (Nat.not_lt.mpr hlength)
  | succ i ih =>
    cases packet with
    | nil =>
      rw [packet_read_varint_loop]
      constructor
      · exact fun h => nomatch h
      · rintro ⟨encoded, n, hvarint, -, -, happend, -⟩
        exact absurd (List.append_eq_nil_iff.mp happend.symm).1 hvarint.ne_nil
    | cons byte packet =>
      obtain ⟨hdigit, hlow⟩ := digit_bits byte
      have hbyte := UInt8.toNat_lt byte
      rw [packet_read_varint_loop]
      simp only [hdigit, hlow]
      by_cases hlast : byte < 0x80
      · have hmod : byte.toNat % 128 = byte.toNat := Nat.mod_eq_of_lt (UInt8.lt_iff_toNat_lt.mp hlast)
        rw [if_pos hlast, hmod]
        constructor
        · intro h
          split at h
          · cases h
          · rename_i hlong
            obtain rfl := Except.ok.inj h
            refine ⟨[byte], byte.toNat, .last hlast, by simp, ?_, rfl, rfl, rfl⟩
            rw [List.length_singleton, List.getLast?_singleton]
            by_cases hfirst : lbytes + 1 > 1
            · exact Or.inr fun hzero => hlong ⟨hfirst, Option.some.inj hzero⟩
            · exact Or.inl (by omega)
        · rintro ⟨encoded, n, hvarint, -, hshort, happend, hvalue, hcount⟩
          have hsplit : encoded ++ result.2.2 = [byte] ++ packet := happend.symm
          obtain ⟨rfl, rfl, rfl⟩ := hvarint.append_inj (.last hlast) hsplit
          rw [List.length_singleton, List.getLast?_singleton] at hshort
          rw [if_neg fun hlong => ?_, ← hvalue]
          · rw [List.length_singleton] at hcount
            rw [← hcount]
          · exact hshort.elim (fun hle => by omega) fun hne => hne (congrArg some hlong.2)
      · rw [if_neg hlast, ih]
        have hhigh : 128 ≤ byte.toNat := Nat.not_lt.mp fun hlt => hlast (UInt8.lt_iff_toNat_lt.mpr hlt)
        have hmod : byte.toNat % 128 = byte.toNat - 128 := by omega
        rw [hmod]
        constructor
        · rintro ⟨encoded, n, hvarint, hlength, hshort, rfl, hvalue, hcount⟩
          obtain ⟨digit, digits, rfl⟩ := List.exists_cons_of_ne_nil hvarint.ne_nil
          refine ⟨byte :: digit :: digits, _, .more hlast hvarint, by simpa using hlength, ?_, rfl,
            ?_, ?_⟩
          · rw [List.getLast?_cons_cons]
            simp only [List.length_cons] at hshort ⊢
            exact hshort.imp_left (by omega)
          · rw [hvalue]
            ring
          · rw [hcount]
            simp only [List.length_cons]
            omega
        · rintro ⟨encoded, m, hvarint, hlength, hshort, happend, hvalue, hcount⟩
          cases hvarint with
          | last hlow =>
            obtain ⟨rfl, -⟩ := List.cons.inj happend
            exact absurd hlow hlast
          | @more _ digits n _ hrest =>
            obtain ⟨rfl, rfl⟩ := List.cons.inj happend
            obtain ⟨digit, digits, rfl⟩ := List.exists_cons_of_ne_nil hrest.ne_nil
            refine ⟨digit :: digits, n, hrest, by simpa using hlength, ?_, rfl, ?_, ?_⟩
            · rw [List.getLast?_cons_cons] at hshort
              simp only [List.length_cons] at hshort ⊢
              exact hshort.imp_left (by omega)
            · rw [hvalue]
              ring
            · rw [hcount]
              simp only [List.length_cons]
              omega

/-- What is read as a number is what is written for it, for the numbers that fit in four bytes.
Nothing is assumed of the packet. A longer encoding of a number than the one that is written, with
zeros at its end, is refused. -/
theorem packet_read_varint_iff (packet rest : mosquitto_packet) (word bytes : Nat) :
    packet_read_varint packet = .ok (word, bytes, rest) ↔
      (packet_write_varint word).2 = .MOSQ_ERR_SUCCESS ∧
        packet = (packet_write_varint word).1 ++ rest ∧ bytes = packet_varint_bytes word := by
  have hwritten : (packet_write_varint word).2 = .MOSQ_ERR_SUCCESS ↔ word < 128 ^ 4 := by
    simp only [packet_write_varint, varint_digits_length, packet_varint_bytes]
    grind
  rw [packet_read_varint, packet_read_varint_loop_iff, hwritten]
  constructor
  · rintro ⟨encoded, n, hvarint, hlength, hshort, rfl, hvalue, hcount⟩
    obtain rfl : word = n := by simpa using hvalue
    have hpow : 128 ^ encoded.length ≤ 128 ^ 4 := Nat.pow_le_pow_right (by decide) hlength
    have hlt := hvarint.lt
    have hlt5 : word < 128 ^ (4 + 1) := by omega
    have heq : encoded = varint_digits 5 word := hvarint.eq_of_shortest (varint_varint_digits hlt5)
      (hshort.imp_left (by omega)) (shortest_varint_digits hlt5)
    refine ⟨by omega, by rw [heq]; rfl, ?_⟩
    rw [← varint_digits_length, ← heq, ← Nat.zero_add encoded.length]
    exact hcount
  · rintro ⟨hlt, rfl, rfl⟩
    have hlt5 : word < 128 ^ (4 + 1) := by omega
    have hlength := varint_digits_length word
    refine ⟨varint_digits 5 word, word, varint_varint_digits hlt5, ?_, ?_, rfl, by simp, ?_⟩
    · rw [hlength, packet_varint_bytes]
      grind
    · rw [Nat.zero_add]
      exact shortest_varint_digits hlt5
    · rw [hlength, Nat.zero_add]

/-- The two bytes of a word of 16 bits are the quotient and the remainder by 256. -/
theorem msb_lsb (word : UInt16) : ((word &&& 0xFF00) >>> 8).toUInt8.toNat = word.toNat / 256 ∧
    (word &&& 0x00FF).toUInt8.toNat = word.toNat % 256 := by
  have hlt : word.toNat < 65536 := UInt16.toNat_lt word
  have hmask : 0xFF00 >>> 8 = 2 ^ 8 - 1 := rfl
  have hhigh : (word.toNat &&& 0xFF00) >>> 8 = word.toNat / 256 := by
    rw [Nat.shiftRight_and_distrib, Nat.shiftRight_eq_div_pow, hmask, Nat.and_two_pow_sub_one_eq_mod]
    omega
  have hlow : word.toNat &&& 0x00FF = word.toNat % 256 := Nat.and_two_pow_sub_one_eq_mod word.toNat 8
  constructor
  · change ((word.toNat &&& 0xFF00) >>> 8) % 256 = _
    rw [hhigh]
    omega
  · change (word.toNat &&& 0x00FF) % 256 = _
    rw [hlow, Nat.mod_mod]

/-- A word of 16 bits is read exactly where it was written, and the rest is left. -/
theorem packet_read_uint16_iff (packet rest : mosquitto_packet) (word : UInt16) :
    packet_read_uint16 packet = .ok (word, rest) ↔ packet = packet_write_uint16 word ++ rest := by
  obtain ⟨hmsb, hlsb⟩ := msb_lsb word
  have hlt : word.toNat < 65536 := UInt16.toNat_lt word
  constructor
  · intro h
    match packet, h with
    | msb :: lsb :: packet, h =>
      have hword : msb.toNat <<< 8 + lsb.toNat < 65536 := by
        have hmsb := UInt8.toNat_lt msb
        have hlsb := UInt8.toNat_lt lsb
        rw [Nat.shiftLeft_eq]
        omega
      obtain ⟨hread, rfl⟩ := Prod.mk.inj (Except.ok.inj h)
      have htoNat : word.toNat = msb.toNat * 2 ^ 8 + lsb.toNat := by
        rw [← hread, UInt16.toNat_ofNat_of_lt' hword, Nat.shiftLeft_eq]
      have hbyte := UInt8.toNat_lt lsb
      have hfirst : ((word &&& 0xFF00) >>> 8).toUInt8 = msb := UInt8.toNat_inj.mp (by omega)
      have hsecond : (word &&& 0x00FF).toUInt8 = lsb := UInt8.toNat_inj.mp (by omega)
      rw [packet_write_uint16, hfirst, hsecond]
      rfl
    | [_], h => exact nomatch h
    | [], h => exact nomatch h
  · rintro rfl
    have hword : word.toNat / 256 * 2 ^ 8 + word.toNat % 256 = word.toNat := by omega
    rw [packet_write_uint16]
    change Except.ok (UInt16.ofNat (_ <<< 8 + _), rest) = _
    rw [hmsb, hlsb, Nat.shiftLeft_eq, hword, UInt16.ofNat_toNat]

/-- The four bytes of a word of 32 bits, from the highest to the lowest, as numbers. -/
theorem word_bytes (word : UInt32) :
    ((word &&& 0xFF000000) >>> 24).toUInt8.toNat = word.toNat / 16777216 ∧
      ((word &&& 0x00FF0000) >>> 16).toUInt8.toNat = word.toNat / 65536 % 256 ∧
      ((word &&& 0x0000FF00) >>> 8).toUInt8.toNat = word.toNat / 256 % 256 ∧
      (word &&& 0x000000FF).toUInt8.toNat = word.toNat % 256 := by
  have hlt : word.toNat < 4294967296 := UInt32.toNat_lt word
  have hbits (shift mask : Nat) (hmask : mask >>> shift = 2 ^ 8 - 1) :
      (word.toNat &&& mask) >>> shift = word.toNat / 2 ^ shift % 256 := by
    rw [Nat.shiftRight_and_distrib, hmask, Nat.and_two_pow_sub_one_eq_mod, Nat.shiftRight_eq_div_pow]
  refine ⟨?_, ?_, ?_, ?_⟩
  · change ((word.toNat &&& 0xFF000000) >>> 24) % 256 = _
    rw [hbits 24 0xFF000000 rfl]
    omega
  · change ((word.toNat &&& 0x00FF0000) >>> 16) % 256 = _
    rw [hbits 16 0x00FF0000 rfl, Nat.mod_mod]
    rfl
  · change ((word.toNat &&& 0x0000FF00) >>> 8) % 256 = _
    rw [hbits 8 0x0000FF00 rfl, Nat.mod_mod]
    rfl
  · change ((word.toNat &&& 0x000000FF) >>> 0) % 256 = _
    rw [hbits 0 0x000000FF rfl, Nat.mod_mod, pow_zero, Nat.div_one]

/-- A word of 32 bits is read exactly where it was written, and the rest is left. -/
theorem packet_read_uint32_iff (packet rest : mosquitto_packet) (word : UInt32) :
    packet_read_uint32 packet = .ok (word, rest) ↔ packet = packet_write_uint32 word ++ rest := by
  obtain ⟨hfirst, hsecond, hthird, hlast⟩ := word_bytes word
  have hlt : word.toNat < 4294967296 := UInt32.toNat_lt word
  constructor
  · intro h
    match packet, h with
    | first :: second :: third :: last :: packet, h =>
      have hbyte (byte : UInt8) : byte.toNat < 256 := UInt8.toNat_lt byte
      have hbytes := And.intro (And.intro (hbyte first) (hbyte second)) (And.intro (hbyte third) (hbyte last))
      have hword : ((first.toNat <<< 8 + second.toNat) <<< 8 + third.toNat) <<< 8 + last.toNat =
          first.toNat * 16777216 + second.toNat * 65536 + third.toNat * 256 + last.toNat := by
        simp only [Nat.shiftLeft_eq]
        ring
      obtain ⟨hread, rfl⟩ := Prod.mk.inj (Except.ok.inj h)
      have htoNat : word.toNat =
          first.toNat * 16777216 + second.toNat * 65536 + third.toNat * 256 + last.toNat := by
        rw [← hread, hword]
        apply UInt32.toNat_ofNat_of_lt'
        change _ < 4294967296
        omega
      have hfirst' : ((word &&& 0xFF000000) >>> 24).toUInt8 = first := UInt8.toNat_inj.mp (by omega)
      have hsecond' : ((word &&& 0x00FF0000) >>> 16).toUInt8 = second := UInt8.toNat_inj.mp (by omega)
      have hthird' : ((word &&& 0x0000FF00) >>> 8).toUInt8 = third := UInt8.toNat_inj.mp (by omega)
      have hlast' : (word &&& 0x000000FF).toUInt8 = last := UInt8.toNat_inj.mp (by omega)
      rw [packet_write_uint32, hfirst', hsecond', hthird', hlast']
      rfl
    | [_, _, _], h => exact nomatch h
    | [_, _], h => exact nomatch h
    | [_], h => exact nomatch h
    | [], h => exact nomatch h
  · rintro rfl
    have hword : ((word.toNat / 16777216 * 2 ^ 8 + word.toNat / 65536 % 256) * 2 ^ 8 +
        word.toNat / 256 % 256) * 2 ^ 8 + word.toNat % 256 = word.toNat := by
      omega
    rw [packet_write_uint32]
    change Except.ok (UInt32.ofNat (((_ <<< 8 + _) <<< 8 + _) <<< 8 + _), rest) = _
    rw [hfirst, hsecond, hthird, hlast]
    simp only [Nat.shiftLeft_eq]
    rw [hword, UInt32.ofNat_toNat]

/-- A number of bytes is read if there are as many, and what is behind them is left. No byte is
changed. -/
theorem packet_read_bytes_iff (count : Nat) (packet rest : mosquitto_packet) (bytes : List UInt8) :
    packet_read_bytes count packet = .ok (bytes, rest) ↔
      packet = bytes ++ rest ∧ bytes.length = count := by
  rw [packet_read_bytes]
  split
  · rename_i hmore
    constructor
    · exact fun h => nomatch h
    · rintro ⟨rfl, rfl⟩
      rw [List.length_append] at hmore
      omega
  · rename_i hless
    simp only [Except.ok.injEq, Prod.mk.injEq]
    constructor
    · rintro ⟨rfl, rfl⟩
      exact ⟨(List.take_append_drop count packet).symm, List.length_take_of_le (by omega)⟩
    · rintro ⟨rfl, rfl⟩
      exact ⟨List.take_left, List.drop_left⟩

/-- Two readers in a row succeed if the first one does, and then the second with its result. -/
theorem bind_eq_ok_iff {S T : Type} (x : Except mosq_err_t S) (f : S → Except mosq_err_t T) (result : T) :
    (x >>= f) = .ok result ↔ ∃ s, x = .ok s ∧ f s = .ok result := by
  cases x with
  | error rc => exact ⟨nofun, fun ⟨_, h, _⟩ => nomatch h⟩
  | ok s => exact ⟨fun h => ⟨s, rfl, h⟩, fun ⟨_, hs, h⟩ => Except.ok.inj hs ▸ h⟩

/-- A field of bytes is read exactly where it was written, with its length in front. A field of
length 0 is read as none, so that no field is read as an empty one. -/
theorem packet_read_binary_iff (packet rest : mosquitto_packet) (data : Option (List UInt8)) :
    packet_read_binary packet = .ok (data, rest) ↔
      data ≠ some [] ∧ (data.getD []).length < 65536 ∧
        packet = packet_write_string (data.getD []) (UInt16.ofNat (data.getD []).length) ++ rest := by
  rw [packet_read_binary, bind_eq_ok_iff]
  constructor
  · rintro ⟨⟨slen, tail⟩, hslen, h⟩
    rw [packet_read_uint16_iff] at hslen
    have hlt : slen.toNat < 65536 := UInt16.toNat_lt slen
    simp only at h
    split at h
    · rename_i hzero
      obtain ⟨rfl, rfl⟩ := Prod.mk.inj (Except.ok.inj h)
      rw [hslen, hzero]
      exact ⟨nofun, by decide, rfl⟩
    · rename_i hne
      rw [bind_eq_ok_iff] at h
      obtain ⟨⟨bytes, after⟩, hbytes, h⟩ := h
      rw [packet_read_bytes_iff] at hbytes
      obtain ⟨rfl, hlength⟩ := hbytes
      obtain ⟨rfl, rfl⟩ := Prod.mk.inj (Except.ok.inj h)
      have hslength : UInt16.ofNat bytes.length = slen := by rw [hlength, UInt16.ofNat_toNat]
      refine ⟨?_, ?_, ?_⟩
      · rintro hempty
        obtain rfl := Option.some.inj hempty
        exact hne hslength.symm
      · exact hlength ▸ hlt
      · rw [Option.getD_some, hslength, packet_write_string, ← hlength, List.take_length, hslen,
          List.append_assoc]
  · rintro ⟨hne, hlt, rfl⟩
    have hlength : (UInt16.ofNat (data.getD []).length).toNat = (data.getD []).length :=
      UInt16.toNat_ofNat_of_lt' hlt
    refine ⟨(UInt16.ofNat (data.getD []).length, data.getD [] ++ rest), ?_, ?_⟩
    · rw [packet_read_uint16_iff, packet_write_string, hlength, List.take_length, List.append_assoc]
    · cases data with
      | none => rfl
      | some bytes =>
        have hnonzero : UInt16.ofNat bytes.length ≠ 0 := by
          intro hzero
          have htoNat := congrArg UInt16.toNat hzero
          rw [Option.getD_some] at hlength
          rw [hlength] at htoNat
          exact hne (by rw [List.length_eq_zero_iff.mp htoNat])
        rw [Option.getD_some] at hlength ⊢
        simp only
        rw [if_neg hnonzero, bind_eq_ok_iff]
        exact ⟨(bytes, rest), (packet_read_bytes_iff _ _ _ _).mpr ⟨rfl, hlength.symm⟩, rfl⟩

/-- A string is read back as it was written, if it is one that is let through by the check of its
characters. The empty one is read as none. -/
theorem packet_read_string_iff (packet rest : mosquitto_packet) (str : Option Text) :
    packet_read_string packet = .ok (str, rest) ↔
      str ≠ some [] ∧ (str.getD []).length < 65536 ∧ PermittedText (str.getD []) ∧
        packet = packet_write_string (str.getD []) (UInt16.ofNat (str.getD []).length) ++ rest := by
  rw [packet_read_string, bind_eq_ok_iff]
  constructor
  · rintro ⟨⟨data, tail⟩, hdata, h⟩
    obtain ⟨hne, hlt, hpacket⟩ := (packet_read_binary_iff _ _ _).mp hdata
    cases data with
    | none =>
      obtain ⟨rfl, rfl⟩ := Prod.mk.inj (Except.ok.inj h)
      exact ⟨hne, hlt, ⟨[], by simp, rfl⟩, hpacket⟩
    | some bytes =>
      simp only at h
      split at h
      · cases h
      · rename_i hvalid
        obtain ⟨rfl, rfl⟩ := Prod.mk.inj (Except.ok.inj h)
        exact ⟨hne, hlt, ((mosquitto_validate_utf8_iff bytes).mp (not_not.mp hvalid)).2, hpacket⟩
  · rintro ⟨hne, hlt, hpermitted, hpacket⟩
    refine ⟨(str, rest), (packet_read_binary_iff _ _ _).mpr ⟨hne, hlt, hpacket⟩, ?_⟩
    cases str with
    | none => rfl
    | some bytes =>
      have hvalid : mosquitto_validate_utf8 bytes = .MOSQ_ERR_SUCCESS := by
        rw [mosquitto_validate_utf8_iff]
        exact ⟨Nat.le_of_lt hlt, hpermitted⟩
      simp only
      rw [if_neg (not_not_intro hvalid)]

end communication_center.mosquitto
