import CommunicationCenter.Mosquitto.Topics

open libc

namespace communication_center.mosquitto

/-- The length of the code that a first byte begins, and the bits of it. -/
def code_start (c : UInt8) : Option (Nat × Nat) :=
  if c = 0 then none
  else if c ≤ 0x7f then some (1, c.toNat)
  else if c &&& 0xE0 = 0xC0 then
    if c = 0xC0 ∨ c = 0xC1 then none else some (2, (c &&& 0x1F).toNat)
  else if c &&& 0xF0 = 0xE0 then some (3, (c &&& 0x0F).toNat)
  else if c &&& 0xF8 = 0xF0 then
    if c > 0xF4 then none else some (4, (c &&& 0x07).toNat)
  else none

/-- The code point with the bits of the next bytes, and what is left. Behind the
text stands its NUL, which does not continue a code. -/
def code_rest : Nat → Nat → Text → Option (Nat × Text)
  | 0, codepoint, ustr => some (codepoint, ustr)
  | _ + 1, _, [] => none
  | j + 1, codepoint, c :: ustr =>
    if c &&& 0xC0 ≠ 0x80 then none
    else code_rest j (codepoint <<< 6 ||| (c &&& 0x3F).toNat) ustr

/-- Surrogates, overlong codes, noncharacters and control characters. -/
def code_refused (codelen codepoint : Nat) : Bool :=
  codepoint ≥ 0xD800 && codepoint ≤ 0xDFFF ||
    codelen = 3 && codepoint < 0x0800 ||
    codelen = 4 && (codepoint < 0x10000 || codepoint > 0x10FFFF) ||
    codepoint ≥ 0xFDD0 && codepoint ≤ 0xFDEF ||
    codepoint &&& 0xFFFF = 0xFFFE || codepoint &&& 0xFFFF = 0xFFFF ||
    codepoint ≤ 0x001F || codepoint ≥ 0x007F && codepoint ≤ 0x009F

/-- What is left of the text after a character. -/
def validate_code (c : UInt8) (ustr : Text) : Option Text :=
  match code_start c with
  | none => none
  | some (codelen, codepoint) =>
    -- the only length at which the check for the end of the text fails
    if ustr.length + 2 = codelen then none
    else match code_rest (codelen - 1) codepoint ustr with
      | none => none
      | some (codepoint, ustr) => if code_refused codelen codepoint then none else some ustr

def validate_utf8_loop : Nat → Text → mosq_err_t
  | _, [] => .MOSQ_ERR_SUCCESS
  | 0, _ :: _ => .MOSQ_ERR_MALFORMED_UTF8
  | n + 1, c :: ustr =>
    match validate_code c ustr with
    | none => .MOSQ_ERR_MALFORMED_UTF8
    | some ustr => validate_utf8_loop n ustr

def mosquitto_validate_utf8 (str : Text) : mosq_err_t :=
  if str.length > 65536 then .MOSQ_ERR_INVAL else validate_utf8_loop str.length str

/-- The characters of a text: no control characters and no noncharacters. -/
def Permitted (character : Char) : Prop :=
  0x20 ≤ character.toNat ∧ ¬ (0x7F ≤ character.toNat ∧ character.toNat ≤ 0x9F) ∧
    ¬ (0xFDD0 ≤ character.toNat ∧ character.toNat ≤ 0xFDEF) ∧
    character.toNat % 0x10000 ≠ 0xFFFE ∧ character.toNat % 0x10000 ≠ 0xFFFF

/-- The first byte of a character by its value: how many bytes there are, and what the first one
adds. The bytes that begin no shortest encoding are refused. -/
theorem code_start_eq (c : UInt8) : code_start c =
    if c.toNat = 0 then none
    else if c.toNat < 0x80 then some (1, c.toNat)
    else if c.toNat < 0xC2 then none
    else if c.toNat < 0xE0 then some (2, c.toNat - 0xC0)
    else if c.toNat < 0xF0 then some (3, c.toNat - 0xE0)
    else if c.toNat < 0xF5 then some (4, c.toNat - 0xF0)
    else none := by
  revert c
  apply byte_cases
  decide +kernel

/-- The bytes that go on with a character are those from 128 to 191. -/
theorem continues_iff (c : UInt8) : c &&& 0xC0 = 0x80 ↔ 0x80 ≤ c.toNat ∧ c.toNat < 0xC0 := by
  revert c
  apply byte_cases
  decide +kernel

/-- Such a byte adds its lower six bits. -/
theorem continued_bits {c : UInt8} (h : c &&& 0xC0 = 0x80) :
    (c &&& 0x3F).toNat = c.toNat - 0x80 ∧ c.toNat - 0x80 < 2 ^ 6 := by
  revert c
  apply byte_cases
  decide +kernel

/-- A byte that goes on with a character is put behind the bits read so far. -/
theorem code_rest_cons {c : UInt8} (h : c &&& 0xC0 = 0x80) (j codepoint : Nat) (ustr : Text) :
    code_rest (j + 1) codepoint (c :: ustr) =
      code_rest j (codepoint * 64 + (c.toNat - 0x80)) ustr := by
  obtain ⟨hbits, hlt⟩ := continued_bits h
  rw [code_rest, if_neg (not_not_intro h), hbits, ← Nat.shiftLeft_add_eq_or_of_lt hlt,
    Nat.shiftLeft_eq]

/-- The loop over the further bytes of a character succeeds only with a byte that goes on with it.
-/
theorem code_rest_succ_eq_some {j codepoint result : Nat} {ustr rest : Text}
    (h : code_rest (j + 1) codepoint ustr = some (result, rest)) :
    ∃ c tail, ustr = c :: tail ∧ (0x80 ≤ c.toNat ∧ c.toNat < 0xC0) ∧
      code_rest j (codepoint * 64 + (c.toNat - 0x80)) tail = some (result, rest) := by
  cases ustr with
  | nil => cases h
  | cons c tail =>
    by_cases hcontinued : c &&& 0xC0 = 0x80
    · rw [code_rest_cons hcontinued] at h
      exact ⟨c, tail, rfl, (continues_iff c).mp hcontinued, h⟩
    · rw [code_rest, if_pos hcontinued] at h
      cases h

/-- The checks of a code point, written as ranges of numbers: surrogates, overlong forms, numbers
that are too large, non-characters and control characters are refused. -/
theorem code_refused_eq_false_iff (codelen codepoint : Nat) :
    code_refused codelen codepoint = false ↔
      ¬ (0xD800 ≤ codepoint ∧ codepoint ≤ 0xDFFF) ∧ ¬ (codelen = 3 ∧ codepoint < 0x800) ∧
        ¬ (codelen = 4 ∧ (codepoint < 0x10000 ∨ codepoint > 0x10FFFF)) ∧
        ¬ (0xFDD0 ≤ codepoint ∧ codepoint ≤ 0xFDEF) ∧ codepoint % 0x10000 ≠ 0xFFFE ∧
        codepoint % 0x10000 ≠ 0xFFFF ∧ 0x20 ≤ codepoint ∧
        ¬ (0x7F ≤ codepoint ∧ codepoint ≤ 0x9F) := by
  have hlow : codepoint &&& 0xFFFF = codepoint % 0x10000 := Nat.and_two_pow_sub_one_eq_mod codepoint 16
  rw [← Bool.not_eq_true]
  simp only [code_refused, hlow, Bool.or_eq_true, Bool.and_eq_true, decide_eq_true_eq]
  omega

/-- The loop over the further bytes reads as many as it should. Where there are too few, it reads
nothing. -/
theorem code_rest_length {j codepoint result : Nat} {ustr rest : Text}
    (h : code_rest j codepoint ustr = some (result, rest)) : ustr.length = j + rest.length := by
  induction j generalizing codepoint ustr with
  | zero =>
    obtain ⟨-, rfl⟩ := Prod.mk.inj (Option.some.inj h)
    exact (Nat.zero_add _).symm
  | succ j ih =>
    obtain ⟨c, tail, rfl, -, htail⟩ := code_rest_succ_eq_some h
    rw [List.length_cons, ih htail]
    omega

/-- A byte of an encoded character gives its six bits back, behind those that were read before. -/
theorem code_rest_encoded (j codepoint n : Nat) (ustr : Text) :
    code_rest (j + 1) codepoint (UInt8.ofNat (n % 0x40 + 0x80) :: ustr) =
      code_rest j (codepoint * 64 + n % 0x40) ustr := by
  have hlt : n % 0x40 < 0x40 := Nat.mod_lt n (by decide)
  have htoNat : (UInt8.ofNat (n % 0x40 + 0x80)).toNat = n % 0x40 + 0x80 :=
    UInt8.toNat_ofNat_of_lt' (show n % 0x40 + 0x80 < 256 by omega)
  have hcontinues : UInt8.ofNat (n % 0x40 + 0x80) &&& 0xC0 = 0x80 := by
    rw [continues_iff, htoNat]
    omega
  rw [code_rest_cons hcontinues, htoNat, Nat.add_sub_cancel]

/-- A character is let through if its first byte, the further bytes and the code point are. The
check for the end of the text changes nothing, as a NUL does not go on with a character. -/
theorem validate_code_eq_some_iff {c : UInt8} {ustr rest : Text} :
    validate_code c ustr = some rest ↔
      ∃ j bits codepoint, code_start c = some (j + 1, bits) ∧
        code_rest j bits ustr = some (codepoint, rest) ∧ code_refused (j + 1) codepoint = false := by
  rw [validate_code]
  constructor
  · intro h
    cases hstart : code_start c with
    | none => simp [hstart] at h
    | some start =>
      obtain ⟨codelen, bits⟩ := start
      obtain ⟨j, rfl⟩ : ∃ j, codelen = j + 1 := by
        rw [code_start_eq] at hstart
        cases codelen with
        | zero => grind
        | succ j => exact ⟨j, rfl⟩
      simp only [hstart, Nat.add_sub_cancel] at h
      split at h
      · cases h
      · cases hrest : code_rest j bits ustr with
        | none => simp [hrest] at h
        | some result =>
          obtain ⟨codepoint, tail⟩ := result
          simp only [hrest] at h
          by_cases hrefused : code_refused (j + 1) codepoint = true
          · rw [if_pos hrefused] at h
            cases h
          · rw [if_neg hrefused] at h
            obtain rfl := Option.some.inj h
            exact ⟨j, bits, codepoint, rfl, hrest, Bool.not_eq_true _ ▸ hrefused⟩
  · rintro ⟨j, bits, codepoint, hstart, hrest, hrefused⟩
    have hlength := code_rest_length hrest
    simp only [hstart, Nat.add_sub_cancel, hrest, hrefused]
    rw [if_neg (by omega)]
    rfl

/-- A character that is permitted is read as a whole, whatever comes behind it. -/
theorem validate_code_encoded {character : Char} (h : Permitted character) (rest : Text) :
    ∃ c ustr, String.utf8EncodeChar character ++ rest = c :: ustr ∧
      validate_code c ustr = some rest := by
  obtain ⟨hcontrol, hdelete, hnoncharacter, hlast, hbeforeLast⟩ := h
  have hvalid : character.toNat < 0xD800 ∨ 0xDFFF < character.toNat ∧ character.toNat < 0x110000 :=
    character.valid
  generalize hv : character.toNat = v at *
  have hval : character.val.toNat = v := hv
  have htoNat {n : Nat} (hn : n < 256) : (UInt8.ofNat n).toNat = n := UInt8.toNat_ofNat_of_lt' hn
  rw [String.utf8EncodeChar]
  simp only [hval, validate_code_eq_some_iff, code_start_eq, code_refused_eq_false_iff]
  by_cases hone : v ≤ 0x7f
  · refine ⟨_, rest, by rw [if_pos hone]; rfl, 0, v, v, ?_, rfl, by omega⟩
    rw [htoNat (by omega), if_neg (by omega), if_pos (by omega)]
  by_cases htwo : v ≤ 0x7ff
  · refine ⟨_, _ :: rest, by rw [if_neg hone, if_pos htwo]; rfl, 1, v / 64 % 0x20, v, ?_, ?_,
      by omega⟩
    · rw [htoNat (by omega), if_neg (by omega), if_neg (by omega), if_neg (by omega),
        if_pos (by omega), Nat.add_sub_cancel]
    · have hcode : v / 64 % 0x20 * 64 + v % 0x40 = v := by omega
      rw [code_rest_encoded, hcode, code_rest]
  by_cases hthree : v ≤ 0xffff
  · refine ⟨_, _ :: _ :: rest, by rw [if_neg hone, if_neg htwo, if_pos hthree]; rfl, 2,
      v / 4096 % 0x10, v, ?_, ?_, by omega⟩
    · rw [htoNat (by omega), if_neg (by omega), if_neg (by omega), if_neg (by omega),
        if_neg (by omega), if_pos (by omega), Nat.add_sub_cancel]
    · have hcode : (v / 4096 % 0x10 * 64 + v / 64 % 0x40) * 64 + v % 0x40 = v := by omega
      rw [code_rest_encoded, code_rest_encoded, hcode, code_rest]
  · refine ⟨_, _ :: _ :: _ :: rest, by rw [if_neg hone, if_neg htwo, if_neg hthree]; rfl, 3,
      v / 262144 % 0x08, v, ?_, ?_, by omega⟩
    · rw [htoNat (by omega), if_neg (by omega), if_neg (by omega), if_neg (by omega),
        if_neg (by omega), if_neg (by omega), if_pos (by omega), Nat.add_sub_cancel]
    · have hcode : ((v / 262144 % 0x08 * 64 + v / 4096 % 0x40) * 64 + v / 64 % 0x40) * 64 +
          v % 0x40 = v := by
        omega
      rw [code_rest_encoded, code_rest_encoded, code_rest_encoded, hcode, code_rest]

/-- A byte is known by its value. -/
theorem byte_eq_ofNat {c : UInt8} {n : Nat} (h : c.toNat = n) : c = UInt8.ofNat n := by
  rw [← h, UInt8.ofNat_toNat]

/-- What is read is the encoding of a character that is permitted, in its shortest form. Nothing is
assumed of what comes behind it. -/
theorem encoded_of_validate_code {c : UInt8} {ustr rest : Text}
    (h : validate_code c ustr = some rest) :
    ∃ character, Permitted character ∧ c :: ustr = String.utf8EncodeChar character ++ rest := by
  obtain ⟨j, bits, v, hstart, hrest, hrefused⟩ := validate_code_eq_some_iff.mp h
  obtain ⟨hsurrogate, hlong, hlonger, hnoncharacter, hlast, hbeforeLast, hcontrol, hdelete⟩ :=
    (code_refused_eq_false_iff _ _).mp hrefused
  -- the bytes as those of a character with the code point that was read
  have hread (hlt : v < 0x110000) (hbytes : ∀ character : Char, character.val.toNat = v →
      c :: ustr = String.utf8EncodeChar character ++ rest) :
      ∃ character, Permitted character ∧ c :: ustr = String.utf8EncodeChar character ++ rest := by
    have hvalid : v.isValidChar := by
      rw [Nat.isValidChar]
      omega
    have htoNat : (Char.ofNat v).toNat = v := by
      rw [Char.ofNat, dif_pos hvalid]
      rfl
    refine ⟨Char.ofNat v, ?_, hbytes _ htoNat⟩
    rw [Permitted, htoNat]
    omega
  rw [code_start_eq] at hstart
  have hbyte := UInt8.toNat_lt c
  obtain ⟨rfl, hc, rfl⟩ | ⟨rfl, hc, hbits⟩ | ⟨rfl, hc, hbits⟩ | ⟨rfl, hc, hbits⟩ :
      (j = 0 ∧ c.toNat < 0x80 ∧ bits = c.toNat) ∨
        (j = 1 ∧ (0xC2 ≤ c.toNat ∧ c.toNat < 0xE0) ∧ bits = c.toNat - 0xC0) ∨
        (j = 2 ∧ (0xE0 ≤ c.toNat ∧ c.toNat < 0xF0) ∧ bits = c.toNat - 0xE0) ∨
        (j = 3 ∧ (0xF0 ≤ c.toNat ∧ c.toNat < 0xF5) ∧ bits = c.toNat - 0xF0) := by
    grind
  · obtain ⟨rfl, rfl⟩ := Prod.mk.inj (Option.some.inj hrest)
    refine hread (by omega) fun character hval => ?_
    rw [String.utf8EncodeChar]
    simp only [hval]
    rw [if_pos (by omega), UInt8.ofNat_toNat]
    rfl
  · obtain ⟨c₁, tail, rfl, hc₁, hrest⟩ := code_rest_succ_eq_some hrest
    obtain ⟨rfl, rfl⟩ := Prod.mk.inj (Option.some.inj hrest)
    refine hread (by omega) fun character hval => ?_
    rw [String.utf8EncodeChar]
    simp only [hval]
    rw [if_neg (by omega), if_pos (by omega), ← byte_eq_ofNat (c := c) (by omega),
      ← byte_eq_ofNat (c := c₁) (by omega)]
    rfl
  · obtain ⟨c₁, tail, rfl, hc₁, hrest⟩ := code_rest_succ_eq_some hrest
    obtain ⟨c₂, tail, rfl, hc₂, hrest⟩ := code_rest_succ_eq_some hrest
    obtain ⟨rfl, rfl⟩ := Prod.mk.inj (Option.some.inj hrest)
    refine hread (by omega) fun character hval => ?_
    rw [String.utf8EncodeChar]
    simp only [hval]
    rw [if_neg (by omega), if_neg (by omega), if_pos (by omega), ← byte_eq_ofNat (c := c) (by omega),
      ← byte_eq_ofNat (c := c₁) (by omega), ← byte_eq_ofNat (c := c₂) (by omega)]
    rfl
  · obtain ⟨c₁, tail, rfl, hc₁, hrest⟩ := code_rest_succ_eq_some hrest
    obtain ⟨c₂, tail, rfl, hc₂, hrest⟩ := code_rest_succ_eq_some hrest
    obtain ⟨c₃, tail, rfl, hc₃, hrest⟩ := code_rest_succ_eq_some hrest
    obtain ⟨rfl, rfl⟩ := Prod.mk.inj (Option.some.inj hrest)
    refine hread (by omega) fun character hval => ?_
    rw [String.utf8EncodeChar]
    simp only [hval]
    rw [if_neg (by omega), if_neg (by omega), if_neg (by omega), ← byte_eq_ofNat (c := c) (by omega),
      ← byte_eq_ofNat (c := c₁) (by omega), ← byte_eq_ofNat (c := c₂) (by omega),
      ← byte_eq_ofNat (c := c₃) (by omega)]
    rfl

/-- A character leaves a text that is not longer. -/
theorem validate_code_length {c : UInt8} {ustr rest : Text} (h : validate_code c ustr = some rest) :
    rest.length ≤ ustr.length := by
  obtain ⟨j, bits, codepoint, -, hrest, -⟩ := validate_code_eq_some_iff.mp h
  rw [code_rest_length hrest]
  omega

/-- The texts that are let through: encoded characters that are all permitted. -/
def PermittedText (text : Text) : Prop :=
  ∃ characters : List Char, (∀ character ∈ characters, Permitted character) ∧
    text = characters.flatMap String.utf8EncodeChar

/-- A text is permitted if it begins with a permitted character and the rest is permitted. This is
what the loop checks in one round. -/
theorem permittedText_cons_iff (c : UInt8) (ustr : Text) :
    PermittedText (c :: ustr) ↔ ∃ rest, validate_code c ustr = some rest ∧ PermittedText rest := by
  constructor
  · rintro ⟨characters, hpermitted, htext⟩
    cases characters with
    | nil => cases htext
    | cons character characters =>
      obtain ⟨d, tail, heq, hread⟩ := validate_code_encoded
        (hpermitted character List.mem_cons_self) (characters.flatMap String.utf8EncodeChar)
      rw [List.flatMap_cons, heq] at htext
      obtain ⟨rfl, rfl⟩ := List.cons.inj htext
      exact ⟨_, hread, characters, fun other hmem => hpermitted other (List.mem_cons_of_mem _ hmem), rfl⟩
  · rintro ⟨rest, hread, characters, hpermitted, rfl⟩
    obtain ⟨character, hcharacter, heq⟩ := encoded_of_validate_code hread
    exact ⟨character :: characters, List.forall_mem_cons.mpr ⟨hcharacter, hpermitted⟩, heq⟩

/-- The loop accepts exactly the permitted texts, as long as it has one round for every byte. -/
theorem validate_utf8_loop_iff (n : Nat) (text : Text) (h : text.length ≤ n) :
    validate_utf8_loop n text = .MOSQ_ERR_SUCCESS ↔ PermittedText text := by
  induction n generalizing text with
  | zero =>
    obtain rfl := List.length_eq_zero_iff.mp (Nat.le_zero.mp h)
    exact ⟨fun _ => ⟨[], by simp, rfl⟩, fun _ => rfl⟩
  | succ n ih =>
    cases text with
    | nil => exact ⟨fun _ => ⟨[], by simp, rfl⟩, fun _ => rfl⟩
    | cons c ustr =>
      rw [permittedText_cons_iff, validate_utf8_loop]
      cases hread : validate_code c ustr with
      | none => simp
      | some rest =>
        have hlength := validate_code_length hread
        rw [List.length_cons] at h
        simp only [ih rest (by omega), Option.some.injEq, exists_eq_left']

/-- A text is accepted exactly when it is the encoding of characters that are permitted, and not
too long. Nothing is assumed of the bytes but that a NUL stands behind them, as it does for all
callers, so that a character that is cut off at the end is refused. -/
theorem mosquitto_validate_utf8_iff (str : Text) : mosquitto_validate_utf8 str = .MOSQ_ERR_SUCCESS ↔
    str.length ≤ 65536 ∧ PermittedText str := by
  rw [mosquitto_validate_utf8]
  by_cases hlength : str.length > 65536
  · rw [if_pos hlength]
    simp [hlength]
  · rw [if_neg hlength, validate_utf8_loop_iff _ _ le_rfl]
    exact ⟨fun h => ⟨by omega, h⟩, And.right⟩

end communication_center.mosquitto
