import CommunicationCenter.MqttBroker.Decoding
import CommunicationCenter.Libc.Digits

open libc communication_center.system_state

namespace communication_center.mqtt_broker

/-- The bytes of the message that are copied into the buffer. -/
def copied (data : List UInt8) : List UInt8 :=
  data.take (copy_len data.length)

theorem payload_text_eq (data : List UInt8) : payload_text data = cstr (copied data) := rfl

theorem copy_len_eq_min (len : Nat) : copy_len len = min (len % 256) 95 := by
  unfold copy_len
  split <;> omega

/-- The narrowed length is the length itself, or not below the bound either. -/
theorem copy_len_eq_iff (len : Nat) : copy_len len = min len 95 ↔ len < 256 ∨ 95 ≤ len % 256 := by
  rw [copy_len_eq_min]
  omega

/-- The copy never reads behind the end of the message. -/
theorem copy_len_le (len : Nat) : copy_len len ≤ min len 95 := by
  rw [copy_len_eq_min]
  omega

theorem copied_eq_iff (data : List UInt8) :
    copied data = data.take (min data.length 95) ↔
      data.length < 256 ∨ 95 ≤ data.length % 256 := by
  rw [← copy_len_eq_iff]
  constructor
  · intro heq
    have hlength := congrArg List.length heq
    have hle := copy_len_le data.length
    rw [copied, List.length_take, List.length_take] at hlength
    omega
  · intro heq
    rw [copied, heq]

/-- Messages of the two lengths that agree on their first 95 bytes have the same
effect, for every topic and in every state. -/
def SameEffect (F : Type) [CFloat F] (len other : Nat) : Prop :=
  ∀ data data' : List UInt8, data.length = len → data'.length = other →
    data.take 95 = data'.take 95 → ∀ (topic : Text) (now_ms : Int) (s : State F),
      mqtt_message_cb topic data now_ms s = mqtt_message_cb topic data' now_ms s

theorem mqtt_message_cb_congr {F : Type} [CFloat F] {data data' : List UInt8}
    (h : payload_text data = payload_text data') (topic : Text) (now_ms : Int) (s : State F) :
    mqtt_message_cb topic data now_ms s = mqtt_message_cb topic data' now_ms s := by
  unfold mqtt_message_cb
  rw [h]

theorem sameEffect_of_copy_len {F : Type} [CFloat F] {len other : Nat}
    (h : copy_len len = copy_len other) : SameEffect F len other := by
  rintro data data' rfl rfl hsame
  apply mqtt_message_cb_congr
  have hbound : copy_len data.length ≤ 95 := (copy_len_le _).trans (Nat.min_le_right _ _)
  have hcopied : data.take (copy_len data.length) = data'.take (copy_len data.length) := by
    have hcut := congrArg (List.take (copy_len data.length)) hsame
    rwa [List.take_take, List.take_take, Nat.min_eq_left hbound] at hcut
  rw [payload_text_eq, payload_text_eq, copied, copied, hcopied, h]

/-- A wind speed that a cut behind its zeros takes for zero. -/
def late_digit (zeros len : Nat) : List UInt8 :=
  List.replicate zeros 48 ++ 49 :: List.replicate (len - zeros - 1) 32

theorem late_digit_length {zeros len : Nat} (h : zeros < len) : (late_digit zeros len).length = len := by
  simp only [late_digit, List.length_append, List.length_cons, List.length_replicate]
  omega

theorem late_digit_take {zeros len k : Nat} (hk : k ≤ len) :
    (late_digit zeros len).take k =
      if k ≤ zeros then List.replicate k 48 else late_digit zeros k := by
  split
  · next hcut =>
    rw [late_digit, List.take_append_of_le_length (by simpa using hcut), List.take_replicate,
      Nat.min_eq_left hcut]
  · next hlate =>
    obtain ⟨more, rfl⟩ : ∃ more, k = zeros + 1 + more := ⟨k - zeros - 1, by omega⟩
    have hbehind : zeros + 1 + more - zeros = more + 1 := by omega
    have hroom : min (zeros + 1 + more - zeros - 1) (len - zeros - 1) = zeros + 1 + more - zeros - 1 := by
      omega
    rw [late_digit, late_digit, List.take_append, List.length_replicate, List.take_replicate,
      Nat.min_eq_right (by omega), hbehind, List.take_succ_cons, List.take_replicate]
    simp only [hbehind, Nat.add_sub_cancel] at hroom ⊢
    rw [hroom]

theorem isdigit_zeros (zeros : Nat) : ∀ c ∈ List.replicate zeros (48 : UInt8), isdigit c = true := by
  intro c hc
  rw [List.eq_of_mem_replicate hc]
  decide

theorem strtod_late_digit (zeros len : Nat) : strtod (late_digit zeros len) = .finite false 1 := by
  have hdigits : ∀ c ∈ List.replicate zeros 48 ++ [49], isdigit c = true := by
    intro c hc
    rcases List.mem_append.mp hc with hzero | hone
    · exact isdigit_zeros zeros c hzero
    · rw [List.mem_singleton.mp hone]
      decide
  have hends : EndsLiteral (List.replicate (len - zeros - 1) 32) := by
    intro c hc
    rw [List.eq_of_mem_replicate (List.mem_of_mem_head? hc)]
    decide
  have hvalue : digits_value (List.replicate zeros 48 ++ [49]) = 1 := by
    rw [digits_value_append, digits_value_zeros]
    rfl
  have hread := strtod_digits hdigits (by simp) hends
  rw [hvalue, Nat.cast_one, List.append_assoc, List.singleton_append] at hread
  exact hread

/-- The zeros in front of the digit are read as zero, also when there are none. -/
theorem strtod_zeros (zeros : Nat) : strtod (List.replicate zeros 48) = .finite false 0 := by
  cases zeros with
  | zero => decide +kernel
  | succ zeros =>
    have hends : EndsLiteral [] := by simp [EndsLiteral]
    have hread := strtod_digits (isdigit_zeros (zeros + 1)) (by simp) hends
    rwa [digits_value_zeros, List.append_nil, Nat.cast_zero] at hread

theorem zero_notMem_zeros (zeros : Nat) : (0 : UInt8) ∉ List.replicate zeros (48 : UInt8) := by
  intro hzero
  exact absurd (List.eq_of_mem_replicate hzero) (by decide)

theorem zero_notMem_late_digit (zeros len : Nat) : (0 : UInt8) ∉ late_digit zeros len := by
  intro hzero
  rcases List.mem_append.mp hzero with hzero | hzero
  · exact zero_notMem_zeros zeros hzero
  · rcases List.mem_cons.mp hzero with hone | hblank
    · exact absurd hone (by decide)
    · exact absurd (List.eq_of_mem_replicate hblank) (by decide)

/-- The wind speed is zero when the copy stops in front of the digit. -/
theorem strtod_payload_late_digit {zeros len : Nat} (h : zeros < len) :
    strtod (payload_text (late_digit zeros len)) =
      .finite false (if copy_len len ≤ zeros then 0 else 1) := by
  have hcut : copy_len len ≤ len := (copy_len_le len).trans (Nat.min_le_left _ _)
  rw [payload_text_eq, copied, late_digit_length h, late_digit_take hcut]
  split
  · rw [cstr_eq_self (zero_notMem_zeros _), strtod_zeros]
  · rw [cstr_eq_self (zero_notMem_late_digit _ _), strtod_late_digit]

private theorem not_sameEffect {len other : Nat} (hlen : 95 ≤ len) (hother : 95 ≤ other)
    (h : copy_len len < copy_len other) :
    ∃ data data' : List UInt8, data.length = len ∧ data'.length = other ∧
      data.take 95 = data'.take 95 ∧
      mqtt_message_cb (ascii "ESP32/wind") data 0 (State.initial : State Binary32) ≠
        mqtt_message_cb (ascii "ESP32/wind") data' 0 State.initial := by
  have hbound : copy_len other ≤ 95 := (copy_len_le other).trans (Nat.min_le_right _ _)
  have hzeros : copy_len len < len := by omega
  have hzeros' : copy_len len < other := by omega
  refine ⟨late_digit (copy_len len) len, late_digit (copy_len len) other, late_digit_length hzeros,
    late_digit_length hzeros', ?_, ?_⟩
  · rw [late_digit_take hlen, late_digit_take hother]
  · intro heq
    have hwind := congrArg (fun s => s.wind.value) heq
    simp only [mqtt_message_cb_wind, strtod_payload_late_digit hzeros,
      strtod_payload_late_digit hzeros', if_pos (Nat.le_refl _), if_neg (Nat.not_le.mpr h)] at hwind
    exact absurd hwind (by decide +kernel)

theorem sameEffect_iff {len other : Nat} (hlen : 95 ≤ len) (hother : 95 ≤ other) :
    SameEffect Binary32 len other ↔ copy_len len = copy_len other := by
  constructor
  · intro hsame
    rcases Nat.lt_trichotomy (copy_len len) (copy_len other) with hlt | heq | hgt
    · obtain ⟨data, data', hdata, hdata', htake, hne⟩ := not_sameEffect hlen hother hlt
      exact absurd (hsame data data' hdata hdata' htake _ _ _) hne
    · exact heq
    · obtain ⟨data, data', hdata, hdata', htake, hne⟩ := not_sameEffect hother hlen hgt
      exact absurd (hsame data' data hdata' hdata htake.symm _ _ _).symm hne
  · exact sameEffect_of_copy_len

/-- For which lengths the parsed text is that of the first 95 bytes, for all messages of the
length: the length is kept in a byte. -/
theorem payload_text_eq_iff (len : Nat) :
    (∀ data : List UInt8, data.length = len → payload_text data = cstr (data.take (min len 95))) ↔
      len < 256 ∨ 95 ≤ len % 256 := by
  rw [← copy_len_eq_iff]
  constructor
  · intro h
    have hcopied := congrArg List.length (h (List.replicate len 48) List.length_replicate)
    rw [payload_text_eq, copied, List.length_replicate, List.take_replicate, List.take_replicate,
      cstr_eq_self (zero_notMem_zeros _), cstr_eq_self (zero_notMem_zeros _), List.length_replicate,
      List.length_replicate] at hcopied
    have hle := copy_len_le len
    omega
  · rintro h data rfl
    rw [payload_text_eq, copied, h]

/-- The copy stays inside the message and the buffer, and it is the first 95 bytes for the lengths
that the narrowing to eight bits leaves alone or leaves long enough. Two long messages have the
same effect when as much of both is copied. The data may be any bytes, of any length. -/
theorem mqtt_message_cb_copies (data : List UInt8) (len other : Nat) :
    (payload_text data = cstr (copied data) ∧ copied data <+: data ∧
      (copied data).length ≤ min data.length 95) ∧
    (copied data = data.take (min data.length 95) ↔ data.length < 256 ∨ 95 ≤ data.length % 256) ∧
    ((∀ message : List UInt8, message.length = data.length →
      payload_text message = cstr (message.take (min data.length 95))) ↔
        data.length < 256 ∨ 95 ≤ data.length % 256) ∧
    (95 ≤ len → 95 ≤ other →
      (SameEffect Binary32 len other ↔ min (len % 256) 95 = min (other % 256) 95)) := by
  refine ⟨⟨rfl, List.take_prefix _ _, ?_⟩, copied_eq_iff data, payload_text_eq_iff _, ?_⟩
  · rw [copied, List.length_take]
    exact (Nat.min_le_left _ _).trans (copy_len_le _)
  · intro hlen hother
    rw [sameEffect_iff hlen hother, copy_len_eq_min, copy_len_eq_min]

theorem mqtt_message_cb_copies_351_607 :
    copied (ascii "12.5") = (ascii "12.5").take (min (ascii "12.5").length 95) ∧
      SameEffect Binary32 351 607 := by
  have h := mqtt_message_cb_copies (ascii "12.5") 351 607
  exact ⟨h.2.1.mpr (by decide), (h.2.2.2 (by decide) (by decide)).mpr (by decide)⟩

/-- A wind speed behind blanks, in a message of 256 bytes. -/
def long_message : List UInt8 :=
  ascii "12.5" ++ List.replicate 252 32

/-- The message is read as an empty one, and zero is stored as a fresh reading. -/
theorem long_message_parsed_empty :
    long_message.length = 256 ∧ payload_text long_message = [] ∧
      payload_text (long_message.take 255) = long_message.take 95 ∧
      (mqtt_message_cb (ascii "ESP32/wind") long_message 0 (State.initial : State Binary32)).wind =
        { value := .finite false 0, available := true, stamp := 0 } ∧
      (mqtt_message_cb (ascii "ESP32/wind") (long_message.take 255) 0
        (State.initial : State Binary32)).wind =
        { value := .finite false (25 / 2), available := true, stamp := 0 } ∧
      ¬ ∀ len other : Nat, 95 ≤ len → 95 ≤ other → SameEffect Binary32 len other := by
  have hlength : long_message.length = 256 := by
    rw [long_message, List.length_append, List.length_replicate]
    rfl
  have hempty : payload_text long_message = [] := by
    rw [payload_text_eq, copied, hlength]
    rfl
  refine ⟨hlength, hempty, by decide +kernel, ?_, by decide +kernel, fun hall => ?_⟩
  · rw [mqtt_message_cb_wind, hempty]
    decide +kernel
  · have hsame := hall 256 255 (by decide) (by decide)
    rw [sameEffect_iff (by decide) (by decide)] at hsame
    exact absurd hsame (by decide)

end communication_center.mqtt_broker
