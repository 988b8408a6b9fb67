import CommunicationCenter.HttpServer.SensorsDocument
import CommunicationCenter.Json.CutNumber
import CommunicationCenter.Libc.Digits
import Mathlib.Data.Nat.Cast.Order.Field

open libc communication_center.system_state

namespace communication_center.http_server

/-- What a document has to say about a reading: the number rounded to the decimals
that are printed, or two dashes. -/
def ShowsReading (available : Bool) (decimals : Nat) (reading : Binary32) (shown : json.Json) : Prop :=
  if available then ∃ negative magnitude, reading = .finite negative magnitude ∧
    shown = .number (signed negative (round_half_even (magnitude * 10 ^ decimals) / 10 ^ decimals))
  else shown = .string (ascii "--")

def ShowsAirQuality (available : Bool) (aq : UInt8) (shown : json.Json) : Prop :=
  shown = if available then .number aq.toNat else .string (ascii "--")

/-- Counted in units of the last decimal, the magnitude is so small that all its
digits fit into 15 bytes with the sign and the point. It may have as many more
digits as it has zeros at the end, as long as one decimal is printed, and it may
fill all the bytes with its integer part when it has no other digits than these. -/
def Fits (negative : Bool) (decimals scaled : Nat) : Prop :=
  let room := 15 - (minus negative).length
  (∃ cut < decimals, 10 ^ cut ∣ scaled ∧ scaled < 10 ^ (room - 1 + cut)) ∨
    (10 ^ decimals ∣ scaled ∧ 10 ^ (room - 1 + decimals) ≤ scaled ∧ scaled < 10 ^ (room + decimals))

/-- The reading is finite, and it fits. -/
def Printable (decimals : Nat) : Binary32 → Prop
  | .finite negative magnitude => Fits negative decimals (round_half_even (magnitude * 10 ^ decimals))
  | _ => False

theorem reads_nan : json.Reads (ascii "nan") none := by
  intro fuel rest hfuel _
  obtain ⟨fuel, rfl⟩ := Nat.exists_eq_add_one_of_ne_zero (Nat.ne_zero_of_lt hfuel)
  rfl

theorem reads_infinite (negative : Bool) : json.Reads (minus negative ++ ascii "inf") none := by
  intro fuel rest hfuel _
  obtain ⟨fuel, rfl⟩ := Nat.exists_eq_add_one_of_ne_zero (Nat.ne_zero_of_lt hfuel)
  have hnumber : json.number (minus negative ++ ascii "inf" ++ rest) = none := by
    rw [List.append_assoc]
    exact json.number_of_letter negative (by decide) (by decide) _
  obtain ⟨c, behind, htext, hopen⟩ : ∃ c behind, minus negative ++ ascii "inf" ++ rest = c :: behind ∧
      json.opens_other c = false := by
    cases negative with
    | true => exact ⟨_, _, rfl, by decide⟩
    | false => exact ⟨_, _, rfl, by decide⟩
  rw [htext] at hnumber ⊢
  rw [json.value_number hopen, hnumber]
  rfl

theorem signed_inj {negative : Bool} {p q : ℚ} : signed negative p = signed negative q ↔ p = q := by
  cases negative with
  | true => exact neg_inj
  | false => exact Iff.rfl

/-- Decimals are cut off without a loss exactly if they are zeros. The number of digits before the
point does not matter. -/
theorem cut_eq_iff {cut decimals scaled : Nat} (h : cut ≤ decimals) :
    ((scaled / 10 ^ cut : ℕ) : ℚ) / 10 ^ (decimals - cut) = scaled / 10 ^ decimals ↔
      10 ^ cut ∣ scaled := by
  have hpow : (10 : ℚ) ^ decimals = 10 ^ cut * 10 ^ (decimals - cut) := by
    rw [← pow_add, Nat.add_sub_cancel' h]
  rw [hpow, div_mul_eq_div_div, div_left_inj' (by positivity), eq_div_iff (by positivity)]
  norm_cast
  exact (Nat.dvd_iff_div_mul_eq _ _).symm

section Width

variable {negative : Bool} {decimals scaled : Nat}

/-- A number has as many digits as its whole part and the decimals. -/
theorem scaled_lt (decimals scaled : Nat) :
    scaled < 10 ^ ((decimal (scaled / 10 ^ decimals)).length + decimals) := by
  have hlength : 0 < (decimal (scaled / 10 ^ decimals)).length :=
    List.length_pos_of_ne_nil (decimal_ne_nil _)
  have hwhole := (decimal_length_le_iff hlength).mp (Nat.le_refl _)
  rw [pow_add]
  exact (Nat.div_lt_iff_lt_mul (by positivity)).mp hwhole

/-- And it is at least as large as the smallest one with so many. -/
theorem le_scaled (h : 1 < (decimal (scaled / 10 ^ decimals)).length) :
    10 ^ ((decimal (scaled / 10 ^ decimals)).length - 1 + decimals) ≤ scaled := by
  have hwhole : 10 ^ ((decimal (scaled / 10 ^ decimals)).length - 1) ≤ scaled / 10 ^ decimals := by
    by_contra hnot
    have hlength := (decimal_length_le_iff (by omega)).mpr (Nat.lt_of_not_le hnot)
    omega
  rw [pow_add]
  exact (Nat.le_div_iff_mul_le (by positivity)).mp hwhole

/-- A number between two powers of ten tells which one is smaller. -/
theorem exponent_lt {a b : Nat} (hle : 10 ^ a ≤ scaled) (hlt : scaled < 10 ^ b) : a < b :=
  (Nat.pow_lt_pow_iff_right (by decide)).mp (hle.trans_lt hlt)

/-- The sign is at most one character. -/
theorem minus_length_le (negative : Bool) : (minus negative).length ≤ 1 := by
  cases negative with
  | true => exact Nat.le_refl 1
  | false => exact Nat.zero_le 1

/-- A number whose fraction is cut off is shown right if the digits that are cut are zeros. -/
theorem fits_iff_of_fraction (hpositive : 0 < decimals) (hfew : decimals ≤ 12)
    (hwidth : (minus negative).length + (decimal (scaled / 10 ^ decimals)).length + 1 < 15) :
    Fits negative decimals scaled ↔ 10 ^ (decimals -
      (15 - ((minus negative).length + (decimal (scaled / 10 ^ decimals)).length + 1))) ∣ scaled := by
  have hminus := minus_length_le negative
  have hupper := scaled_lt decimals scaled
  have hlower := @le_scaled decimals scaled
  generalize (decimal (scaled / 10 ^ decimals)).length = len at *
  constructor
  · rintro (⟨cut, hcut, hdvd, hlt⟩ | ⟨hdvd, _, _⟩)
    · by_cases hall : decimals ≤ 15 - ((minus negative).length + len + 1)
      · rw [Nat.sub_eq_zero_of_le hall]
        exact one_dvd _
      · have hexponent := exponent_lt (hlower (by omega)) hlt
        exact (pow_dvd_pow 10 (by omega)).trans hdvd
    · exact (pow_dvd_pow 10 (Nat.sub_le _ _)).trans hdvd
  · intro hdvd
    refine Or.inl ⟨_, by omega, hdvd, hupper.trans_le ?_⟩
    exact Nat.pow_le_pow_right (by decide) (by omega)

/-- A number that is cut directly behind its point is no number in JSON, since a digit has to
follow there. -/
theorem not_fits_of_point
    (hwidth : 15 = (minus negative).length + (decimal (scaled / 10 ^ decimals)).length + 1) :
    ¬Fits negative decimals scaled := by
  have hminus := minus_length_le negative
  have hupper := scaled_lt decimals scaled
  have hlower := @le_scaled decimals scaled
  generalize (decimal (scaled / 10 ^ decimals)).length = len at *
  rintro (⟨cut, hcut, _, hlt⟩ | ⟨_, hle, _⟩)
  · have hexponent := exponent_lt (hlower (by omega)) hlt
    omega
  · have hexponent := exponent_lt hle hupper
    omega

/-- One that fills the buffer with its whole part is shown right if that just fits and the fraction
is zero. -/
theorem fits_iff_of_digits
    (hwidth : 15 ≤ (minus negative).length + (decimal (scaled / 10 ^ decimals)).length) :
    Fits negative decimals scaled ↔
      15 = (minus negative).length + (decimal (scaled / 10 ^ decimals)).length ∧
        10 ^ decimals ∣ scaled := by
  have hminus := minus_length_le negative
  have hupper := scaled_lt decimals scaled
  have hlower := @le_scaled decimals scaled
  generalize (decimal (scaled / 10 ^ decimals)).length = len at *
  have hlast := hlower (by omega)
  constructor
  · rintro (⟨cut, hcut, _, hlt⟩ | ⟨hdvd, _, hlt⟩)
    · have hexponent := exponent_lt hlast hlt
      omega
    · have hexponent := exponent_lt hlast hlt
      exact ⟨by omega, hdvd⟩
  · rintro ⟨hexact, hdvd⟩
    refine Or.inr ⟨hdvd, le_trans (Nat.pow_le_pow_right (by decide) (by omega)) hlast,
      hupper.trans_le (Nat.pow_le_pow_right (by decide) (by omega))⟩

end Width

/-- The text can be read, and what is read shows the reading under this condition. -/
def ShownWhen (text : Text) (shows : json.Json → Prop) (condition : Prop) : Prop :=
  json.Readable text ∧ ((∃ shown, json.parse text = some shown ∧ shows shown) ↔ condition)

/-- A text that can be read inside an object is shown when what it is read as is right. -/
theorem ShownWhen.of_reads {text : Text} {result : Option json.Json} {shows : json.Json → Prop}
    {condition : Prop} (h : json.Reads text result)
    (hiff : (∃ shown, result = some shown ∧ shows shown) ↔ condition) :
    ShownWhen text shows condition := by
  refine ⟨h.readable, ?_⟩
  rw [h.parse]
  exact hiff

/-- Cutting off digits of the integer part changes the number, unless nothing is cut of it and its
fraction is zero. -/
theorem cut_digits_eq_iff {room decimals scaled : Nat} (hpositive : 0 < room)
    (h : room ≤ (decimal (scaled / 10 ^ decimals)).length) :
    ((digits_value ((decimal (scaled / 10 ^ decimals)).take room) : ℕ) : ℚ) =
        scaled / 10 ^ decimals ↔
      room = (decimal (scaled / 10 ^ decimals)).length ∧ 10 ^ decimals ∣ scaled := by
  rcases h.eq_or_lt with hexact | hlonger
  · rw [hexact, List.take_length, digits_value_decimal]
    have hall := @cut_eq_iff decimals decimals scaled (Nat.le_refl decimals)
    rw [Nat.sub_self, pow_zero, div_one] at hall
    simp [hall]
  · have htake := digits_value_take (fun c hc => isdigit_of_mem_decimal hc :
      ∀ c ∈ decimal (scaled / 10 ^ decimals), _)
      (Nat.sub_le (decimal (scaled / 10 ^ decimals)).length room)
    rw [Nat.sub_sub_self h, digits_value_decimal] at htake
    have hwhole : 10 ^ 1 ≤ scaled / 10 ^ decimals := by
      by_contra hnot
      have hlength := (decimal_length_le_iff (by decide)).mpr (Nat.lt_of_not_le hnot)
      omega
    have hcut : 1 < 10 ^ ((decimal (scaled / 10 ^ decimals)).length - room) :=
      Nat.one_lt_pow (by omega) (by decide)
    have hless := Nat.div_lt_self (Nat.zero_lt_of_lt hwhole) hcut
    have hbound : ((scaled / 10 ^ decimals : ℕ) : ℚ) ≤ scaled / 10 ^ decimals := by
      exact_mod_cast Nat.cast_div_le (α := ℚ)
    rw [htake]
    constructor
    · intro heq
      rw [← heq] at hbound
      exact absurd (Nat.cast_le.mp hbound) (Nat.not_le_of_lt hless)
    · rintro ⟨hexact, _⟩
      omega

/-- A number shows a reading if it is the reading rounded to the decimals, half to even. -/
theorem shows_number_iff {negative : Bool} {decimals : Nat} {magnitude number : ℚ} :
    (∃ shown, some (json.Json.number (signed negative number)) = some shown ∧
      ShowsReading true decimals (.finite negative magnitude) shown) ↔
        number = round_half_even (magnitude * 10 ^ decimals) / 10 ^ decimals := by
  constructor
  · rintro ⟨shown, hread, negative, magnitude, heq, rfl⟩
    cases heq
    exact signed_inj.mp (json.Json.number.inj (Option.some.inj hread))
  · rintro rfl
    exact ⟨_, rfl, negative, magnitude, rfl, rfl⟩

/-- A finite reading is shown exactly when it can be printed in the fifteen characters of the
buffer. -/
theorem finite_shown_when {decimals : Nat} (hpositive : 0 < decimals) (hfew : decimals ≤ 12)
    (negative : Bool) (magnitude : ℚ) :
    ShownWhen (snprintf 16 (Binary32.fixed decimals (.finite negative magnitude)))
      (ShowsReading true decimals (.finite negative magnitude))
      (Printable decimals (.finite negative magnitude)) := by
  have hshows := @shows_number_iff negative decimals magnitude
  rw [fixed_finite hpositive, Printable, snprintf]
  generalize round_half_even (magnitude * 10 ^ decimals) = scaled at *
  have hmod : scaled % 10 ^ decimals < 10 ^ decimals := Nat.mod_lt _ (by positivity)
  have hlength := padded_length hpositive hmod
  have hdigits : ∀ c ∈ padded decimals (scaled % 10 ^ decimals), isdigit c = true :=
    fun c hc => isdigit_of_mem_padded hc
  have hcanonical := json.canonical_decimal (scaled / 10 ^ decimals)
  have hminus := minus_length_le negative
  rcases Nat.lt_trichotomy
    ((minus negative).length + (decimal (scaled / 10 ^ decimals)).length + 1) 15 with
    hwidth | hwidth | hwidth
  · -- Decimals are printed, perhaps not all of them.
    have hne : padded decimals (scaled % 10 ^ decimals) ≠ [] := by
      rw [← List.length_pos_iff, hlength]
      exact hpositive
    obtain ⟨hvalue, hkept⟩ := digits_value_take_fixed hpositive scaled
      (15 - ((minus negative).length + (decimal (scaled / 10 ^ decimals)).length + 1))
    apply ShownWhen.of_reads (json.reads_cut_fraction negative hcanonical hne hdigits hwidth)
    rw [hshows, hvalue, hkept, cut_eq_iff (Nat.sub_le _ _), fits_iff_of_fraction hpositive hfew hwidth]
  · -- The buffer ends with the point.
    apply ShownWhen.of_reads (json.reads_cut_point negative hcanonical hwidth.symm)
    have hnot := not_fits_of_point hwidth.symm
    simp [hnot]
  · -- Only digits of the integer part are printed.
    apply ShownWhen.of_reads (json.reads_cut_digits negative hcanonical (by omega) (by omega))
    have hroom : 15 - (minus negative).length ≤ (decimal (scaled / 10 ^ decimals)).length := by omega
    have hfull : 15 - (minus negative).length = (decimal (scaled / 10 ^ decimals)).length ↔
        15 = (minus negative).length + (decimal (scaled / 10 ^ decimals)).length := by omega
    rw [hshows, fits_iff_of_digits (by omega), cut_digits_eq_iff (by omega) hroom, hfull]

end communication_center.http_server
