import CommunicationCenter.Json.Parser
import CommunicationCenter.Libc.Decimal
import CommunicationCenter.Libc.Tokens

open libc

namespace json

/-- Digits without superfluous zeros in front. -/
structure Canonical (digits : Text) : Prop where
  nonempty : digits ≠ []
  all_digits : ∀ c ∈ digits, isdigit c = true
  leading : digits.head? = some 48 → digits = [48]

/-- Nothing that could continue a number comes next. -/
def EndsNumber (rest : Text) : Prop :=
  ∀ c ∈ rest.head?, isdigit c = false ∧ c ≠ 46 ∧ tolower c ≠ 101

/-- What ends a number ends its digits. -/
theorem EndsNumber.endsNumeral {rest : Text} (h : EndsNumber rest) : EndsNumeral rest :=
  fun c hc => (h c hc).1

/-- The decimal digits of a number have no needless zero in front. -/
theorem canonical_decimal (n : Nat) : Canonical (decimal n) where
  nonempty := decimal_ne_nil n
  all_digits := fun _ hc => isdigit_of_mem_decimal hc
  leading := decimal_of_leading_zero

/-- Cutting digits off the end leaves no superfluous zero in front, as long as one digit is left.
-/
theorem Canonical.take {digits : Text} (h : Canonical digits) {k : Nat} (hk : 0 < k) :
    Canonical (digits.take k) := by
  obtain ⟨d, digits, rfl⟩ := List.exists_cons_of_ne_nil h.nonempty
  obtain ⟨k, rfl⟩ : ∃ j, k = j + 1 := ⟨k - 1, by omega⟩
  refine ⟨by simp, fun c hc => h.all_digits c (List.mem_of_mem_take hc), fun hhead => ?_⟩
  have hzero := h.leading hhead
  obtain ⟨rfl, rfl⟩ := List.cons.inj hzero
  simp

/-- A minus is read as a sign, and nothing where there is none. The text behind it must not begin
with another minus then. -/
theorem minus_sign_minus (negative : Bool) {text : Text} (h : text.head? ≠ some 45) :
    minus_sign (minus negative ++ text) = (negative, text) := by
  cases negative with
  | true => rfl
  | false =>
    change minus_sign text = (false, text)
    unfold minus_sign
    split
    · exact absurd rfl h
    · rfl

/-- Digits do not begin with a minus. -/
theorem Canonical.head {digits : Text} (h : Canonical digits) (rest : Text) :
    (digits ++ rest).head? ≠ some 45 := by
  obtain ⟨d, digits, rfl⟩ := List.exists_cons_of_ne_nil h.nonempty
  have hd := h.all_digits d (by simp)
  intro heq
  obtain rfl := Option.some.inj heq
  exact absurd hd (by decide)

/-- Where a number ends it has no exponent. -/
theorem exponent_part_none {rest : Text} (h : EndsNumber rest) : exponent_part rest = some (1, rest) := by
  cases rest with
  | nil => rfl
  | cons c rest => rw [exponent_part, if_neg (h c rfl).2.2]

/-- Nor a fraction. -/
theorem fraction_part_none {rest : Text} (h : EndsNumber rest) : fraction_part rest = some ([], rest) := by
  unfold fraction_part
  split
  · next text => exact absurd rfl (h 46 rfl).2.1
  · rfl

theorem endsNumeral_point (rest : Text) : EndsNumeral (46 :: rest) := by
  intro c hc
  obtain rfl := Option.some.inj hc
  decide

/-- What the parser does behind a canonical integer part: it reads the fraction and then the
exponent, each of which may be missing. -/
theorem number_of_canonical (negative : Bool) {digits tail : Text} (h : Canonical digits)
    (htail : EndsNumeral tail) : number (minus negative ++ (digits ++ tail)) =
      (fraction_part tail).bind fun part => (exponent_part part.2).map fun power =>
        (signed negative (digits_value (digits ++ part.1) / 10 ^ part.1.length * power.1), power.2) := by
  obtain ⟨htake, hdrop⟩ := takeWhile_digits h.all_digits htail
  have hwhole : ¬(digits = [] ∨ (digits.head? = some 48 ∧ digits ≠ [48])) := by
    rintro (hnil | ⟨hzero, hne⟩)
    · exact h.nonempty hnil
    · exact hne (h.leading hzero)
  rw [number, minus_sign_minus negative (h.head tail)]
  simp only [htake, hdrop, if_neg hwhole]
  rfl

/-- An integer literal is read as its value. -/
theorem number_whole (negative : Bool) {digits rest : Text} (h : Canonical digits)
    (hrest : EndsNumber rest) : number (minus negative ++ (digits ++ rest)) =
      some (signed negative (digits_value digits), rest) := by
  rw [number_of_canonical negative h hrest.endsNumeral, fraction_part_none hrest]
  simp [exponent_part_none hrest]

/-- A literal with a point is read as its digits over a power of ten. -/
theorem number_fraction (negative : Bool) {digits fraction rest : Text} (h : Canonical digits)
    (hne : fraction ≠ []) (hfraction : ∀ c ∈ fraction, isdigit c = true) (hrest : EndsNumber rest) :
    number (minus negative ++ (digits ++ 46 :: (fraction ++ rest))) =
      some (signed negative (digits_value (digits ++ fraction) / 10 ^ fraction.length), rest) := by
  obtain ⟨htake, hdrop⟩ := takeWhile_digits hfraction hrest.endsNumeral
  have hpart : fraction_part (46 :: (fraction ++ rest)) = some (fraction, rest) := by
    rw [fraction_part, htake, hdrop, if_neg hne]
  rw [number_of_canonical negative h (endsNumeral_point _), hpart]
  simp [exponent_part_none hrest]

/-- A point without a digit behind it ends no number: the whole text is refused, although the
integer in front of the point would be one. -/
theorem number_bare_point (negative : Bool) {digits rest : Text} (h : Canonical digits)
    (hrest : EndsNumeral rest) : number (minus negative ++ (digits ++ 46 :: rest)) = none := by
  have htake : rest.takeWhile isdigit = [] := by
    cases rest with
    | nil => rfl
    | cons c rest => simp [hrest c rfl]
  have hpart : fraction_part (46 :: rest) = none := by rw [fraction_part, if_pos htake]
  rw [number_of_canonical negative h (endsNumeral_point _), hpart, Option.bind_none]

/-- A number begins with a digit. -/
theorem number_of_letter (negative : Bool) {c : UInt8} (hdigit : isdigit c = false) (hminus : c ≠ 45)
    (rest : Text) : number (minus negative ++ (c :: rest)) = none := by
  have hhead : (c :: rest).head? ≠ some 45 := fun heq => hminus (Option.some.inj heq)
  rw [number, minus_sign_minus negative hhead]
  simp [hdigit]

end json
