import CommunicationCenter.Json.Object

open libc

namespace json

theorem opens_other_of_digit {c : UInt8} (h : isdigit c = true) : opens_other c = false := by
  simp only [isdigit, Bool.and_eq_true, decide_eq_true_eq, UInt8.le_iff_toNat_le] at h
  have hne (d : UInt8) (hd : d.toNat < 48 ∨ 57 < d.toNat) : c ≠ d := by
    rintro rfl
    have hlow : 48 ≤ c.toNat := h.1
    have hhigh : c.toNat ≤ 57 := h.2
    omega
  simp [opens_other, whitespace, hne]

theorem opens_other_head (negative : Bool) {digits : Text} (h : Canonical digits) (rest : Text) :
    ∃ c tail, minus negative ++ (digits ++ rest) = c :: tail ∧ opens_other c = false := by
  cases negative with
  | true => exact ⟨45, digits ++ rest, rfl, by decide⟩
  | false =>
    obtain ⟨d, digits, rfl⟩ := List.exists_cons_of_ne_nil h.nonempty
    exact ⟨d, digits ++ rest, rfl, opens_other_of_digit (h.all_digits d (by simp))⟩

/-- What the parser of numbers makes of a text is what a value is read as. -/
theorem reads_number (negative : Bool) {digits tail : Text} (h : Canonical digits)
    (result : Option ℚ) (hnumber : ∀ rest, EndsMember rest →
      number (minus negative ++ (digits ++ (tail ++ rest))) = result.map fun read => (read, rest)) :
    Reads (minus negative ++ (digits ++ tail)) (result.map .number) := by
  intro fuel rest hfuel hrest
  obtain ⟨fuel, rfl⟩ := Nat.exists_eq_add_one_of_ne_zero (Nat.ne_zero_of_lt hfuel)
  have hread := hnumber rest hrest
  obtain ⟨c, behind, htext, hopen⟩ := opens_other_head negative h (tail ++ rest)
  rw [List.append_assoc, List.append_assoc, htext, value_number hopen, ← htext, hread, Option.map_map,
    Option.map_map]
  rfl

variable (negative : Bool) {digits fraction : Text} {size : Nat}

/-- A number that is cut behind its point is read as what is left of it, if the buffer has room for
at least one digit there. The cut is one of the text, not a rounding. -/
theorem reads_cut_fraction (h : Canonical digits) (hne : fraction ≠ [])
    (hfraction : ∀ c ∈ fraction, isdigit c = true)
    (hsize : (minus negative).length + digits.length + 1 < size) :
    Reads ((minus negative ++ (digits ++ 46 :: fraction)).take size)
      (some (.number (signed negative
        (digits_value (digits ++ fraction.take (size - ((minus negative).length + digits.length + 1))) /
          10 ^ (fraction.take (size - ((minus negative).length + digits.length + 1))).length)))) := by
  obtain ⟨k, rfl⟩ : ∃ k, size = (minus negative ++ (digits ++ [46])).length + (k + 1) :=
    ⟨size - ((minus negative).length + digits.length + 1) - 1, by simp; omega⟩
  have hcut : (minus negative ++ (digits ++ 46 :: fraction)).take
      ((minus negative ++ (digits ++ [46])).length + (k + 1)) =
      minus negative ++ (digits ++ 46 :: fraction.take (k + 1)) := by
    have hsplit : minus negative ++ (digits ++ 46 :: fraction) =
        minus negative ++ (digits ++ [46]) ++ fraction := by simp
    rw [hsplit, List.take_length_add_append]
    simp
  have hkept : (minus negative ++ (digits ++ [46])).length + (k + 1) -
      ((minus negative).length + digits.length + 1) = k + 1 := by
    simp
    omega
  have hsome : fraction.take (k + 1) ≠ [] := by simpa using hne
  rw [hcut, hkept]
  exact reads_number negative h (some _) fun rest hrest =>
    number_fraction negative h hsome (fun c hc => hfraction c (List.mem_of_mem_take hc)) hrest.endsNumber

/-- Where the buffer ends directly behind the point, the text is no number any more, since at least
one digit has to follow. -/
theorem reads_cut_point (h : Canonical digits)
    (hsize : size = (minus negative).length + digits.length + 1) :
    Reads ((minus negative ++ (digits ++ 46 :: fraction)).take size) none := by
  have hcut : (minus negative ++ (digits ++ 46 :: fraction)).take size =
      minus negative ++ (digits ++ [46]) := by
    have hsplit : minus negative ++ (digits ++ 46 :: fraction) =
        minus negative ++ (digits ++ [46]) ++ fraction := by simp
    rw [hsplit]
    exact List.take_left' (by simp [hsize]; omega)
  rw [hcut]
  exact reads_number negative h none fun rest hrest =>
    number_bare_point negative h hrest.endsNumber.endsNumeral

/-- Where the buffer ends within the integer part, or with it, a number is read all the same, but
it is the one of the digits that are left. -/
theorem reads_cut_digits (h : Canonical digits) (hpositive : (minus negative).length < size)
    (hsize : size ≤ (minus negative).length + digits.length) :
    Reads ((minus negative ++ (digits ++ 46 :: fraction)).take size)
      (some (.number (signed negative
        (digits_value (digits.take (size - (minus negative).length)))))) := by
  have hcut : (minus negative ++ (digits ++ 46 :: fraction)).take size =
      minus negative ++ (digits.take (size - (minus negative).length) ++ []) := by
    rw [List.take_append, List.take_of_length_le hpositive.le, List.take_append_of_le_length (by omega),
      List.append_nil]
  rw [hcut]
  exact reads_number negative (h.take (by omega)) (some _) fun rest hrest =>
    number_whole negative (h.take (by omega)) hrest.endsNumber

end json
