import CommunicationCenter.Libc.Float
import Mathlib.Data.Nat.Digits.Lemmas

namespace libc

/-- The characters that `%d` prints. -/
def int_text (value : Int) : Text :=
  minus (value < 0) ++ decimal value.natAbs

theorem decimal_length_le {n k : Nat} (hpositive : 0 < k) (h : n < 10 ^ k) :
    (decimal n).length ≤ k := by
  unfold decimal
  split
  · exact hpositive
  · rw [List.length_reverse, List.length_map]
    exact (Nat.digits_length_le_iff (by decide) n).mpr h

/-- Only zero is printed with a leading zero, so that every other number is printed in its shortest
form. -/
theorem decimal_of_leading_zero {n : Nat} (h : (decimal n).head? = some 48) : decimal n = [48] := by
  unfold decimal at h ⊢
  split at h
  · next hzero => rw [if_pos hzero]
  · next hn =>
    rw [List.head?_reverse, List.getLast?_map] at h
    obtain ⟨d, hd, hbyte⟩ := Option.map_eq_some_iff.mp h
    have hlast := Nat.getLast_digit_ne_zero 10 hn
    have hne : Nat.digits 10 n ≠ [] := Nat.digits_ne_nil_iff_ne_zero.mpr hn
    rw [List.getLast?_eq_some_getLast hne] at hd
    obtain rfl := Option.some.inj hd
    have hlt := Nat.digits_lt_base (by decide : 1 < 10) (List.getLast_mem hne)
    generalize (Nat.digits 10 n).getLast hne = d at *
    have hzero : d = 0 := by
      revert hbyte
      interval_cases d <;> decide
    exact absurd hzero hlast

theorem int_text_length_le {value : Int} (hmin : INT_MIN ≤ value) (hmax : value ≤ INT_MAX) :
    (int_text value).length ≤ 11 := by
  have hdigits : (decimal value.natAbs).length ≤ 10 := by
    apply decimal_length_le (by decide)
    unfold INT_MIN at hmin
    unfold INT_MAX at hmax
    omega
  rw [int_text, List.length_append]
  have hminus : (minus (decide (value < 0))).length ≤ 1 := by
    cases decide (value < 0) <;> decide
  omega

end libc
