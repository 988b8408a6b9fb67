import Mathlib.Data.List.TakeWhile
import Mathlib.Data.Nat.Digits.Defs

namespace libc

/-- The bytes of a C string before its terminating NUL. A `char *` into the
string is the text from that position on, so the empty text is the NUL itself. -/
abbrev Text := List UInt8

/-- The bytes of an ASCII literal. -/
def ascii (literal : String) : Text :=
  literal.toList.map fun c => c.toNat.toUInt8

/-- Rewriting with it turns a literal into its bytes. -/
theorem ascii_ofList (characters : List Char) :
    ascii (String.ofList characters) = characters.map fun c => c.toNat.toUInt8 := by
  simp [ascii]

/-- The C string held by a buffer whose contents are followed by a NUL. -/
def cstr (buffer : List UInt8) : Text :=
  buffer.takeWhile (· ≠ 0)

theorem zero_notMem_cstr (buffer : List UInt8) : (0 : UInt8) ∉ cstr buffer := by
  intro hzero
  simpa using List.mem_takeWhile_imp hzero

theorem cstr_eq_self {text : Text} (h : (0 : UInt8) ∉ text) : cstr text = text := by
  apply List.takeWhile_eq_self_iff.mpr
  intro c hc
  have hne : c ≠ 0 := fun heq => h (heq ▸ hc)
  simpa using hne

/-- What holds of the numbers below 256 holds of every byte. -/
theorem byte_cases {p : UInt8 → Prop} (h : ∀ n : Fin 256, p n.val.toUInt8) (c : UInt8) : p c := by
  have hc := h ⟨c.toNat, UInt8.toNat_lt c⟩
  simpa only [Nat.toUInt8, UInt8.ofNat_toNat] using hc

/-- A string without NUL bytes, such as a validated UTF-8 string. -/
structure CString where
  text : Text
  nonzero : (0 : UInt8) ∉ text

/-- `isspace` in the C locale: blank, and tab to carriage return. -/
def isspace (c : UInt8) : Bool :=
  c = 32 || (9 ≤ c && c ≤ 13)

def isdigit (c : UInt8) : Bool :=
  48 ≤ c && c ≤ 57

/-- The text from the first byte that is not white space. -/
def skip_space (text : Text) : Text :=
  text.dropWhile isspace

theorem skip_space_append {blanks : Text} (h : ∀ c ∈ blanks, isspace c = true) (text : Text) :
    skip_space (blanks ++ text) = skip_space text :=
  List.dropWhile_append_of_pos h

theorem skip_space_of_digit {c : UInt8} {text : Text} (h : isdigit c = true) :
    skip_space (c :: text) = c :: text := by
  have hnot : isspace c = false := by
    simp only [isdigit, isspace, Bool.and_eq_true, decide_eq_true_eq, UInt8.le_iff_toNat_le,
      Bool.or_eq_false_iff, Bool.and_eq_false_iff, decide_eq_false_iff_not] at h ⊢
    refine ⟨?_, Or.inr ?_⟩
    · rintro rfl
      exact absurd h.1 (by decide)
    · intro hle
      exact absurd (h.1.trans hle) (by decide)
  simp [skip_space, hnot]

/-- The number that a string of decimal digits stands for. -/
def digits_value (digits : Text) : Nat :=
  digits.foldl (fun value d => 10 * value + (d.toNat - 48)) 0

/-- The digits that `%u` prints. -/
def decimal (n : Nat) : Text :=
  if n = 0 then [48] else ((Nat.digits 10 n).map fun d => (48 + d).toUInt8).reverse

theorem decimal_ne_nil (n : Nat) : decimal n ≠ [] := by
  unfold decimal
  split
  · simp
  · next hn => simpa using Nat.digits_ne_nil_iff_ne_zero.mpr hn

private theorem digit_byte {d : Nat} (h : d < 10) :
    isdigit (48 + d).toUInt8 = true ∧ (48 + d).toUInt8.toNat - 48 = d := by
  revert h
  revert d
  decide

theorem isdigit_of_mem_decimal {n : Nat} {c : UInt8} (h : c ∈ decimal n) : isdigit c = true := by
  unfold decimal at h
  split at h
  · obtain rfl : c = 48 := by simpa using h
    decide
  · obtain ⟨d, hd, rfl⟩ := List.mem_map.mp (List.mem_reverse.mp h)
    exact (digit_byte (Nat.digits_lt_base (by decide) hd)).1

private theorem digits_value_reverse (digits : List Nat) (h : ∀ d ∈ digits, d < 10) :
    digits_value (digits.map fun d => (48 + d).toUInt8).reverse = Nat.ofDigits 10 digits := by
  induction digits with
  | nil => rfl
  | cons d digits ih =>
    have hd := (digit_byte (h d (by simp))).2
    have htail := ih fun e he => h e (List.mem_cons_of_mem _ he)
    unfold digits_value at htail ⊢
    simp only [List.map_cons, List.reverse_cons, List.foldl_append, List.foldl_cons,
      List.foldl_nil, htail, hd, Nat.ofDigits_cons]
    omega

/-- Reading back the printed digits gives the number. -/
theorem digits_value_decimal (n : Nat) : digits_value (decimal n) = n := by
  unfold decimal
  split
  · next hn => rw [hn]; rfl
  · rw [digits_value_reverse _ fun d hd => Nat.digits_lt_base (by decide) hd,
      Nat.ofDigits_digits]

private theorem foldl_digits_ge (digits : Text) (value : Nat) :
    value ≤ digits.foldl (fun value d => 10 * value + (d.toNat - 48)) value := by
  induction digits generalizing value with
  | nil => exact Nat.le_refl _
  | cons d digits ih =>
    exact (show value ≤ 10 * value + (d.toNat - 48) by omega).trans (ih _)

/-- Cutting digits off the end never makes the number larger. -/
theorem digits_value_take_le (digits : Text) (k : Nat) :
    digits_value (digits.take k) ≤ digits_value digits := by
  conv_rhs => rw [← List.take_append_drop k digits]
  unfold digits_value
  rw [List.foldl_append]
  exact foldl_digits_ge _ _

end libc
