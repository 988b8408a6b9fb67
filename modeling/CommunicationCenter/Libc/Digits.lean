import CommunicationCenter.Libc.Decimal

namespace libc

private theorem foldl_digits (digits : Text) (value : Nat) :
    digits.foldl (fun value d => 10 * value + (d.toNat - 48)) value =
      value * 10 ^ digits.length + digits_value digits := by
  induction digits generalizing value with
  | nil => simp [digits_value]
  | cons d digits ih =>
    have hvalue : digits_value (d :: digits) =
        (d.toNat - 48) * 10 ^ digits.length + digits_value digits := by
      rw [digits_value, List.foldl_cons, ih]
      simp
    rw [List.foldl_cons, ih, hvalue, List.length_cons, pow_succ]
    ring

theorem digits_value_append (first second : Text) : digits_value (first ++ second) =
    digits_value first * 10 ^ second.length + digits_value second := by
  rw [digits_value, List.foldl_append]
  exact foldl_digits second _

theorem digits_value_lt {digits : Text} (h : ∀ c ∈ digits, isdigit c = true) :
    digits_value digits < 10 ^ digits.length := by
  induction digits with
  | nil => simp [digits_value]
  | cons d digits ih =>
    have htail := ih fun c hc => h c (List.mem_cons_of_mem _ hc)
    have hd := h d (by simp)
    simp only [isdigit, Bool.and_eq_true, decide_eq_true_eq, UInt8.le_iff_toNat_le] at hd
    have hnine : d.toNat ≤ 57 := hd.2
    have hdigit : digits_value [d] + 1 ≤ 10 := by
      simp only [digits_value, List.foldl_cons, List.foldl_nil]
      omega
    have hle := Nat.mul_le_mul_right (10 ^ digits.length) hdigit
    rw [← List.singleton_append, digits_value_append, List.length_append, List.length_singleton,
      pow_add, pow_one]
    rw [Nat.add_mul, Nat.one_mul] at hle
    omega

/-- Cutting digits off the end divides by the power of ten, and drops the remainder. Leading zeros
are allowed. -/
theorem digits_value_take {digits : Text} (h : ∀ c ∈ digits, isdigit c = true) {k : Nat}
    (hk : k ≤ digits.length) :
    digits_value (digits.take (digits.length - k)) = digits_value digits / 10 ^ k := by
  have hlength : (digits.drop (digits.length - k)).length = k := by
    rw [List.length_drop]
    omega
  have hlt := digits_value_lt (fun c hc => h c (List.mem_of_mem_drop hc) : ∀ c ∈ digits.drop (digits.length - k), _)
  have hsplit := digits_value_append (digits.take (digits.length - k)) (digits.drop (digits.length - k))
  rw [List.take_append_drop, hlength] at hsplit
  rw [hlength] at hlt
  rw [hsplit, Nat.add_comm, Nat.add_mul_div_right _ _ (by positivity), Nat.div_eq_of_lt hlt,
    Nat.zero_add]

theorem decimal_length_le_iff {n k : Nat} (hpositive : 0 < k) : (decimal n).length ≤ k ↔ n < 10 ^ k := by
  constructor
  · intro h
    have hlt := digits_value_lt (fun c hc => isdigit_of_mem_decimal hc : ∀ c ∈ decimal n, _)
    rw [digits_value_decimal] at hlt
    exact hlt.trans_le (Nat.pow_le_pow_right (by decide) h)
  · exact decimal_length_le hpositive

theorem isdigit_of_mem_padded {width n : Nat} {c : UInt8} (h : c ∈ padded width n) :
    isdigit c = true := by
  rcases List.mem_append.mp h with hzero | hdigit
  · obtain rfl := List.eq_of_mem_replicate hzero
    decide
  · exact isdigit_of_mem_decimal hdigit

theorem padded_length {width n : Nat} (hpositive : 0 < width) (h : n < 10 ^ width) :
    (padded width n).length = width := by
  have hle := decimal_length_le hpositive h
  rw [padded, List.length_append, List.length_replicate]
  omega

theorem digits_value_zeros (n : Nat) : digits_value (List.replicate n 48) = 0 := by
  induction n with
  | zero => rfl
  | succ n ih =>
    rw [List.replicate_succ', digits_value_append, ih]
    rfl

theorem digits_value_padded (width n : Nat) : digits_value (padded width n) = n := by
  rw [padded, digits_value_append, digits_value_zeros, digits_value_decimal]
  simp

/-- The digits on both sides of the decimal point. -/
theorem digits_value_fixed {decimals : Nat} (hpositive : 0 < decimals) (scaled : Nat) :
    digits_value (decimal (scaled / 10 ^ decimals) ++ padded decimals (scaled % 10 ^ decimals)) =
      scaled := by
  have hlt : scaled % 10 ^ decimals < 10 ^ decimals := Nat.mod_lt _ (by positivity)
  rw [digits_value_append, padded_length hpositive hlt, digits_value_decimal, digits_value_padded,
    Nat.div_add_mod']

/-- What is printed when only some of the decimals are kept is the number without the others, not
rounded. -/
theorem digits_value_take_fixed {decimals : Nat} (hpositive : 0 < decimals) (scaled kept : Nat) :
    digits_value (decimal (scaled / 10 ^ decimals) ++
        (padded decimals (scaled % 10 ^ decimals)).take kept) = scaled / 10 ^ (decimals - kept) ∧
      ((padded decimals (scaled % 10 ^ decimals)).take kept).length =
        decimals - (decimals - kept) := by
  have hlength := padded_length hpositive (Nat.mod_lt scaled (by positivity : 0 < 10 ^ decimals))
  have hvalue := digits_value_fixed hpositive scaled
  have hdigits : ∀ c ∈ decimal (scaled / 10 ^ decimals) ++ padded decimals (scaled % 10 ^ decimals),
      isdigit c = true := by
    intro c hc
    rcases List.mem_append.mp hc with hwhole | hfraction
    · exact isdigit_of_mem_decimal hwhole
    · exact isdigit_of_mem_padded hfraction
  generalize padded decimals (scaled % 10 ^ decimals) = fraction at *
  have htake : fraction.take kept = fraction.take (decimals - (decimals - kept)) := by
    by_cases hle : kept ≤ decimals
    · rw [Nat.sub_sub_self hle]
    · rw [List.take_of_length_le (by omega), List.take_of_length_le (by omega)]
  have hcut : (decimal (scaled / 10 ^ decimals) ++ fraction).take
      ((decimal (scaled / 10 ^ decimals) ++ fraction).length - (decimals - kept)) =
      decimal (scaled / 10 ^ decimals) ++ fraction.take kept := by
    rw [List.length_append, hlength, Nat.add_sub_assoc (Nat.sub_le _ _), List.take_length_add_append,
      htake]
  refine ⟨?_, ?_⟩
  · rw [← hcut, digits_value_take hdigits, hvalue]
    rw [List.length_append]
    omega
  · rw [List.length_take]
    omega

theorem fixed_finite {decimals : Nat} (hpositive : 0 < decimals) (negative : Bool) (magnitude : ℚ) :
    Binary32.fixed decimals (.finite negative magnitude) =
      minus negative ++ (decimal (round_half_even (magnitude * 10 ^ decimals) / 10 ^ decimals) ++
        46 :: padded decimals (round_half_even (magnitude * 10 ^ decimals) % 10 ^ decimals)) := by
  simp [Binary32.fixed, Nat.ne_of_gt hpositive]

end libc
