import CommunicationCenter.Libc.Tokens
import Mathlib.Data.List.Induction

namespace libc

/-- A decimal literal: an optional sign, and digits with at most one point among
them. -/
structure DecimalLiteral where
  mark : Text
  negative : Bool
  whole : Text
  fraction : Option Text
  sign : SignText mark negative
  whole_digits : ∀ c ∈ whole, isdigit c = true
  fraction_digits : ∀ c ∈ fraction.getD [], isdigit c = true
  nonempty : whole ++ fraction.getD [] ≠ []

namespace DecimalLiteral

variable (l : DecimalLiteral)

/-- The digits, with the point in front of the fraction. -/
def unsigned : Text :=
  l.whole ++ (l.fraction.map (46 :: ·)).getD []

def text : Text :=
  l.mark ++ l.unsigned

def magnitude : ℚ :=
  digits_value (l.whole ++ l.fraction.getD []) / 10 ^ (l.fraction.getD []).length

def numeral : Numeral :=
  .finite l.negative l.magnitude

end DecimalLiteral

/-- A byte that can be no part of a number comes behind it, or nothing does. -/
def EndsLiteral (rest : Text) : Prop :=
  ∀ c ∈ rest.head?, isdigit c = false ∧ c ≠ 46 ∧ tolower c ≠ 101 ∧ tolower c ≠ 120

theorem EndsLiteral.endsNumeral {rest : Text} (h : EndsLiteral rest) : EndsNumeral rest :=
  fun c hc => (h c hc).1

def digit_values (digits : Text) : List Nat :=
  digits.map fun d => d.toNat - 48

theorem ofDigits_digit_values (digits : Text) :
    Nat.ofDigits 10 (digit_values digits).reverse = digits_value digits := by
  induction digits using List.reverseRecOn with
  | nil => rfl
  | append_singleton digits d ih =>
    simp only [digit_values, List.map_append, List.map_cons, List.map_nil, List.reverse_append,
      List.reverse_singleton, List.singleton_append, Nat.ofDigits_cons] at ih ⊢
    simp only [ih, digits_value, List.foldl_append, List.foldl_cons, List.foldl_nil]
    omega

/-- A run of digits is read up to the byte that ends it, however long it is. It may be empty. -/
theorem digit_run_decimal {digits rest : Text} (hdigits : ∀ c ∈ digits, isdigit c = true)
    (hrest : EndsNumeral rest) :
    digit_run decimal_digit (digits ++ rest) = (digit_values digits, rest) := by
  have hsome : (fun c => (decimal_digit c).isSome) = isdigit := by
    funext c
    unfold decimal_digit
    cases isdigit c <;> rfl
  obtain ⟨htake, hdrop⟩ := takeWhile_digits hdigits hrest
  rw [digit_run, hsome, htake, hdrop]
  have hvalues : digits.filterMap decimal_digit = digit_values digits := by
    clear htake hdrop
    induction digits with
    | nil => rfl
    | cons d digits ih =>
      have hd : decimal_digit d = some (d.toNat - 48) := by
        rw [decimal_digit, if_pos (hdigits d (by simp))]
      rw [List.filterMap_cons_some hd, ih fun c hc => hdigits c (List.mem_cons_of_mem _ hc)]
      rfl
  rw [hvalues]

theorem exponent_factor_of_endsLiteral {rest : Text} (h : EndsLiteral rest) :
    exponent_factor 101 10 rest = 1 := by
  cases rest with
  | nil => rfl
  | cons c rest => rw [exponent_factor, if_neg (h c rfl).2.2.1]

/-- The digits of a literal are read up to the byte that ends it, with the point at most once among
them. They may be any number, in front of the point and behind it. -/
theorem unsigned_numeral_literal (l : DecimalLiteral) {rest : Text} (h : EndsLiteral rest) :
    unsigned_numeral decimal_digit 10 101 10 (l.unsigned ++ rest) = some l.magnitude := by
  obtain ⟨mark, negative, whole, fraction, hsign, hwhole, hfraction, hnonempty⟩ := l
  have hvalues : digit_values whole ++ digit_values (fraction.getD []) ≠ [] := by
    rwa [digit_values, digit_values, ← List.map_append, ne_eq, List.map_eq_nil_iff]
  have hvalue : Nat.ofDigits (10 : ℚ)
      (digit_values whole ++ digit_values (fraction.getD [])).reverse =
        (digits_value (whole ++ fraction.getD []) : ℕ) := by
    rw [← ofDigits_digit_values, digit_values, digit_values, digit_values, List.map_append]
    exact (Nat.coe_ofDigits ℚ 10 _).symm
  have hexponent := exponent_factor_of_endsLiteral h
  simp only [DecimalLiteral.unsigned, DecimalLiteral.magnitude]
  cases fraction with
  | none =>
    have hrun := digit_run_decimal hwhole h.endsNumeral
    simp only [Option.getD_none, show digit_values [] = [] from rfl, List.append_nil]
      at hvalues hvalue
    simp only [Option.map_none, Option.getD_none, List.append_nil]
    unfold unsigned_numeral
    rw [hrun]
    dsimp only
    split
    · next rest => exact absurd rfl (h 46 rfl).2.1
    · simp [hvalues, hvalue, hexponent]
  | some fraction =>
    have hpoint : EndsNumeral (46 :: (fraction ++ rest)) := by simp [EndsNumeral, isdigit]
    have hrun := digit_run_decimal hwhole hpoint
    have hrun' : digit_run decimal_digit (fraction ++ rest) = (digit_values fraction, rest) :=
      digit_run_decimal hfraction h.endsNumeral
    simp only [Option.getD_some] at hvalues hvalue
    simp only [Option.map_some, Option.getD_some, List.append_assoc, List.cons_append]
    unfold unsigned_numeral
    rw [hrun]
    have hlength : (digit_values fraction).length = fraction.length := List.length_map _
    simp only [hrun', hvalues, if_false, Nat.cast_ofNat, hvalue, hexponent, hlength, mul_one]

theorem DecimalLiteral.unsigned_ne_nil (l : DecimalLiteral) : l.unsigned ≠ [] := by
  obtain ⟨mark, negative, whole, fraction, hsign, hwhole, hfraction, hnonempty⟩ := l
  cases fraction with
  | none => simpa [DecimalLiteral.unsigned] using hnonempty
  | some fraction => simp [DecimalLiteral.unsigned]

theorem DecimalLiteral.unsigned_bytes (l : DecimalLiteral) {c : UInt8} (hc : c ∈ l.unsigned) :
    isdigit c = true ∨ c = 46 := by
  obtain ⟨mark, negative, whole, fraction, hsign, hwhole, hfraction, hnonempty⟩ := l
  rcases List.mem_append.mp hc with hc | hc
  · exact Or.inl (hwhole c hc)
  · cases fraction with
    | none => cases hc
    | some fraction =>
      rcases List.mem_cons.mp hc with hc | hc
      · exact Or.inr hc
      · exact Or.inl (hfraction c hc)

/-- Neither digits nor the point begin a word, white space, or a sign. -/
theorem literal_byte {c : UInt8} (h : isdigit c = true ∨ c = 46) :
    isspace c = false ∧ c ≠ 43 ∧ c ≠ 45 ∧ tolower c ≠ 105 ∧ tolower c ≠ 110 ∧ tolower c ≠ 120 := by
  have hall : ∀ d : UInt8, isdigit d = true ∨ d = 46 →
      isspace d = false ∧ d ≠ 43 ∧ d ≠ 45 ∧ tolower d ≠ 105 ∧ tolower d ≠ 110 ∧ tolower d ≠ 120 :=
    byte_cases (by decide +kernel)
  exact hall c h

theorem sign_of_literal {mark : Text} {negative : Bool} (h : SignText mark negative) {c : UInt8}
    (hplus : c ≠ 43) (hminus : c ≠ 45) (text : Text) :
    sign (mark ++ (c :: text)) = (negative, c :: text) := by
  cases h with
  | none =>
    unfold sign
    split
    · next heq => exact absurd (List.cons.inj heq).1 hminus
    · next heq => exact absurd (List.cons.inj heq).1 hplus
    · rfl
  | plus => rfl
  | minus => rfl

theorem skip_space_of_sign {mark : Text} {negative : Bool} (h : SignText mark negative) {c : UInt8}
    (hspace : isspace c = false) (text : Text) :
    skip_space (mark ++ (c :: text)) = mark ++ (c :: text) := by
  cases h with
  | none => simp [skip_space, hspace]
  | plus => rfl
  | minus => rfl

/-- No literal is followed by the mark of a hexadecimal number, so that `atof` reads it as a
decimal one. -/
theorem hex_numeral_of_endsLiteral {c : UInt8} {tail rest : Text}
    (htail : ∀ d ∈ tail, isdigit d = true ∨ d = 46) (h : EndsLiteral rest) :
    hex_numeral (c :: (tail ++ rest)) = none := by
  have hmark : ∀ x ∈ (tail ++ rest).head?, tolower x ≠ 120 := by
    cases tail with
    | nil => exact fun x hx => (h x hx).2.2.2
    | cons d tail =>
      intro x hx
      obtain rfl : d = x := Option.some.inj hx
      exact (literal_byte (htail d (by simp))).2.2.2.2.2
  unfold hex_numeral
  split
  · next x text heq =>
    obtain ⟨-, heq⟩ := List.cons.inj heq
    rw [if_neg (hmark x (by rw [heq]; rfl))]
  · rfl

/-- Behind any white space a literal is read as its value, up to the byte that ends it. It is not
taken for a hexadecimal one, nor is an exponent seen in what follows. -/
theorem strtod_literal (l : DecimalLiteral) {blanks rest : Text}
    (hblanks : ∀ c ∈ blanks, isspace c = true) (h : EndsLiteral rest) :
    strtod (blanks ++ (l.text ++ rest)) = l.numeral := by
  have hnumeral := unsigned_numeral_literal l h
  obtain ⟨c, tail, hunsigned⟩ := List.exists_cons_of_ne_nil l.unsigned_ne_nil
  have hbytes : ∀ d ∈ c :: tail, isdigit d = true ∨ d = 46 := fun d hd =>
    l.unsigned_bytes (hunsigned ▸ hd)
  obtain ⟨hspace, hplus, hminus, hi, hn, _⟩ := literal_byte (hbytes c (by simp))
  have hskip : skip_space (blanks ++ (l.mark ++ (c :: (tail ++ rest)))) =
      l.mark ++ (c :: (tail ++ rest)) := by
    rw [skip_space_append hblanks, skip_space_of_sign l.sign hspace]
  have hhex : hex_numeral (c :: (tail ++ rest)) = none :=
    hex_numeral_of_endsLiteral (fun d hd => hbytes d (List.mem_cons_of_mem _ hd)) h
  rw [hunsigned, List.cons_append] at hnumeral
  rw [DecimalLiteral.text, hunsigned, List.append_assoc, List.cons_append]
  unfold strtod
  rw [hskip, sign_of_literal l.sign hplus hminus]
  have hword {d : UInt8} {word : Text} (hd : tolower c ≠ d) :
      ((c :: (tail ++ rest)).take 3).map tolower ≠ d :: word := by
    intro heq
    exact hd (List.cons.inj heq).1
  have hinf : ascii "inf" = 105 :: ascii "nf" := rfl
  have hnan : ascii "nan" = 110 :: ascii "an" := rfl
  simp only [hhex, hnumeral]
  rw [hinf, hnan, if_neg (hword hi), if_neg (hword hn)]
  rfl

/-- Digits alone are read as the number that they stand for, without any rounding, since the
rounding is that of the type of numbers. -/
theorem strtod_digits {digits rest : Text} (hdigits : ∀ c ∈ digits, isdigit c = true)
    (hnonempty : digits ≠ []) (h : EndsLiteral rest) :
    strtod (digits ++ rest) = .finite false (digits_value digits) := by
  let literal : DecimalLiteral :=
    { mark := [], negative := false, whole := digits, fraction := none, sign := .none,
      whole_digits := hdigits, fraction_digits := by simp, nonempty := by simpa using hnonempty }
  have hblanks : ∀ c ∈ ([] : Text), isspace c = true := by simp
  have hread := strtod_literal literal hblanks h
  simpa [literal, DecimalLiteral.text, DecimalLiteral.unsigned, DecimalLiteral.numeral,
    DecimalLiteral.magnitude] using hread

end libc
