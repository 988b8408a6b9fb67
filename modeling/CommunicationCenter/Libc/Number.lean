import CommunicationCenter.Libc.Text
import Mathlib.Algebra.Field.Rat

namespace libc

def INT_MAX : Int := 2147483647
def INT_MIN : Int := -2147483648

/-- An optional sign; true stands for a minus. -/
def sign : Text → Bool × Text
  | 45 :: text => (true, text)
  | 43 :: text => (false, text)
  | text => (false, text)

/-- A base ten integer after optional white space, and the text behind it.
The type `long` has 32 bits on the target, and values outside it saturate. -/
def strtol (text : Text) : Option (Int × Text) :=
  let (negative, text) := sign (skip_space text)
  let digits := text.takeWhile isdigit
  if digits = [] then none
  else
    let value : Int := digits_value digits
    some (max INT_MIN (min INT_MAX (if negative then -value else value)), text.dropWhile isdigit)

def atoi (text : Text) : Int :=
  ((strtol text).map Prod.fst).getD 0

/-- What `strtod` reads, before rounding: the sign and the exact magnitude. -/
inductive Numeral where
  | nan
  | infinite (negative : Bool)
  | finite (negative : Bool) (magnitude : ℚ)
  deriving DecidableEq

def tolower (c : UInt8) : UInt8 :=
  if 65 ≤ c && c ≤ 90 then c + 32 else c

def toupper (c : UInt8) : UInt8 :=
  if 97 ≤ c && c ≤ 122 then c - 32 else c

def decimal_digit (c : UInt8) : Option Nat :=
  if isdigit c then some (c.toNat - 48) else none

def hex_digit (c : UInt8) : Option Nat :=
  if isdigit c then some (c.toNat - 48)
  else if 97 ≤ tolower c && tolower c ≤ 102 then some ((tolower c).toNat - 87)
  else none

def digit_run (digit : UInt8 → Option Nat) (text : Text) : List Nat × Text :=
  ((text.takeWhile fun c => (digit c).isSome).filterMap digit,
    text.dropWhile fun c => (digit c).isSome)

/-- The power that an optional exponent part stands for. -/
def exponent_factor (mark : UInt8) (base : ℚ) : Text → ℚ
  | [] => 1
  | c :: text =>
    if tolower c = mark then
      let (negative, text) := sign text
      let power := base ^ digits_value (text.takeWhile isdigit)
      if negative then 1 / power else power
    else 1

/-- The unsigned numeral at the start of the text, if it has a digit. -/
def unsigned_numeral (digit : UInt8 → Option Nat) (base : Nat) (mark : UInt8) (exponentBase : ℚ)
    (text : Text) : Option ℚ :=
  let (whole, rest) := digit_run digit text
  let (fraction, rest) := match rest with
    | 46 :: rest => digit_run digit rest
    | _ => ([], rest)
  if whole ++ fraction = [] then none
  else
    let digits : ℚ := Nat.ofDigits base (whole ++ fraction).reverse
    some (digits / (base : ℚ) ^ fraction.length * exponent_factor mark exponentBase rest)

def hex_numeral : Text → Option ℚ
  | 48 :: x :: text => if tolower x = 120 then unsigned_numeral hex_digit 16 112 2 text else none
  | _ => none

/-- The longest numeric prefix after white space. Text without one reads as zero. -/
def strtod (text : Text) : Numeral :=
  let (negative, text) := sign (skip_space text)
  let word := (text.take 3).map tolower
  if word = ascii "inf" then .infinite negative
  else if word = ascii "nan" then .nan
  else match hex_numeral text with
    | some magnitude => .finite negative magnitude
    | none => match unsigned_numeral decimal_digit 10 101 10 text with
      | some magnitude => .finite negative magnitude
      | none => .finite false 0

example : strtod (ascii " -12.50e1x") = .finite true 125 := by decide +kernel

theorem sign_of_digit {c : UInt8} (h : isdigit c = true) (text : Text) :
    sign (c :: text) = (false, c :: text) := by
  unfold sign
  split
  · next heq => cases heq; exact absurd h (by decide)
  · next heq => cases heq; exact absurd h (by decide)
  · rfl

/-- Blanks and a run of digits that fits an `int` are read as the number that
the digits stand for, and as zero when the text ends before the first digit. -/
theorem atoi_digits {blanks digits rest : Text} (hblanks : ∀ c ∈ blanks, isspace c = true)
    (hdigits : ∀ c ∈ digits, isdigit c = true) (hempty : digits = [] → rest = [])
    (hrest : ∀ c ∈ rest.head?, isdigit c = false) (hmax : (digits_value digits : Int) ≤ INT_MAX) :
    atoi (blanks ++ (digits ++ rest)) = digits_value digits := by
  unfold atoi strtol
  rw [skip_space_append hblanks]
  cases digits with
  | nil => rw [hempty rfl]; rfl
  | cons d digits =>
    have hd := hdigits d (by simp)
    have htake : (d :: (digits ++ rest)).takeWhile isdigit = d :: digits := by
      rw [← List.cons_append, List.takeWhile_append_of_pos hdigits]
      cases rest with
      | nil => simp
      | cons c rest => simp [hrest c rfl]
    have hmin : INT_MIN ≤ (digits_value (d :: digits) : Int) := by
      unfold INT_MIN
      omega
    rw [List.cons_append, skip_space_of_digit hd, sign_of_digit hd]
    simp only [htake, reduceCtorEq, Bool.false_eq_true, if_false, min_eq_right hmax,
      max_eq_right hmin, Option.map_some, Option.getD_some]

end libc
