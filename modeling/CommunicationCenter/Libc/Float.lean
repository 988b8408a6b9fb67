import CommunicationCenter.Libc.Number

namespace libc

/-- The operations on `float` that C code here relies on: the conversion of a
numeral that was read as a `double`, subtraction, comparison and `%.*f`. -/
class CFloat (F : Type) where
  ofNumeral : Numeral → F
  sub : F → F → F
  gt : F → F → Bool
  fixed : Nat → F → Text

/-- A floating constant of the source. -/
def CFloat.lit {F : Type} [CFloat F] (magnitude : ℚ) : F :=
  ofNumeral (.finite false magnitude)

/-- IEEE 754 single precision values. Magnitudes come from `round_magnitude`. -/
inductive Binary32 where
  | nan
  | infinite (negative : Bool)
  | finite (negative : Bool) (magnitude : ℚ)
  deriving DecidableEq

def pow2 (e : Int) : ℚ :=
  if 0 ≤ e then (2 : ℚ) ^ e.toNat else 1 / (2 : ℚ) ^ (-e).toNat

/-- The nearest integer to a nonnegative rational, ties to even. -/
def round_half_even (q : ℚ) : Nat :=
  let whole := q.num.toNat / q.den
  let twice := 2 * (q.num.toNat % q.den)
  if twice < q.den then whole
  else if twice = q.den then whole + whole % 2
  else whole + 1

/-- The exponent of the leading bit of a positive rational. -/
def leading_exponent (q : ℚ) : Int :=
  let e : Int := (Nat.log2 q.num.toNat : Int) - Nat.log2 q.den
  if pow2 e ≤ q then e else e - 1

/-- Round to a binary format with gradual underflow; `none` is an overflow. -/
def round_magnitude (precision : Nat) (emin emax : Int) (q : ℚ) : Option ℚ :=
  if q = 0 then some 0
  else
    let ulp := pow2 (max (leading_exponent q) emin - (precision - 1))
    let rounded := round_half_even (q / ulp) * ulp
    if rounded < pow2 (emax + 1) then some rounded else none

def Binary32.ofExact (negative : Bool) (magnitude : ℚ) : Binary32 :=
  ((round_magnitude 24 (-126) 127 magnitude).map (.finite negative)).getD (.infinite negative)

/-- `atof` rounds to `double`, and the assignment rounds again to `float`. -/
def Binary32.ofNumeral : Numeral → Binary32
  | .nan => .nan
  | .infinite negative => .infinite negative
  | .finite negative magnitude =>
    ((round_magnitude 53 (-1022) 1023 magnitude).map (.ofExact negative)).getD (.infinite negative)

def signed (negative : Bool) (magnitude : ℚ) : ℚ :=
  if negative then -magnitude else magnitude

def Binary32.sub : Binary32 → Binary32 → Binary32
  | .nan, _ => .nan
  | _, .nan => .nan
  | .infinite n, .infinite m => if n = m then .nan else .infinite n
  | .infinite n, .finite .. => .infinite n
  | .finite .., .infinite m => .infinite (!m)
  | .finite n p, .finite m q =>
    let exact := signed n p - signed m q
    if exact = 0 then .finite (n && !m) 0
    else .ofExact (exact < 0) (if exact < 0 then -exact else exact)

def Binary32.gt : Binary32 → Binary32 → Bool
  | .nan, _ => false
  | _, .nan => false
  | .infinite n, .infinite m => !n && m
  | .infinite n, .finite .. => !n
  | .finite .., .infinite m => m
  | .finite n p, .finite m q => signed m q < signed n p

/-- The decimal digits of `n`, with zeros in front up to the given width. -/
def padded (width n : Nat) : Text :=
  List.replicate (width - (decimal n).length) 48 ++ decimal n

def minus (negative : Bool) : Text :=
  if negative then [45] else []

def Binary32.fixed (decimals : Nat) : Binary32 → Text
  | .nan => ascii "nan"
  | .infinite n => minus n ++ ascii "inf"
  | .finite n q =>
    let scaled := round_half_even (q * 10 ^ decimals)
    minus n ++ decimal (scaled / 10 ^ decimals) ++
      (if decimals = 0 then [] else 46 :: padded decimals (scaled % 10 ^ decimals))

instance : CFloat Binary32 where
  ofNumeral := Binary32.ofNumeral
  sub := Binary32.sub
  gt := Binary32.gt
  fixed := Binary32.fixed

example : Binary32.fixed 2 (.ofNumeral (strtod (ascii "-54.205"))) = ascii "-54.21" := by
  decide +kernel

end libc
