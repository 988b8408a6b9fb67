import CommunicationCenter.Libc.Float

namespace libc

/-- A reading of the values of `F` as exact numbers, under which constants stand
for themselves and neither a difference nor a comparison is rounded. -/
structure Exact {F : Type} [CFloat F] (value : F → ℚ) : Prop where
  lit : ∀ q, value (CFloat.lit q) = q
  sub : ∀ x y, value (CFloat.sub x y) = value x - value y
  gt : ∀ x y, CFloat.gt x y = true ↔ value y < value x

/-- Exact arithmetic has no value for the numerals that stand for no number. -/
instance : CFloat ℚ where
  ofNumeral
    | .nan => 0
    | .infinite _ => 0
    | .finite negative magnitude => signed negative magnitude
  sub x y := x - y
  gt x y := y < x
  fixed decimals x := Binary32.fixed decimals (.finite (x < 0) |x|)

theorem exact_rat : Exact (id : ℚ → ℚ) where
  lit := fun _ => rfl
  sub := fun _ _ => rfl
  gt := fun x y => by simp [CFloat.gt]

end libc
