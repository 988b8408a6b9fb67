import Mathlib.Data.List.Infix

namespace transition

/-- A property of the folded state holds after every prefix of the inputs. -/
def AfterEveryPrefix {S M : Type} (receive : S → M → S) (P : S → Prop) (start : S)
    (inputs : List M) : Prop :=
  ∀ pre, pre <+: inputs → P (pre.foldl receive start)

variable {S M : Type} {receive : S → M → S} {P : S → Prop}

theorem afterEveryPrefix_nil (start : S) : AfterEveryPrefix receive P start [] ↔ P start := by
  simp [AfterEveryPrefix]

theorem afterEveryPrefix_cons (start : S) (input : M) (inputs : List M) :
    AfterEveryPrefix receive P start (input :: inputs) ↔
      P start ∧ AfterEveryPrefix receive P (receive start input) inputs := by
  constructor
  · intro h
    exact ⟨h [] List.nil_prefix, fun pre hpre => h (input :: pre)
      (List.cons_prefix_cons.mpr ⟨rfl, hpre⟩)⟩
  · rintro ⟨hstart, hrest⟩ pre hpre
    rcases List.prefix_cons_iff.mp hpre with rfl | ⟨tail, rfl, htail⟩
    · exact hstart
    · exact hrest tail htail

theorem afterEveryPrefix_append (start : S) (first second : List M) :
    AfterEveryPrefix receive P start (first ++ second) ↔
      AfterEveryPrefix receive P start first ∧
        AfterEveryPrefix receive P (first.foldl receive start) second := by
  induction first generalizing start with
  | nil =>
    rw [List.nil_append, List.foldl_nil, afterEveryPrefix_nil, iff_and_self]
    exact fun h => h [] List.nil_prefix
  | cons input first ih =>
    rw [List.cons_append, afterEveryPrefix_cons, ih, afterEveryPrefix_cons, List.foldl_cons,
      and_assoc]

end transition
