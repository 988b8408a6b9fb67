import Mathlib.Order.Basic

namespace latch

/-- A condition on all steps behind `k`, up to `n + 1`, splits off the last step. -/
theorem later_succ_iff {P hold : ℕ → Prop} {n : ℕ} :
    (∀ j, P j → j ≤ n + 1 → hold j) ↔
      (∀ j, P j → j ≤ n → hold j) ∧ (P (n + 1) → hold (n + 1)) := by
  constructor
  · intro h
    exact ⟨fun j hj hle => h j hj (Nat.le_succ_of_le hle), fun hj => h _ hj (Nat.le_refl _)⟩
  · rintro ⟨hearlier, hlast⟩ j hj hle
    rcases Nat.le_succ_iff.mp hle with hle | rfl
    · exact hearlier j hj hle
    · exact hlast hj

/-- A bit that every step sets or keeps, and that does not change between steps,
is on behind the step `n` exactly when some step set it and all later ones kept
it, or when it was on at first and all steps kept it. -/
theorem on_iff {start hold before after : ℕ → Prop} {n : ℕ}
    (hstep : ∀ i ≤ n, after i ↔ start i ∨ (before i ∧ hold i))
    (hcarried : ∀ i < n, before (i + 1) ↔ after i) :
    after n ↔ (∃ k ≤ n, start k ∧ ∀ j, k < j → j ≤ n → hold j) ∨
      (before 0 ∧ ∀ j ≤ n, hold j) := by
  induction n with
  | zero =>
    rw [hstep 0 (Nat.le_refl 0)]
    constructor
    · rintro (hstart | ⟨hon, hhold⟩)
      · exact Or.inl ⟨0, Nat.le_refl 0, hstart, fun j hlt hle => by omega⟩
      · exact Or.inr ⟨hon, fun j hle => Nat.le_zero.mp hle ▸ hhold⟩
    · rintro (⟨k, hk, hstart, _⟩ | ⟨hon, hhold⟩)
      · exact Or.inl (Nat.le_zero.mp hk ▸ hstart)
      · exact Or.inr ⟨hon, hhold 0 (Nat.le_refl 0)⟩
  | succ n ih =>
    have hprevious := ih (fun i hi => hstep i (Nat.le_succ_of_le hi))
      fun i hi => hcarried i (Nat.lt_succ_of_lt hi)
    rw [hstep (n + 1) (Nat.le_refl _), hcarried n (Nat.lt_succ_self n), hprevious]
    constructor
    · rintro (hstart | ⟨⟨k, hk, hstart, hhold⟩ | ⟨hon, hhold⟩, hlast⟩)
      · exact Or.inl ⟨n + 1, Nat.le_refl _, hstart, fun j hlt hle => by omega⟩
      · exact Or.inl ⟨k, Nat.le_succ_of_le hk, hstart, later_succ_iff.mpr ⟨hhold, fun _ => hlast⟩⟩
      · refine Or.inr ⟨hon, fun j hle => ?_⟩
        rcases Nat.le_succ_iff.mp hle with hle | rfl
        · exact hhold j hle
        · exact hlast
    · rintro (⟨k, hk, hstart, hhold⟩ | ⟨hon, hhold⟩)
      · rcases Nat.le_succ_iff.mp hk with hk | rfl
        · obtain ⟨hearlier, hlast⟩ := later_succ_iff.mp hhold
          exact Or.inr ⟨Or.inl ⟨k, hk, hstart, hearlier⟩, hlast (Nat.lt_succ_of_le hk)⟩
        · exact Or.inl hstart
      · exact Or.inr ⟨Or.inr ⟨hon, fun j hle => hhold j (Nat.le_succ_of_le hle)⟩,
          hhold _ (Nat.le_refl _)⟩

end latch
