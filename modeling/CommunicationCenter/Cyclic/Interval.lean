namespace cyclic

/-- The points met on a cycle of length `n` when walking from `first` to `last`,
both ends included. -/
def Between (n first last point : Nat) : Prop :=
  ∃ k, k ≤ (last + n - first) % n ∧ point = (first + k) % n

/-- Inside one turn the walk is an ordinary interval, or the complement of one
when it passes zero. -/
theorem between_iff {n first last point : Nat} (hfirst : first < n) (hlast : last < n)
    (hpoint : point < n) :
    Between n first last point ↔
      (first ≤ last ∧ first ≤ point ∧ point ≤ last) ∨
        (last < first ∧ (first ≤ point ∨ point ≤ last)) := by
  have hwrap (k : Nat) (hk : k < n) :
      (first + k) % n = if first + k < n then first + k else first + k - n := by
    split
    · next hlt => exact Nat.mod_eq_of_lt hlt
    · next hge => rw [Nat.mod_eq_sub_mod (by omega), Nat.mod_eq_of_lt (by omega)]
  have hspan : (last + n - first) % n = if first ≤ last then last - first else last + n - first := by
    split
    · rw [Nat.mod_eq_sub_mod (by omega), Nat.mod_eq_of_lt (by omega)]
      omega
    · exact Nat.mod_eq_of_lt (by omega)
  unfold Between
  rw [hspan]
  constructor
  · rintro ⟨k, hk, hpt⟩
    rw [hwrap k (by split at hk <;> omega)] at hpt
    split at hk <;> split at hpt <;> omega
  · intro h
    by_cases hbefore : first ≤ point
    · refine ⟨point - first, by split <;> omega, ?_⟩
      rw [hwrap _ (by omega), if_pos (by omega)]
      omega
    · refine ⟨point + n - first, by split <;> omega, ?_⟩
      rw [hwrap _ (by omega), if_neg (by omega)]
      omega

/-- The same walk without its last point. -/
def HalfOpen (n first last point : Nat) : Prop :=
  ∃ k, k < (last + n - first) % n ∧ point = (first + k) % n

theorem between_iff_halfOpen {n first last point : Nat} (hfirst : first < n) (hlast : last < n) :
    Between n first last point ↔ HalfOpen n first last point ∨ point = last := by
  have harrive : (first + (last + n - first) % n) % n = last := by
    have htotal : first + (last + n - first) = last + n := by omega
    rw [Nat.add_mod_mod, htotal, Nat.add_mod_right, Nat.mod_eq_of_lt hlast]
  constructor
  · rintro ⟨k, hk, rfl⟩
    rcases Nat.lt_or_eq_of_le hk with hlt | rfl
    · exact Or.inl ⟨k, hlt, rfl⟩
    · exact Or.inr harrive
  · rintro (⟨k, hk, rfl⟩ | rfl)
    · exact ⟨k, Nat.le_of_lt hk, rfl⟩
    · exact ⟨_, Nat.le_refl _, harrive.symm⟩

end cyclic
