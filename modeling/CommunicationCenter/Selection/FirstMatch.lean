import Mathlib.Data.List.Perm.Basic

namespace selection

variable {α β : Type}

/-- The image of the first element that satisfies the condition. -/
def first_match (p : α → Bool) (f : α → β) (l : List α) : Option β :=
  (l.find? p).map f

section

variable {p : α → Bool} {f : α → β}

theorem first_match_cons_of_pos {a : α} (h : p a = true) (l : List α) :
    first_match p f (a :: l) = some (f a) := by
  rw [first_match, List.find?_cons_of_pos h, Option.map_some]

theorem first_match_cons_of_neg {a : α} (h : p a = false) (l : List α) :
    first_match p f (a :: l) = first_match p f l := by
  rw [first_match, List.find?_cons_of_neg (by simp [h]), first_match]

theorem first_match_isSome_iff {l : List α} :
    (first_match p f l).isSome = true ↔ ∃ a ∈ l, p a = true := by
  rw [first_match, Option.isSome_map, List.find?_isSome]

theorem exists_of_first_match {l : List α} {b : β} (h : first_match p f l = some b) :
    ∃ a ∈ l, p a = true ∧ f a = b := by
  obtain ⟨a, hfound, himage⟩ := Option.map_eq_some_iff.mp h
  exact ⟨a, List.mem_of_find?_eq_some hfound, List.find?_some hfound, himage⟩

/-- Whether there is a match does not depend on the order. -/
theorem first_match_isSome_perm {l l' : List α} (h : l'.Perm l) :
    (first_match p f l').isSome = (first_match p f l).isSome := by
  rw [Bool.eq_iff_iff, first_match_isSome_iff, first_match_isSome_iff]
  simp only [h.mem_iff]

/-- Some order puts any given match first. -/
theorem exists_perm_first_match {l : List α} {a : α} (ha : a ∈ l) (hp : p a = true) :
    ∃ l', l'.Perm l ∧ first_match p f l' = some (f a) := by
  obtain ⟨before, after, rfl⟩ := List.append_of_mem ha
  exact ⟨a :: (before ++ after), List.perm_middle.symm, first_match_cons_of_pos hp _⟩

/-- The order of a list does not matter for its first match exactly when all matches have one
image. Nothing is assumed of the condition and of the image. -/
theorem first_match_perm_iff {l : List α} :
    (∀ l', l'.Perm l → first_match p f l' = first_match p f l) ↔
      ∀ a ∈ l, p a = true → ∀ b ∈ l, p b = true → f a = f b := by
  constructor
  · intro hsame a ha hpa b hb hpb
    obtain ⟨first, hfirst, hfirstMatch⟩ := exists_perm_first_match (f := f) ha hpa
    obtain ⟨second, hsecond, hsecondMatch⟩ := exists_perm_first_match (f := f) hb hpb
    rw [hsame first hfirst] at hfirstMatch
    rw [hsame second hsecond, hfirstMatch] at hsecondMatch
    exact Option.some.inj hsecondMatch
  · intro hone l' hperm
    have hsome := first_match_isSome_perm (p := p) (f := f) hperm
    cases hmatch : first_match p f l with
    | none =>
      rw [hmatch] at hsome
      exact Option.not_isSome_iff_eq_none.mp (by simp [hsome])
    | some b =>
      rw [hmatch] at hsome
      obtain ⟨b', hmatch'⟩ := Option.isSome_iff_exists.mp hsome
      obtain ⟨a, ha, hpa, rfl⟩ := exists_of_first_match hmatch
      obtain ⟨a', ha', hpa', rfl⟩ := exists_of_first_match hmatch'
      rw [hmatch', hone a' (hperm.mem_iff.mp ha') hpa' a ha hpa]

end

end selection
