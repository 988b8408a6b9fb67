import Mathlib.Data.List.Basic

namespace packing

variable {α β : Type} {capacity : Nat} {encode : α → List β}

/-- Items are encoded and packed in order into chunks of a limited length. A
chunk is closed when the next item does not fit, and the last one when it is not
empty. -/
def pack (capacity : Nat) (encode : α → List β) : List α → List β → List (List β)
  | [], [] => []
  | [], current => [current]
  | item :: items, current =>
    if current.length + (encode item).length > capacity then
      current :: pack capacity encode items (encode item)
    else pack capacity encode items (current ++ encode item)

/-- Every item has a code, and fits a chunk of its own. -/
def Fitting (capacity : Nat) (encode : α → List β) : Prop :=
  ∀ item, encode item ≠ [] ∧ (encode item).length ≤ capacity

theorem flatten_pack (items : List α) (current : List β) :
    (pack capacity encode items current).flatten = current ++ items.flatMap encode := by
  induction items generalizing current with
  | nil => cases current <;> simp [pack]
  | cons item items ih =>
    rw [pack]
    split
    · rw [List.flatten_cons, ih, List.flatMap_cons]
    · rw [ih, List.flatMap_cons, List.append_assoc]

/-- No chunk is empty or longer than the capacity, provided that every item fits into a chunk and
that the first one is not too long already. -/
theorem length_of_mem_pack (hfitting : Fitting capacity encode) {items : List α}
    {current chunk : List β} (hcurrent : current.length ≤ capacity)
    (hchunk : chunk ∈ pack capacity encode items current) :
    0 < chunk.length ∧ chunk.length ≤ capacity := by
  induction items generalizing current with
  | nil =>
    cases current with
    | nil => simp [pack] at hchunk
    | cons a current =>
      obtain rfl := List.mem_singleton.mp hchunk
      exact ⟨by simp, hcurrent⟩
  | cons item items ih =>
    obtain ⟨_, hfits⟩ := hfitting item
    rw [pack] at hchunk
    split at hchunk
    · next hfull =>
      rcases List.mem_cons.mp hchunk with rfl | hlater
      · exact ⟨by omega, hcurrent⟩
      · exact ih hfits hlater
    · next hroom => exact ih (by rw [List.length_append]; omega) hchunk

/-- Chunks are cut between items only: the items fall into segments, in order, and each chunk holds
the encoded items of one segment. -/
theorem exists_segments (hfitting : Fitting capacity encode) (items held : List α) :
    ∃ segments : List (List α), segments.flatten = held ++ items ∧
      pack capacity encode items (held.flatMap encode) = segments.map (List.flatMap encode) := by
  induction items generalizing held with
  | nil =>
    cases held with
    | nil => exact ⟨[], rfl, rfl⟩
    | cons item held =>
      refine ⟨[item :: held], by simp, ?_⟩
      obtain ⟨b, code, hcode⟩ := List.exists_cons_of_ne_nil (hfitting item).1
      simp [hcode, pack]
  | cons item items ih =>
    rw [pack]
    split
    · obtain ⟨segments, hflatten, hpack⟩ := ih [item]
      rw [List.flatMap_singleton] at hpack
      exact ⟨held :: segments, by simp [hflatten], by simp [hpack]⟩
    · obtain ⟨segments, hflatten, hpack⟩ := ih (held ++ [item])
      rw [List.flatMap_append, List.flatMap_singleton] at hpack
      exact ⟨segments, by simp [hflatten], hpack⟩

end packing
