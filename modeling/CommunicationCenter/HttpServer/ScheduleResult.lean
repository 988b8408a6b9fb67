import CommunicationCenter.HttpServer.ObjectStarts
import Mathlib.Data.List.Chain

open libc communication_center.system_state

namespace communication_center.http_server

/-- A position of the key has the key's quote in front and is not the NUL. -/
theorem found_eq {text found : Text} (h : strstr start_key text = some found) :
    ∃ rest, found = 34 :: rest ∧ (brace ∈ found ↔ brace ∈ rest) := by
  obtain ⟨rest, rfl⟩ := prefix_of_strstr h
  exact ⟨start_key.tail ++ rest, rfl, by simp [start_key, ascii, brace]⟩

theorem collect_period_eq {periods : List schedule_period_t}
    (h : periods.length < MAX_PERIODS) (p : Text) :
    collect_period p periods = .ok (periods ++ (scan_period p).toList) := by
  unfold collect_period
  cases scan_period p <;> simp [store_local, h]

theorem skip_object_eq (c : UInt8) (rest : Text) :
    skip_object (c :: rest) = .ok ((strchr brace rest).map List.tail) := by
  cases hbrace : strchr brace rest with
  | none => simp [skip_object, next_char, hbrace]
  | some after =>
    obtain ⟨tail, rfl, _⟩ := strchr_suffix hbrace
    simp [skip_object, next_char, hbrace]

/-- From a cursor inside the text the loop never faults before its condition is
evaluated again, and a missing closing brace leaves it with a NULL cursor. -/
theorem schedule_loop_step_eq (p : Text) (periods : List schedule_period_t) :
    schedule_loop_step (some p) periods =
      .ok ((strstr start_key p).bind fun found =>
        if periods.length < MAX_PERIODS then
          some ((strchr brace found.tail).map List.tail, periods ++ (scan_period found).toList)
        else none) := by
  rw [schedule_loop_step]
  cases hfound : strstr start_key p with
  | none => rfl
  | some found =>
    obtain ⟨rest, rfl, _⟩ := found_eq hfound
    by_cases hroom : periods.length < MAX_PERIODS
    · simp only [Option.bind_some, hroom, if_true, collect_period_eq, skip_object_eq,
        List.tail_cons]
      rfl
    · simp [hroom]

/-- What the loop computes, given the keys it visits. -/
def loop_result : List Text → List schedule_period_t → Except Fault (List schedule_period_t)
  | [], periods => .ok periods
  | found :: rest, periods =>
    if periods.length < MAX_PERIODS then
      if brace ∈ found then loop_result rest (periods ++ (scan_period found).toList)
      else .error .nullPointer
    else .ok periods

/-- The loop ends within one iteration for every stretch that has a key. Its result is what a
simple recursion over the stretches gives, a fault included, for any periods that are collected
before. -/
theorem schedule_loop_eq {iterations : Nat} {p : Text}
    (h : (object_starts false p).length ≤ iterations) (periods : List schedule_period_t) :
    schedule_loop iterations (some p) periods =
      some (loop_result (object_starts false p) periods) := by
  induction iterations generalizing p periods with
  | zero =>
    have hnil := List.eq_nil_of_length_eq_zero (Nat.le_zero.mp h)
    unfold schedule_loop
    rw [schedule_loop_step_eq, hnil]
    rw [object_starts_eq] at hnil
    cases hfound : strstr start_key p with
    | none => rfl
    | some found => simp [hfound] at hnil
  | succ iterations ih =>
    rw [object_starts_eq] at h ⊢
    unfold schedule_loop
    rw [schedule_loop_step_eq]
    cases hfound : strstr start_key p with
    | none => rfl
    | some found =>
      obtain ⟨rest, rfl, hmem⟩ := found_eq hfound
      simp only [hfound, List.tail_cons, List.length_cons, object_starts_seen] at h
      simp only [Option.bind_some, List.tail_cons, object_starts_seen, loop_result]
      by_cases hroom : periods.length < MAX_PERIODS
      · simp only [hroom, if_true]
        cases hbrace : strchr brace rest with
        | none =>
          -- the next evaluation of the condition passes NULL to strstr
          rw [if_neg fun hin => strchr_eq_none_iff.mp hbrace (hmem.mp hin)]
          cases iterations <;> rfl
        | some after =>
          have hin : brace ∈ rest := by
            by_contra hnot
            rw [strchr_eq_none_iff.mpr hnot] at hbrace
            cases hbrace
          rw [if_pos (hmem.mpr hin)]
          simp only [hbrace, Option.map_some, Option.getD_some] at h ⊢
          exact ih (by omega) _
      · simp [hroom]

/-- Only the last stretch of a text can be without a closing brace, because the search for a key
goes on behind the brace of the one before. -/
theorem object_starts_isChain (text : Text) :
    List.IsChain (fun found _ => brace ∈ found) (object_starts false text) := by
  induction hlength : text.length using Nat.strong_induction_on generalizing text with
  | _ n ih =>
    rw [object_starts_eq]
    cases hfound : strstr start_key text with
    | none => exact List.isChain_nil
    | some found =>
      obtain ⟨rest, rfl, hmem⟩ := found_eq hfound
      simp only [List.tail_cons, object_starts_seen]
      cases hbrace : strchr brace rest with
      | none => exact List.isChain_singleton _
      | some after =>
        obtain ⟨tail, rfl, hsuffix⟩ := strchr_suffix hbrace
        have hshort : tail.length < n := by
          have hle := (strstr_suffix hfound).length_le
          have hle' := hsuffix.length_le
          simp only [List.length_cons] at hle hle'
          omega
        have hin : brace ∈ rest := hsuffix.subset (by simp)
        simp only [Option.map_some, Option.getD_some, List.tail_cons]
        refine List.isChain_cons.mpr ⟨fun _ _ => hmem.mpr hin, ih _ hshort tail rfl⟩

end communication_center.http_server
