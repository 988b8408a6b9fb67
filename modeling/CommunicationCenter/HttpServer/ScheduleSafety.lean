import CommunicationCenter.HttpServer.ScheduleResult

open libc communication_center.system_state

namespace communication_center.http_server

theorem loop_result_length {starts : List Text} {periods result : List schedule_period_t}
    (hbound : periods.length ≤ MAX_PERIODS) (h : loop_result starts periods = .ok result) :
    result.length ≤ MAX_PERIODS := by
  induction starts generalizing periods with
  | nil =>
    cases h
    exact hbound
  | cons found rest ih =>
    rw [loop_result] at h
    split at h
    · next hroom =>
      split at h
      · refine ih ?_ h
        cases scan_period found <;> simp <;> omega
      · cases h
    · cases h
      exact hbound

/-- The only fault of the loop is the NULL cursor. It never reads behind the end of the text, and
never writes behind the end of the array of periods. -/
theorem loop_result_fault {starts : List Text} {periods : List schedule_period_t} {fault : Fault}
    (h : loop_result starts periods = .error fault) : fault = .nullPointer := by
  induction starts generalizing periods with
  | nil => cases h
  | cons found rest ih =>
    rw [loop_result] at h
    split at h
    · split at h
      · exact ih h
      · cases h
        rfl
    · cases h

/-- The loop gets past every key when a brace closes the last one too, or when
the local array is full before that key is reached. -/
theorem loop_result_ok_iff {starts : List Text}
    (hchain : List.IsChain (fun found _ => brace ∈ found) starts)
    {periods : List schedule_period_t} (hbound : periods.length ≤ MAX_PERIODS) :
    (∃ result, loop_result starts periods = .ok result) ↔
      (∀ found ∈ starts, brace ∈ found) ∨
        MAX_PERIODS ≤ periods.length + (closed_periods starts).length := by
  induction starts generalizing periods with
  | nil => simp [loop_result]
  | cons found rest ih =>
    rw [loop_result]
    by_cases hroom : periods.length < MAX_PERIODS
    · by_cases hclosed : brace ∈ found
      · have hscan : (closed_periods (found :: rest)).length =
            (scan_period found).toList.length + (closed_periods rest).length := by
          unfold closed_periods
          cases hperiod : scan_period found <;> simp [hclosed, hperiod, Nat.add_comm]
        have hnext : (periods ++ (scan_period found).toList).length ≤ MAX_PERIODS := by
          cases scan_period found <;> simp <;> omega
        rw [if_pos hroom, if_pos hclosed, ih hchain.tail hnext, hscan, List.length_append,
          Nat.add_assoc, List.forall_mem_cons, and_iff_right hclosed]
      · have hlast : rest = [] := by
          cases rest with
          | nil => rfl
          | cons next rest => exact absurd (List.isChain_cons_cons.mp hchain).1 hclosed
        subst hlast
        have hnone : closed_periods [found] = [] := by simp [closed_periods, hclosed]
        rw [if_pos hroom, if_neg hclosed, hnone]
        simp [hclosed]
        omega
    · rw [if_neg hroom]
      simp
      omega

/-- The iterations are bounded by the occurrences of the key, whatever the text:
the loop returns at most `MAX_PERIODS` periods or faults on a NULL cursor. -/
theorem schedule_loop_outcome (text : Text) :
    (∃ periods, schedule_loop (start_count text) (some text) [] = some (.ok periods) ∧
      periods.length ≤ MAX_PERIODS) ∨
    schedule_loop (start_count text) (some text) [] = some (.error .nullPointer) := by
  rw [schedule_loop_eq (object_starts_length_le text)]
  cases hresult : loop_result (object_starts false text) [] with
  | ok periods => exact Or.inl ⟨periods, rfl, loop_result_length (by simp) hresult⟩
  | error fault => exact Or.inr (by rw [loop_result_fault hresult])

/-- For every body the loop runs to its end without a fault exactly when no key stays without a
closing brace, or eight periods were read before such a key. The body need not be JSON, nor hold a
period; the condition is about the places of keys and braces in its text only. -/
theorem schedule_loop_safe_iff (body : List UInt8) :
    (∃ periods,
        schedule_loop (start_count (cstr body)) (some (cstr body)) [] = some (.ok periods) ∧
          periods.length ≤ MAX_PERIODS) ↔
      ¬ Unterminated (cstr body) ∨
        MAX_PERIODS ≤ (closed_periods (object_starts false (cstr body))).length := by
  have hempty : ([] : List schedule_period_t).length ≤ MAX_PERIODS := Nat.zero_le _
  have hiff := loop_result_ok_iff (object_starts_isChain (cstr body)) hempty
  rw [List.length_nil, Nat.zero_add] at hiff
  rw [unterminated_iff, schedule_loop_eq (object_starts_length_le _)]
  simp only [not_exists, not_and, not_not]
  rw [← hiff]
  constructor
  · rintro ⟨periods, hresult, _⟩
    exact ⟨periods, Option.some.inj hresult⟩
  · rintro ⟨periods, hresult⟩
    exact ⟨periods, by rw [hresult], loop_result_length (by simp) hresult⟩

private def truncated_body : List UInt8 :=
  ascii "\x7b\"periods\":[\x7b\"start\":\"08:0"

/-- A body that ends behind its only key makes the loop pass NULL to `strstr`. -/
theorem schedule_loop_unsafe :
    ¬ ∀ body : List UInt8, 1 ≤ body.length → body.length ≤ 511 → ∃ periods,
      schedule_loop (start_count (cstr body)) (some (cstr body)) [] = some (.ok periods) ∧
        periods.length ≤ MAX_PERIODS := by
  intro h
  obtain ⟨periods, hresult, _⟩ := h truncated_body (by decide) (by decide)
  have hfault : schedule_loop (start_count (cstr truncated_body)) (some (cstr truncated_body)) [] =
      some (.error .nullPointer) := by decide
  rw [hfault] at hresult
  cases hresult

end communication_center.http_server
