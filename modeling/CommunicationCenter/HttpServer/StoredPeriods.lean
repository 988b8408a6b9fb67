import CommunicationCenter.HttpServer.BodyTexts
import CommunicationCenter.HttpServer.SchedulePost

open libc communication_center.system_state

namespace communication_center.http_server

/-- The loop stores the periods of the closed objects behind those collected before, as many as
there is room for. It is assumed that it ends without a fault. -/
theorem loop_result_eq {starts : List Text} {periods result : List schedule_period_t}
    (hbound : periods.length ≤ MAX_PERIODS) (h : loop_result starts periods = .ok result) :
    result = (periods ++ closed_periods starts).take MAX_PERIODS := by
  induction starts generalizing periods with
  | nil =>
    cases h
    simp [closed_periods, List.take_of_length_le hbound]
  | cons found rest ih =>
    rw [loop_result] at h
    split at h
    · next hroom =>
      split at h
      · next hclosed =>
        have hscan : closed_periods (found :: rest) =
            (scan_period found).toList ++ closed_periods rest := by
          unfold closed_periods
          cases hperiod : scan_period found <;> simp [hclosed, hperiod]
        have hnext : (periods ++ (scan_period found).toList).length ≤ MAX_PERIODS := by
          cases scan_period found <;> simp <;> omega
        rw [ih hnext h, hscan, List.append_assoc]
      · cases h
    · next hfull =>
      cases h
      rw [List.take_append, show MAX_PERIODS - result.length = 0 by omega,
        List.take_of_length_le hbound, List.take_zero, List.append_nil]

/-- When a brace closes every object, the loop runs to its end. -/
theorem loop_result_of_closed {starts : List Text} (h : ∀ found ∈ starts, brace ∈ found)
    {periods : List schedule_period_t} (hbound : periods.length ≤ MAX_PERIODS) :
    loop_result starts periods = .ok ((periods ++ closed_periods starts).take MAX_PERIODS) := by
  have hchain : List.IsChain (fun found _ => brace ∈ found) starts :=
    (List.pairwise_of_forall_mem_list fun found hfound _ _ => h found hfound).isChain
  obtain ⟨result, hresult⟩ := (loop_result_ok_iff hchain hbound).mpr (Or.inl h)
  rw [hresult, loop_result_eq hbound hresult]

/-- An accepted request stores the periods of the closed objects of its text, at most MAX_PERIODS
of them, and no others. -/
theorem schedule_post_parse_stored {req : httpd_req_t} {periods : List schedule_period_t}
    (h : schedule_post_parse req = .ok (some (.ok periods))) :
    ∃ text, read_body 512 req = .ok text ∧
      periods = (closed_periods (object_starts false text)).take MAX_PERIODS := by
  unfold schedule_post_parse at h
  cases hbody : read_body 512 req with
  | error e =>
    rw [hbody] at h
    cases h
  | ok text =>
    rw [hbody] at h
    have hloop : schedule_loop (start_count text) (some text) [] = some (.ok periods) :=
      Except.ok.inj h
    rw [schedule_loop_eq (object_starts_length_le text)] at hloop
    exact ⟨text, rfl, loop_result_eq (Nat.zero_le _) (Option.some.inj hloop)⟩

/-- An object of the text with the three members, and fewer than `MAX_PERIODS`
such objects in front of it. -/
def Collected (text : Text) (period : schedule_period_t) : Prop :=
  ∃ before found after, object_starts false text = before ++ found :: after ∧ brace ∈ found ∧
    (closed_periods before).length < MAX_PERIODS ∧ PeriodText found period

/-- What is among the first results of a filter comes from an element in front of which there are
fewer results. -/
theorem mem_take_filterMap {α β : Type} {f : α → Option β} {xs : List α} {b : β} {n : Nat} :
    b ∈ (xs.filterMap f).take n ↔ ∃ before x after, xs = before ++ x :: after ∧
      (before.filterMap f).length < n ∧ f x = some b := by
  induction xs generalizing n with
  | nil => simp
  | cons x xs ih =>
    constructor
    · intro hmem
      cases hx : f x with
      | none =>
        rw [List.filterMap_cons_none hx] at hmem
        obtain ⟨before, y, after, rfl, hbefore, hy⟩ := ih.mp hmem
        exact ⟨x :: before, y, after, rfl, by rwa [List.filterMap_cons_none hx], hy⟩
      | some c =>
        rw [List.filterMap_cons_some hx] at hmem
        cases n with
        | zero => simp at hmem
        | succ n =>
          rcases List.mem_cons.mp hmem with rfl | htail
          · exact ⟨[], x, xs, rfl, Nat.succ_pos n, hx⟩
          · obtain ⟨before, y, after, rfl, hbefore, hy⟩ := ih.mp htail
            refine ⟨x :: before, y, after, rfl, ?_, hy⟩
            rw [List.filterMap_cons_some hx, List.length_cons]
            omega
    · rintro ⟨before, y, after, hsplit, hbefore, hy⟩
      rw [hsplit, List.filterMap_append, List.filterMap_cons_some hy, List.take_append]
      apply List.mem_append_right
      obtain ⟨k, hk⟩ : ∃ k, n - (before.filterMap f).length = k + 1 := ⟨_, (Nat.succ_pred (by omega)).symm⟩
      rw [hk]
      simp

theorem mem_stored_iff {text : Text} {period : schedule_period_t} :
    period ∈ (closed_periods (object_starts false text)).take MAX_PERIODS ↔ Collected text period := by
  unfold Collected closed_periods
  rw [mem_take_filterMap]
  have hscan (found : Text) :
      (if brace ∈ found then scan_period found else none) = some period ↔
        brace ∈ found ∧ PeriodText found period := by
    rw [← scan_period_eq_some_iff]
    by_cases hclosed : brace ∈ found <;> simp [hclosed]
  simp only [hscan]
  constructor
  · rintro ⟨before, found, after, hsplit, hroom, hclosed, hperiod⟩
    exact ⟨before, found, after, hsplit, hclosed, hroom, hperiod⟩
  · rintro ⟨before, found, after, hsplit, hclosed, hroom, hperiod⟩
    exact ⟨before, found, after, hsplit, hroom, hclosed, hperiod⟩

/-- What an accepted request stores are the collected periods, as many as fit. -/
theorem schedule_post_parse_collected {req : httpd_req_t} {periods : List schedule_period_t}
    (h : schedule_post_parse req = .ok (some (.ok periods))) :
    periods.length ≤ MAX_PERIODS ∧ ∃ text, read_body 512 req = .ok text ∧
      ∀ period, period ∈ periods ↔ Collected text period := by
  obtain ⟨text, hbody, rfl⟩ := schedule_post_parse_stored h
  exact ⟨List.length_take_le _ _, text, hbody, fun period => mem_stored_iff⟩

end communication_center.http_server
