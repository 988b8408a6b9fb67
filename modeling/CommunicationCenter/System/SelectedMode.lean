import CommunicationCenter.System.Control

open libc transition communication_center.system_state communication_center.http_server

namespace communication_center.system

variable {F : Type}

/-- The user's selection after one more step: an accepted request for a mode
replaces it. -/
def select (mode : system_mode_t) : Label F → system_mode_t
  | .request (.post_mode req) => match mode_post_parse req with
    | .ok new_mode => new_mode
    | .error _ => mode
  | _ => mode

/-- The mode of the most recently accepted request, and manual if there was none. -/
def selected_mode (past : List (Label F)) : system_mode_t :=
  past.foldl select MODE_MANUAL

/-- The rules that a tick evaluates in a mode without a schedule. -/
def unscheduled_mode (mode : system_mode_t) : Option system_mode_t :=
  if mode = MODE_MANUAL then none else some mode

/-- Without a schedule, the selection is what the status reports at any time and
what governs any next tick. -/
def SelectionGoverns (past : List (Label F)) (s : State F) : Prop :=
  s.schedule = [] → ∀ now, (status_snapshot now s).1 = selected_mode past ∧
    governing_mode now s = unscheduled_mode (selected_mode past)

/-- A request that clears the schedule finds the selected mode in place. -/
def ClearedAsSelected (past : List (Label F)) (s : State F) : Label F → Prop
  | .request (.post_schedule req) =>
    schedule_post_parse req = .ok (some (.ok [])) → s.current_mode = selected_mode past
  | _ => True

theorem selected_mode_snoc (past : List (Label F)) (label : Label F) :
    selected_mode (past ++ [label]) = select (selected_mode past) label := by
  rw [selected_mode, List.foldl_append]
  rfl

theorem selectionGoverns_iff (past : List (Label F)) (s : State F) :
    SelectionGoverns past s ↔ (s.schedule = [] → s.current_mode = selected_mode past) := by
  apply forall_congr'
  intro hempty
  constructor
  · intro h
    exact (h ⟨0, 0⟩).1
  · intro hmode now
    refine ⟨hmode, ?_⟩
    rw [← hmode, governing_mode, unscheduled_mode, hempty]
    simp

variable [CFloat F]

/-- A tick that evaluates rules finds their mode in place already. -/
def TickAsSelected (s : State F) : Label F → Prop
  | .task (.auto_update now) => ∀ mode, governing_mode now s = some mode → mode = s.current_mode
  | _ => True

/-- Unless a tick installs another mode, a step changes the mode as it changes the
selection. -/
theorem current_mode_of_ticks {past : List (Label F)} {sys next : System F} {label : Label F}
    {emitted : List (Event F)} (h : sys.shared.current_mode = selected_mode past)
    (htick : TickAsSelected sys.shared label) (hstep : step sys label = some (next, emitted)) :
    next.shared.current_mode = selected_mode (past ++ [label]) := by
  rw [selected_mode_snoc, mode_step hstep, ← h]
  unfold mode_after
  split
  · next now =>
    cases hgoverning : governing_mode now sys.shared with
    | none => rfl
    | some mode => exact htick mode hgoverning
  · next req =>
    rw [select]
    cases mode_post_parse req with
    | ok new_mode => rfl
    | error e => rfl
  · next _ hpost =>
    unfold select
    split
    · exact absurd rfl (hpost _)
    · rfl

omit [CFloat F] in
theorem tickAsSelected_of_empty {s : State F} (hempty : s.schedule = []) (label : Label F) :
    TickAsSelected s label := by
  unfold TickAsSelected
  split
  · intro mode hgoverning
    rw [governing_mode, hempty] at hgoverning
    split at hgoverning
    · cases hgoverning
    · exact (Option.some.inj hgoverning).symm
  · trivial

/-- The step keeps the selection in place while the schedule is empty, and a
clearing request has to find it there. -/
theorem SelectionGoverns.step {past : List (Label F)} {sys next : System F} {label : Label F}
    {emitted : List (Event F)} (h : SelectionGoverns past sys.shared)
    (hcleared : ClearedAsSelected past sys.shared label)
    (hstep : step sys label = some (next, emitted)) :
    SelectionGoverns (past ++ [label]) next.shared := by
  rw [selectionGoverns_iff] at h ⊢
  intro hempty
  rcases schedule_step hstep with hkept | ⟨req, periods, rfl, hparse, hstored⟩
  · have hbefore := hkept.symm.trans hempty
    exact current_mode_of_ticks (h hbefore) (tickAsSelected_of_empty hbefore label) hstep
  · obtain rfl := hstored.symm.trans hempty
    exact current_mode_of_ticks (hcleared hparse) trivial hstep

/-- A clearing request after which the selection governs was posted in the
selected mode. -/
theorem clearedAsSelected_of_selectionGoverns {past : List (Label F)} {sys next : System F}
    {label : Label F} {emitted : List (Event F)} (hstep : step sys label = some (next, emitted))
    (h : SelectionGoverns (past ++ [label]) next.shared) :
    ClearedAsSelected past sys.shared label := by
  rw [selectionGoverns_iff, selected_mode_snoc] at h
  unfold ClearedAsSelected
  split
  · next req =>
    intro hparse
    rw [post_schedule_step hparse hstep] at h
    exact h rfl
  · trivial

/-- In every run, the selection governs whenever the schedule is empty exactly when no schedule is
cleared while a mode other than the selected one is current. The selection is the mode of the last
accepted request for one, which may be any number. -/
theorem selection_governs_iff (labels : List (Label F)) :
    EveryState step System.initial labels (fun past sys _ => SelectionGoverns past sys.shared) ↔
      EveryStep step System.initial labels fun past sys label =>
        ClearedAsSelected past sys.shared label := by
  constructor
  · intro h
    refine h.everyStep fun past sys events label next emitted _ hstep _ hnext => ?_
    exact clearedAsSelected_of_selectionGoverns hstep hnext
  · intro h
    have hinitial : SelectionGoverns [] (System.initial : System F).shared :=
      (selectionGoverns_iff _ _).mpr fun _ => rfl
    exact h.everyState hinitial fun _ _ _ _ _ _ hmid hlabel hstep => hmid.step hlabel hstep

/-- The selection is lost only through a tick in a period of another mode. -/
theorem selection_governs_of_ticks {labels : List (Label F)}
    (h : EveryStep step System.initial labels fun _ sys label => TickAsSelected sys.shared label) :
    EveryState step System.initial labels fun past sys _ => SelectionGoverns past sys.shared := by
  have hmode : EveryState step (System.initial : System F) labels fun past sys _ =>
      sys.shared.current_mode = selected_mode past :=
    h.everyState rfl fun _ _ _ _ _ _ hmid hlabel hstep => current_mode_of_ticks hmid hlabel hstep
  intro past sys events hpast hrun
  rw [selectionGoverns_iff]
  exact fun _ => hmode past sys events hpast hrun

private def scheduled_and_cleared (now : tm) : List (Label Binary32) :=
  [.request (.post_mode (.delivered (ascii "\x7b\"mode\":0\x7d"))), .handler,
    .request (.post_schedule (.delivered
      (ascii "\x7b\"start\":\"00:00\",\"end\":\"23:59\",\"mode\":1\x7d"))), .handler,
    .task (.read_clock 0), .task .refresh, .task (.auto_update now),
    .request (.post_schedule (.delivered (ascii "\x7b\"periods\":[]\x7d")))]

/-- The mode of a period that was active stays after the schedule was cleared. -/
theorem selection_governs_after_clearing :
    ¬ ∀ labels : List (Label Binary32), EveryState step System.initial labels fun past sys _ =>
      SelectionGoverns past sys.shared := by
  intro h
  have hrun : (exec step System.initial (scheduled_and_cleared ⟨12, 30⟩)).map (fun r =>
      (r.1.shared.schedule, r.1.shared.current_mode)) = some ([], 1) := by
    decide +kernel
  have hselected : selected_mode (scheduled_and_cleared ⟨12, 30⟩) = 0 := by decide +kernel
  obtain ⟨⟨sys, events⟩, hexec, hend⟩ := Option.map_eq_some_iff.mp hrun
  obtain ⟨hempty, hmode⟩ := Prod.mk.inj hend
  have hgoverns : SelectionGoverns (scheduled_and_cleared ⟨12, 30⟩) sys.shared :=
    h _ _ sys events List.prefix_rfl (.of_exec hexec)
  rw [selectionGoverns_iff, hselected, hmode] at hgoverns
  exact absurd (hgoverns hempty) (by decide)

end communication_center.system
