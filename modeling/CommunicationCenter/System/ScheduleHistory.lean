import CommunicationCenter.System.Adherence
import CommunicationCenter.System.Control

open libc transition communication_center.system_state

namespace communication_center.system

variable {F : Type} [CFloat F]

/-- A tick of the history fell into a period whose mode is manual. -/
def ManualTick (schedule : List schedule_period_t) (past : List (Label F)) : Prop :=
  ∃ earlier period, .task (.auto_update earlier) ∈ past ∧
    FirstCovering schedule earlier period ∧ period.mode = MODE_MANUAL

/-- Without requests the schedule stays, and the mode is manual exactly when the
history has a tick in a manual period. -/
structure FollowsSchedule (schedule : List schedule_period_t) (past : List (Label F))
    (s : State F) : Prop where
  stored : s.schedule = schedule
  manual : s.current_mode = MODE_MANUAL ↔ ManualTick schedule past

omit [CFloat F] in
theorem manualTick_append {schedule : List schedule_period_t} (past : List (Label F))
    (label : Label F) :
    ManualTick schedule (past ++ [label]) ↔ ManualTick schedule past ∨ ManualTick schedule [label] := by
  simp only [ManualTick, List.mem_append, or_and_right, exists_or]

omit [CFloat F] in
/-- A tick is a manual one if the active period is. The schedule is a documented one, with valid
times and known modes. -/
theorem manualTick_tick_iff {schedule : List schedule_period_t} (hschedule : DocumentedSchedule schedule)
    (now : tm) : ManualTick schedule [(.task (.auto_update now) : Label F)] ↔
      schedule_is_active now schedule = some MODE_MANUAL := by
  rw [schedule_is_active_eq_some_iff hschedule.times]
  constructor
  · rintro ⟨earlier, period, hmem, hfirst, hmanual⟩
    obtain rfl : earlier = now := by simpa using hmem
    exact ⟨period, hfirst, hmanual⟩
  · rintro ⟨period, hfirst, hmanual⟩
    exact ⟨now, period, List.mem_singleton_self _, hfirst, hmanual⟩

omit [CFloat F] in
theorem not_manualTick {schedule : List schedule_period_t} {label : Label F}
    (h : ∀ now, label ≠ .task (.auto_update now)) : ¬ManualTick schedule [label] := by
  rintro ⟨earlier, _, hmem, _⟩
  exact h earlier (List.mem_singleton.mp hmem).symm

omit [CFloat F] in
/-- A step that is no request makes the mode manual, or leaves it so, exactly if
the mode was manual or the step is a tick in a manual period. -/
theorem FollowsSchedule.mode_after_iff {schedule : List schedule_period_t} {past : List (Label F)}
    {s : State F} (hschedule : DocumentedSchedule schedule) (h : FollowsSchedule schedule past s)
    {label : Label F} (hlabel : ∀ r, label ≠ .request r) :
    mode_after s label = MODE_MANUAL ↔
      s.current_mode = MODE_MANUAL ∨ ManualTick schedule [label] := by
  unfold mode_after
  split
  · next now =>
    rw [manualTick_tick_iff hschedule]
    by_cases hmanual : s.current_mode = MODE_MANUAL
    · simp [(governing_mode_eq_none_iff now s).mpr (Or.inl hmanual), hmanual]
    · rw [governing_mode_of_automatic (h.stored ▸ hschedule.nonempty) hmanual, h.stored]
      cases schedule_is_active now schedule with
      | none => simp
      | some mode => simp [hmanual]
  · exact absurd rfl (hlabel _)
  · next hother _ => simp [not_manualTick hother]

/-- One step that is no request keeps the correspondence between the mode and
the history. -/
theorem FollowsSchedule.step {schedule : List schedule_period_t} {past : List (Label F)}
    {sys next : System F} {label : Label F} {emitted : List (Event F)}
    (hschedule : DocumentedSchedule schedule) (h : FollowsSchedule schedule past sys.shared)
    (hlabel : ∀ r, label ≠ .request r) (hstep : step sys label = some (next, emitted)) :
    FollowsSchedule schedule (past ++ [label]) next.shared := by
  have hkept : next.shared.schedule = sys.shared.schedule :=
    (schedule_step hstep).resolve_right fun ⟨req, _, heq, _⟩ => hlabel _ heq
  refine ⟨hkept.trans h.stored, ?_⟩
  rw [mode_step hstep, h.mode_after_iff hschedule hlabel, manualTick_append, h.manual]

/-- From an automatic mode with a documented schedule, and without requests, all ticks adhere to
the schedule exactly when no tick in an automatic period comes after a tick in a manual one. The
ticks may come at any minutes, also ones that go back, and with any readings of the sensors in
between. -/
theorem schedule_adherence_iff {start : System F}
    (hschedule : DocumentedSchedule start.shared.schedule)
    (hauto : start.shared.current_mode = MODE_AUTO_BEST ∨
      start.shared.current_mode = MODE_AUTO_ECO)
    {labels : List (Label F)} (hlabels : ∀ label ∈ labels, ∀ r, label ≠ .request r) :
    EveryStep step start labels (fun _ sys label =>
        ∀ now, label = .task (.auto_update now) → Adheres now sys.shared) ↔
      EveryStep step start labels fun past _ label => ∀ now, label = .task (.auto_update now) →
        ManualTick start.shared.schedule past →
          ∀ period, FirstCovering start.shared.schedule now period → period.mode = MODE_MANUAL := by
  have hinitial : FollowsSchedule start.shared.schedule [] start.shared := by
    refine ⟨rfl, ⟨fun hmanual => ?_, ?_⟩⟩
    · rw [hmanual] at hauto
      exact absurd hauto (by decide)
    · rintro ⟨_, _, hmem, _⟩
      cases hmem
  have hrequests : EveryStep step start labels fun _ _ label => ∀ r, label ≠ .request r :=
    fun past _ _ label _ _ hpast _ _ => hlabels label (hpast.subset (by simp))
  have hfollows : EveryState step start labels fun past sys _ =>
      FollowsSchedule start.shared.schedule past sys.shared :=
    hrequests.everyState hinitial fun _ _ _ _ _ _ hmid hlabel hstep =>
      hmid.step hschedule hlabel hstep
  have hpointwise {past : List (Label F)} {sys : System F}
      (h : FollowsSchedule start.shared.schedule past sys.shared) (now : tm) :
      Adheres now sys.shared ↔ (ManualTick start.shared.schedule past →
        ∀ period, FirstCovering start.shared.schedule now period → period.mode = MODE_MANUAL) := by
    rw [adheres_iff (h.stored.symm ▸ hschedule) now, h.manual, h.stored]
  constructor
  · intro h past sys events label next emitted hpast hrun hstep now hlabel
    have hpre := (List.prefix_append past [label]).trans hpast
    exact (hpointwise (hfollows past sys events hpre hrun) now).mp
      (h past sys events label next emitted hpast hrun hstep now hlabel)
  · intro h past sys events label next emitted hpast hrun hstep now hlabel
    have hpre := (List.prefix_append past [label]).trans hpast
    exact (hpointwise (hfollows past sys events hpre hrun) now).mpr
      (h past sys events label next emitted hpast hrun hstep now hlabel)

private def manual_period : schedule_period_t where
  start := ascii "08:00"
  end_ := ascii "08:59"
  mode := MODE_MANUAL

private def best_period : schedule_period_t where
  start := ascii "09:00"
  end_ := ascii "10:00"
  mode := MODE_AUTO_BEST

private theorem morning_documented : DocumentedSchedule [manual_period, best_period] where
  nonempty := by simp
  times := by
    have hmanual : manual_period.ValidTimes :=
      ⟨⟨480, 8, by decide, 0, by decide, by decide, rfl⟩,
        539, 8, by decide, 59, by decide, by decide, rfl⟩
    have hbest : best_period.ValidTimes :=
      ⟨⟨540, 9, by decide, 0, by decide, by decide, rfl⟩,
        600, 10, by decide, 0, by decide, by decide, rfl⟩
    simp [hmanual, hbest]
  modes := by simp [manual_period, best_period]

private def morning : System Binary32 where
  shared := { State.initial with
    schedule := [manual_period, best_period], current_mode := MODE_AUTO_BEST }
  system_task := .idle
  http_task := .idle

private def tick_at (clock : Int) (now : tm) : List (Label Binary32) :=
  [.task (.read_clock clock), .task .refresh, .task (.auto_update now)]

-- A tick in the automatic period, one outside all periods and one in the next morning's manual
-- period.
private def tick_in_each (nine eleven next_morning : tm) : List (Label Binary32) :=
  [.task (.read_clock 0), .task .refresh, .task (.auto_update nine), .task .publish,
    .task (.read_clock 1000), .task .refresh, .task (.auto_update eleven),
    .task (.read_clock 2000), .task .refresh, .task (.auto_update next_morning)]

theorem schedule_adherence_iff_tick_in_each :
    (exec step morning (tick_in_each ⟨9, 30⟩ ⟨11, 0⟩ ⟨8, 30⟩)).isSome ∧
      (EveryStep step morning (tick_in_each ⟨9, 30⟩ ⟨11, 0⟩ ⟨8, 30⟩) (fun _ sys label =>
          ∀ now, label = .task (.auto_update now) → Adheres now sys.shared) ↔
        EveryStep step morning (tick_in_each ⟨9, 30⟩ ⟨11, 0⟩ ⟨8, 30⟩) fun past _ label =>
          ∀ now, label = .task (.auto_update now) → ManualTick morning.shared.schedule past →
            ∀ period, FirstCovering morning.shared.schedule now period →
              period.mode = MODE_MANUAL) :=
  ⟨by decide +kernel,
    schedule_adherence_iff morning_documented (Or.inl rfl) (by simp [tick_in_each])⟩

/-- The manual period that has ended keeps the next one from taking effect, since the tick stored
its mode as the current one. -/
theorem schedule_adherence_after_manual :
    ¬ ∀ (start : System Binary32) (labels : List (Label Binary32)),
      DocumentedSchedule start.shared.schedule →
      start.shared.current_mode = MODE_AUTO_BEST ∨ start.shared.current_mode = MODE_AUTO_ECO →
      (∀ label ∈ labels, ∀ r, label ≠ .request r) →
      EveryStep step start labels fun _ sys label =>
        ∀ now, label = .task (.auto_update now) → Adheres now sys.shared := by
  intro h
  let before : List (Label Binary32) := tick_at 0 ⟨8, 30⟩ ++
    [.task .publish, .task (.read_clock 1000), .task .refresh]
  have hrun : (exec step morning before).map (fun r =>
      (r.1.system_task, r.1.shared.current_mode, r.1.shared.schedule)) =
      some (.auto_update, MODE_MANUAL, [manual_period, best_period]) := by
    decide +kernel
  obtain ⟨⟨sys, events⟩, hexec, hend⟩ := Option.map_eq_some_iff.mp hrun
  simp only [Prod.mk.injEq] at hend
  obtain ⟨htask, hmanual, hstored⟩ := hend
  have henabled : ∃ next emitted,
      step sys (.task (.auto_update ⟨9, 30⟩)) = some (next, emitted) := by
    simp only [step, task_step, htask]
    split <;> exact ⟨_, _, rfl⟩
  obtain ⟨next, emitted, hstep⟩ := henabled
  have hadheres := h morning (before ++ [.task (.auto_update ⟨9, 30⟩)]) morning_documented
    (Or.inl rfl) (by simp [before, tick_at]) before sys events _ next emitted List.prefix_rfl
    (.of_exec hexec) hstep ⟨9, 30⟩ rfl
  have hcovers (period : schedule_period_t) (hmem : period ∈ [manual_period, best_period]) :=
    covers_iff (morning_documented.times period hmem) ⟨9, 30⟩
  have hfirst : FirstCovering [manual_period, best_period] ⟨9, 30⟩ best_period := by
    refine ⟨[manual_period], [], rfl, (hcovers best_period (by simp)).mpr (by decide), ?_⟩
    simp only [List.mem_singleton, forall_eq]
    exact fun hbad => absurd ((hcovers manual_period (by simp)).mp hbad) (by decide)
  have hmode := (adheres_iff (hstored ▸ morning_documented) ⟨9, 30⟩).mp hadheres hmanual best_period
    (hstored ▸ hfirst)
  exact absurd hmode (by decide)

end communication_center.system
