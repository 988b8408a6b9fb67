import CommunicationCenter.System.Answers
import CommunicationCenter.System.Control

open libc transition communication_center.system_state communication_center.http_server

namespace communication_center.system

variable {F : Type}

/-- The answer that a state gives when all its parts are read at once. -/
def status_report (now : tm) (s : State F) : StatusReport where
  mode := s.current_mode
  actuators := s.actuators
  flags := system_state_get_control_flags_locked now s
  why_headline := s.status.status_headline
  why := s.status.status_explanation

variable [CFloat F]

/-- The state is one that the system was in while the last request, a GET of the
status at the given time, was being answered. -/
def DuringRequest (past : List (Label F)) (now : tm) (s : State F) : Prop :=
  ∃ opening during reached sys events, past = opening ++ .request (.get_status now) :: during ∧
    (∀ r, .request r ∉ during) ∧ reached <+: during ∧
    Run step System.initial (opening ++ .request (.get_status now) :: reached) sys events ∧
    s = sys.shared

/-- A status that the step answers is the one of a single state that the system
was in during the request. -/
def AnswersOneState (past : List (Label F)) (sys : System F) (label : Label F) : Prop :=
  ∀ next emitted report, step sys label = some (next, emitted) →
    .response (.status report) ∈ emitted →
    ∃ now s, DuringRequest past now s ∧ report = status_report now s

/-- While a request for the status is between its critical sections, a step that
writes a text which the request has not copied yet leaves everything that the
request has copied as it was copied. -/
def KeepsCopied (sys : System F) (label : Label F) : Prop :=
  ∀ next emitted, step sys label = some (next, emitted) → match sys.http_task with
    | .status_headline (mode, actuators, _) =>
      next.shared.status = sys.shared.status ∨
        (next.shared.current_mode = mode ∧ next.shared.actuators = actuators)
    | .status_explanation (mode, actuators, _) why_headline =>
      next.shared.status.status_explanation = sys.shared.status.status_explanation ∨
        (next.shared.current_mode = mode ∧ next.shared.actuators = actuators ∧
          next.shared.status.status_headline = why_headline)
    | _ => True

/-- What a running request has copied is what one state of it held. That state
still has the schedule and the texts that are not copied yet. -/
def CopiedFrom (past : List (Label F)) (sys : System F) : Prop :=
  match sys.http_task with
  | .status_headline snapshot => ∃ now s, DuringRequest past now s ∧
    snapshot = status_snapshot now s ∧ s.schedule = sys.shared.schedule ∧
    s.status = sys.shared.status
  | .status_explanation snapshot why_headline => ∃ now s, DuringRequest past now s ∧
    snapshot = status_snapshot now s ∧ s.schedule = sys.shared.schedule ∧
    why_headline = s.status.status_headline ∧
    s.status.status_explanation = sys.shared.status.status_explanation
  | _ => True

omit [CFloat F] in
/-- The flags depend on the mode and the schedule only. -/
theorem control_flags_congr {s t : State F} (hmode : s.current_mode = t.current_mode)
    (hschedule : s.schedule = t.schedule) (now : tm) :
    system_state_get_control_flags_locked now s = system_state_get_control_flags_locked now t := by
  unfold system_state_get_control_flags_locked
  rw [hmode, hschedule]

omit [CFloat F] in
theorem status_snapshot_congr {s t : State F} (hmode : s.current_mode = t.current_mode)
    (hactuators : s.actuators = t.actuators) (hschedule : s.schedule = t.schedule) (now : tm) :
    status_snapshot now s = status_snapshot now t := by
  rw [status_snapshot, status_snapshot, hmode, hactuators, control_flags_congr hmode hschedule]

omit [CFloat F] in
/-- What a request has copied in its first section is still so in a state with the
same mode, actuators and schedule. -/
theorem status_snapshot_kept {s t : State F} {now : tm} {mode : system_mode_t}
    {actuators : Actuators} {flags : ControlFlags}
    (hsnapshot : (mode, actuators, flags) = status_snapshot now s) (hmode : t.current_mode = mode)
    (hactuators : t.actuators = actuators) (hschedule : s.schedule = t.schedule) :
    (mode, actuators, flags) = status_snapshot now t := by
  have hcopied := Prod.mk.inj hsnapshot
  rw [hsnapshot]
  exact status_snapshot_congr (hcopied.1.symm.trans hmode.symm)
    ((Prod.mk.inj hcopied.2).1.symm.trans hactuators.symm) hschedule now

/-- A step that is no request makes the request one step longer: it goes on in the state that it
began with. -/
theorem DuringRequest.snoc {past : List (Label F)} {now : tm} {s : State F}
    (h : DuringRequest past now s) {label : Label F} (hlabel : ∀ r, label ≠ .request r) :
    DuringRequest (past ++ [label]) now s := by
  obtain ⟨opening, during, reached, sys, events, rfl, hduring, hreached, hrun, rfl⟩ := h
  refine ⟨opening, during ++ [label], reached, sys, events, by simp, fun r hr => ?_,
    hreached.trans (List.prefix_append _ _), hrun, rfl⟩
  rcases List.mem_append.mp hr with hr | hr
  · exact hduring r hr
  · exact hlabel r (List.mem_singleton.mp hr).symm

/-- The state behind the last step belongs to the request too. -/
theorem DuringRequest.current {past : List (Label F)} {now : tm} {s : State F}
    (h : DuringRequest past now s) {sys : System F} {events : List (Event F)}
    (hrun : Run step System.initial past sys events) : DuringRequest past now sys.shared := by
  obtain ⟨opening, during, _, _, _, rfl, hduring, _, _, _⟩ := h
  exact ⟨opening, during, during, sys, events, rfl, hduring, List.prefix_rfl, hrun, rfl⟩

theorem http_task_of_task_step {sys next : System F} {l : TaskLabel} {emitted : List (Event F)}
    (h : task_step sys l = some (next, emitted)) : next.http_task = sys.http_task := by
  unfold task_step at h
  split at h
  · cases h; rfl
  · cases h; rfl
  · split at h <;> cases h <;> rfl
  · cases h; rfl
  · cases h

/-- A step of another task keeps the copies of a running request in line with one
state, the one from before or the one behind the step. -/
theorem CopiedFrom.other_task {past : List (Label F)} {sys next : System F} {label : Label F}
    {events emitted : List (Event F)} (h : CopiedFrom past sys)
    (hrun : Run step System.initial past sys events) (hkeeps : KeepsCopied sys label)
    (hstep : step sys label = some (next, emitted)) (hlabel : ∀ r, label ≠ .request r)
    (hhttp : next.http_task = sys.http_task) : CopiedFrom (past ++ [label]) next := by
  have hschedule : next.shared.schedule = sys.shared.schedule :=
    (schedule_step hstep).resolve_right fun ⟨req, _, heq, _⟩ => hlabel _ heq
  have hnext : Run step System.initial (past ++ [label]) next (events ++ emitted) :=
    .snoc hrun hstep
  have hkept := hkeeps next emitted hstep
  unfold CopiedFrom at h ⊢
  rw [hhttp]
  cases htask : sys.http_task with
  | status_headline snapshot =>
    obtain ⟨mode, actuators, flags⟩ := snapshot
    rw [htask] at h hkept
    obtain ⟨now, s, hduring, hsnapshot, hstored, hstatus⟩ := h
    rcases hkept with hsame | ⟨hmode, hactuators⟩
    · exact ⟨now, s, hduring.snoc hlabel, hsnapshot, hstored.trans hschedule.symm,
        hstatus.trans hsame.symm⟩
    · have hkeptSnapshot :=
        status_snapshot_kept hsnapshot hmode hactuators (hstored.trans hschedule.symm)
      exact ⟨now, next.shared, (hduring.snoc hlabel).current hnext, hkeptSnapshot, rfl, rfl⟩
  | status_explanation snapshot why_headline =>
    obtain ⟨mode, actuators, flags⟩ := snapshot
    rw [htask] at h hkept
    obtain ⟨now, s, hduring, hsnapshot, hstored, hheadline, hexplanation⟩ := h
    rcases hkept with hsame | ⟨hmode, hactuators, hcopy⟩
    · exact ⟨now, s, hduring.snoc hlabel, hsnapshot, hstored.trans hschedule.symm, hheadline,
        hexplanation.trans hsame.symm⟩
    · have hkeptSnapshot :=
        status_snapshot_kept hsnapshot hmode hactuators (hstored.trans hschedule.symm)
      exact ⟨now, next.shared, (hduring.snoc hlabel).current hnext, hkeptSnapshot, rfl,
        hcopy.symm, rfl⟩
  | _ => trivial

/-- A request for the status starts its copies, all from the state that it comes in, and any other
request starts none. -/
theorem copiedFrom_of_request {past : List (Label F)} {sys next : System F} {r : Request}
    {events emitted : List (Event F)} (hrun : Run step System.initial past sys events)
    (hstep : step sys (.request r) = some (next, emitted)) :
    CopiedFrom (past ++ [.request r]) next := by
  have hrequest := hstep
  rw [step] at hrequest
  split at hrequest
  · next hidle =>
    unfold request_step at hrequest
    unfold CopiedFrom
    split at hrequest
    · split at hrequest <;> cases hrequest <;> simp [hidle]
    · split at hrequest
      · cases hrequest
        simp [hidle]
      · split at hrequest <;> cases hrequest <;> simp [hidle]
    · split at hrequest <;> cases hrequest <;> simp [hidle]
    · cases hrequest
      simp
    · next now =>
      cases hrequest
      exact ⟨now, _, ⟨past, [], [], _, _, rfl, by simp, List.prefix_rfl, .snoc hrun hstep, rfl⟩,
        rfl, rfl, rfl⟩
    · cases hrequest
      simp [hidle]
  · cases hrequest

/-- The handler copies the headline from the state that it copied the rest from. -/
theorem CopiedFrom.handler {past : List (Label F)} {sys next : System F}
    {emitted : List (Event F)} (h : CopiedFrom past sys)
    (hstep : step sys .handler = some (next, emitted)) :
    CopiedFrom (past ++ [.handler]) next := by
  rw [step, handler_step] at hstep
  unfold CopiedFrom at h ⊢
  split at hstep
  case h_8 snapshot htask =>
    cases hstep
    rw [htask] at h
    obtain ⟨now, s, hduring, hsnapshot, hstored, hstatus⟩ := h
    exact ⟨now, s, hduring.snoc (by simp), hsnapshot, hstored, by rw [hstatus], by rw [hstatus]⟩
  all_goals
    cases hstep
  all_goals trivial

theorem CopiedFrom.step {past : List (Label F)} {sys next : System F} {label : Label F}
    {events emitted : List (Event F)} (h : CopiedFrom past sys)
    (hrun : Run step System.initial past sys events) (hkeeps : KeepsCopied sys label)
    (hstep : step sys label = some (next, emitted)) : CopiedFrom (past ++ [label]) next := by
  cases label with
  | update u =>
    apply h.other_task hrun hkeeps hstep (by simp)
    cases hstep
    rfl
  | task l => exact h.other_task hrun hkeeps hstep (by simp) (http_task_of_task_step hstep)
  | request r => exact copiedFrom_of_request hrun hstep
  | handler => exact h.handler hstep

/-- The answer is put together from the copies, so that it is that of one state if all copies are
from this state. -/
theorem CopiedFrom.answers {past : List (Label F)} {sys : System F} (h : CopiedFrom past sys)
    (label : Label F) : AnswersOneState past sys label := by
  intro next emitted report hstep hresponse
  cases answer_step hstep hresponse with
  | status mode actuators flags why_headline htask =>
    rw [CopiedFrom, htask] at h
    obtain ⟨now, s, hduring, hsnapshot, _, hheadline, hexplanation⟩ := h
    refine ⟨now, s, hduring, ?_⟩
    obtain ⟨rfl, hrest⟩ := Prod.mk.inj hsnapshot
    obtain ⟨rfl, rfl⟩ := Prod.mk.inj hrest
    rw [status_report, hheadline, hexplanation]

/-- If no tick that falls between the critical sections of a GET of the status spoils its copies,
every status that is reported is that of a single state which the system was in during the request.
The run may hold any other steps, and any number of requests. The converse is not claimed, as a
tick can write the old texts back. -/
theorem status_answers_one_state {labels : List (Label F)}
    (h : EveryStep step System.initial labels fun _ sys label => KeepsCopied sys label) :
    EveryStep step System.initial labels AnswersOneState := by
  have hcopied : EveryState step (System.initial : System F) labels fun past sys events =>
      Run step System.initial past sys events ∧ CopiedFrom past sys := by
    refine h.everyState ⟨.nil, trivial⟩ ?_
    rintro past sys events label next emitted ⟨hrun, hmid⟩ hkeeps hstep
    exact ⟨.snoc hrun hstep, hmid.step hrun hkeeps hstep⟩
  intro past sys events label next emitted hpast hrun _
  have hpre := (List.prefix_append past [label]).trans hpast
  exact (hcopied past sys events hpre hrun).2.answers label

/-- While a handler is running whose next section changes nothing, only a tick writes the texts. No
other request can come in meanwhile. -/
theorem status_of_no_tick {sys next : System F} {label : Label F} {emitted : List (Event F)}
    (hstep : step sys label = some (next, emitted)) (hlabel : ∀ now, label ≠ .task (.auto_update now))
    (hbusy : sys.http_task ≠ .idle)
    (hsection : ∀ after, handler_step sys = some after → after.1.shared = sys.shared) :
    next.shared.status = sys.shared.status := by
  cases label with
  | update u =>
    cases hstep
    cases u <;> rfl
  | task l =>
    rw [step] at hstep
    unfold task_step at hstep
    split at hstep
    · cases hstep
      rfl
    · cases hstep
      rw [system_state_refresh_sensor_timeouts_eq]
    · exact absurd rfl (hlabel _)
    · cases hstep
      rfl
    · cases hstep
  | request r =>
    rw [step, if_neg hbusy] at hstep
    cases hstep
  | handler => rw [hsection _ hstep]

/-- Between the sections of a GET only a tick writes what the answer is put together from. Any
other step meets the condition. -/
theorem keepsCopied_of_no_tick {sys : System F} {label : Label F}
    (h : ∀ now, label ≠ .task (.auto_update now)) : KeepsCopied sys label := by
  intro next emitted hstep
  split
  · next htask =>
    refine Or.inl (status_of_no_tick hstep h (by simp [htask]) fun after hafter => ?_)
    rw [handler_step, htask] at hafter
    cases hafter
    rfl
  · next htask =>
    refine Or.inl (congrArg _ (status_of_no_tick hstep h (by simp [htask]) fun after hafter => ?_))
    rw [handler_step, htask] at hafter
    cases hafter
    rfl
  · trivial

-- A tick falls in front of either text section. The sensors have not reported, so both write
-- the same texts, and the first writes them before the headline is copied.
private def get_between_ticks (now later : tm) : List (Label Binary32) :=
  [.request (.post_mode (.delivered (ascii "\x7b\"mode\":0\x7d"))), .handler,
    .request (.get_status now), .task (.read_clock 0), .task .refresh, .task (.auto_update now),
    .handler, .task .publish, .task (.read_clock 1000), .task .refresh,
    .task (.auto_update later), .handler]

-- The step leaves the mode, the actuators and, once it is copied, the headline as they were copied.
private def leaves_copies (sys : System Binary32) (label : Label Binary32) : Bool :=
  (step sys label).all fun (next, _) => match sys.http_task with
    | .status_headline (mode, actuators, _) =>
      next.shared.current_mode = mode ∧ next.shared.actuators = actuators
    | .status_explanation (mode, actuators, _) why_headline =>
      next.shared.current_mode = mode ∧ next.shared.actuators = actuators ∧
        next.shared.status.status_headline = why_headline
    | _ => true

private theorem keepsCopied_of_leaves_copies {sys : System Binary32} {label : Label Binary32}
    (h : leaves_copies sys label = true) : KeepsCopied sys label := by
  intro next emitted hstep
  rw [leaves_copies, hstep, Option.all_some] at h
  cases htask : sys.http_task with
  | status_headline snapshot =>
    rw [htask] at h
    exact Or.inr (of_decide_eq_true h)
  | status_explanation snapshot why_headline =>
    rw [htask] at h
    exact Or.inr (of_decide_eq_true h)
  | _ => trivial

theorem status_answers_one_state_between_ticks :
    EveryStep step System.initial (get_between_ticks ⟨12, 30⟩ ⟨12, 31⟩) AnswersOneState := by
  apply status_answers_one_state
  have hleaves : ∀ n < 12, ((get_between_ticks ⟨12, 30⟩ ⟨12, 31⟩)[n]?).all fun label =>
      (exec step System.initial ((get_between_ticks ⟨12, 30⟩ ⟨12, 31⟩).take n)).all fun r =>
        leaves_copies r.1 label := by
    decide +kernel
  intro past sys events label next emitted hpast hrun _
  cases label with
  | task l =>
    obtain ⟨rest, hsplit⟩ := hpast
    rw [List.append_assoc] at hsplit
    have hlength : past.length < 12 := by
      have htotal := congrArg List.length hsplit
      simp [get_between_ticks] at htotal
      omega
    have hthis := hleaves past.length hlength
    rw [← hsplit, List.take_left, hrun.exec_eq] at hthis
    exact keepsCopied_of_leaves_copies (by simpa using hthis)
  | _ => exact keepsCopied_of_no_tick nofun

private def tick_behind_headline (now : tm) : List (Label Binary32) :=
  [.request (.post_mode (.delivered (ascii "\x7b\"mode\":0\x7d"))), .handler,
    .request (.get_status now), .handler,
    .task (.read_clock 0), .task .refresh, .task (.auto_update now)]

private def texts (s : State Binary32) : Text × Text :=
  (s.status.status_headline, s.status.status_explanation)

private def torn_texts : Text × Text :=
  (ascii "Automatic mode active", ascii "AUTO_BEST: waiting for indoor and outdoor sensor data.")

/-- A tick between the two text sections is answered with the old headline and
the new explanation, which no state has together. -/
theorem status_answers_torn :
    ¬ ∀ labels : List (Label Binary32), EveryStep step System.initial labels AnswersOneState := by
  intro h
  have hrun : (exec step System.initial (tick_behind_headline ⟨12, 30⟩)).map (fun r =>
      ((step r.1 .handler).map fun after => after.2.map fun event => match event with
        | .response (.status report) => (report.why_headline, report.why)
        | _ => ([], []))) = some (some [torn_texts]) := by
    decide +kernel
  obtain ⟨⟨sys, events⟩, hexec, hanswer⟩ := Option.map_eq_some_iff.mp hrun
  obtain ⟨⟨next, emitted⟩, hstep, htexts⟩ := Option.map_eq_some_iff.mp hanswer
  have hreport : ∃ report : StatusReport, .response (.status report) ∈ emitted ∧
      (report.why_headline, report.why) = torn_texts := by
    obtain ⟨event, hevent, heq⟩ := List.mem_map.mp (htexts ▸ List.mem_singleton_self torn_texts)
    split at heq
    · next report => exact ⟨report, hevent, heq⟩
    · exact absurd heq (by decide)
  obtain ⟨report, hmem, htorn⟩ := hreport
  obtain ⟨now, s, ⟨opening, during, reached, at_, seen, hsplit, _, hreached, hreach, rfl⟩, rfl⟩ :=
    h (tick_behind_headline ⟨12, 30⟩ ++ [.handler]) (tick_behind_headline ⟨12, 30⟩) sys events .handler next emitted
      List.prefix_rfl (.of_exec hexec) hstep next emitted report hstep hmem
  have hprefix : opening ++ .request (.get_status now) :: reached <+:
      tick_behind_headline ⟨12, 30⟩ := by
    rw [hsplit]
    exact (List.prefix_append_right_inj _).mpr (List.cons_prefix_cons.mpr ⟨rfl, hreached⟩)
  have hnever : ∀ pre ∈ (tick_behind_headline ⟨12, 30⟩).inits,
      (exec step System.initial pre).map (fun r => texts r.1.shared) ≠ some torn_texts := by
    decide +kernel
  apply hnever _ ((List.mem_inits _ _).mpr hprefix)
  rw [hreach.exec_eq]
  exact congrArg some htorn

end communication_center.system
