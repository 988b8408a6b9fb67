import CommunicationCenter.System.Trace

open libc communication_center.system_state communication_center.http_server

namespace communication_center.system

/-- Mode, schedule, actuators and last published values agree. The sensor data,
the addresses and the status texts may differ. -/
structure SameControl {F : Type} (s t : State F) : Prop where
  schedule : t.schedule = s.schedule
  actuators : t.actuators = s.actuators
  last : t.last = s.last
  current_mode : t.current_mode = s.current_mode

variable {F : Type} [CFloat F]

/-- What a step can do to the control variables and to the pending values. Every
step is quiet, a tick, an accepted request or a call of `publish_state`. -/
inductive ControlStep (sys next : System F) (emitted : List (Event F)) : Label F → Prop where
  | quiet {label : Label F} (hlabel : ∀ now, label ≠ .task (.auto_update now))
      (hcontrol : SameControl sys.shared next.shared)
      (hsystem : next.system_task.pending = sys.system_task.pending)
      (hhttp : next.http_task.pending = sys.http_task.pending)
      (hcalls : calls emitted = []) (hmessages : messages emitted = []) :
      ControlStep sys next emitted label
  | skipped (now : tm) (hgoverning : governing_mode now sys.shared = none)
      (hcontrol : SameControl sys.shared next.shared)
      (hsystem : next.system_task.pending = sys.system_task.pending)
      (hhttp : next.http_task = sys.http_task) (hemitted : emitted = []) :
      ControlStep sys next emitted (.task (.auto_update now))
  | evaluated (now : tm) (mode : system_mode_t)
      (hgoverning : governing_mode now sys.shared = some mode)
      (hshared : next.shared = evaluate_rules mode { sys.shared with current_mode := mode })
      (hsystem : next.system_task = .publish next.shared.actuators)
      (hhttp : next.http_task = sys.http_task) (hemitted : emitted = [.evaluated mode]) :
      ControlStep sys next emitted (.task (.auto_update now))
  | task_published (captured : Actuators) (htask : sys.system_task = .publish captured)
      (hshared : next.shared = { sys.shared with last := captured })
      (hsystem : next.system_task = .idle) (hhttp : next.http_task = sys.http_task)
      (hcalls : calls emitted = [captured])
      (hmessages : messages emitted = (publish_state true captured sys.shared).2) :
      ControlStep sys next emitted (.task .publish)
  | handler_published (captured : Actuators)
      (htask : sys.http_task = .actuators_publish captured)
      (hshared : next.shared = { sys.shared with last := captured })
      (hsystem : next.system_task = sys.system_task) (hhttp : next.http_task = .idle)
      (hcalls : calls emitted = [captured])
      (hmessages : messages emitted = (publish_state true captured sys.shared).2) :
      ControlStep sys next emitted .handler
  | mode_posted (req : httpd_req_t) (new_mode : Int) (hidle : sys.http_task = .idle)
      (hparse : mode_post_parse req = .ok new_mode)
      (hshared : next.shared = { sys.shared with current_mode := new_mode })
      (hsystem : next.system_task = sys.system_task) (hhttp : next.http_task.pending = none)
      (hemitted : emitted = []) :
      ControlStep sys next emitted (.request (.post_mode req))
  | actuators_posted (req : httpd_req_t) (now : tm) (r : ActuatorsRequest)
      (hidle : sys.http_task = .idle) (hparse : actuators_post_parse req = .ok r)
      (hallowed : governing_mode now sys.shared = none)
      (hrule : r.values.fan = true → r.values.window = true)
      (hshared : next.shared = { sys.shared with actuators := r.values })
      (hsystem : next.system_task = sys.system_task)
      (hhttp : next.http_task.pending = some r.values) (hemitted : emitted = []) :
      ControlStep sys next emitted (.request (.post_actuators req now))
  | schedule_posted (req : httpd_req_t) (periods : List schedule_period_t)
      (hidle : sys.http_task = .idle) (hparse : schedule_post_parse req = .ok (some (.ok periods)))
      (hshared : next.shared = { sys.shared with schedule := periods })
      (hsystem : next.system_task = sys.system_task) (hhttp : next.http_task.pending = none)
      (hemitted : emitted = []) :
      ControlStep sys next emitted (.request (.post_schedule req))

omit [CFloat F] in
theorem sameControl_refl (s : State F) : SameControl s s where
  schedule := rfl
  actuators := rfl
  last := rfl
  current_mode := rfl

omit [CFloat F] in
theorem sameControl_update (u : SensorUpdate F) (s : State F) :
    SameControl s (system_state_update u s) := by
  cases u <;> constructor <;> rfl

theorem sameControl_refresh (now : Int) (s : State F) :
    SameControl s (system_state_refresh_sensor_timeouts now s) := by
  rw [system_state_refresh_sensor_timeouts_eq]
  constructor <;> rfl

/-- A step of the system task, by what it means for the control of the actuators: nothing, a tick
that is skipped or evaluates the rules, or a publication. -/
theorem control_task_step {sys next : System F} {l : TaskLabel} {emitted : List (Event F)}
    (h : task_step sys l = some (next, emitted)) : ControlStep sys next emitted (.task l) := by
  unfold task_step at h
  split at h
  · next htask =>
    cases h
    exact .quiet (by simp) (sameControl_refl _) (by simp [htask, SystemTask.pending]) rfl rfl rfl
  · next htask =>
    cases h
    exact .quiet (by simp) (sameControl_refresh _ _) (by simp [htask, SystemTask.pending]) rfl rfl rfl
  · next now htask =>
    cases hgoverning : governing_mode now sys.shared with
    | none =>
      obtain ⟨status, hsection⟩ := system_auto_update_section_of_none hgoverning
      rw [hsection] at h
      cases h
      exact .skipped now hgoverning ⟨rfl, rfl, rfl, rfl⟩ (by simp [htask, SystemTask.pending]) rfl rfl
    | some mode =>
      rw [system_auto_update_section_of_some hgoverning] at h
      cases h
      exact .evaluated now mode hgoverning rfl rfl rfl rfl
  · next captured htask =>
    cases h
    exact .task_published captured htask rfl rfl rfl (by simp) (by simp)
  · cases h

/-- A request, in the same way: it is refused, or changes the mode, the actuators or the schedule
in its first section. -/
theorem control_request_step {sys next : System F} {r : Request} {emitted : List (Event F)}
    (hidle : sys.http_task = .idle) (h : request_step sys r = some (next, emitted)) :
    ControlStep sys next emitted (.request r) := by
  have hnone : sys.http_task.pending = none := by rw [hidle]; rfl
  have hquiet {response : Response F} (hnext : (sys, [Event.response response]) = (next, emitted)) :
      ControlStep sys next emitted (.request r) := by
    cases hnext
    exact .quiet (by simp) (sameControl_refl _) rfl rfl rfl rfl
  cases r with
  | post_mode req =>
    unfold request_step at h
    dsimp only at h
    split at h
    · exact hquiet (Option.some.inj h)
    · next new_mode hparse =>
      cases h
      exact .mode_posted req new_mode hidle hparse rfl rfl rfl rfl
  | post_actuators req now =>
    unfold request_step at h
    dsimp only at h
    split at h
    · exact hquiet (Option.some.inj h)
    · next values hparse =>
      split at h
      · exact hquiet (Option.some.inj h)
      · next shared captured holding hsection =>
        cases h
        obtain ⟨hallowed, rfl, rfl, hrule⟩ := actuators_post_section_ok hsection
        exact .actuators_posted req now values hidle hparse
          ((manual_control_allowed_iff now sys.shared).mp hallowed) hrule rfl rfl rfl rfl
  | post_schedule req =>
    unfold request_step at h
    dsimp only at h
    split at h
    · exact hquiet (Option.some.inj h)
    · next periods hparse =>
      cases h
      exact .schedule_posted req periods hidle hparse rfl rfl rfl rfl
    · cases h
  | get_sensors now =>
    cases h
    exact .quiet (by simp) (sameControl_refl _) rfl hnone.symm rfl rfl
  | get_status now =>
    cases h
    exact .quiet (by simp) (sameControl_refl _) rfl hnone.symm rfl rfl
  | get_schedule => exact hquiet (Option.some.inj h)

/-- A later section of a handler, in the same way: it writes texts, publishes, or answers. -/
theorem control_handler_step {sys next : System F} {emitted : List (Event F)}
    (h : handler_step sys = some (next, emitted)) : ControlStep sys next emitted .handler := by
  have hstatus {s t : State F} (ht : ∃ status, t = { s with status }) : SameControl s t := by
    obtain ⟨status, rfl⟩ := ht
    exact ⟨rfl, rfl, rfl, rfl⟩
  unfold handler_step at h
  split at h
  · cases h
  · next htask =>
    cases h
    exact .quiet (by simp) (hstatus (mode_post_status_frame _ _ _)) rfl
      (by simp [htask, HttpTask.pending]) rfl rfl
  · next htask =>
    cases h
    exact .quiet (by simp) (hstatus (actuators_post_status_frame _ _)) rfl
      (by simp [htask, HttpTask.pending]) rfl rfl
  · next captured htask =>
    cases h
    exact .handler_published captured htask rfl rfl rfl (by simp) (by simp)
  · next htask =>
    cases h
    exact .quiet (by simp) (hstatus (schedule_post_status_frame _ _ _)) rfl
      (by simp [htask, HttpTask.pending]) rfl rfl
  · next htask =>
    cases h
    exact .quiet (by simp) (sameControl_refresh _ _) rfl
      (by simp [htask, HttpTask.pending]) rfl rfl
  all_goals
    next htask =>
      cases h
      exact .quiet (by simp) (sameControl_refl _) rfl (by simp [htask, HttpTask.pending]) rfl rfl

/-- The inversion of the step function for everything but the sensor data. The invariants of
control, publication and schedule are proved by its cases. -/
theorem control_step {sys next : System F} {label : Label F} {emitted : List (Event F)}
    (h : step sys label = some (next, emitted)) : ControlStep sys next emitted label := by
  cases label with
  | update u =>
    cases h
    exact .quiet (by simp) (sameControl_update u sys.shared) rfl rfl rfl rfl
  | task l => exact control_task_step h
  | request r =>
    rw [step] at h
    split at h
    · next hidle => exact control_request_step hidle h
    · cases h
  | handler => exact control_handler_step h

theorem post_mode_step {sys next : System F} {req : httpd_req_t} {new_mode : Int}
    {emitted : List (Event F)} (hparse : mode_post_parse req = .ok new_mode)
    (hstep : step sys (.request (.post_mode req)) = some (next, emitted)) :
    next.shared = { sys.shared with current_mode := new_mode } := by
  rw [step] at hstep
  split at hstep
  · simp only [request_step, hparse, mode_post_section, Option.some.injEq, Prod.mk.injEq] at hstep
    obtain ⟨rfl, _⟩ := hstep
    rfl
  · cases hstep

theorem post_schedule_step {sys next : System F} {req : httpd_req_t}
    {periods : List schedule_period_t} {emitted : List (Event F)}
    (hparse : schedule_post_parse req = .ok (some (.ok periods)))
    (hstep : step sys (.request (.post_schedule req)) = some (next, emitted)) :
    next.shared = { sys.shared with schedule := periods } := by
  rw [step] at hstep
  split at hstep
  · simp only [request_step, hparse, schedule_post_section, Option.some.injEq,
      Prod.mk.injEq] at hstep
    obtain ⟨rfl, _⟩ := hstep
    rfl
  · cases hstep

/-- The mode behind a step: a tick installs the mode that governs it, and an
accepted request the one that it asks for. -/
def mode_after (s : State F) : Label F → system_mode_t
  | .task (.auto_update now) => (governing_mode now s).getD s.current_mode
  | .request (.post_mode req) => (mode_post_parse req).toOption.getD s.current_mode
  | _ => s.current_mode

/-- The mode behind a step is that of `mode_after`, whatever the step does. Only ticks and accepted
requests for a mode change it. -/
theorem mode_step {sys next : System F} {label : Label F} {emitted : List (Event F)}
    (hstep : step sys label = some (next, emitted)) :
    next.shared.current_mode = mode_after sys.shared label := by
  cases control_step hstep with
  | quiet hlabel hcontrol _ _ _ _ =>
    unfold mode_after
    split
    · exact absurd rfl (hlabel _)
    · next req =>
      cases hparse : mode_post_parse req with
      | ok new_mode => rw [post_mode_step hparse hstep]; rfl
      | error e => exact hcontrol.current_mode
    · exact hcontrol.current_mode
  | skipped now hgoverning hcontrol _ _ _ =>
    rw [mode_after, hgoverning, hcontrol.current_mode]
    rfl
  | evaluated now mode hgoverning hshared _ _ _ =>
    rw [mode_after, hgoverning, hshared, (evaluate_rules_frame mode _).current_mode]
    rfl
  | task_published _ _ hshared _ _ _ _ => rw [hshared]; rfl
  | handler_published _ _ hshared _ _ _ _ => rw [hshared]; rfl
  | mode_posted _ _ _ hparse hshared _ _ _ => rw [mode_after, hparse, hshared]; rfl
  | actuators_posted _ _ _ _ _ _ _ hshared _ _ _ => rw [hshared]; rfl
  | schedule_posted _ _ _ _ hshared _ _ _ => rw [hshared]; rfl

/-- A step changes the schedule only by accepting a request for it, and then stores what the
request was parsed into. -/
theorem schedule_step {sys next : System F} {label : Label F} {emitted : List (Event F)}
    (hstep : step sys label = some (next, emitted)) :
    next.shared.schedule = sys.shared.schedule ∨
      ∃ req periods, label = .request (.post_schedule req) ∧
        schedule_post_parse req = .ok (some (.ok periods)) ∧ next.shared.schedule = periods := by
  cases control_step hstep with
  | quiet _ hcontrol _ _ _ _ => exact Or.inl hcontrol.schedule
  | skipped _ _ hcontrol _ _ _ => exact Or.inl hcontrol.schedule
  | evaluated now mode _ hshared _ _ _ =>
    have hframe := evaluate_rules_frame mode { sys.shared with current_mode := mode }
    rw [hshared, hframe.schedule]
    exact Or.inl rfl
  | task_published _ _ hshared _ _ _ _ => exact Or.inl (by rw [hshared])
  | handler_published _ _ hshared _ _ _ _ => exact Or.inl (by rw [hshared])
  | mode_posted _ _ _ _ hshared _ _ _ => exact Or.inl (by rw [hshared])
  | actuators_posted _ _ _ _ _ _ _ hshared _ _ _ => exact Or.inl (by rw [hshared])
  | schedule_posted req periods _ hparse hshared _ _ _ =>
    exact Or.inr ⟨req, periods, rfl, hparse, by rw [hshared]⟩

end communication_center.system
