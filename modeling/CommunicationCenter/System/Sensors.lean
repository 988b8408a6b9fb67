import CommunicationCenter.System.Updates

open libc expiring communication_center.system_state communication_center.http_server

namespace communication_center.system

variable {F : Type}

/-- The three cells agree. -/
structure SameSensors (s t : State F) : Prop where
  indoor : t.indoor = s.indoor
  outdoor : t.outdoor = s.outdoor
  wind : t.wind = s.wind

theorem sameSensors_refl (s : State F) : SameSensors s s where
  indoor := rfl
  outdoor := rfl
  wind := rfl

theorem sameSensors_status {s t : State F} (h : ∃ status, t = { s with status }) :
    SameSensors s t := by
  obtain ⟨status, rfl⟩ := h
  exact ⟨rfl, rfl, rfl⟩

variable [CFloat F]

/-- What a step can do to the sensor data, and where the clock values of pending
refreshes come from. -/
inductive SensorStep (sys next : System F) : Label F → Prop where
  | updated (u : SensorUpdate F) (hshared : next.shared = system_state_update u sys.shared)
      (htask : next.system_task = sys.system_task) (hhttp : next.http_task = sys.http_task) :
      SensorStep sys next (.update u)
  | task_refreshed (now : Int) (hnow : sys.system_task = .refresh now)
      (hshared : next.shared = system_state_refresh_sensor_timeouts now sys.shared)
      (htask : next.system_task = .auto_update) (hhttp : next.http_task = sys.http_task) :
      SensorStep sys next (.task .refresh)
  | handler_refreshed (now : Int) (hnow : sys.http_task = .sensors_refresh now)
      (hshared : next.shared = system_state_refresh_sensor_timeouts now sys.shared)
      (htask : next.system_task = sys.system_task) (hhttp : next.http_task = .sensors_snapshot) :
      SensorStep sys next .handler
  | quiet {label : Label F} (hlabel : ∀ u, label ≠ .update u)
      (hsensors : SameSensors sys.shared next.shared)
      (htask : ∀ now, next.system_task = .refresh now →
        label = .task (.read_clock now) ∨ sys.system_task = .refresh now)
      (hrefresh : ∀ now, next.http_task = .sensors_refresh now →
        label = .request (.get_sensors now) ∨
          (label.report_clock = none ∧ sys.http_task = .sensors_refresh now))
      (hsnapshot : next.http_task = .sensors_snapshot →
        label.report_clock = none ∧ sys.http_task = .sensors_snapshot) :
      SensorStep sys next label

/-- A step of the system task, by what it does to the sources: nothing, or a refresh with the clock
reading taken before. -/
theorem sensor_task_step {sys next : System F} {l : TaskLabel} {emitted : List (Event F)}
    (h : task_step sys l = some (next, emitted)) : SensorStep sys next (.task l) := by
  have hquiet {l : TaskLabel} (hhttp : next.http_task = sys.http_task)
      (hsensors : SameSensors sys.shared next.shared)
      (htask : ∀ now, next.system_task = .refresh now → l = .read_clock now) :
      SensorStep sys next (.task l) := by
    refine .quiet (by simp) hsensors (fun now hnow => Or.inl (by rw [htask now hnow])) ?_ ?_
    · exact fun now hnow => Or.inr ⟨rfl, hhttp ▸ hnow⟩
    · exact fun hnow => ⟨rfl, hhttp ▸ hnow⟩
  unfold task_step at h
  split at h
  · cases h
    exact hquiet rfl (sameSensors_refl _) (by simp)
  · next now htask =>
    cases h
    exact .task_refreshed now htask rfl rfl rfl
  · next now htask =>
    cases hgoverning : governing_mode now sys.shared with
    | none =>
      obtain ⟨status, hsection⟩ := system_auto_update_section_of_none hgoverning
      rw [hsection] at h
      cases h
      exact hquiet rfl (sameSensors_status ⟨status, rfl⟩) (by simp)
    | some mode =>
      have hframe := evaluate_rules_frame mode { sys.shared with current_mode := mode }
      rw [system_auto_update_section_of_some hgoverning] at h
      cases h
      exact hquiet rfl ⟨hframe.indoor, hframe.outdoor, hframe.wind⟩ (by simp)
  · cases h
    exact hquiet rfl ⟨rfl, rfl, rfl⟩ (by simp)
  · cases h

/-- A request in the same way: it does nothing to them, but may take a clock reading. -/
theorem sensor_request_step {sys next : System F} {r : Request} {emitted : List (Event F)}
    (hidle : sys.http_task = .idle) (h : request_step sys r = some (next, emitted)) :
    SensorStep sys next (.request r) := by
  have hquiet {r : Request} (htask : next.system_task = sys.system_task)
      (hsensors : SameSensors sys.shared next.shared)
      (hrefresh : ∀ now, next.http_task = .sensors_refresh now → r = .get_sensors now)
      (hsnapshot : next.http_task ≠ .sensors_snapshot) : SensorStep sys next (.request r) := by
    refine .quiet (by simp) hsensors (fun now hnow => Or.inr (htask ▸ hnow)) ?_ ?_
    · exact fun now hnow => Or.inl (by rw [hrefresh now hnow])
    · exact fun hnow => absurd hnow hsnapshot
  have hunchanged {r : Request} {event : Event F} (hnext : (sys, [event]) = (next, emitted)) :
      SensorStep sys next (.request r) := by
    cases hnext
    exact hquiet rfl (sameSensors_refl _) (by simp [hidle]) (by simp [hidle])
  cases r with
  | post_mode req =>
    unfold request_step at h
    dsimp only at h
    split at h
    · exact hunchanged (Option.some.inj h)
    · cases h
      exact hquiet rfl ⟨rfl, rfl, rfl⟩ (by simp) (by simp)
  | post_actuators req now =>
    unfold request_step at h
    dsimp only at h
    split at h
    · exact hunchanged (Option.some.inj h)
    · split at h
      · exact hunchanged (Option.some.inj h)
      · next hsection =>
        cases h
        obtain ⟨_, rfl, _⟩ := actuators_post_section_ok hsection
        exact hquiet rfl ⟨rfl, rfl, rfl⟩ (by simp) (by simp)
  | post_schedule req =>
    unfold request_step at h
    dsimp only at h
    split at h
    · exact hunchanged (Option.some.inj h)
    · cases h
      exact hquiet rfl ⟨rfl, rfl, rfl⟩ (by simp) (by simp)
    · cases h
  | get_sensors now =>
    cases h
    exact hquiet rfl (sameSensors_refl _) (by simp) (by simp)
  | get_status now =>
    cases h
    exact hquiet rfl (sameSensors_refl _) (by simp) (by simp)
  | get_schedule => exact hunchanged (Option.some.inj h)

/-- A later section of a handler in the same way: it refreshes with its reading, or does nothing.
-/
theorem sensor_handler_step {sys next : System F} {emitted : List (Event F)}
    (h : handler_step sys = some (next, emitted)) : SensorStep sys next .handler := by
  have hquiet (htask : next.system_task = sys.system_task)
      (hsensors : SameSensors sys.shared next.shared)
      (hrefresh : ∀ now, next.http_task ≠ .sensors_refresh now)
      (hsnapshot : next.http_task ≠ .sensors_snapshot) : SensorStep sys next .handler := by
    refine .quiet (by simp) hsensors (fun now hnow => Or.inr (htask ▸ hnow)) ?_ ?_
    · exact fun now hnow => absurd hnow (hrefresh now)
    · exact fun hnow => absurd hnow hsnapshot
  unfold handler_step at h
  split at h
  · cases h
  · cases h
    exact hquiet rfl (sameSensors_status (mode_post_status_frame _ _ _)) (by simp) (by simp)
  · cases h
    exact hquiet rfl (sameSensors_status (actuators_post_status_frame _ _)) (by simp) (by simp)
  · cases h
    exact hquiet rfl ⟨rfl, rfl, rfl⟩ (by simp) (by simp)
  · cases h
    exact hquiet rfl (sameSensors_status (schedule_post_status_frame _ _ _)) (by simp) (by simp)
  · next now htask =>
    cases h
    exact .handler_refreshed now htask rfl rfl rfl
  all_goals
    cases h
    exact hquiet rfl (sameSensors_refl _) (by simp) (by simp)

/-- The inversion of the step function for the sensor data, and for the clock readings that tasks
and handlers hold. -/
theorem sensor_step {sys next : System F} {label : Label F} {emitted : List (Event F)}
    (h : step sys label = some (next, emitted)) : SensorStep sys next label := by
  cases label with
  | update u =>
    cases h
    exact .updated u rfl rfl rfl
  | task l => exact sensor_task_step h
  | request r =>
    rw [step] at h
    split at h
    · next hidle => exact sensor_request_step hidle h
    · cases h
  | handler => exact sensor_handler_step h

end communication_center.system
