import CommunicationCenter.System.Control

open libc transition communication_center.system_state communication_center.http_server

namespace communication_center.system

variable {F : Type}

/-- The POST requests that the handlers answer with OK. -/
def Accepted (s : State F) : Request → Prop
  | .post_mode req => ∃ new_mode, mode_post_parse req = .ok new_mode
  | .post_actuators req now =>
    ∃ r result, actuators_post_parse req = .ok r ∧ actuators_post_section now r s = .ok result
  | .post_schedule req => ∃ periods, schedule_post_parse req = .ok (some (.ok periods))
  | _ => False

/-- A step that neither accepts a POST request nor ticks in an active period. -/
def Undisturbed (s : State F) : Label F → Prop
  | .request r => ¬ Accepted s r
  | .task (.auto_update now) => schedule_is_active now s.schedule = none
  | _ => True

/-- Manual control was granted by the mode or by the schedule, and stays granted
while the schedule is inactive. -/
def ManuallyHeld (q : Actuators) (s : State F) : Prop :=
  s.actuators = q ∧ (s.current_mode = MODE_MANUAL ∨ s.schedule.length > 0)

theorem ManuallyHeld.of_sameControl {q : Actuators} {s t : State F} (h : ManuallyHeld q s)
    (hcontrol : SameControl s t) : ManuallyHeld q t := by
  unfold ManuallyHeld
  rw [hcontrol.actuators, hcontrol.current_mode, hcontrol.schedule]
  exact h

variable [CFloat F]

/-- An undisturbed step keeps the values that were set manually, and that manual control was
granted. It may be a sensor update, a publication, a refused request or a tick outside all periods.
-/
theorem ManuallyHeld.step {q : Actuators} {sys next : System F} {label : Label F}
    {emitted : List (Event F)} (h : ManuallyHeld q sys.shared)
    (hundisturbed : Undisturbed sys.shared label) (hstep : step sys label = some (next, emitted)) :
    ManuallyHeld q next.shared := by
  cases control_step hstep with
  | quiet _ hcontrol _ _ _ _ => exact h.of_sameControl hcontrol
  | skipped _ _ hcontrol _ _ _ => exact h.of_sameControl hcontrol
  | evaluated now mode hgoverning _ _ _ _ =>
    have hnone : governing_mode now sys.shared = none :=
      (governing_mode_eq_none_iff now sys.shared).mpr
        (h.2.imp_right fun hschedule => ⟨hschedule, hundisturbed⟩)
    rw [hnone] at hgoverning
    cases hgoverning
  | task_published _ _ hshared _ _ _ _ =>
    rw [hshared]
    exact h
  | handler_published _ _ hshared _ _ _ _ =>
    rw [hshared]
    exact h
  | mode_posted _ new_mode _ hparse _ _ _ _ => exact absurd ⟨new_mode, hparse⟩ hundisturbed
  | actuators_posted _ now r _ hparse hallowed hrule _ _ _ _ =>
    obtain ⟨result, hsection⟩ := (actuators_post_section_isOk_iff now r sys.shared).mpr
      ⟨(manual_control_allowed_iff now sys.shared).mpr hallowed, hrule⟩
    exact absurd ⟨r, result, hparse, hsection⟩ hundisturbed
  | schedule_posted _ periods _ hparse _ _ _ _ => exact absurd ⟨periods, hparse⟩ hundisturbed

end communication_center.system
