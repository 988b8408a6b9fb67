import CommunicationCenter.SystemState.AutoLogic
import CommunicationCenter.SystemState.Publish

open libc communication_center.system_status

namespace communication_center.system_state

/-- A tick that reached the rules: the mode it passed to `apply_auto_logic` and
the values it captured for `publish_state`. -/
structure Evaluation where
  mode : system_mode_t
  captured : Actuators
  deriving DecidableEq

variable {F : Type}

/-- The mode that a tick hands to the rules, if it does not return early. -/
def governing_mode (now : tm) (s : State F) : Option system_mode_t :=
  if s.current_mode = MODE_MANUAL then none
  else if s.schedule.length > 0 then schedule_is_active now s.schedule
  else some s.current_mode

theorem governing_mode_eq_none_iff (now : tm) (s : State F) :
    governing_mode now s = none ↔ s.current_mode = MODE_MANUAL ∨
      (s.schedule.length > 0 ∧ schedule_is_active now s.schedule = none) := by
  unfold governing_mode
  by_cases hmanual : s.current_mode = MODE_MANUAL
  · simp [hmanual]
  · by_cases hschedule : s.schedule.length > 0
    · simp [hmanual, hschedule]
    · simp [hmanual, hschedule]

/-- The manual control flag is the negation of the tick's decision to evaluate, in the same state
and minute. Nothing is assumed of them. -/
theorem manual_control_allowed_iff (now : tm) (s : State F) :
    (system_state_get_control_flags_locked now s).manual_control_allowed = true ↔
      governing_mode now s = none := by
  unfold system_state_get_control_flags_locked governing_mode
  by_cases hmanual : s.current_mode = MODE_MANUAL
  · simp [hmanual]
  · by_cases hschedule : s.schedule.length > 0
    · simp [hmanual, hschedule]
    · simp [hmanual, hschedule]

variable [CFloat F]

/-- The rules followed by the check that the fan is off when the window is closed. -/
def evaluate_rules (mode : system_mode_t) (s : State F) : State F :=
  let s := apply_auto_logic mode s
  if s.actuators.fan && !s.actuators.window then
    { s with actuators := { s.actuators with fan := false } }
  else s

/-- The critical section of `system_auto_update`. The result `none` stands for
the early returns. -/
def system_auto_update_section (now : tm) (s : State F) : State F × Option Evaluation :=
  let evaluate (mode : system_mode_t) (s : State F) : State F × Option Evaluation :=
    let s := evaluate_rules mode s
    (s, some { mode, captured := s.actuators })
  let mode := s.current_mode
  if mode = MODE_MANUAL then
    ({ s with
        status := system_status_set_message_locked (ascii "You are in control")
          (ascii "Manual Mode, no Status explanation!") s.status }, none)
  else if s.schedule.length > 0 then
    match schedule_is_active now s.schedule with
    | none =>
      ({ s with
          status := system_status_set_message_locked (ascii "Take over for now")
            (ascii "Schedule inactive: manual override is active until the next schedule period starts.")
            s.status }, none)
    | some mode => evaluate mode { s with current_mode := mode }
  else evaluate mode s

/-- A whole tick with nothing between its critical section and its publication. -/
def system_auto_update (global_client : Bool) (now : tm) (s : State F) :
    State F × List Message :=
  match system_auto_update_section now s with
  | (s, none) => (s, [])
  | (s, some evaluation) => publish_state global_client evaluation.captured s

theorem evaluate_rules_frame (mode : system_mode_t) (s : State F) :
    SameInputs s (evaluate_rules mode s) := by
  obtain ⟨hschedule, hlast, hmode, hindoor, houtdoor, hwind, hin, hout⟩ :=
    apply_auto_logic_frame mode s
  unfold evaluate_rules
  dsimp only
  split <;> exact ⟨hschedule, hlast, hmode, hindoor, houtdoor, hwind, hin, hout⟩

/-- A tick that returns early writes the status texts only, and captures nothing to publish. -/
theorem system_auto_update_section_of_none {now : tm} {s : State F}
    (h : governing_mode now s = none) :
    ∃ status, system_auto_update_section now s = ({ s with status }, none) := by
  unfold governing_mode at h
  unfold system_auto_update_section
  split at h
  · next hmanual => exact ⟨_, by rw [if_pos hmanual]⟩
  · next hauto =>
    split at h
    · next hschedule => exact ⟨_, by rw [if_neg hauto, if_pos hschedule, h]⟩
    · cases h

/-- Any other tick stores the governing mode and evaluates its rules, and captures the actuators to
publish them. -/
theorem system_auto_update_section_of_some {now : tm} {s : State F} {mode : system_mode_t}
    (h : governing_mode now s = some mode) :
    system_auto_update_section now s =
      (evaluate_rules mode { s with current_mode := mode },
        some ⟨mode, (evaluate_rules mode { s with current_mode := mode }).actuators⟩) := by
  unfold governing_mode at h
  unfold system_auto_update_section
  split at h
  · cases h
  · next hauto =>
    split at h
    · next hschedule => rw [if_neg hauto, if_pos hschedule, h]
    · next hempty =>
      obtain rfl := Option.some.inj h
      rw [if_neg hauto, if_neg hempty]

theorem system_auto_update_of_none {now : tm} {s : State F} (h : governing_mode now s = none)
    (global_client : Bool) :
    ∃ status, system_auto_update global_client now s = ({ s with status }, []) := by
  obtain ⟨status, hsection⟩ := system_auto_update_section_of_none h
  exact ⟨status, by rw [system_auto_update, hsection]⟩

theorem system_auto_update_of_some {now : tm} {s : State F} {mode : system_mode_t}
    (h : governing_mode now s = some mode) (global_client : Bool) :
    system_auto_update global_client now s =
      publish_state global_client (evaluate_rules mode { s with current_mode := mode }).actuators
        (evaluate_rules mode { s with current_mode := mode }) := by
  rw [system_auto_update, system_auto_update_section_of_some h]

theorem system_auto_update_section_eq_none_iff (now : tm) (s : State F) :
    (system_auto_update_section now s).2 = none ↔ governing_mode now s = none := by
  cases hgoverning : governing_mode now s with
  | none =>
    obtain ⟨status, hsection⟩ := system_auto_update_section_of_none hgoverning
    simp [hsection]
  | some mode => simp [system_auto_update_section_of_some hgoverning]

end communication_center.system_state
