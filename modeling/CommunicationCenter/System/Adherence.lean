import CommunicationCenter.SystemState.AutoUpdate

open libc communication_center.system_state

namespace communication_center.system

/-- A schedule within the documented values: at least one period, valid times,
and one of the three modes in each period. -/
structure DocumentedSchedule (schedule : List schedule_period_t) : Prop where
  nonempty : schedule ≠ []
  times : ∀ period ∈ schedule, period.ValidTimes
  modes : ∀ period ∈ schedule,
    period.mode = MODE_AUTO_BEST ∨ period.mode = MODE_AUTO_ECO ∨ period.mode = MODE_MANUAL

/-- The rule set that belongs to a mode; manual mode has none. -/
def rule_set (mode : system_mode_t) : Option system_mode_t :=
  if mode = MODE_AUTO_BEST ∨ mode = MODE_AUTO_ECO then some mode else none

variable {F : Type}

theorem governing_mode_of_automatic {s : State F} (hnonempty : s.schedule ≠ [])
    (hauto : s.current_mode ≠ MODE_MANUAL) (now : tm) :
    governing_mode now s = schedule_is_active now s.schedule := by
  rw [governing_mode, if_neg hauto, if_pos (List.length_pos_iff.mpr hnonempty)]

variable [CFloat F]

/-- The rule set that a tick evaluates, if any. -/
def evaluated_rule_set (now : tm) (s : State F) : Option system_mode_t :=
  (system_auto_update_section now s).2.bind fun evaluation => rule_set evaluation.mode

/-- In a period a tick evaluates the rule set of the first period that covers the
current minute, and outside of all periods it leaves the actuators alone. -/
def Adheres (now : tm) (s : State F) : Prop :=
  (∀ period, FirstCovering s.schedule now period →
    evaluated_rule_set now s = rule_set period.mode) ∧
  ((∀ period ∈ s.schedule, ¬ period.Covers now) →
    (system_auto_update_section now s).1.actuators = s.actuators)

/-- A tick adheres to the schedule unless it finds manual mode in an automatic period. The schedule
is a documented one; the state need not be reachable. -/
theorem adheres_iff {s : State F} (hschedule : DocumentedSchedule s.schedule) (now : tm) :
    Adheres now s ↔ (s.current_mode = MODE_MANUAL →
      ∀ period, FirstCovering s.schedule now period → period.mode = MODE_MANUAL) := by
  have hkept (h : governing_mode now s = none) :
      (system_auto_update_section now s).1.actuators = s.actuators := by
    obtain ⟨status, hsection⟩ := system_auto_update_section_of_none h
    rw [hsection]
  by_cases hmanual : s.current_mode = MODE_MANUAL
  · have hnone : governing_mode now s = none :=
      (governing_mode_eq_none_iff now s).mpr (Or.inl hmanual)
    have hrules : evaluated_rule_set now s = none := by
      rw [evaluated_rule_set, (system_auto_update_section_eq_none_iff now s).mpr hnone]
      rfl
    have hmode {period : schedule_period_t} (hfirst : FirstCovering s.schedule now period) :
        none = rule_set period.mode ↔ period.mode = MODE_MANUAL := by
      obtain ⟨before, after, hsplit, _⟩ := hfirst
      have hmem : period ∈ s.schedule := by simp [hsplit]
      rcases hschedule.modes period hmem with h | h | h <;> rw [h] <;> decide
    constructor
    · intro h _ period hfirst
      exact (hmode hfirst).mp (hrules ▸ h.1 period hfirst)
    · intro h
      refine ⟨fun period hfirst => ?_, fun _ => hkept hnone⟩
      rw [hrules]
      exact (hmode hfirst).mpr (h hmanual period hfirst)
  · have hgoverning := governing_mode_of_automatic hschedule.nonempty hmanual now
    refine ⟨fun _ h => absurd h hmanual, fun _ => ⟨fun period hfirst => ?_, fun hnone => ?_⟩⟩
    · rw [schedule_is_active_of_firstCovering hschedule.times hfirst] at hgoverning
      rw [evaluated_rule_set, system_auto_update_section_of_some hgoverning]
      rfl
    · rw [(schedule_is_active_eq_none_iff hschedule.times now).mpr hnone] at hgoverning
      exact hkept hgoverning

end communication_center.system
