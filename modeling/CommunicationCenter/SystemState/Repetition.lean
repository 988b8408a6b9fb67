import CommunicationCenter.SystemState.Decisions

open libc

namespace communication_center.system_state

variable {F : Type}

/-- Once a tick has stored the mode that governs it, the next one is governed by
the same mode, or returns early when a period selected the manual mode. -/
theorem governing_mode_settled {now : tm} {s t : State F} {mode : system_mode_t}
    (h : governing_mode now s = some mode) (hschedule : t.schedule = s.schedule)
    (hmode : t.current_mode = mode) :
    governing_mode now t = if mode = MODE_MANUAL then none else some mode := by
  unfold governing_mode at h ⊢
  rw [hschedule, hmode]
  split at h
  · cases h
  · split at h
    · next hstored => rw [if_pos hstored, h]
    · next hempty => rw [if_neg hempty]

variable [CFloat F]

/-- A decision made again from the decided actuators is the same decision, if the readings are. The
thresholds of the fan do not let it flip back. -/
theorem decision_settled {mode : system_mode_t} {s t : State F} (hindoor : t.indoor = s.indoor)
    (houtdoor : t.outdoor = s.outdoor) (hwind : t.wind = s.wind)
    (hactuators : t.actuators = decision mode s) : decision mode t = decision mode s := by
  have hventilates : ventilates t = ventilates s := by
    rw [ventilates, humidity_difference, hindoor, houtdoor, ventilates, humidity_difference]
  have hwindy : windy t = windy s := by rw [windy, hwind, windy]
  have hstart : fan_should_start t = fan_should_start s := by
    rw [fan_should_start, hindoor, fan_should_start]
  have hstay : fan_may_stay t = fan_may_stay s := by rw [fan_may_stay, hindoor, fan_may_stay]
  have habsorber : absorber_needed t = absorber_needed s := by
    rw [absorber_needed, hindoor, absorber_needed]
  by_cases hbest : mode = MODE_AUTO_BEST
  · simp only [decision, if_pos hbest] at hactuators ⊢
    rw [best_decision, hindoor, houtdoor, hventilates, habsorber, hactuators, best_decision]
    split <;> rfl
  · by_cases heco : mode = MODE_AUTO_ECO
    · simp only [decision, if_neg hbest, if_pos heco] at hactuators ⊢
      rw [eco_decision, hindoor, houtdoor, hventilates, hwindy, hstart, hstay, habsorber,
        hactuators, eco_decision]
      -- a latch that was set or held is held by the same readings
      split
      · cases fan_should_start s with
        | true => simp
        | false => cases fan_may_stay s <;> simp
      · rfl
    · simp only [decision, if_neg hbest, if_neg heco] at hactuators ⊢
      rw [hactuators]
      simp

/-- A second tick in the same minute, with nothing in between, keeps the actuators and the mode and
sends nothing, whether or not the client was there. This holds in every state, reachable or not,
with any readings and any schedule. -/
theorem system_auto_update_repeated (first second : Bool) (now : tm) (s : State F) :
    let once := (system_auto_update first now s).1
    let twice := system_auto_update second now once
    twice.1.actuators = once.actuators ∧ twice.1.current_mode = once.current_mode ∧
      twice.2 = [] := by
  dsimp only
  cases hgoverning : governing_mode now s with
  | none =>
    obtain ⟨status, hfirst⟩ := system_auto_update_of_none hgoverning first
    obtain ⟨status', hsecond⟩ :=
      system_auto_update_of_none (s := { s with status }) hgoverning second
    rw [hfirst, hsecond]
    exact ⟨rfl, rfl, rfl⟩
  | some mode =>
    have hinputs := evaluate_rules_frame mode { s with current_mode := mode }
    have hdecided := evaluate_rules_actuators mode { s with current_mode := mode }
    rw [system_auto_update_of_some hgoverning first, publish_state_fst]
    -- `once` is the evaluated state `t`, with its own actuators as the last published ones
    generalize evaluate_rules mode { s with current_mode := mode } = t at hinputs hdecided
    have hagain := governing_mode_settled (t := { t with last := t.actuators }) hgoverning
      hinputs.schedule hinputs.current_mode
    split at hagain
    · obtain ⟨status, hsecond⟩ := system_auto_update_of_none hagain second
      rw [hsecond]
      exact ⟨rfl, rfl, rfl⟩
    · have hinputs' := evaluate_rules_frame mode
        { t with last := t.actuators, current_mode := mode }
      have hkept : (evaluate_rules mode
          { t with last := t.actuators, current_mode := mode }).actuators = t.actuators := by
        rw [evaluate_rules_actuators]
        exact (decision_settled hinputs.indoor hinputs.outdoor hinputs.wind hdecided).trans
          hdecided.symm
      rw [system_auto_update_of_some hagain second]
      dsimp only
      generalize evaluate_rules mode { t with last := t.actuators, current_mode := mode } = u
        at hinputs' hkept
      have hlast : u.last = u.actuators := hinputs'.last.trans hkept.symm
      rw [← hlast, publish_state_unchanged]
      exact ⟨hkept, hinputs'.current_mode.trans hinputs.current_mode.symm, rfl⟩

end communication_center.system_state
