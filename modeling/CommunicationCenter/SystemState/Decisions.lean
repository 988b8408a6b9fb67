import CommunicationCenter.SystemState.AutoUpdate

open libc

namespace communication_center.system_state

variable {F : Type} [CFloat F]

def humidity_difference (s : State F) : F :=
  CFloat.sub s.indoor.value.humidity s.outdoor.value.humidity

/-- The condition under which both rule sets open the window and the door. -/
def ventilates (s : State F) : Bool :=
  decide (s.outdoor.value.aq ≤ GOOD_AQ) &&
    CFloat.gt (humidity_difference s) HUMIDITY_DIFF_THRESHOLD

def windy (s : State F) : Bool :=
  s.wind.available && CFloat.gt s.wind.value WIND_HIGH

def fan_should_start (s : State F) : Bool :=
  CFloat.gt s.indoor.value.humidity HIGH_HUMIDITY ||
    CFloat.gt s.indoor.value.temp AUTO_ECO_FAN_ON_TEMP_C

/-- The condition under which a fan that was on is not switched off. -/
def fan_may_stay (s : State F) : Bool :=
  CFloat.gt s.indoor.value.humidity
      (CFloat.sub HIGH_HUMIDITY AUTO_ECO_FAN_HUMIDITY_RELEASE_MARGIN) ||
    CFloat.gt s.indoor.value.temp AUTO_ECO_FAN_OFF_TEMP_C

def absorber_needed (s : State F) : Bool :=
  CFloat.gt s.indoor.value.humidity HIGH_HUMIDITY || decide (s.indoor.value.aq > GOOD_AQ)

/-- The decision that both rule sets take without the data they wait for. -/
def held (q : Actuators) : Actuators :=
  { q with fan := false, absorber_used := false }

def best_decision (s : State F) : Actuators :=
  if s.indoor.available && s.outdoor.available then
    { window := ventilates s
      fan := ventilates s
      door := ventilates s
      absorber_used := absorber_needed s }
  else held s.actuators

def eco_decision (s : State F) : Actuators :=
  if s.outdoor.available then
    { window := ventilates s
      fan := ventilates s && !windy s && s.indoor.available &&
        (fan_should_start s || (s.actuators.fan && fan_may_stay s))
      door := ventilates s
      absorber_used := s.indoor.available && absorber_needed s }
  else held s.actuators

/-- The actuators behind the rules of a mode, as a function of the readings and
the actuators before. -/
def decision (mode : system_mode_t) (s : State F) : Actuators :=
  if mode = MODE_AUTO_BEST then best_decision s
  else if mode = MODE_AUTO_ECO then eco_decision s
  else { s.actuators with fan := s.actuators.fan && s.actuators.window }

theorem auto_best_actuators (s : State F) : (auto_best s).actuators = best_decision s := by
  unfold auto_best best_decision
  cases hindoor : s.indoor.available with
  | false => simp [held]
  | true =>
    cases houtdoor : s.outdoor.available with
    | false => simp [held]
    | true => simp [ventilates, absorber_needed, humidity_difference, Bool.and_comm]

/-- What the rules of `AUTO_ECO` make of the four actuators in any state, each by a condition on
the readings and on its former value. -/
theorem auto_eco_ventilation_actuators (s : State F) :
    (auto_eco_ventilation s).actuators =
      { window := ventilates s
        fan := ventilates s && !windy s && s.indoor.available &&
          (fan_should_start s || (s.actuators.fan && fan_may_stay s))
        door := ventilates s
        absorber_used := s.actuators.absorber_used } := by
  unfold auto_eco_ventilation
  dsimp only
  split
  · next hopen =>
    rw [show ventilates s = true from hopen]
    split
    · next hwind =>
      rw [show windy s = true from hwind]
      simp
    · next hcalm =>
      rw [show windy s = false from Bool.not_eq_true _ ▸ hcalm]
      cases hindoor : s.indoor.available with
      | false => simp
      | true => simp [fan_should_start, fan_may_stay]
  · next hclosed =>
    rw [show ventilates s = false from Bool.not_eq_true _ ▸ hclosed]
    simp

theorem auto_eco_actuators (s : State F) : (auto_eco s).actuators = eco_decision s := by
  have hindoor := (auto_eco_ventilation_frame s).indoor
  unfold auto_eco eco_decision
  cases houtdoor : s.outdoor.available with
  | false => simp [held]
  | true => simp [auto_eco_ventilation_actuators, hindoor, absorber_needed]

/-- The check behind the rules as an operation on the actuators: the fan is turned off where the
window is closed, and the others are kept. -/
theorem evaluate_rules_check (mode : system_mode_t) (s : State F) :
    (evaluate_rules mode s).actuators =
      { (apply_auto_logic mode s).actuators with
        fan := (apply_auto_logic mode s).actuators.fan &&
          (apply_auto_logic mode s).actuators.window } := by
  unfold evaluate_rules
  generalize apply_auto_logic mode s = t
  rcases hq : t.actuators with ⟨window, fan, door, absorber⟩
  cases fan with
  | false => simp [hq]
  | true => cases window <;> simp [hq]

/-- The check changes nothing that a rule set decided, since neither lets the fan run with a closed
window. -/
theorem evaluate_rules_actuators (mode : system_mode_t) (s : State F) :
    (evaluate_rules mode s).actuators = decision mode s := by
  rw [evaluate_rules_check]
  unfold apply_auto_logic decision
  split
  · rw [auto_best_actuators, best_decision]
    split <;> simp [held]
  · split
    · rw [auto_eco_actuators, eco_decision]
      split
      · cases ventilates s <;> simp
      · simp [held]
    · rfl

/-- The actuators behind a tick that evaluates the rules. -/
theorem system_auto_update_section_actuators {now : tm} {s : State F} {mode : system_mode_t}
    (h : governing_mode now s = some mode) :
    (system_auto_update_section now s).1.actuators = decision mode s := by
  rw [system_auto_update_section_of_some h, evaluate_rules_actuators]
  rfl

theorem decision_best (s : State F) : decision MODE_AUTO_BEST s = best_decision s := by
  rw [decision, if_pos rfl]

theorem decision_eco (s : State F) : decision MODE_AUTO_ECO s = eco_decision s := by
  rw [decision, if_neg (by decide), if_pos rfl]

end communication_center.system_state
