import CommunicationCenter.Latch.History
import CommunicationCenter.Libc.Exact
import CommunicationCenter.SystemState.Decisions

open libc expiring

namespace communication_center.system_state

variable {F : Type}

/-- The readings, as exact numbers, ask for the window to be open and leave the
decision on the fan to the indoor conditions. -/
def Vents (value : F → ℚ) (s : State F) : Prop :=
  s.outdoor.available = true ∧ s.outdoor.value.aq ≤ GOOD_AQ ∧
    10 < value s.indoor.value.humidity - value s.outdoor.value.humidity ∧
    s.indoor.available = true ∧ ¬(s.wind.available = true ∧ 5 < value s.wind.value)

def StartsFan (value : F → ℚ) (s : State F) : Prop :=
  Vents value s ∧ (55 < value s.indoor.value.humidity ∨ 25 < value s.indoor.value.temp)

def HoldsFan (value : F → ℚ) (s : State F) : Prop :=
  Vents value s ∧ (52 < value s.indoor.value.humidity ∨ 24 < value s.indoor.value.temp)

variable [CFloat F]

/-- The state behind the tick `i`. -/
def after_tick (global_client : ℕ → Bool) (now : ℕ → tm) (before : ℕ → State F) (i : ℕ) : State F :=
  (system_auto_update (global_client i) (now i) (before i)).1

/-- Consecutive ticks that evaluate the rules of `AUTO_ECO`. Between two of them
everything may change but the fan. -/
structure EcoTicks (global_client : ℕ → Bool) (now : ℕ → tm) (before : ℕ → State F) (n : ℕ) :
    Prop where
  governed : ∀ i ≤ n, governing_mode (now i) (before i) = some MODE_AUTO_ECO
  carried : ∀ i < n,
    (before (i + 1)).actuators.fan = (after_tick global_client now before i).actuators.fan

/-- The ventilation part of the fan's condition. -/
def fan_allowed (s : State F) : Bool :=
  s.outdoor.available && ventilates s && !windy s && s.indoor.available

theorem eco_tick_fan {now : tm} {s : State F} (h : governing_mode now s = some MODE_AUTO_ECO)
    (global_client : Bool) :
    (system_auto_update global_client now s).1.actuators.fan =
      (fan_allowed s && (fan_should_start s || (s.actuators.fan && fan_may_stay s))) := by
  rw [system_auto_update_of_some h, publish_state_fst]
  dsimp only
  rw [evaluate_rules_actuators, decision, if_neg (by decide), if_pos rfl, eco_decision, fan_allowed]
  cases houtdoor : s.outdoor.available with
  | false => simp [held]
  | true => simp [ventilates, humidity_difference, windy, fan_should_start, fan_may_stay]

variable {value : F → ℚ}

theorem fan_allowed_iff (hexact : Exact value) (s : State F) :
    fan_allowed s = true ↔ Vents value s := by
  unfold fan_allowed ventilates humidity_difference windy HUMIDITY_DIFF_THRESHOLD WIND_HIGH Vents
  simp only [Bool.and_eq_true, Bool.not_eq_true', decide_eq_true_eq, hexact.gt, hexact.sub,
    hexact.lit, ← Bool.not_eq_true, not_and_or, and_assoc]
  tauto

theorem fan_should_start_iff (hexact : Exact value) (s : State F) :
    fan_should_start s = true ↔
      55 < value s.indoor.value.humidity ∨ 25 < value s.indoor.value.temp := by
  unfold fan_should_start HIGH_HUMIDITY AUTO_ECO_FAN_ON_TEMP_C
  rw [Bool.or_eq_true, hexact.gt, hexact.gt, hexact.lit, hexact.lit]

theorem fan_may_stay_iff (hexact : Exact value) (s : State F) :
    fan_may_stay s = true ↔
      52 < value s.indoor.value.humidity ∨ 24 < value s.indoor.value.temp := by
  have hrelease : (55 : ℚ) - 3 = 52 := by norm_num
  unfold fan_may_stay HIGH_HUMIDITY AUTO_ECO_FAN_HUMIDITY_RELEASE_MARGIN AUTO_ECO_FAN_OFF_TEMP_C
  rw [Bool.or_eq_true, hexact.gt, hexact.gt, hexact.sub, hexact.lit, hexact.lit, hexact.lit,
    hrelease]

/-- One tick sets the fan, keeps it, or turns it off, by exact comparisons of the readings. The
tick is one that is governed by `AUTO_ECO`. -/
theorem eco_tick_fan_iff (hexact : Exact value) {now : tm} {s : State F}
    (h : governing_mode now s = some MODE_AUTO_ECO) (global_client : Bool) :
    (system_auto_update global_client now s).1.actuators.fan = true ↔
      StartsFan value s ∨ (s.actuators.fan = true ∧ HoldsFan value s) := by
  rw [eco_tick_fan h, Bool.and_eq_true, Bool.or_eq_true, Bool.and_eq_true, fan_allowed_iff hexact,
    fan_should_start_iff hexact, fan_may_stay_iff hexact]
  unfold StartsFan HoldsFan
  tauto

/-- Over consecutive ticks the fan of `AUTO_ECO` is a latch: it is on exactly when some tick
started it and all later ones held it, or when it was on at first and all ticks held it. It keeps
its state between the thresholds, and every tick without the conditions of ventilation resets it.
The readings may change between the ticks in any way; it is assumed only that their differences and
comparisons are not rounded. -/
theorem eco_fan_latch (hexact : Exact value) {global_client : ℕ → Bool} {now : ℕ → tm}
    {before : ℕ → State F} {n : ℕ} (h : EcoTicks global_client now before n) :
    ((after_tick global_client now before n).actuators.fan = true ↔
      (∃ k ≤ n, StartsFan value (before k) ∧ ∀ j, k < j → j ≤ n → HoldsFan value (before j)) ∨
        ((before 0).actuators.fan = true ∧ ∀ j ≤ n, HoldsFan value (before j))) ∧
    (∀ i ≤ n, HoldsFan value (before i) → ¬ StartsFan value (before i) →
      (after_tick global_client now before i).actuators.fan = (before i).actuators.fan) ∧
    ∀ i ≤ n, ¬ Vents value (before i) →
      (after_tick global_client now before i).actuators.fan = false := by
  have htick (i : ℕ) (hi : i ≤ n) := eco_tick_fan_iff hexact (h.governed i hi) (global_client i)
  refine ⟨?_, ?_, ?_⟩
  · have hcarried (i : ℕ) (hi : i < n) : (before (i + 1)).actuators.fan = true ↔
        (after_tick global_client now before i).actuators.fan = true := by
      rw [h.carried i hi]
    exact latch.on_iff htick hcarried
  · intro i hi hhold hstart
    rw [Bool.eq_iff_iff, after_tick, htick i hi]
    tauto
  · intro i hi hvents
    rw [← Bool.not_eq_true, after_tick, htick i hi]
    unfold StartsFan HoldsFan
    tauto

private def humid (fan : Bool) (humidity : ℚ) : State ℚ :=
  { State.initial with
    actuators := { Actuators.off with fan }
    current_mode := MODE_AUTO_ECO
    indoor := ⟨⟨21, humidity, 0⟩, true, 0⟩
    outdoor := ⟨⟨21, 30, 0⟩, true, 0⟩ }

private def drying : ℕ → State ℚ
  | 0 => humid false 56
  | _ => humid true 53

/-- A fan that was started at 56 % is still on at 53 %. -/
theorem eco_fan_latch_drying :
    ((after_tick (fun _ => true) (fun _ => ⟨12, 0⟩) drying 1).actuators.fan = true ↔
      (∃ k ≤ 1, StartsFan id (drying k) ∧ ∀ j, k < j → j ≤ 1 → HoldsFan id (drying j)) ∨
        ((drying 0).actuators.fan = true ∧ ∀ j ≤ 1, HoldsFan id (drying j))) ∧
    (∀ i ≤ 1, HoldsFan id (drying i) → ¬ StartsFan id (drying i) →
      (after_tick (fun _ => true) (fun _ => ⟨12, 0⟩) drying i).actuators.fan =
        (drying i).actuators.fan) ∧
    ∀ i ≤ 1, ¬ Vents id (drying i) →
      (after_tick (fun _ => true) (fun _ => ⟨12, 0⟩) drying i).actuators.fan = false :=
  eco_fan_latch exact_rat ⟨by decide, by decide +kernel⟩

end communication_center.system_state
