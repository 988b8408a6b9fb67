import CommunicationCenter.SystemState.Announcements

open libc expiring communication_center.system_status

namespace communication_center.system_state

/-- What a message says about the resulting actuators, and the comparisons that
it gives as reasons, of the values that the tick read. -/
def Announcement.Holds (s : State Binary32) (q : Actuators) : Announcement → Prop
  | .best_waiting => s.indoor.available = false ∨ s.outdoor.available = false
  | .best_fan_on => (q.window = true ∧ q.door = true ∧ q.fan = true) ∧
      CFloat.gt s.indoor.value.humidity s.outdoor.value.humidity = true ∧
      s.indoor.value.aq > GOOD_AQ
  | .best_open => (q.window = true ∧ q.door = true) ∧
      CFloat.gt s.indoor.value.humidity s.outdoor.value.humidity = true ∧
      s.outdoor.value.aq ≤ GOOD_AQ
  | .best_toxic => (q.window = false ∧ q.door = false) ∧ s.outdoor.value.aq > GOOD_AQ
  | .best_no_difference => q.window = false ∧
      CFloat.gt HUMIDITY_DIFF_THRESHOLD (humidity_difference s) = true
  | .eco_waiting => s.outdoor.available = false
  | .eco_windy => (q.window = true ∧ q.fan = false) ∧ CFloat.gt s.wind.value WIND_HIGH = true
  | .eco_no_indoor => q.window = true ∧ s.indoor.available = false
  | .eco_fan_on => (q.window = true ∧ q.fan = true) ∧
      (CFloat.gt s.indoor.value.humidity HIGH_HUMIDITY = true ∨
        CFloat.gt s.indoor.value.temp AUTO_ECO_FAN_ON_TEMP_C = true)
  | .eco_fan_kept => (q.window = true ∧ s.actuators.fan = true ∧ q.fan = true) ∧
      (CFloat.gt s.indoor.value.humidity
          (CFloat.sub HIGH_HUMIDITY AUTO_ECO_FAN_HUMIDITY_RELEASE_MARGIN) = true ∨
        CFloat.gt s.indoor.value.temp AUTO_ECO_FAN_OFF_TEMP_C = true)
  | .eco_fan_off => (q.window = true ∧ q.fan = false) ∧
      s.indoor.value.humidity.le HIGH_HUMIDITY = true ∧
      s.indoor.value.temp.le AUTO_ECO_FAN_ON_TEMP_C = true
  | .eco_toxic => q.window = false ∧ s.outdoor.value.aq > GOOD_AQ
  | .eco_no_difference => q.window = false ∧
      CFloat.gt HUMIDITY_DIFF_THRESHOLD (humidity_difference s) = true

/-- Everything that can be read from the texts of the state `t` is true of its
actuators and of the values in the state `s` that the tick found. -/
structure Truthful (s t : State Binary32) : Prop where
  message : ∀ a : Announcement, a.ReadFrom t.status → a.Holds s t.actuators
  absorber : AbsorberReadFrom t.status → t.actuators.absorber_used = true ∧
    (CFloat.gt s.indoor.value.humidity HIGH_HUMIDITY = true ∨ s.indoor.value.aq > GOOD_AQ)

/-- The difference can be compared with the threshold and is not equal to it. -/
def DifferenceDecided (s : State Binary32) : Prop :=
  CFloat.gt (humidity_difference s) HUMIDITY_DIFF_THRESHOLD = true ∨
    CFloat.gt HUMIDITY_DIFF_THRESHOLD (humidity_difference s) = true

/-- Where `AUTO_BEST` opens the window the indoor air is bad, as its text says,
and where the outdoor air is good the humidity difference is not the threshold. -/
def BestTextsMatch (s : State Binary32) : Prop :=
  s.indoor.available = true → s.outdoor.available = true →
    (ventilates s = true → s.indoor.value.aq > GOOD_AQ) ∧
      (s.outdoor.value.aq ≤ GOOD_AQ → DifferenceDecided s)

/-- For `AUTO_ECO` the difference is not the threshold either, and where the fan
is off for the sake of the indoor conditions, both of them are numbers. -/
def EcoTextsMatch (s : State Binary32) : Prop :=
  s.outdoor.available = true →
    (s.outdoor.value.aq ≤ GOOD_AQ → DifferenceDecided s) ∧
      (ventilates s = true → windy s = false → s.indoor.available = true →
        (s.indoor.value.humidity ≠ .nan ∧ s.indoor.value.temp ≠ .nan) ∨
          fan_should_start s = true ∨ (s.actuators.fan = true ∧ fan_may_stay s = true))

theorem ventilates_eq_true_iff {F : Type} [CFloat F] (s : State F) :
    ventilates s = true ↔ s.outdoor.value.aq ≤ GOOD_AQ ∧
      CFloat.gt (humidity_difference s) HUMIDITY_DIFF_THRESHOLD = true := by
  rw [ventilates, Bool.and_eq_true, decide_eq_true_eq]

theorem indoor_above_outdoor {s : State Binary32} (h : ventilates s = true) :
    CFloat.gt s.indoor.value.humidity s.outdoor.value.humidity = true := by
  have hthreshold : (HUMIDITY_DIFF_THRESHOLD : Binary32) = .finite false 10 := by decide +kernel
  have habove := ((ventilates_eq_true_iff s).mp h).2
  rw [hthreshold] at habove
  exact Binary32.gt_of_sub_gt (by norm_num) habove

/-- With the window closed under good air, the text on the difference is true
when the difference is decided. -/
theorem below_threshold_iff {s : State Binary32} (hclosed : ventilates s = false)
    (haq : s.outdoor.value.aq ≤ GOOD_AQ) :
    CFloat.gt HUMIDITY_DIFF_THRESHOLD (humidity_difference s) = true ↔ DifferenceDecided s := by
  have hnot : ¬ CFloat.gt (humidity_difference s) HUMIDITY_DIFF_THRESHOLD = true := fun habove => by
    rw [(ventilates_eq_true_iff s).mpr ⟨haq, habove⟩] at hclosed
    cases hclosed
  exact (or_iff_right hnot).symm

theorem best_holds_iff (s : State Binary32) :
    (best_announcement s).Holds s (best_decision s) ↔ BestTextsMatch s := by
  unfold best_announcement best_decision BestTextsMatch
  cases hindoor : s.indoor.available with
  | false => simp [Announcement.Holds, hindoor]
  | true =>
    cases houtdoor : s.outdoor.available with
    | false => simp [Announcement.Holds, houtdoor]
    | true =>
      simp only [Bool.and_true, if_true, true_implies]
      cases hopen : ventilates s with
      | true =>
        have hdecided : DifferenceDecided s := Or.inl ((ventilates_eq_true_iff s).mp hopen).2
        simp [Announcement.Holds, indoor_above_outdoor hopen, hdecided]
      | false =>
        by_cases haq : s.outdoor.value.aq ≤ GOOD_AQ
        · simp [Announcement.Holds, haq, below_threshold_iff hopen haq]
        · simp [Announcement.Holds, haq, UInt8.not_le.mp haq]

theorem within_limits_iff {s : State Binary32} (hstart : fan_should_start s = false) :
    (s.indoor.value.humidity.le HIGH_HUMIDITY = true ∧
        s.indoor.value.temp.le AUTO_ECO_FAN_ON_TEMP_C = true) ↔
      s.indoor.value.humidity ≠ .nan ∧ s.indoor.value.temp ≠ .nan := by
  have hhumidity : (HIGH_HUMIDITY : Binary32) ≠ .nan := by decide +kernel
  have htemp : (AUTO_ECO_FAN_ON_TEMP_C : Binary32) ≠ .nan := by decide +kernel
  obtain ⟨hnot, hnot'⟩ := Bool.or_eq_false_iff.mp hstart
  have hnot : Binary32.gt s.indoor.value.humidity HIGH_HUMIDITY = false := hnot
  have hnot' : Binary32.gt s.indoor.value.temp AUTO_ECO_FAN_ON_TEMP_C = false := hnot'
  simp [Binary32.le, hnot, hnot', hhumidity, htemp]

/-- The texts of `AUTO_ECO` hold for what is decided exactly when the readings rule out what its
messages leave out, branch by branch. -/
theorem eco_holds_iff (s : State Binary32) :
    (eco_announcement s).Holds s (eco_decision s) ↔ EcoTextsMatch s := by
  unfold eco_announcement eco_decision EcoTextsMatch
  cases houtdoor : s.outdoor.available with
  | false => simp [Announcement.Holds, houtdoor]
  | true =>
    simp only [if_true, true_implies]
    cases hopen : ventilates s with
    | false =>
      by_cases haq : s.outdoor.value.aq ≤ GOOD_AQ
      · simp [Announcement.Holds, haq, below_threshold_iff hopen haq]
      · simp [Announcement.Holds, haq, UInt8.not_le.mp haq]
    | true =>
      have hdecided : DifferenceDecided s := Or.inl ((ventilates_eq_true_iff s).mp hopen).2
      cases hwind : windy s with
      | true =>
        have habove := (Bool.and_eq_true_iff.mp hwind).2
        simp [Announcement.Holds, hdecided, habove]
      | false =>
        cases hindoor : s.indoor.available with
        | false => simp [Announcement.Holds, hdecided, hindoor]
        | true =>
          cases hstart : fan_should_start s with
          | true =>
            have habove := Bool.or_eq_true_iff.mp hstart
            simp [Announcement.Holds, hdecided, habove]
          | false =>
            cases hstay : s.actuators.fan && fan_may_stay s with
            | true =>
              obtain ⟨hfan, hmay⟩ := Bool.and_eq_true_iff.mp hstay
              have habove := Bool.or_eq_true_iff.mp hmay
              simp [Announcement.Holds, hdecided, habove, hfan, hmay]
            | false =>
              have hnot : ¬(s.actuators.fan = true ∧ fan_may_stay s = true) := by
                rw [← Bool.and_eq_true_iff, hstay]
                decide
              simp [Announcement.Holds, hdecided, within_limits_iff hstart, hnot]

theorem absorber_notMem_fixed (decimals : Nat) (x : Binary32) : 65 ∉ CFloat.fixed decimals x :=
  Binary32.notMem_fixed (by decide) (by decide) decimals x

/-- The texts of a report are true when its message is. The sentence about the absorber is true
whenever it is written. -/
theorem truthful_iff {s t : State Binary32} {a : Announcement} {args absorber_args : List (Arg Binary32)}
    {status : Status} (hstatus : t.status = a.report args t.actuators.absorber_used absorber_args status)
    (habsorber : t.actuators.absorber_used = true → absorber_needed s = true) :
    Truthful s t ↔ a.Holds s t.actuators := by
  have hread : a.ReadFrom t.status := by
    rw [hstatus]
    exact a.readFrom_report _ _ _ _
  constructor
  · intro h
    exact h.message a hread
  · intro h
    refine ⟨fun b hb => Announcement.eq_of_readFrom hread hb ▸ h, fun hsentence => ?_⟩
    cases hused : t.actuators.absorber_used with
    | false =>
      rw [hstatus, hused, Announcement.report_false] at hsentence
      exact absurd hsentence (a.not_absorberReadFrom_write absorber_notMem_fixed args status)
    | true =>
      have hneeded := habsorber hused
      rw [absorber_needed, Bool.or_eq_true, decide_eq_true_eq] at hneeded
      exact ⟨rfl, hneeded⟩

theorem absorber_needed_of_decision {mode : system_mode_t} {s : State Binary32}
    (hmode : mode = MODE_AUTO_BEST ∨ mode = MODE_AUTO_ECO)
    (hused : (decision mode s).absorber_used = true) : absorber_needed s = true := by
  rcases hmode with rfl | rfl
  · rw [decision_best, best_decision] at hused
    split at hused
    · exact hused
    · cases hused
  · rw [decision_eco, eco_decision] at hused
    split at hused
    · exact (Bool.and_eq_true_iff.mp hused).2
    · cases hused

theorem announcement_readFrom {now : tm} {s : State Binary32} {mode : system_mode_t}
    (hgoverning : governing_mode now s = some mode)
    (hmode : mode = MODE_AUTO_BEST ∨ mode = MODE_AUTO_ECO) (global_client : Bool) :
    (announcement mode s).ReadFrom (system_auto_update global_client now s).1.status := by
  obtain ⟨args, absorber_args, hstatus⟩ :=
    evaluate_rules_status hmode { s with current_mode := mode }
  rw [system_auto_update_of_some hgoverning, publish_state_fst]
  dsimp only
  rw [hstatus]
  exact Announcement.readFrom_report _ _ _ _ _

/-- The texts that a tick writes with the rules of a mode agree with the resulting actuators and
with the values it read exactly when the readings rule out what the messages leave out. The state
may be any in which the rules of one of the two automatic modes are evaluated, and the conditions
are about that state alone. -/
theorem status_truthful_iff {now : tm} {s : State Binary32} {mode : system_mode_t}
    (hgoverning : governing_mode now s = some mode)
    (hmode : mode = MODE_AUTO_BEST ∨ mode = MODE_AUTO_ECO) (global_client : Bool) :
    Truthful s (system_auto_update global_client now s).1 ↔
      (mode = MODE_AUTO_BEST → BestTextsMatch s) ∧ (mode = MODE_AUTO_ECO → EcoTextsMatch s) := by
  rw [system_auto_update_of_some hgoverning, publish_state_fst]
  have hactuators : (evaluate_rules mode { s with current_mode := mode }).actuators =
      decision mode s := evaluate_rules_actuators mode _
  obtain ⟨args, absorber_args, hstatus⟩ : ∃ args absorber_args,
      (evaluate_rules mode { s with current_mode := mode }).status =
        (announcement mode s).report args (decision mode s).absorber_used absorber_args s.status :=
    evaluate_rules_status hmode _
  have htexts := truthful_iff (s := s)
    (t := { evaluate_rules mode { s with current_mode := mode } with
      last := (evaluate_rules mode { s with current_mode := mode }).actuators })
    (hactuators ▸ hstatus) fun hused => absorber_needed_of_decision hmode (hactuators ▸ hused)
  rw [htexts]
  change (announcement mode s).Holds s (evaluate_rules mode _).actuators ↔ _
  rw [hactuators]
  have hmodes : MODE_AUTO_BEST ≠ MODE_AUTO_ECO := by decide
  rcases hmode with rfl | rfl
  · rw [announcement, if_pos rfl, decision_best, best_holds_iff]
    simp [hmodes]
  · rw [announcement, if_neg hmodes.symm, decision_eco, eco_holds_iff]
    simp [hmodes.symm]

private def humid_indoors (aq : UInt8) : State Binary32 :=
  { State.initial with
    current_mode := MODE_AUTO_BEST
    indoor := ⟨⟨CFloat.lit 21, CFloat.lit 60, aq⟩, true, 0⟩
    outdoor := ⟨⟨CFloat.lit 15, CFloat.lit 40, 10⟩, true, 0⟩ }

theorem status_truthful_iff_humid :
    Truthful (humid_indoors 80) (system_auto_update true ⟨12, 0⟩ (humid_indoors 80)).1 ↔
      (MODE_AUTO_BEST = MODE_AUTO_BEST → BestTextsMatch (humid_indoors 80)) ∧
        (MODE_AUTO_BEST = MODE_AUTO_ECO → EcoTextsMatch (humid_indoors 80)) :=
  status_truthful_iff (rfl : governing_mode ⟨12, 0⟩ (humid_indoors 80) = some MODE_AUTO_BEST)
    (Or.inl rfl) true

/-- Good indoor air is reported as being above the threshold: the fan is turned on with the window,
which was opened for the humidity, and the message gives the air as a reason. -/
theorem status_untruthful :
    ¬ ∀ (global_client : Bool) (now : tm) (s : State Binary32) (mode : system_mode_t),
      governing_mode now s = some mode → mode = MODE_AUTO_BEST ∨ mode = MODE_AUTO_ECO →
        Truthful s (system_auto_update global_client now s).1 := by
  intro h
  have htexts := h true ⟨12, 0⟩ (humid_indoors 10) MODE_AUTO_BEST rfl (Or.inl rfl)
  have hfan : announcement MODE_AUTO_BEST (humid_indoors 10) = .best_fan_on := by decide +kernel
  have hgoverning : governing_mode ⟨12, 0⟩ (humid_indoors 10) = some MODE_AUTO_BEST := rfl
  have hread := announcement_readFrom hgoverning (Or.inl rfl) true
  rw [hfan] at hread
  exact absurd (htexts.message _ hread).2.2 (by decide)

end communication_center.system_state
