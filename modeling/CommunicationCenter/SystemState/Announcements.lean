import CommunicationCenter.Libc.Comparison
import CommunicationCenter.SystemState.Decisions

open libc communication_center.system_status

namespace communication_center.system_state

/-- The messages that the rules can set. -/
inductive Announcement where
  | best_waiting
  | best_fan_on
  | best_open
  | best_toxic
  | best_no_difference
  | eco_waiting
  | eco_windy
  | eco_no_indoor
  | eco_fan_on
  | eco_fan_kept
  | eco_fan_off
  | eco_toxic
  | eco_no_difference
  deriving DecidableEq

def Announcement.headline : Announcement → Text
  | .best_waiting => ascii "Still thinking..."
  | .best_fan_on => ascii "Fresh up... fan On. Inside is too toxic!"
  | .best_open => ascii "Fresh air is coming in"
  | .best_toxic => ascii "Oh No, outside is toxic!"
  | .best_no_difference => ascii "Waiting for a better breeze"
  | .eco_waiting => ascii "Looking outside..."
  | .eco_windy => ascii "Saving energy, windy outside"
  | .eco_no_indoor => ascii "One moment..."
  | .eco_fan_on => ascii "Fresh up... fan On"
  | .eco_fan_kept => ascii "Fresh up... fan On"
  | .eco_fan_off => ascii "Saving energy"
  | .eco_toxic => ascii "Oh No, outside is toxic!"
  | .eco_no_difference => ascii "Waiting for a better breeze"

/-- The explanation, with its conversions. -/
def Announcement.explanation : Announcement → Text
  | .best_waiting => ascii "AUTO_BEST: waiting for indoor and outdoor sensor data."
  | .best_fan_on => ascii "AUTO_BEST: window and door open and fan on because indoor humidity %.1f is higher than outdoor humidity %.1f and indoor air quality %u is above the threshold %u."
  | .best_open => ascii "AUTO_BEST: window and door open because indoor humidity %.1f is higher than outdoor humidity %.1f and outdoor air quality %u is acceptable."
  | .best_toxic => ascii "AUTO_BEST: window and door kept closed because outdoor air quality %u is above the threshold %u."
  | .best_no_difference => ascii "AUTO_BEST: window kept closed because humidity difference %.1f is below the threshold %.1f."
  | .eco_waiting => ascii "AUTO_ECO: waiting for outdoor sensor data."
  | .eco_windy => ascii "AUTO_ECO: window open, but fan off because wind speed %.1f is above the threshold %.1f."
  | .eco_no_indoor => ascii "AUTO_ECO: window open, waiting for indoor sensor data before deciding on the fan."
  | .eco_fan_on => ascii "AUTO_ECO: window open and fan on because indoor humidity %.1f or temperature %.1f crossed the limit."
  | .eco_fan_kept => ascii "AUTO_ECO: window open and fan kept on while indoor humidity %.1f or temperature %.1f is still close to the limit, to avoid rapid switching."
  | .eco_fan_off => ascii "AUTO_ECO: window open and fan off because indoor humidity %.1f and temperature %.1f are within the configured limits."
  | .eco_toxic => ascii "AUTO_ECO: window kept closed because outdoor air quality %u is above the threshold %u."
  | .eco_no_difference => ascii "AUTO_ECO: window kept closed because humidity difference %.1f is below the threshold %.1f."

/-- The words in front of the first conversion. -/
def Announcement.stem (a : Announcement) : Text :=
  a.explanation.takeWhile (· ≠ 37)

/-- The message can be read from the status texts. -/
def Announcement.ReadFrom (a : Announcement) (status : Status) : Prop :=
  status.status_headline = a.headline ∧ a.stem <+: status.status_explanation

/-- The sentence that the rules append while the absorber is on. -/
def absorber_explanation : Text :=
  ascii "Absorber enabled because indoor humidity %.1f or air quality %u crossed the threshold."

def AbsorberReadFrom (status : Status) : Prop :=
  ascii "Absorber enabled" <:+: status.status_explanation

def Announcement.all : List Announcement :=
  [.best_waiting, .best_fan_on, .best_open, .best_toxic, .best_no_difference, .eco_waiting,
    .eco_windy, .eco_no_indoor, .eco_fan_on, .eco_fan_kept, .eco_fan_off, .eco_toxic,
    .eco_no_difference]

theorem Announcement.mem_all (a : Announcement) : a ∈ Announcement.all := by
  cases a <;> decide

/-- No message begins with the words of another one under the same headline, so that the texts tell
which one was written, whatever the numbers in it. -/
theorem Announcement.eq_of_stem_prefix {a b : Announcement} (hheadline : a.headline = b.headline)
    (hstem : a.stem <+: b.stem) : a = b := by
  have htable : ∀ p ∈ Announcement.all.map (fun a => (a, a.headline, a.stem)),
      ∀ q ∈ Announcement.all.map (fun a => (a, a.headline, a.stem)),
      p.2.1 = q.2.1 → p.2.2 <+: q.2.2 → p.1 = q.1 := by
    simp only [Announcement.all, List.map_cons, List.map_nil, Announcement.headline,
      Announcement.stem, Announcement.explanation]
    repeat rw [ascii_ofList]
    decide +kernel
  exact htable _ (List.mem_map_of_mem a.mem_all) _ (List.mem_map_of_mem b.mem_all) hheadline hstem

theorem Announcement.eq_of_readFrom {a b : Announcement} {status : Status} (ha : a.ReadFrom status)
    (hb : b.ReadFrom status) : a = b := by
  have hheadline := ha.1.symm.trans hb.1
  rcases List.prefix_or_prefix_of_prefix ha.2 hb.2 with h | h
  · exact Announcement.eq_of_stem_prefix hheadline h
  · exact (Announcement.eq_of_stem_prefix hheadline.symm h).symm

/-- The texts fit their buffers, and have no capital A but in the name of the mode. -/
theorem Announcement.texts (a : Announcement) :
    (a.headline ≠ [] ∧ a.headline.length < STATUS_EXPLANATION_MAX_LEN) ∧
      a.explanation.length < STATUS_EXPLANATION_MAX_LEN ∧
      a.explanation.take 2 = [65, 85] ∧ 65 ∉ a.explanation.drop 2 := by
  cases a <;> (
    simp only [Announcement.headline, Announcement.explanation]
    repeat rw [ascii_ofList]
    decide +kernel)

variable {F : Type} [CFloat F]

/-- The texts behind a message that is printed with the given numbers. -/
def Announcement.write (a : Announcement) (args : List (Arg F)) (status : Status) : Status :=
  system_status_set_messagef_locked a.headline a.explanation args status

/-- The texts behind the rules: a message, and the sentence on the absorber. -/
def Announcement.report (a : Announcement) (args : List (Arg F)) (absorber_used : Bool)
    (absorber_args : List (Arg F)) (status : Status) : Status :=
  if absorber_used then
    system_status_append_explanationf_locked absorber_explanation absorber_args (a.write args status)
  else a.write args status

def best_announcement (s : State F) : Announcement :=
  if s.indoor.available && s.outdoor.available then
    if ventilates s then .best_fan_on
    else if s.outdoor.value.aq ≤ GOOD_AQ then .best_no_difference
    else .best_toxic
  else .best_waiting

def eco_announcement (s : State F) : Announcement :=
  if s.outdoor.available then
    if ventilates s then
      if windy s then .eco_windy
      else if s.indoor.available then
        if fan_should_start s then .eco_fan_on
        else if s.actuators.fan && fan_may_stay s then .eco_fan_kept
        else .eco_fan_off
      else .eco_no_indoor
    else if s.outdoor.value.aq ≤ GOOD_AQ then .eco_no_difference
    else .eco_toxic
  else .eco_waiting

theorem Announcement.explanation_ne_nil (a : Announcement) : a.explanation ≠ [] := by
  intro hnil
  have hmode := a.texts.2.2.1
  simp [hnil] at hmode

theorem Announcement.write_eq (a : Announcement) (args : List (Arg F)) (status : Status) :
    a.write args status =
      { status_headline := snprintf STATUS_EXPLANATION_MAX_LEN a.headline
        status_explanation := snprintf STATUS_EXPLANATION_MAX_LEN (format a.explanation args) } :=
  system_status_set_messagef_locked_eq a.texts.1.1 a.explanation_ne_nil args status

/-- A message without conversions is printed as it is, and takes no arguments. -/
theorem Announcement.write_of_plain {a : Announcement} (h : (37 : UInt8) ∉ a.explanation)
    (status : Status) :
    a.write ([] : List (Arg F)) status =
      system_status_set_message_locked a.headline a.explanation status := by
  have hplain : format a.explanation ([] : List (Arg F)) = a.explanation := by
    have hcopied := format_append_of_notMem (F := F) h [] []
    rwa [List.append_nil, format, List.append_nil] at hcopied
  obtain ⟨c, headline, hheadline⟩ := List.exists_cons_of_ne_nil a.texts.1.1
  obtain ⟨d, explanation, hexplanation⟩ := List.exists_cons_of_ne_nil a.explanation_ne_nil
  rw [a.write_eq, hplain, hheadline, hexplanation]
  rfl

/-- A report without the sentence on the absorber is the message. -/
theorem Announcement.report_false (a : Announcement) (args absorber_args : List (Arg F))
    (status : Status) : a.report args false absorber_args status = a.write args status := rfl

/-- The texts of `AUTO_BEST` are those of the announcement for the state, with some arguments, and
with the sentence about the absorber where the rules decide for it. -/
theorem auto_best_status (s : State F) :
    ∃ args absorber_args : List (Arg F), (auto_best s).status =
      (best_announcement s).report args (best_decision s).absorber_used absorber_args s.status := by
  have hguard : (!s.indoor.available || !s.outdoor.available) =
      !(s.indoor.available && s.outdoor.available) := (Bool.not_and _ _).symm
  unfold auto_best best_announcement best_decision
  rw [hguard]
  cases s.indoor.available && s.outdoor.available with
  | false =>
    refine ⟨[], [], ?_⟩
    simp only [Bool.not_false, if_true, Bool.false_eq_true, if_false, held]
    rw [Announcement.report_false, Announcement.write_of_plain (by decide +kernel)]
    rfl
  | true =>
    have hventilates : (CFloat.gt (CFloat.sub s.indoor.value.humidity s.outdoor.value.humidity)
        HUMIDITY_DIFF_THRESHOLD && decide (s.outdoor.value.aq ≤ GOOD_AQ)) = ventilates s :=
      Bool.and_comm _ _
    simp only [Bool.not_true, if_true, Bool.false_eq_true, if_false, hventilates]
    cases ventilates s with
    | true =>
      refine ⟨[.float s.indoor.value.humidity, .float s.outdoor.value.humidity,
        .uint s.indoor.value.aq.toNat, .uint GOOD_AQ.toNat],
        [.float s.indoor.value.humidity, .uint s.indoor.value.aq.toNat], ?_⟩
      simp only [Announcement.report, Announcement.write, Announcement.headline,
        Announcement.explanation, absorber_explanation, absorber_needed, if_true]
    | false =>
      by_cases haq : s.outdoor.value.aq ≤ GOOD_AQ
      · refine ⟨[.float (humidity_difference s), .float HUMIDITY_DIFF_THRESHOLD],
          [.float s.indoor.value.humidity, .uint s.indoor.value.aq.toNat], ?_⟩
        simp only [haq, decide_true, Bool.not_true, Bool.false_eq_true, if_false, if_true,
          Announcement.report, Announcement.write, Announcement.headline,
          Announcement.explanation, absorber_explanation, absorber_needed, humidity_difference]
      · refine ⟨[.uint s.outdoor.value.aq.toNat, .uint GOOD_AQ.toNat],
          [.float s.indoor.value.humidity, .uint s.indoor.value.aq.toNat], ?_⟩
        simp only [haq, decide_false, Bool.not_false, Bool.false_eq_true, if_false, if_true,
          Announcement.report, Announcement.write, Announcement.headline,
          Announcement.explanation, absorber_explanation, absorber_needed]

/-- The texts of `AUTO_ECO` are those of the announcement for the state, with some arguments. There
are outdoor data. -/
theorem auto_eco_ventilation_status {s : State F} (houtdoor : s.outdoor.available = true) :
    ∃ args : List (Arg F),
      (auto_eco_ventilation s).status = (eco_announcement s).write args s.status := by
  have hventilates : (decide (s.outdoor.value.aq ≤ GOOD_AQ) &&
      CFloat.gt (CFloat.sub s.indoor.value.humidity s.outdoor.value.humidity)
        HUMIDITY_DIFF_THRESHOLD) = ventilates s := rfl
  have hwindy : (s.wind.available && CFloat.gt s.wind.value WIND_HIGH) = windy s := rfl
  unfold auto_eco_ventilation eco_announcement
  dsimp only
  rw [hventilates, hwindy, if_pos houtdoor]
  cases ventilates s with
  | true =>
    cases windy s with
    | true => exact ⟨[.float s.wind.value, .float WIND_HIGH], rfl⟩
    | false =>
      cases s.indoor.available with
      | false =>
        refine ⟨[], ?_⟩
        simp only [if_true, Bool.false_eq_true, if_false]
        rw [Announcement.write_of_plain (by decide +kernel)]
        rfl
      | true =>
        have hstart : (CFloat.gt s.indoor.value.humidity HIGH_HUMIDITY ||
            CFloat.gt s.indoor.value.temp AUTO_ECO_FAN_ON_TEMP_C) = fan_should_start s := rfl
        have hstay : (CFloat.gt s.indoor.value.humidity
            (CFloat.sub HIGH_HUMIDITY AUTO_ECO_FAN_HUMIDITY_RELEASE_MARGIN) ||
            CFloat.gt s.indoor.value.temp AUTO_ECO_FAN_OFF_TEMP_C) = fan_may_stay s := rfl
        rw [hstart, hstay]
        refine ⟨[.float s.indoor.value.humidity, .float s.indoor.value.temp], ?_⟩
        unfold Announcement.write
        cases fan_should_start s with
        | true => simp [Announcement.headline, Announcement.explanation]
        | false =>
          cases s.actuators.fan && fan_may_stay s with
          | true => simp [Announcement.headline, Announcement.explanation]
          | false => simp [Announcement.headline, Announcement.explanation]
  | false =>
    by_cases haq : s.outdoor.value.aq ≤ GOOD_AQ
    · have hgood : ¬ s.outdoor.value.aq > GOOD_AQ := UInt8.not_lt.mpr haq
      simp only [Bool.false_eq_true, if_false, if_pos haq, if_neg hgood]
      exact ⟨[.float (humidity_difference s), .float HUMIDITY_DIFF_THRESHOLD], rfl⟩
    · have hbad : s.outdoor.value.aq > GOOD_AQ := UInt8.not_le.mp haq
      simp only [Bool.false_eq_true, if_false, if_neg haq, if_pos hbad]
      exact ⟨[.uint s.outdoor.value.aq.toNat, .uint GOOD_AQ.toNat], rfl⟩

theorem auto_eco_status (s : State F) :
    ∃ args absorber_args : List (Arg F), (auto_eco s).status =
      (eco_announcement s).report args (eco_decision s).absorber_used absorber_args s.status := by
  cases houtdoor : s.outdoor.available with
  | false =>
    refine ⟨[], [], ?_⟩
    simp only [auto_eco, eco_announcement, eco_decision, held, houtdoor, Bool.not_false, if_true,
      Bool.false_eq_true, if_false]
    rw [Announcement.report_false, Announcement.write_of_plain (by decide +kernel)]
    rfl
  | true =>
    obtain ⟨args, hstatus⟩ := auto_eco_ventilation_status houtdoor
    have hindoor := (auto_eco_ventilation_frame s).indoor
    refine ⟨args, [.float s.indoor.value.humidity, .uint s.indoor.value.aq.toNat], ?_⟩
    simp only [auto_eco, eco_decision, houtdoor, Bool.not_true, Bool.false_eq_true, if_false,
      if_true, hindoor, hstatus, Announcement.report, absorber_explanation, absorber_needed]

/-- What a text begins with, its buffer holds when it fits. -/
theorem prefix_snprintf {opening text : Text} {size : Nat} (h : opening <+: text)
    (hfits : opening.length < size) : opening <+: snprintf size text := by
  obtain ⟨rest, rfl⟩ := h
  rw [snprintf, List.take_append, List.take_of_length_le (by omega)]
  exact List.prefix_append _ _

theorem Announcement.readFrom_write (a : Announcement) (args : List (Arg F)) (status : Status) :
    a.ReadFrom (a.write args status) := by
  obtain ⟨⟨_, hheadline⟩, hfits, _, _⟩ := a.texts
  have hstem : (37 : UInt8) ∉ a.stem := fun hmem => by
    simpa using List.mem_takeWhile_imp hmem
  have hlength : a.stem.length < STATUS_EXPLANATION_MAX_LEN :=
    (List.takeWhile_prefix _).length_le.trans_lt hfits
  have hcopied := format_append_of_notMem hstem (a.explanation.dropWhile (· ≠ 37)) args
  rw [Announcement.stem, List.takeWhile_append_dropWhile] at hcopied
  rw [a.write_eq]
  constructor
  · exact List.take_of_length_le (Nat.le_pred_of_lt hheadline)
  · refine prefix_snprintf ?_ hlength
    rw [hcopied]
    exact List.prefix_append _ _

theorem Announcement.readFrom_report (a : Announcement) (args : List (Arg F)) (absorber_used : Bool)
    (absorber_args : List (Arg F)) (status : Status) :
    a.ReadFrom (a.report args absorber_used absorber_args status) := by
  obtain ⟨hheadline, hexplanation⟩ := a.readFrom_write args status
  cases absorber_used with
  | false => exact ⟨hheadline, hexplanation⟩
  | true =>
    obtain ⟨hkept, hextends⟩ := system_status_append_explanationf_locked_extends
      absorber_explanation absorber_args (a.write args status)
    exact ⟨hkept.trans hheadline, hexplanation.trans hextends⟩

/-- A byte that a text has only in front does not begin another word in it. -/
theorem not_infix_of_notMem {c d e : UInt8} {word text : Text} (hne : d ≠ e) (hce : c ≠ e)
    (h : c ∉ text) : ¬ c :: d :: word <:+: c :: e :: text := by
  rintro ⟨before, after, heq⟩
  cases before with
  | nil =>
    simp only [List.nil_append, List.cons_append, List.cons.injEq] at heq
    exact hne heq.2.1
  | cons x before =>
    cases before with
    | nil =>
      simp only [List.nil_append, List.cons_append, List.cons.injEq] at heq
      exact hce heq.2.1
    | cons y before =>
      simp only [List.cons_append, List.cons.injEq] at heq
      exact h (by rw [← heq.2.2]; simp)

/-- The message itself does not speak of the absorber, for any arguments: no number is printed with
the letter that its sentence begins with. -/
theorem Announcement.not_absorberReadFrom_write
    (hfixed : ∀ decimals (x : F), 65 ∉ CFloat.fixed decimals x) (a : Announcement)
    (args : List (Arg F)) (status : Status) : ¬ AbsorberReadFrom (a.write args status) := by
  obtain ⟨_, _, hmode, hlater⟩ := a.texts
  have hprinted : format a.explanation args = 65 :: 85 :: format (a.explanation.drop 2) args := by
    conv_lhs => rw [← List.take_append_drop 2 a.explanation, hmode]
    exact format_append_of_notMem (by decide) _ _
  have habsent : 65 ∉ (format (a.explanation.drop 2) args).take 253 := fun hmem =>
    notMem_format hfixed (by decide) hlater args (List.mem_of_mem_take hmem)
  rw [AbsorberReadFrom, a.write_eq, hprinted, ascii_ofList]
  exact not_infix_of_notMem (by decide) (by decide) habsent

def announcement (mode : system_mode_t) (s : State F) : Announcement :=
  if mode = MODE_AUTO_BEST then best_announcement s else eco_announcement s

/-- The texts behind the rules of a mode are a report of its message. -/
theorem evaluate_rules_status {mode : system_mode_t}
    (hmode : mode = MODE_AUTO_BEST ∨ mode = MODE_AUTO_ECO) (s : State F) :
    ∃ args absorber_args : List (Arg F), (evaluate_rules mode s).status =
      (announcement mode s).report args (decision mode s).absorber_used absorber_args s.status := by
  have hcheck : (evaluate_rules mode s).status = (apply_auto_logic mode s).status := by
    unfold evaluate_rules
    dsimp only
    split <;> rfl
  rw [hcheck, apply_auto_logic, announcement]
  rcases hmode with rfl | rfl
  · rw [if_pos rfl, if_pos rfl, decision_best]
    exact auto_best_status s
  · rw [if_neg (by decide), if_pos rfl, if_neg (by decide), decision_eco]
    exact auto_eco_status s

end communication_center.system_state
