import CommunicationCenter.Libc.Float
import CommunicationCenter.System.Control

open libc transition communication_center.system_state communication_center.http_server

namespace communication_center.system

def AutomaticMode (mode : system_mode_t) : Prop :=
  mode = MODE_AUTO_BEST ∨ mode = MODE_AUTO_ECO

/-- Whenever a period of the schedule is active, its mode has a rule set. -/
def AutomaticSchedule (schedule : List schedule_period_t) : Prop :=
  ∀ now mode, schedule_is_active now schedule = some mode → AutomaticMode mode

variable {F : Type}

/-- The requests that turn an automatic mode on, or replace the schedule under
one, come with a schedule of automatic periods. -/
def ModesHandled (s : State F) : Label F → Prop
  | .request (.post_mode req) => ∀ new_mode, mode_post_parse req = .ok new_mode →
    new_mode ≠ MODE_MANUAL → AutomaticSchedule s.schedule
  | .request (.post_schedule req) => ∀ periods, schedule_post_parse req = .ok (some (.ok periods)) →
    s.current_mode ≠ MODE_MANUAL → AutomaticSchedule periods
  | _ => True

/-- Nothing but modes with a rule set can govern, unless the user does. -/
def HandledModes (s : State F) : Prop :=
  s.current_mode ≠ MODE_MANUAL → AutomaticMode s.current_mode ∧ AutomaticSchedule s.schedule

theorem HandledModes.governing {s : State F} (h : HandledModes s) {now : tm} {mode : system_mode_t}
    (hgoverning : governing_mode now s = some mode) :
    AutomaticMode mode ∧ AutomaticSchedule s.schedule := by
  unfold governing_mode at hgoverning
  split at hgoverning
  · cases hgoverning
  · next hauto =>
    obtain ⟨hmode, hschedule⟩ := h hauto
    split at hgoverning
    · exact ⟨hschedule now mode hgoverning, hschedule⟩
    · obtain rfl := Option.some.inj hgoverning
      exact ⟨hmode, hschedule⟩

theorem HandledModes.of_sameControl {s t : State F} (h : HandledModes s)
    (hcontrol : SameControl s t) : HandledModes t := by
  unfold HandledModes
  rw [hcontrol.current_mode, hcontrol.schedule]
  exact h

/-- In an automatic mode the active period governs. In manual mode nothing does, whatever the
schedule says. -/
theorem governing_mode_of_active {s : State F} {now : tm} {mode : system_mode_t}
    (hauto : s.current_mode ≠ MODE_MANUAL) (hactive : schedule_is_active now s.schedule = some mode) :
    governing_mode now s = some mode := by
  have hschedule : s.schedule.length > 0 := by
    cases hlist : s.schedule with
    | nil => simp [hlist, schedule_is_active] at hactive
    | cons => simp
  rw [governing_mode, if_neg hauto, if_pos hschedule, hactive]

variable [CFloat F]

/-- The user may set the actuators, or the next tick evaluates a rule set. -/
def InControl (now : tm) (s : State F) : Prop :=
  (system_state_get_control_flags_locked now s).manual_control_allowed = true ∨
    ∃ evaluation, (system_auto_update_section now s).2 = some evaluation ∧
      AutomaticMode evaluation.mode

theorem inControl_iff (now : tm) (s : State F) :
    InControl now s ↔ ∀ mode, governing_mode now s = some mode → AutomaticMode mode := by
  unfold InControl
  rw [manual_control_allowed_iff]
  cases hgoverning : governing_mode now s with
  | none => simp
  | some mode => simp [system_auto_update_section_of_some hgoverning]

/-- A step that meets the condition keeps the modes handled: outside of manual mode, the current
mode and those of the schedule have rules. The condition is asked of this step only. -/
theorem HandledModes.step {sys next : System F} {label : Label F} {emitted : List (Event F)}
    (h : HandledModes sys.shared) (hlabel : ModesHandled sys.shared label)
    (hstep : step sys label = some (next, emitted)) : HandledModes next.shared := by
  cases control_step hstep with
  | quiet _ hcontrol _ _ _ _ => exact h.of_sameControl hcontrol
  | skipped _ _ hcontrol _ _ _ => exact h.of_sameControl hcontrol
  | evaluated now mode hgoverning hshared _ _ _ =>
    have hframe := evaluate_rules_frame mode { sys.shared with current_mode := mode }
    intro _
    rw [hshared, hframe.current_mode, hframe.schedule]
    exact h.governing hgoverning
  | task_published _ _ hshared _ _ _ _ =>
    rw [hshared]
    exact h
  | handler_published _ _ hshared _ _ _ _ =>
    rw [hshared]
    exact h
  | mode_posted _ new_mode _ hparse hshared _ _ _ =>
    intro hauto
    rw [hshared] at hauto ⊢
    have hrange := mode_post_parse_range hparse
    have hmode : AutomaticMode new_mode := by
      change new_mode ≠ (2 : Int) at hauto
      change new_mode = (0 : Int) ∨ new_mode = (1 : Int)
      omega
    exact ⟨hmode, hlabel new_mode hparse hauto⟩
  | actuators_posted _ _ _ _ _ _ _ hshared _ _ _ =>
    rw [hshared]
    exact h
  | schedule_posted _ periods _ hparse hshared _ _ _ =>
    intro hauto
    rw [hshared] at hauto ⊢
    exact ⟨(h hauto).1, hlabel periods hparse hauto⟩

/-- A step into a state that is always under control meets the condition. It need not come from
such a state. -/
theorem modesHandled_of_inControl {sys next : System F} {label : Label F}
    {emitted : List (Event F)} (hstep : step sys label = some (next, emitted))
    (hcontrol : ∀ now, InControl now next.shared) : ModesHandled sys.shared label := by
  have hactive (hauto : next.shared.current_mode ≠ MODE_MANUAL) :
      AutomaticSchedule next.shared.schedule := fun now mode hmode =>
    (inControl_iff now next.shared).mp (hcontrol now) mode (governing_mode_of_active hauto hmode)
  cases label with
  | request r =>
    cases r with
    | post_mode req =>
      intro new_mode hparse hauto
      rw [post_mode_step hparse hstep] at hactive
      exact hactive hauto
    | post_schedule req =>
      intro periods hparse hauto
      rw [post_schedule_step hparse hstep] at hactive
      exact hactive hauto
    | post_actuators => trivial
    | get_sensors => trivial
    | get_status => trivial
    | get_schedule => trivial
  | update => trivial
  | task => trivial
  | handler => trivial

/-- In every run, somebody is in control in all states and at all times exactly when no accepted
request combines an automatic mode with a schedule that has a period of another mode. The runs are
all those of the system, with requests of any bytes. -/
theorem in_control_iff (labels : List (Label F)) :
    EveryState step System.initial labels (fun _ sys _ => ∀ now, InControl now sys.shared) ↔
      EveryStep step System.initial labels fun _ sys label => ModesHandled sys.shared label := by
  constructor
  · intro h
    refine h.everyStep fun past sys events label next emitted _ hstep _ hnext => ?_
    exact modesHandled_of_inControl hstep hnext
  · intro h
    have hinitial : HandledModes (System.initial : System F).shared := fun hauto =>
      absurd rfl hauto
    have hmodes : EveryState step (System.initial : System F) labels fun _ sys _ =>
        HandledModes sys.shared :=
      h.everyState hinitial fun _ _ _ _ _ _ hmid hlabel hstep => hmid.step hlabel hstep
    intro past sys events hpast hrun now
    rw [inControl_iff]
    exact fun mode hgoverning => ((hmodes past sys events hpast hrun).governing hgoverning).1

private def unknown_mode_schedule : List (Label Binary32) :=
  [.request (.post_schedule (.delivered
      (ascii "\x7b\"start\":\"00:00\",\"end\":\"23:59\",\"mode\":7\x7d"))), .handler,
    .request (.post_mode (.delivered (ascii "\x7b\"mode\":0\x7d")))]

/-- A stored period of an unknown mode leaves nobody in control: no rules decide while it is
active, and manual requests are refused. -/
theorem in_control_unknown_mode :
    ¬ ∀ labels : List (Label Binary32), EveryState step System.initial labels fun _ sys _ =>
      ∀ now, InControl now sys.shared := by
  intro h
  have hrun : (exec step System.initial unknown_mode_schedule).map (fun r =>
      governing_mode ⟨12, 0⟩ r.1.shared) = some (some 7) := by
    decide +kernel
  obtain ⟨⟨sys, events⟩, hexec, hgoverning⟩ := Option.map_eq_some_iff.mp hrun
  have hcontrol := h _ _ sys events List.prefix_rfl (.of_exec hexec) ⟨12, 0⟩
  have hmode := (inControl_iff _ _).mp hcontrol 7 hgoverning
  exact absurd hmode (by simp [AutomaticMode, MODE_AUTO_BEST, MODE_AUTO_ECO])

end communication_center.system
