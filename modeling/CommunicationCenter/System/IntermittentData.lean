import CommunicationCenter.SystemState.Decisions
import CommunicationCenter.System.Freshness
import CommunicationCenter.System.Responsibility

open libc expiring transition communication_center.system_state

namespace communication_center.system

variable {F : Type} [CFloat F]

/-- A condition on the state and the minute that a tick finds. -/
def AtTick (P : tm → State F → Prop) (s : State F) : Label F → Prop
  | .task (.auto_update now) => P now s
  | _ => True

/-- The buffers of sources without data hold zeros. -/
structure ClearedSources (s : State F) : Prop where
  indoor : s.indoor.Cleared .zero
  outdoor : s.outdoor.Cleared .zero
  wind : s.wind.Cleared (CFloat.lit 0)

theorem clearedSources (labels : List (Label F)) :
    EveryState step System.initial labels fun _ sys _ => ClearedSources sys.shared := by
  refine everyState_of_step ⟨fun _ => rfl, fun _ => rfl, fun _ => rfl⟩ ?_ labels
  intro past sys events label next emitted h hstep
  obtain ⟨reads, hmove⟩ := sources_move hstep
  exact ⟨h.indoor.moves hmove.indoor, h.outdoor.moves hmove.outdoor, h.wind.moves hmove.wind⟩

/-- Without the data that the window rule reads, the tick leaves window and door
as they were and turns the fan off. -/
def HoldsWithoutData (now : tm) (s : State F) : Prop :=
  ∀ mode, governing_mode now s = some mode → AutomaticMode mode →
    s.indoor.available = false ∨ s.outdoor.available = false →
    (system_auto_update_section now s).1.actuators.window = s.actuators.window ∧
      (system_auto_update_section now s).1.actuators.door = s.actuators.door ∧
      (system_auto_update_section now s).1.actuators.fan = false

/-- What `AUTO_ECO` decides from outdoor data and a cleared indoor buffer. -/
def opens_on_zero (s : State F) : Bool :=
  decide (s.outdoor.value.aq ≤ GOOD_AQ) &&
    CFloat.gt (CFloat.sub (CFloat.lit 0) s.outdoor.value.humidity) HUMIDITY_DIFF_THRESHOLD

/-- When `AUTO_ECO` governs with outdoor data only, window and door already have
the state that a humidity of zero asks for. -/
def GapHarmless (now : tm) (s : State F) : Prop :=
  governing_mode now s = some MODE_AUTO_ECO → s.outdoor.available = true →
    s.indoor.available = false →
    s.actuators.window = opens_on_zero s ∧ s.actuators.door = opens_on_zero s

theorem ventilates_of_cleared {s : State F} (hcleared : ClearedSources s)
    (hindoor : s.indoor.available = false) : ventilates s = opens_on_zero s := by
  rw [ventilates, humidity_difference, hcleared.indoor hindoor]
  rfl

theorem best_decision_without_data {s : State F}
    (hmissing : s.indoor.available = false ∨ s.outdoor.available = false) :
    best_decision s = held s.actuators := by
  rw [best_decision, if_neg]
  rcases hmissing with hmissing | hmissing <;> simp [hmissing]

/-- Without indoor data `AUTO_ECO` still decides on the window, by the zero. -/
theorem eco_decision_without_indoor {s : State F} (hcleared : ClearedSources s)
    (houtdoor : s.outdoor.available = true) (hindoor : s.indoor.available = false) :
    eco_decision s = { Actuators.off with window := opens_on_zero s, door := opens_on_zero s } := by
  simp [eco_decision, houtdoor, hindoor, ventilates_of_cleared hcleared hindoor, Actuators.off]

/-- The guard of `AUTO_BEST` comes before its rules and looks at both sources. That of `AUTO_ECO`
looks at the outdoor data only, so that cleared indoor data reach its rules. -/
theorem holdsWithoutData_iff {s : State F} (hcleared : ClearedSources s) (now : tm) :
    HoldsWithoutData now s ↔ GapHarmless now s := by
  constructor
  · intro h hgoverning houtdoor hindoor
    have hkept := h _ hgoverning (Or.inr rfl) (Or.inl hindoor)
    rw [system_auto_update_section_actuators hgoverning, decision_eco,
      eco_decision_without_indoor hcleared houtdoor hindoor] at hkept
    exact ⟨hkept.1.symm, hkept.2.1.symm⟩
  · intro h mode hgoverning hmode hmissing
    rw [system_auto_update_section_actuators hgoverning]
    rcases hmode with rfl | rfl
    · rw [decision_best, best_decision_without_data hmissing]
      exact ⟨rfl, rfl, rfl⟩
    · rw [decision_eco]
      cases houtdoor : s.outdoor.available with
      | false =>
        rw [eco_decision, if_neg (by simp [houtdoor])]
        exact ⟨rfl, rfl, rfl⟩
      | true =>
        have hindoor : s.indoor.available = false := by simpa [houtdoor] using hmissing
        obtain ⟨hwindow, hdoor⟩ := h hgoverning houtdoor hindoor
        rw [eco_decision_without_indoor hcleared houtdoor hindoor]
        exact ⟨hwindow.symm, hdoor.symm, rfl⟩

/-- In every run, ticks without data hold the window and the door exactly when `AUTO_ECO` never
meets cleared indoor data next to outdoor data with the window or the door in another state than
the zero asks for. The runs are all those of the system, and the condition is about the state in
front of a tick. -/
theorem holds_without_data_iff (labels : List (Label F)) :
    EveryStep step System.initial labels
        (fun _ sys label => AtTick HoldsWithoutData sys.shared label) ↔
      EveryStep step System.initial labels
        fun _ sys label => AtTick GapHarmless sys.shared label := by
  have htick {past : List (Label F)} {sys : System F} {events : List (Event F)}
      (hrun : Run step System.initial past sys events) (label : Label F) :
      AtTick HoldsWithoutData sys.shared label ↔ AtTick GapHarmless sys.shared label := by
    have hcleared := (clearedSources past).last hrun
    unfold AtTick
    split
    · exact holdsWithoutData_iff hcleared _
    · exact Iff.rfl
  constructor
  · intro h past sys events label next emitted hprefix hrun hstep
    exact (htick hrun label).mp (h past sys events label next emitted hprefix hrun hstep)
  · intro h past sys events label next emitted hprefix hrun hstep
    exact (htick hrun label).mpr (h past sys events label next emitted hprefix hrun hstep)

private def indoor_lost (noon : tm) : List (Label Binary32) :=
  [.request (.post_mode (.delivered (ascii "\x7b\"mode\":1\x7d"))), .handler,
    .update (.indoor_sensor (CFloat.lit 21) (CFloat.lit 60) 10 0),
    .update (.outdoor_sensor (CFloat.lit 15) (CFloat.lit 40) 10 500),
    .task (.read_clock 600), .task .refresh, .task (.auto_update noon), .task .publish,
    .task (.read_clock 1200), .task .refresh]

/-- The window that humid indoor air opened is closed by the zero of the indoor
buffer once the indoor board is silent for longer than its timeout. -/
theorem holds_without_data_lost :
    ¬ ∀ labels : List (Label Binary32), EveryStep step System.initial labels
      fun _ sys label => AtTick HoldsWithoutData sys.shared label := by
  intro h
  have hrun : (exec step System.initial (indoor_lost ⟨12, 0⟩)).map (fun r =>
      (governing_mode ⟨12, 0⟩ r.1.shared, r.1.shared.indoor.available,
        r.1.shared.actuators.window,
        (system_auto_update_section ⟨12, 0⟩ r.1.shared).1.actuators.window,
        (step r.1 (.task (.auto_update ⟨12, 0⟩))).isSome)) =
      some (some MODE_AUTO_ECO, false, true, false, true) := by
    decide +kernel
  obtain ⟨⟨sys, events⟩, hexec, hlost⟩ := Option.map_eq_some_iff.mp hrun
  simp only [Prod.mk.injEq] at hlost
  obtain ⟨hgoverning, hindoor, hopen, hclosed, hstep⟩ := hlost
  obtain ⟨⟨next, emitted⟩, hstep⟩ := Option.isSome_iff_exists.mp hstep
  have hheld := h (indoor_lost ⟨12, 0⟩ ++ [.task (.auto_update ⟨12, 0⟩)]) _ sys events _ next emitted
    List.prefix_rfl (.of_exec hexec) hstep MODE_AUTO_ECO hgoverning (Or.inr rfl) (Or.inl hindoor)
  rw [hopen, hclosed] at hheld
  exact absurd hheld.1 (by decide)

end communication_center.system
