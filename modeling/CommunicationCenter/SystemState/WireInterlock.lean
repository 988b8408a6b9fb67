import CommunicationCenter.SystemState.Publish
import CommunicationCenter.Transition.Prefixes
import Mathlib.Data.List.Chain

open libc transition

namespace communication_center.system_state

/-- The fan runs only with the window open. -/
def Actuators.Interlocked (q : Actuators) : Prop :=
  q.fan = true → q.window = true

instance (q : Actuators) : Decidable q.Interlocked :=
  inferInstanceAs (Decidable (q.fan = true → q.window = true))

variable {F : Type}

/-- Serialised calls of `publish_state`, with the messages of all of them. -/
def publish_calls (s : State F) : List Actuators → State F × List Message
  | [] => (s, [])
  | q :: calls =>
    let (s, messages) := publish_state true q s
    let (s, rest) := publish_calls s calls
    (s, messages ++ rest)

theorem afterEveryPrefix_messages_append {P : Actuators → Prop} (remote : Actuators)
    (first second : List Message) :
    AfterEveryPrefix receive P remote (first ++ second) ↔
      AfterEveryPrefix receive P remote first ∧
        AfterEveryPrefix receive P (replay remote first) second :=
  afterEveryPrefix_append remote first second

theorem afterEveryPrefix_publish_change {P : Actuators → Prop} (remote : Actuators)
    (topic : String) (value last : Bool) :
    AfterEveryPrefix receive P remote (publish_change true topic value last) ↔
      P remote ∧ P (replay remote (publish_change true topic value last)) := by
  unfold publish_change
  split
  · simp [mqtt_publish, afterEveryPrefix_cons, afterEveryPrefix_nil]
  · simp [afterEveryPrefix_nil]

/-- The window message comes first, so one call keeps the interlock at every
message exactly when it does not close the window under a running fan. -/
theorem publish_state_interlocked_iff {q : Actuators} {s : State F} (hq : q.Interlocked)
    (hlast : s.last.Interlocked) :
    AfterEveryPrefix receive Actuators.Interlocked s.last (publish_state true q s).2 ↔
      (s.last.fan = true → q.window = true) := by
  have hwindow := replay_publish_change .window s.last q.window
  have hfan := replay_publish_change .fan { s.last with window := q.window } q.fan
  have hdoor := replay_publish_change .door { s.last with window := q.window, fan := q.fan } q.door
  have habsorber := replay_publish_change .absorber
    { s.last with window := q.window, fan := q.fan, door := q.door } q.absorber_used
  dsimp only [Topic.name, Topic.value, Topic.set] at hwindow hfan hdoor habsorber
  unfold publish_state
  simp only [afterEveryPrefix_messages_append, afterEveryPrefix_publish_change, replay_append,
    hwindow, hfan, hdoor, habsorber]
  -- the window message is the only one after which the old fan meets the new window
  constructor
  · rintro ⟨⟨⟨⟨_, hclose⟩, _⟩, _⟩, _⟩
    exact hclose
  · intro hclose
    exact ⟨⟨⟨⟨hlast, hclose⟩, hclose, hq⟩, hq, hq⟩, hq, hq⟩

theorem publish_calls_interlocked_iff (calls : List Actuators) (s : State F)
    (hcalls : ∀ q ∈ calls, q.Interlocked) (hlast : s.last.Interlocked) :
    AfterEveryPrefix receive Actuators.Interlocked s.last (publish_calls s calls).2 ↔
      List.IsChain (fun previous q => previous.fan = true → q.window = true) (s.last :: calls) := by
  induction calls generalizing s with
  | nil => simpa [publish_calls, afterEveryPrefix_nil] using hlast
  | cons q calls ih =>
    have hq := hcalls q (by simp)
    have hrest := ih (publish_state true q s).1 (fun p hp => hcalls p (List.mem_cons_of_mem _ hp))
      (by simpa using hq)
    rw [publish_state_fst] at hrest
    dsimp only at hrest
    rw [publish_calls, afterEveryPrefix_messages_append, publish_state_interlocked_iff hq hlast,
      replay_publish_state, List.isChain_cons_cons]
    exact and_congr_right fun _ => hrest

/-- From boards that start with everything off, the published prefixes respect the interlock
exactly when no call closes the window right after a call that had the fan running. The calls come
one after the other, each with values that respect the interlock, while the client is there. -/
theorem wire_interlock_iff [CFloat F] (calls : List Actuators)
    (hcalls : ∀ q ∈ calls, q.Interlocked) :
    AfterEveryPrefix receive Actuators.Interlocked Actuators.off
        (publish_calls (State.initial : State F) calls).2 ↔
      List.IsChain (fun previous q => previous.fan = true → q.window = true) (.off :: calls) :=
  publish_calls_interlocked_iff calls State.initial hcalls
    (show Actuators.off.Interlocked by decide)

private def open_with_fan : Actuators where
  window := true
  fan := true
  door := false
  absorber_used := false

private def open_only : Actuators := { open_with_fan with fan := false }

private def opened_and_closed : List Actuators :=
  [open_with_fan, open_with_fan, { open_only with absorber_used := true }, .off, open_only,
    open_with_fan]

theorem wire_interlock_iff_switch_on :
    AfterEveryPrefix receive Actuators.Interlocked Actuators.off
        (publish_calls (State.initial : State Binary32) opened_and_closed).2 ↔
      List.IsChain (fun previous q => previous.fan = true → q.window = true)
        (.off :: opened_and_closed) :=
  wire_interlock_iff opened_and_closed (by decide)

/-- Switching window and fan off together closes the window first, so that for one message the
boards have a fan that runs behind a closed window. -/
theorem wire_interlock_switch_off :
    ¬ ∀ calls : List Actuators, (∀ q ∈ calls, q.Interlocked) →
      AfterEveryPrefix receive Actuators.Interlocked Actuators.off
        (publish_calls (State.initial : State Binary32) calls).2 := by
  intro h
  have hprefix := h [open_with_fan, .off] (by decide)
    [⟨"ESP32/window", "1", 1, true⟩, ⟨"ESP32/fan", "1", 1, true⟩, ⟨"ESP32/window", "0", 1, true⟩]
    (by decide)
  exact absurd hprefix (by decide)

end communication_center.system_state
