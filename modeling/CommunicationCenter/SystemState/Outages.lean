import CommunicationCenter.SystemState.Topics
import CommunicationCenter.SystemState.WireInterlock

open libc

namespace communication_center.system_state

/-- A call of `publish_state`, with whether the client exists at that instant. -/
structure PublishCall where
  global_client : Bool
  q : Actuators
  deriving DecidableEq

variable {F : Type}

/-- Serialised calls while the client comes and goes, with the messages that
were handed to it. -/
def publish_history (s : State F) : List PublishCall → State F × List Message
  | [] => (s, [])
  | call :: calls =>
    let (s, messages) := publish_state call.global_client call.q s
    let (s, rest) := publish_history s calls
    (s, messages ++ rest)

theorem publish_history_present (s : State F) (calls : List Actuators) :
    publish_history s (calls.map fun q => ⟨true, q⟩) = publish_calls s calls := by
  induction calls generalizing s with
  | nil => rfl
  | cons q calls ih => simp only [List.map_cons, publish_history, publish_calls, ih]

theorem publish_history_snoc (s : State F) (calls : List PublishCall) (call : PublishCall) :
    publish_history s (calls ++ [call]) =
      ((publish_state call.global_client call.q (publish_history s calls).1).1,
        (publish_history s calls).2 ++
          (publish_state call.global_client call.q (publish_history s calls).1).2) := by
  induction calls generalizing s with
  | nil => simp [publish_history]
  | cons first calls ih =>
    simp only [List.cons_append, publish_history, ih, List.append_assoc]

/-- The argument of the last call. Everything is off before the first one. -/
def last_argument (calls : List PublishCall) : Actuators :=
  (calls.getLast?.map PublishCall.q).getD .off

/-- The argument of the last call that found the client. -/
def last_delivered (calls : List PublishCall) : Actuators :=
  last_argument (calls.filter PublishCall.global_client)

/-- The property holds of every call that finds the client and of the calls
before it. -/
def AtEveryDelivery (calls : List PublishCall) (P : List PublishCall → Actuators → Prop) : Prop :=
  ∀ pre q, pre ++ [⟨true, q⟩] <+: calls → P pre q

/-- Every topic that the outage left at another value than the client was last
told changes once more in the call. -/
def Resent (delivered last q : Actuators) : Prop :=
  ∀ topic : Topic, topic.value last ≠ topic.value delivered → topic.value q ≠ topic.value last

theorem last_argument_snoc (calls : List PublishCall) (call : PublishCall) :
    last_argument (calls ++ [call]) = call.q := by
  simp [last_argument]

theorem last_delivered_snoc (calls : List PublishCall) (call : PublishCall) :
    last_delivered (calls ++ [call]) =
      if call.global_client then call.q else last_delivered calls := by
  unfold last_delivered
  rw [List.filter_append]
  cases hclient : call.global_client with
  | true => simp [hclient, last_argument_snoc]
  | false => simp [hclient]

theorem atEveryDelivery_nil {P : List PublishCall → Actuators → Prop} : AtEveryDelivery [] P := by
  intro pre q hpre
  simp at hpre

theorem atEveryDelivery_snoc {P : List PublishCall → Actuators → Prop} (calls : List PublishCall)
    (call : PublishCall) :
    AtEveryDelivery (calls ++ [call]) P ↔
      AtEveryDelivery calls P ∧ (call.global_client = true → P calls call.q) := by
  constructor
  · intro h
    refine ⟨fun pre q hpre => h pre q (hpre.trans (List.prefix_append _ _)), fun hclient => ?_⟩
    apply h calls call.q
    rw [← hclient]
  · rintro ⟨hbefore, hlast⟩ pre q hpre
    rcases List.prefix_concat_iff.mp hpre with heq | hshort
    · obtain ⟨rfl, rfl⟩ := List.append_inj' heq rfl |>.imp_right List.singleton_inj.mp
      exact hlast rfl
    · exact hbefore pre q hshort

variable [CFloat F]

/-- What is recorded as published is the argument of the last call, whether or
not its messages were sent. -/
theorem publish_history_last (calls : List PublishCall) :
    (publish_history (State.initial : State F) calls).1.last = last_argument calls := by
  induction calls using List.reverseRecOn with
  | nil => rfl
  | append_singleton calls call _ => rw [publish_history_snoc, last_argument_snoc, publish_state_fst]

/-- A subscriber after the calls. -/
def replay_history (F : Type) [CFloat F] (calls : List PublishCall) : Actuators :=
  replay .off (publish_history (State.initial : State F) calls).2

theorem replay_history_snoc (calls : List PublishCall) (call : PublishCall) (topic : Topic) :
    topic.value (replay_history F (calls ++ [call])) =
      if call.global_client = true ∧ topic.value call.q ≠ topic.value (last_argument calls) then
        topic.value call.q
      else topic.value (replay_history F calls) := by
  unfold replay_history
  rw [publish_history_snoc, replay_append, value_replay_publish_state, publish_history_last]

/-- A subscriber that was right at every delivery holds the last delivered
argument, since an outage sends nothing. -/
theorem replay_history_eq {calls : List PublishCall}
    (h : AtEveryDelivery calls fun pre q => replay_history F (pre ++ [⟨true, q⟩]) = q) :
    replay_history F calls = last_delivered calls := by
  induction calls using List.reverseRecOn with
  | nil => rfl
  | append_singleton calls call ih =>
    obtain ⟨hbefore, hlast⟩ := (atEveryDelivery_snoc calls call).mp h
    obtain ⟨global_client, q⟩ := call
    rw [last_delivered_snoc]
    cases global_client with
    | true => exact hlast rfl
    | false =>
      rw [Actuators.eq_iff_values]
      intro topic
      rw [replay_history_snoc, ih hbefore]
      simp

/-- One call that finds the client makes up for the outage before it exactly when
it changes every topic that the outage left changed. -/
theorem replay_history_delivered_iff {calls : List PublishCall} (q : Actuators)
    (h : replay_history F calls = last_delivered calls) :
    replay_history F (calls ++ [⟨true, q⟩]) = q ↔
      Resent (last_delivered calls) (last_argument calls) q := by
  rw [Actuators.eq_iff_values]
  apply forall_congr'
  intro topic
  rw [replay_history_snoc, h]
  by_cases hchange : topic.value q = topic.value (last_argument calls)
  · simp only [hchange, ne_eq, not_true, and_false, if_false, imp_false, not_not]
    exact eq_comm
  · simp [hchange]

/-- Every call that finds the client leaves the subscriber with the call's values exactly when no
outage is left behind by a call that repeats a value which the outage gave to a topic. The calls
may have any values, and the client may come and go between any two of them. -/
theorem updates_delivered_iff (calls : List PublishCall) :
    (AtEveryDelivery calls fun pre q =>
        replay .off (publish_history (State.initial : State F) (pre ++ [⟨true, q⟩])).2 = q) ↔
      AtEveryDelivery calls fun pre q => Resent (last_delivered pre) (last_argument pre) q := by
  change (AtEveryDelivery calls fun pre q => replay_history F (pre ++ [⟨true, q⟩]) = q) ↔ _
  induction calls using List.reverseRecOn with
  | nil => exact iff_of_true atEveryDelivery_nil atEveryDelivery_nil
  | append_singleton calls call ih =>
    rw [atEveryDelivery_snoc, atEveryDelivery_snoc, ← ih]
    refine and_congr_right fun hbefore => imp_congr_right fun _ => ?_
    exact replay_history_delivered_iff call.q (replay_history_eq hbefore)

private def window_open : Actuators where
  window := true
  fan := false
  door := false
  absorber_used := false

/-- A window that opens while the client is missing stays unannounced. -/
theorem updates_delivered_outage :
    ¬ ∀ calls : List PublishCall, AtEveryDelivery calls fun pre q =>
      replay .off (publish_history (State.initial : State Binary32) (pre ++ [⟨true, q⟩])).2 = q := by
  intro h
  have hdelivery := h [⟨false, window_open⟩, ⟨true, window_open⟩] [⟨false, window_open⟩] window_open
    List.prefix_rfl
  exact absurd hdelivery (by decide)

end communication_center.system_state
