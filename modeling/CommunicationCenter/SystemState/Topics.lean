import CommunicationCenter.SystemState.Publish

namespace communication_center.system_state

/-- The topics in the order in which `publish_state` goes through them. -/
def Topic.all : List Topic := [.window, .fan, .door, .absorber]

theorem Actuators.eq_iff_values (q r : Actuators) :
    q = r ↔ ∀ topic : Topic, topic.value q = topic.value r := by
  constructor
  · rintro rfl topic
    rfl
  · intro h
    obtain ⟨window, fan, door, absorber⟩ := q
    have hwindow := h .window
    have hfan := h .fan
    have hdoor := h .door
    have habsorber := h .absorber
    simp only [Topic.value] at hwindow hfan hdoor habsorber
    rw [hwindow, hfan, hdoor, habsorber]

variable {F : Type}

theorem publish_state_snd (global_client : Bool) (q : Actuators) (s : State F) :
    (publish_state global_client q s).2 = Topic.all.flatMap fun topic =>
      publish_change global_client topic.name (topic.value q) (topic.value s.last) := by
  simp [publish_state, Topic.all, Topic.name, Topic.value]

/-- A topic's message is the last word on that topic and on no other one. -/
theorem value_replay_publish_change (topic published : Topic) (global_client value last : Bool)
    (remote : Actuators) :
    topic.value (replay remote (publish_change global_client published.name value last)) =
      if topic = published ∧ global_client = true ∧ value ≠ last then value
      else topic.value remote := by
  unfold publish_change mqtt_publish
  by_cases hchange : value ≠ last
  · cases global_client with
    | false => simp [hchange]
    | true =>
      rw [if_pos hchange, if_pos rfl, replay_cons, replay_nil]
      cases topic <;> cases published <;>
        simp [receive, Topic.name, Topic.value, hchange]
  · rw [if_neg hchange]
    simp [hchange]

/-- One call brings a subscriber up to date in the topics it publishes, and
leaves the others as they were. -/
theorem value_replay_publish_state (topic : Topic) (global_client : Bool) (q : Actuators)
    (s : State F) (remote : Actuators) :
    topic.value (replay remote (publish_state global_client q s).2) =
      if global_client = true ∧ topic.value q ≠ topic.value s.last then topic.value q
      else topic.value remote := by
  rw [publish_state_snd]
  simp only [Topic.all, List.flatMap_cons, List.flatMap_nil, List.append_nil, replay_append,
    value_replay_publish_change]
  cases topic <;> simp

end communication_center.system_state
