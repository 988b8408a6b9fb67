import CommunicationCenter.SystemState.State

namespace communication_center.system_state

/-- A message handed to the MQTT client. -/
structure Message where
  topic : String
  msg : String
  qos : Nat
  retain : Bool
  deriving DecidableEq

/-- Without a client the message is dropped. -/
def mqtt_publish (global_client : Bool) (topic msg : String) (qos : Nat) : List Message :=
  if global_client then [{ topic, msg, qos, retain := true }] else []

/-- The message for one topic, sent only when the value changed. -/
def publish_change (global_client : Bool) (topic : String) (value last : Bool) : List Message :=
  if value ≠ last then mqtt_publish global_client topic (if value then "1" else "0") 1 else []

variable {F : Type}

def publish_state (global_client : Bool) (q : Actuators) (s : State F) :
    State F × List Message :=
  ({ s with last := q },
    publish_change global_client "ESP32/window" q.window s.last.window ++
      publish_change global_client "ESP32/fan" q.fan s.last.fan ++
      publish_change global_client "ESP32/door" q.door s.last.door ++
      publish_change global_client "ESP32/absorber" q.absorber_used s.last.absorber_used)

/-- What a subscriber of all four topics holds after one more message. -/
def receive (remote : Actuators) (message : Message) : Actuators :=
  if message.topic = "ESP32/window" then { remote with window := message.msg = "1" }
  else if message.topic = "ESP32/fan" then { remote with fan := message.msg = "1" }
  else if message.topic = "ESP32/door" then { remote with door := message.msg = "1" }
  else if message.topic = "ESP32/absorber" then { remote with absorber_used := message.msg = "1" }
  else remote

def replay (remote : Actuators) (messages : List Message) : Actuators :=
  messages.foldl receive remote

@[simp] theorem replay_nil (remote : Actuators) : replay remote [] = remote := rfl

@[simp] theorem replay_cons (remote : Actuators) (message : Message) (messages : List Message) :
    replay remote (message :: messages) = replay (receive remote message) messages := rfl

theorem replay_append (remote : Actuators) (first second : List Message) :
    replay remote (first ++ second) = replay (replay remote first) second :=
  List.foldl_append

@[simp] theorem publish_state_fst (global_client : Bool) (q : Actuators) (s : State F) :
    (publish_state global_client q s).1 = { s with last := q } := rfl

theorem publish_state_unchanged (global_client : Bool) (s : State F) :
    publish_state global_client s.last s = (s, []) := by
  simp [publish_state, publish_change]

/-- The four independent topics on which the actuator values are published. -/
inductive Topic where
  | window
  | fan
  | door
  | absorber
  deriving DecidableEq

def Topic.name : Topic → String
  | .window => "ESP32/window"
  | .fan => "ESP32/fan"
  | .door => "ESP32/door"
  | .absorber => "ESP32/absorber"

def Topic.value (q : Actuators) : Topic → Bool
  | .window => q.window
  | .fan => q.fan
  | .door => q.door
  | .absorber => q.absorber_used

def Topic.set (q : Actuators) (value : Bool) : Topic → Actuators
  | .window => { q with window := value }
  | .fan => { q with fan := value }
  | .door => { q with door := value }
  | .absorber => { q with absorber_used := value }

/-- A subscriber that holds the previous value of a topic holds the new one after the
delivered message, or after none when the value did not change. -/
theorem replay_publish_change (topic : Topic) (remote : Actuators) (value : Bool) :
    replay remote (publish_change true topic.name value (topic.value remote)) =
      topic.set remote value := by
  unfold publish_change
  split
  · cases topic <;> cases value <;> rfl
  · rename_i hsame
    rw [not_not.mp hsame, replay_nil]
    cases topic <;> rfl

/-- A subscriber that holds the last published values holds the new ones after
the delivered messages of one call. -/
theorem replay_publish_state (q : Actuators) (s : State F) :
    replay s.last (publish_state true q s).2 = q := by
  have hwindow := replay_publish_change .window s.last q.window
  have hfan := replay_publish_change .fan { s.last with window := q.window } q.fan
  have hdoor := replay_publish_change .door { s.last with window := q.window, fan := q.fan } q.door
  have habsorber := replay_publish_change .absorber
    { s.last with window := q.window, fan := q.fan, door := q.door } q.absorber_used
  dsimp only [Topic.name, Topic.value, Topic.set] at hwindow hfan hdoor habsorber
  unfold publish_state
  rw [replay_append, replay_append, replay_append, hwindow, hfan, hdoor, habsorber]

end communication_center.system_state
