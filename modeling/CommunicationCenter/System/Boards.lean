import CommunicationCenter.Mosquitto.Replica
import CommunicationCenter.System.Publication
import CommunicationCenter.SystemState.Topics

open libc wildcard transition communication_center.system_state communication_center.mosquitto

namespace communication_center.system

/-- A message of the firmware as the broker stores it. -/
def stored_of (source_id : Text) (message : Message) : mosquitto_msg_store where
  source_id := source_id
  topic := ascii message.topic
  payload := ascii message.msg
  qos := message.qos.toUInt8
  retain := message.retain
  message_expiry_time := 0

/-- What the broker gets on the four topics. -/
def on_topics (ops : List broker_op) : List mosquitto_msg_store :=
  (ops.filterMap published_of).filter fun stored =>
    Topic.all.any fun topic => stored.topic = ascii topic.name

/-- What a board makes of the last message on a topic. It starts switched off. -/
def held (last : Option mosquitto_msg_store) : Bool :=
  last.any fun stored => stored.payload = ascii "1"

/-- A message that `publish_state` makes. -/
def Made (message : Message) : Prop :=
  ∃ (topic : Topic) (value : Bool),
    message = { topic := topic.name, msg := if value then "1" else "0", qos := 1, retain := true }

variable {F : Type}

theorem made_publish_state {q : Actuators} {s : State F} {message : Message}
    (h : message ∈ (publish_state true q s).2) : Made message := by
  rw [publish_state_snd] at h
  obtain ⟨topic, -, hmem⟩ := List.mem_flatMap.mp h
  rw [publish_change] at hmem
  split at hmem
  · obtain rfl := List.mem_singleton.mp hmem
    exact ⟨topic, topic.value q, rfl⟩
  · cases hmem

theorem value_receive {message : Message} (h : Made message) (topic : Topic) (remote : Actuators) :
    topic.value (receive remote message) =
      if ascii message.topic = ascii topic.name then decide (ascii message.msg = ascii "1")
      else topic.value remote := by
  obtain ⟨published, value, rfl⟩ := h
  cases published <;> cases topic <;> cases value <;> rfl

/-- What was sent on a topic, as the broker stores it. -/
def sent_on (source_id : Text) (topic : Topic) (sent : List Message) : List mosquitto_msg_store :=
  (sent.map (stored_of source_id)).filter fun stored => stored.topic = ascii topic.name

/-- The last message on a topic gives its value, and without one the topic has the value that it
had at the start. The messages are ones that `publish_state` makes. -/
theorem value_replay {sent : List Message} (h : ∀ message ∈ sent, Made message) (source_id : Text)
    (topic : Topic) (start : Actuators) : topic.value (replay start sent) =
      if sent_on source_id topic sent = [] then topic.value start
      else held (sent_on source_id topic sent).getLast? := by
  induction sent using List.reverseRecOn with
  | nil => rfl
  | append_singleton sent message ih =>
    obtain ⟨hbefore, hlast⟩ := List.forall_mem_append.mp h
    have hmade := hlast message (List.mem_singleton_self message)
    have hsnoc : sent_on source_id topic (sent ++ [message]) =
        sent_on source_id topic sent ++ sent_on source_id topic [message] := by
      rw [sent_on, List.map_append, List.filter_append]
      rfl
    rw [replay_append, replay_cons, replay_nil, value_receive hmade, ih hbefore, hsnoc]
    by_cases htopic : ascii message.topic = ascii topic.name
    · have hthis : sent_on source_id topic [message] = [stored_of source_id message] :=
        List.filter_cons_of_pos (by exact decide_eq_true htopic)
      rw [if_pos htopic, hthis, if_neg (List.append_ne_nil_of_right_ne_nil _ (List.cons_ne_nil _ _)),
        List.getLast?_concat]
      rfl
    · have hnone : sent_on source_id topic [message] = [] :=
        List.filter_cons_of_neg (by simpa [stored_of] using htopic)
      rw [if_neg htopic, hnone, List.append_nil]

variable [CFloat F]

/-- What a step sends: nothing, or what `publish_state` publishes for the values that the task or
the handler has captured. -/
theorem messages_step {sys next : System F} {label : Label F} {emitted : List (Event F)}
    (hstep : step sys label = some (next, emitted)) :
    messages emitted = [] ∨
      ∃ captured, messages emitted = (publish_state true captured sys.shared).2 := by
  cases control_step hstep with
  | quiet _ _ _ _ _ hmessages => exact Or.inl hmessages
  | skipped _ _ _ _ _ hemitted => exact Or.inl (by rw [hemitted]; rfl)
  | evaluated _ _ _ _ _ _ hemitted => exact Or.inl (by rw [hemitted]; rfl)
  | task_published captured _ _ _ _ _ hmessages => exact Or.inr ⟨captured, hmessages⟩
  | handler_published captured _ _ _ _ _ hmessages => exact Or.inr ⟨captured, hmessages⟩
  | mode_posted _ _ _ _ _ _ _ hemitted => exact Or.inl (by rw [hemitted]; rfl)
  | actuators_posted _ _ _ _ _ _ _ _ _ _ hemitted => exact Or.inl (by rw [hemitted]; rfl)
  | schedule_posted _ _ _ _ _ _ _ hemitted => exact Or.inl (by rw [hemitted]; rfl)

theorem made_messages (start : System F) (labels : List (Label F)) :
    EveryState step start labels fun _ _ events =>
      ∀ message ∈ messages events, Made message := by
  refine everyState_of_step nofun (fun past sys events label next emitted hmade hstep => ?_) labels
  rw [messages_append]
  refine List.forall_mem_append.mpr ⟨hmade, fun message hmem => ?_⟩
  obtain hnone | ⟨captured, hsent⟩ := messages_step hstep
  · rw [hnone] at hmem
    cases hmem
  · rw [hsent] at hmem
    exact made_publish_state hmem

theorem filter_on_topics (ops : List broker_op) (topic : Topic) :
    (on_topics ops).filter (fun stored => stored.topic = ascii topic.name) =
      (ops.filterMap published_of).filter fun stored => stored.topic = ascii topic.name := by
  rw [on_topics, List.filter_filter]
  apply List.filter_congr
  intro stored _
  by_cases htopic : stored.topic = ascii topic.name
  · have hlisted : topic ∈ Topic.all := by cases topic <;> decide
    have hany : (Topic.all.any fun topic => stored.topic = ascii topic.name) = true :=
      List.any_eq_true.mpr ⟨topic, hlisted, decide_eq_true htopic⟩
    simp [hany]
  · simp [htopic]

theorem published_on_topic {ops : List broker_op} {sent : List Message} {source_id : Text}
    (hpublished : on_topics ops = sent.map (stored_of source_id)) {topic : Topic}
    {stored : mosquitto_msg_store} (hmem : stored ∈ ops.filterMap published_of)
    (htopic : stored.topic = ascii topic.name) : ∃ message ∈ sent, stored = stored_of source_id message := by
  have hin : stored ∈ (on_topics ops).filter fun stored => stored.topic = ascii topic.name := by
    rw [filter_on_topics]
    exact List.mem_filter.mpr ⟨hmem, decide_eq_true htopic⟩
  rw [hpublished] at hin
  obtain ⟨message, hmessage, rfl⟩ := List.mem_map.mp (List.mem_of_mem_filter hin)
  exact ⟨message, hmessage, rfl⟩

theorem can_publish_name (topic : Topic) : can_publish (ascii topic.name) = true := by
  cases topic <;> decide

theorem not_isParent_name (sub : Text) (topic : Topic) : ¬ IsParent sub (ascii topic.name) := by
  rintro ⟨-, key, -, htopic⟩
  have hlength : (split_topics (ascii topic.name)).length = 1 := congrArg List.length htopic
  cases topic <;> exact absurd hlength (by decide)

/-- Whoever is subscribed was last handed the last message on a topic, and nothing where there
was none. -/
theorem last_inserted_on {ops : List broker_op} {now_real_s : Int}
    (hordered : TimesInOrder ops now_real_s) {source_id : Text} {sent : List Message}
    (hmade : ∀ message ∈ sent, Made message)
    (hpublished : on_topics ops = sent.map (stored_of source_id)) {context sub : Text}
    (hsub : can_subscribe sub = true) (hshared : NotShared sub) (topic : Topic)
    (hmatch : Matches wildcards (split_topics sub) (split_topics (ascii topic.name)))
    (hasks : ∀ op ∈ ops, AsksRetained context sub op) {leaf : mosquitto_subleaf}
    (hleaf : subscriptions (ops.filterMap sub_op_of) context ⟨split_topics sub, none⟩ = some leaf)
    (hlocal : leaf.no_local = false) :
    last_inserted context (ascii topic.name) (broker_run ops db_open).2 =
      (sent_on source_id topic sent).getLast? := by
  have hlasting (stored : mosquitto_msg_store) (hmem : stored ∈ ops.filterMap published_of)
      (htopic : stored.topic = ascii topic.name) : Lasting stored ∧ stored.payload ≠ [] := by
    obtain ⟨message, hmessage, rfl⟩ := published_on_topic hpublished hmem htopic
    obtain ⟨_, value, rfl⟩ := hmade message hmessage
    have hvalue : ascii (if value then "1" else "0") ≠ [] := by cases value <;> decide
    exact ⟨⟨rfl, rfl⟩, hvalue⟩
  have hon : (ops.filterMap published_of).filter (fun stored => stored.topic = ascii topic.name) =
      sent_on source_id topic sent := by
    rw [sent_on, ← filter_on_topics, hpublished]
  have hlast := last_retained_eq_getLast? ops (can_publish_name topic) hlasting
  rw [hon] at hlast
  rw [← hlast]
  cases hretained : last_retained ops (ascii topic.name) with
  | some stored =>
    exact last_inserted_broker_run ops hordered hsub hshared hmatch (not_isParent_name sub topic)
      (fun stored hmem htopic => (hlasting stored hmem htopic).1) hasks hleaf hlocal hretained
  | none =>
    -- nothing was published on the topic, so nothing was inserted on it
    cases hinserted : last_inserted context (ascii topic.name) (broker_run ops db_open).2 with
    | none => rfl
    | some stored =>
      obtain ⟨message, hmessage, rfl⟩ := Option.map_eq_some_iff.mp hinserted
      obtain ⟨hmem, hboth⟩ := List.mem_filter.mp (List.mem_of_getLast? hmessage)
      have htopic := of_decide_eq_true (Bool.and_eq_true_iff.mp hboth).2
      have hin : message.1 ∈ (ops.filterMap published_of).filter fun stored =>
          stored.topic = ascii topic.name :=
        List.mem_filter.mpr ⟨mem_of_inserted ops hordered hmem, decide_eq_true htopic⟩
      rw [hretained] at hlast
      rw [hon, List.getLast?_eq_none_iff.mp hlast.symm] at hin
      cases hin

/-- What `publish_state` publishes before there is a client is dropped. In every run from the
state in which the client comes to be, a board that is subscribed, whenever it came, was last
handed the value that was published last for a topic if and only if the topic was off in that
state, or has had a message since. The broker gets the messages that the client is given, in
their order, and nobody else writes on the topics; a board that was handed nothing takes the
topic for off. What is handed over is what `db__message_insert` is called with for the board. -/
theorem board_replay {labels : List (Label F)} {start sys : System F} {events : List (Event F)}
    (hrun : Run step start labels sys events) (ops : List broker_op) {now_real_s : Int}
    (hordered : TimesInOrder ops now_real_s) {source_id : Text}
    (hpublished : on_topics ops = (messages events).map (stored_of source_id))
    {context sub : Text} (hsub : can_subscribe sub = true) (hshared : NotShared sub) (topic : Topic)
    (hmatch : Matches wildcards (split_topics sub) (split_topics (ascii topic.name)))
    (hasks : ∀ op ∈ ops, AsksRetained context sub op) {leaf : mosquitto_subleaf}
    (hleaf : subscriptions (ops.filterMap sub_op_of) context ⟨split_topics sub, none⟩ = some leaf)
    (hlocal : leaf.no_local = false) :
    held (last_inserted context (ascii topic.name) (broker_run ops db_open).2) =
        topic.value sys.shared.last ↔
      topic.value start.shared.last = false ∨ sent_on source_id topic (messages events) ≠ [] := by
  have hreplay := (replay_last start labels).last hrun
  have hmade := (made_messages start labels).last hrun
  rw [last_inserted_on hordered hmade hpublished hsub hshared topic hmatch hasks hleaf hlocal,
    ← hreplay, value_replay hmade source_id]
  by_cases hnone : sent_on source_id topic (messages events) = []
  · rw [if_pos hnone, hnone]
    have hoff : held ([] : List mosquitto_msg_store).getLast? = false := rfl
    rw [hoff]
    exact ⟨fun hvalue => Or.inl hvalue.symm, fun h => (h.resolve_right fun hne => hne rfl).symm⟩
  · rw [if_neg hnone]
    exact iff_of_true rfl (Or.inr hnone)

private def post_actuators_body (body : String) (now : tm) : Label Binary32 :=
  .request (.post_actuators (.delivered (ascii body)) now)

-- The window is opened before there is a client.
private def opened_early (now : tm) : List (Label Binary32) :=
  [.request (.post_mode (.delivered (ascii "\x7b\"mode\":2\x7d"))), .handler,
    post_actuators_body "\x7b\"window\":1,\"fan\":0,\"door\":0,\"absorber\":0\x7d" now,
    .handler, .handler]

private def closed_and_opened (now later : tm) : List (Label Binary32) :=
  [post_actuators_body "\x7b\"window\":0,\"fan\":0,\"door\":0,\"absorber\":0\x7d" now,
    .handler, .handler,
    post_actuators_body "\x7b\"window\":1,\"fan\":0,\"door\":0,\"absorber\":0\x7d" later,
    .handler, .handler]

private def window_board : subscriber :=
  { id := ascii "board"
    protocol := .mosq_p_mqtt311
    max_qos := 2 }

private def window_ops : List broker_op :=
  [.publish (stored_of (ascii "center") ⟨"ESP32/window", "0", 1, true⟩),
    .publish (stored_of (ascii "center") ⟨"ESP32/window", "1", 1, true⟩),
    .subscribe window_board (ascii "ESP32/+") 1 0 5]

theorem board_replay_window :
    ∃ (start sys : System Binary32) (dropped events : List (Event Binary32)),
      Run step System.initial (opened_early ⟨12, 0⟩) start dropped ∧
        Run step start (closed_and_opened ⟨12, 5⟩ ⟨12, 9⟩) sys events ∧
        (held (last_inserted (ascii "board") (ascii "ESP32/window") (broker_run window_ops db_open).2) =
            Topic.window.value sys.shared.last ↔
          Topic.window.value start.shared.last = false ∨
            sent_on (ascii "center") .window (messages events) ≠ []) := by
  have hexec : (exec step System.initial (opened_early ⟨12, 0⟩)).bind (fun early =>
      (exec step early.1 (closed_and_opened ⟨12, 5⟩ ⟨12, 9⟩)).map fun late => messages late.2) =
      some [⟨"ESP32/window", "0", 1, true⟩, ⟨"ESP32/window", "1", 1, true⟩] := by
    decide +kernel
  obtain ⟨⟨start, dropped⟩, hearly, hlate⟩ := Option.bind_eq_some_iff.mp hexec
  obtain ⟨⟨sys, events⟩, hexec, hmessages⟩ := Option.map_eq_some_iff.mp hlate
  have hordered : TimesInOrder window_ops 5 := by decide
  have hpublished : on_topics window_ops = (messages events).map (stored_of (ascii "center")) := by
    rw [hmessages]
    decide
  have hleaf : subscriptions (window_ops.filterMap sub_op_of) (ascii "board")
      ⟨split_topics (ascii "ESP32/+"), none⟩ = some ⟨ascii "board", 1, 0, false, false⟩ := by decide
  exact ⟨start, sys, dropped, events, .of_exec hearly, .of_exec hexec,
    board_replay (.of_exec hexec) window_ops hordered hpublished (by decide) (by decide) .window
      (by decide) (by decide) hleaf (by decide)⟩

end communication_center.system
