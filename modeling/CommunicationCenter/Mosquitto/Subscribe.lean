import CommunicationCenter.Mosquitto.Properties
import CommunicationCenter.Mosquitto.RetainTable

open libc trie wildcard

namespace communication_center.mosquitto

abbrev MQTT_SUB_OPT_SEND_RETAIN_ALWAYS : UInt8 := 0x00
abbrev MQTT_SUB_OPT_SEND_RETAIN_NEW : UInt8 := 0x10
abbrev MQTT_SUB_OPT_SEND_RETAIN_NEVER : UInt8 := 0x20

abbrev MQTT_RC_NOT_AUTHORIZED : UInt8 := 135

/-- The subscriptions and the retained messages. -/
structure mosquitto_db where
  subs : mosquitto_subs
  retains : List (Text × mosquitto_retainhier)

/-- What the handling of a SUBSCRIBE asks of its client. -/
structure subscriber where
  id : Text
  protocol : mosquitto_protocol
  max_qos : UInt8

/-- What is asked for with a filter. -/
structure subscription where
  qos : UInt8
  options : UInt8
  retain_handling : UInt8

/-- Before version 5 the byte behind a filter is the QoS alone. -/
def read_subscription_options (protocol : mosquitto_protocol) (sub : Text)
    (subscription_options : UInt8) : Except mosq_err_t subscription :=
  if protocol ≠ .mosq_p_mqtt5 then .ok ⟨subscription_options, subscription_options, 0⟩
  else
    let options := subscription_options &&& 0xFC
    if options &&& MQTT_SUB_OPT_NO_LOCAL ≠ 0 ∧ sub.take 7 = ascii "$share/" then
      .error .MOSQ_ERR_PROTOCOL
    else if options &&& 0x30 = 0x30 ∨ options &&& 0xC0 ≠ 0 then .error .MOSQ_ERR_MALFORMED_PACKET
    else .ok ⟨subscription_options &&& 0x03, options, options &&& 0x30⟩

def check_subscription (client : subscriber) (sub : Text) (subscription_options : UInt8) :
    Except mosq_err_t subscription := do
  let asked ← read_subscription_options client.protocol sub subscription_options
  if asked.qos > 2 then .error .MOSQ_ERR_MALFORMED_PACKET
  else .ok { asked with qos := if asked.qos > client.max_qos then client.max_qos else asked.qos }

/-- Whether `retain__queue` is called for a subscription, by the result of adding it. -/
def sends_retained (protocol : mosquitto_protocol) (retain_handling : UInt8) (rc : mosq_err_t) :
    Bool :=
  if protocol ≠ .mosq_p_mqtt5 then rc = .MOSQ_ERR_SUCCESS || rc = .MOSQ_ERR_SUB_EXISTS
  else retain_handling = MQTT_SUB_OPT_SEND_RETAIN_ALWAYS ||
    rc = .MOSQ_ERR_SUCCESS && retain_handling = MQTT_SUB_OPT_SEND_RETAIN_NEW

/-- What is answered for a filter that is not allowed. -/
def subscription_denied (protocol : mosquitto_protocol) (qos : UInt8) : UInt8 :=
  if protocol = .mosq_p_mqtt5 then MQTT_RC_NOT_AUTHORIZED
  else if protocol = .mosq_p_mqtt311 then 0x80
  else qos

/-- The result for a filter, the byte that answers it, and the retained messages that are
handed to `db__message_insert`. -/
structure subscribed where
  rc : mosq_err_t
  granted : UInt8
  db : mosquitto_db
  inserted : List (mosquitto_msg_store × delivery)

/-- Before version 5 there are no identifiers. -/
def retained_identifier (protocol : mosquitto_protocol) (identifier : UInt32) : UInt32 :=
  if protocol ≠ .mosq_p_mqtt5 then 0 else identifier

/-- What is done for one filter of a SUBSCRIBE. -/
def handle_subscribe_filter (client : subscriber) (sub : Text) (subscription_options : UInt8)
    (identifier : UInt32) (now_real_s : Int) (db : mosquitto_db) : subscribed :=
  match check_subscription client sub subscription_options with
  | .error rc => ⟨rc, 0, db, []⟩
  | .ok asked =>
    if mosquitto_acl_check sub .MOSQ_ACL_SUBSCRIBE = .MOSQ_ERR_ACL_DENIED then
      ⟨.MOSQ_ERR_SUCCESS, subscription_denied client.protocol asked.qos, db, []⟩
    else if mosquitto_acl_check sub .MOSQ_ACL_SUBSCRIBE ≠ .MOSQ_ERR_SUCCESS then
      ⟨mosquitto_acl_check sub .MOSQ_ACL_SUBSCRIBE, 0, db, []⟩
    else
      let added := sub_add client.id client.protocol sub asked.qos identifier asked.options db.subs
      if added.1 ≠ .MOSQ_ERR_SUCCESS ∧ added.1 ≠ .MOSQ_ERR_SUB_EXISTS then
        ⟨added.1, 0, { db with subs := added.2 }, []⟩
      else if sends_retained client.protocol asked.retain_handling added.1 then
        let retained := retain_queue client.id sub asked.qos
          (retained_identifier client.protocol identifier) now_real_s db.retains
        ⟨.MOSQ_ERR_SUCCESS, asked.qos, ⟨added.2, retained.1⟩, retained.2⟩
      else ⟨.MOSQ_ERR_SUCCESS, asked.qos, { db with subs := added.2 }, []⟩

/-- The filters of a packet, one after the other, up to the first that fails. Those before
it stay subscribed. The number bounds the filters. -/
def handle_subscribe_loop (client : subscriber) (identifier : UInt32) (now_real_s : Int) :
    Nat → mosquitto_packet → mosquitto_db →
      mosq_err_t × List UInt8 × mosquitto_db × List (mosquitto_msg_store × delivery)
  | 0, _, db => (.MOSQ_ERR_SUCCESS, [], db, [])
  | n + 1, packet, db =>
    if packet = [] then (.MOSQ_ERR_SUCCESS, [], db, [])
    else match packet_read_string packet with
      | .error _ => (.MOSQ_ERR_MALFORMED_PACKET, [], db, [])
      | .ok (none, packet) => handle_subscribe_loop client identifier now_real_s n packet db
      | .ok (some sub, packet) =>
        if mosquitto_sub_topic_check sub ≠ .MOSQ_ERR_SUCCESS then
          (.MOSQ_ERR_MALFORMED_PACKET, [], db, [])
        else match packet_read_byte packet with
          | .error _ => (.MOSQ_ERR_MALFORMED_PACKET, [], db, [])
          | .ok (subscription_options, packet) =>
            let filter :=
              handle_subscribe_filter client sub subscription_options identifier now_real_s db
            if filter.rc ≠ .MOSQ_ERR_SUCCESS then (filter.rc, [], filter.db, filter.inserted)
            else
              let rest := handle_subscribe_loop client identifier now_real_s n packet filter.db
              (rest.1, filter.granted :: rest.2.1, rest.2.2.1, filter.inserted ++ rest.2.2.2)

/-- The first subscription identifier among the properties. -/
def property_subscription_identifier (properties : List mosquitto_property) : Option UInt32 :=
  properties.findSome? fun property => match property with
    | ⟨.MQTT_PROP_SUBSCRIPTION_IDENTIFIER, value⟩ => some (UInt32.ofNat value)
    | _ => none

def read_subscribe_properties (protocol : mosquitto_protocol) (packet : mosquitto_packet) :
    Except mosq_err_t (UInt32 × mosquitto_packet) :=
  if protocol = .mosq_p_mqtt5 then
    match property_read_all (.command CMD_SUBSCRIBE) packet with
    | .error rc => .error (if rc = .MOSQ_ERR_PROTOCOL then .MOSQ_ERR_MALFORMED_PACKET else rc)
    | .ok (properties, packet) =>
      match property_subscription_identifier properties with
      | none => .ok (0, packet)
      | some identifier =>
        if identifier = 0 then .error .MOSQ_ERR_MALFORMED_PACKET else .ok (identifier, packet)
  else .ok (0, packet)

/-- The result, the answer with its `mid`, and what is done. -/
def handle_subscribe (client : subscriber) (command : UInt8) (packet : mosquitto_packet)
    (now_real_s : Int) (db : mosquitto_db) :
    mosq_err_t × Option (UInt16 × List UInt8) × mosquitto_db ×
      List (mosquitto_msg_store × delivery) :=
  if command ≠ CMD_SUBSCRIBE ||| 2 then (.MOSQ_ERR_MALFORMED_PACKET, none, db, [])
  else match packet_read_uint16 packet with
    | .error _ => (.MOSQ_ERR_MALFORMED_PACKET, none, db, [])
    | .ok (mid, packet) =>
      if mid = 0 then (.MOSQ_ERR_MALFORMED_PACKET, none, db, [])
      else match read_subscribe_properties client.protocol packet with
        | .error rc => (rc, none, db, [])
        | .ok (identifier, packet) =>
          let filters := handle_subscribe_loop client identifier now_real_s packet.length packet db
          if filters.1 ≠ .MOSQ_ERR_SUCCESS then (filters.1, none, filters.2.2)
          else if client.protocol ≠ .mosq_p_mqtt31 ∧ filters.2.1 = [] then
            (.MOSQ_ERR_MALFORMED_PACKET, none, filters.2.2)
          else (.MOSQ_ERR_SUCCESS, some (mid, filters.2.1), filters.2.2)

/-- What the clients do with the broker. -/
inductive broker_op where
  | subscribe (client : subscriber) (sub : Text) (subscription_options : UInt8)
      (identifier : UInt32) (now_real_s : Int)
  | unsubscribe (context sub : Text)
  | clean (context : Text)
  | publish (stored : mosquitto_msg_store)

/-- A stored message as it is searched subscribers for. -/
def routed_of (stored : mosquitto_msg_store) : routed_msg where
  source_id := some stored.source_id
  topic := stored.topic
  qos := stored.qos
  retain := stored.retain

/-- An operation, with the calls of `db__message_insert` that it leads to: the message and how
it is to be delivered. -/
def broker_step (db : mosquitto_db) :
    broker_op → mosquitto_db × List (mosquitto_msg_store × delivery)
  | .subscribe client sub subscription_options identifier now_real_s =>
    if can_subscribe sub then
      let filter := handle_subscribe_filter client sub subscription_options identifier now_real_s db
      (filter.db, filter.inserted)
    else (db, [])
  | .unsubscribe context sub => ({ db with subs := sub_step db.subs (.unsubscribe context sub) }, [])
  | .clean context => ({ db with subs := sub_clean_session context db.subs }, [])
  | .publish stored =>
    if can_publish stored.topic then
      let routed := sub_messages_queue (routed_of stored) db.subs
      (⟨routed.1, retain_step db.retains (.publish stored)⟩,
        routed.2.deliveries.map fun delivery => (stored, delivery))
    else (db, [])

def broker_run (ops : List broker_op) (db : mosquitto_db) :
    mosquitto_db × List (mosquitto_msg_store × delivery) :=
  ops.foldl (fun result op =>
    ((broker_step result.1 op).1, result.2 ++ (broker_step result.1 op).2)) (db, [])

def db_open : mosquitto_db where
  subs := db_subs
  retains := retain_init

variable {client : subscriber} {sub : Text} {subscription_options : UInt8} {identifier : UInt32}
  {now_real_s : Int} {db : mosquitto_db}

/-- What is done for a filter that is let through: the subscription is added or renewed, and
retained messages are queued unless the client has asked for none. The four results are named by
what they are. -/
theorem broker_step_subscribe {asked : subscription} {added : mosq_err_t × mosquitto_subs}
    {retained : List (Text × mosquitto_retainhier) × List (mosquitto_msg_store × delivery)}
    (hsub : can_subscribe sub = true)
    (hasked : check_subscription client sub subscription_options = .ok asked)
    (hadded : sub_add client.id client.protocol sub asked.qos identifier asked.options db.subs = added)
    (hretained : retain_queue client.id sub asked.qos
      (retained_identifier client.protocol identifier) now_real_s db.retains = retained) :
    broker_step db (.subscribe client sub subscription_options identifier now_real_s) =
      if (added.1 = .MOSQ_ERR_SUCCESS ∨ added.1 = .MOSQ_ERR_SUB_EXISTS) ∧
          sends_retained client.protocol asked.retain_handling added.1 = true then
        (⟨added.2, retained.1⟩, retained.2)
      else ({ db with subs := added.2 }, []) := by
  rw [broker_step, if_pos hsub, handle_subscribe_filter, hasked, mosquitto_acl_check_subscribe]
  simp only [reduceCtorEq, ite_false, ne_eq, not_true_eq_false, hadded, hretained]
  by_cases hfailed : ¬ added.1 = .MOSQ_ERR_SUCCESS ∧ ¬ added.1 = .MOSQ_ERR_SUB_EXISTS
  · rw [if_pos hfailed, if_neg fun hboth => hboth.1.elim hfailed.1 hfailed.2]
  · have hsuccess : added.1 = .MOSQ_ERR_SUCCESS ∨ added.1 = .MOSQ_ERR_SUB_EXISTS := by
      by_contra hnot
      exact hfailed (not_or.mp hnot)
    rw [if_neg hfailed]
    by_cases hsends : sends_retained client.protocol asked.retain_handling added.1 = true
    · rw [if_pos hsends, if_pos ⟨hsuccess, hsends⟩]
    · rw [if_neg hsends, if_neg fun hboth => hsends hboth.2]

/-- A subscription that is refused changes nothing, and no retained message is handed on for it. -/
theorem broker_step_refused {rc : mosq_err_t}
    (hrefused : check_subscription client sub subscription_options = .error rc) :
    broker_step db (.subscribe client sub subscription_options identifier now_real_s) = (db, []) := by
  rw [broker_step, handle_subscribe_filter, hrefused]
  exact ite_self _

/-- What an operation does to the subscriptions. -/
def sub_op_of : broker_op → Option sub_op
  | .subscribe client sub subscription_options identifier _ =>
    match check_subscription client sub subscription_options with
    | .error _ => none
    | .ok asked =>
      some (.subscribe client.id client.protocol sub asked.qos identifier asked.options)
  | .unsubscribe context sub => some (.unsubscribe context sub)
  | .clean context => some (.clean context)
  | .publish stored => some (.publish (routed_of stored))

def published_of : broker_op → Option mosquitto_msg_store
  | .publish stored => some stored
  | _ => none

/-- The last retained message of each topic. -/
def last_retained (ops : List broker_op) : RetainedTable :=
  retained_table ((ops.filterMap published_of).map .publish)

def broker_time : broker_op → Option Int
  | .subscribe _ _ _ _ now_real_s => some now_real_s
  | _ => none

/-- The trees of subscriptions are changed by the operations on them alone, and in the same way as
without retained messages. -/
theorem subs_broker_step (db : mosquitto_db) (op : broker_op) :
    (broker_step db op).1.subs = match sub_op_of op with
      | none => db.subs
      | some op => sub_step db.subs op := by
  cases op with
  | subscribe client sub subscription_options identifier now_real_s =>
    rw [sub_op_of]
    cases hasked : check_subscription client sub subscription_options with
    | error rc => rw [broker_step_refused hasked]
    | ok asked =>
      simp only [sub_step]
      by_cases hsub : can_subscribe sub = true
      · rw [broker_step_subscribe hsub hasked rfl rfl, if_pos hsub]
        split
        · rfl
        · rfl
      · rw [broker_step, if_neg hsub, if_neg hsub]
  | unsubscribe context sub => rfl
  | clean context => rfl
  | publish stored =>
    rw [broker_step, sub_op_of]
    simp only [sub_step]
    change _ = if can_publish stored.topic = true then _ else _
    split
    · rfl
    · rfl

/-- What is retained is changed by messages alone: subscriptions of any kind leave it as it is. -/
theorem last_retained_snoc (ops : List broker_op) (op : broker_op) :
    last_retained (ops ++ [op]) = match op with
      | .publish stored => (last_retained ops).step (.publish stored)
      | _ => last_retained ops := by
  rw [last_retained, List.filterMap_append, List.map_append, retained_table, List.foldl_append]
  cases op with
  | publish stored => rfl
  | _ => rfl

/-- The broker's state after some operations, in terms of the operations alone. -/
structure Consistent (ops : List broker_op) (now_real_s : Int) (db : mosquitto_db) : Prop where
  subs : Subs db.subs
  table : table_of db.subs = subscriptions (ops.filterMap sub_op_of)
  retained : Retained now_real_s (last_retained ops) db.retains

/-- At the start the broker has nothing. -/
theorem consistent_open (now_real_s : Int) : Consistent [] now_real_s db_open where
  subs := subs_db_subs
  table := table_of_db_subs
  retained := retained_init now_real_s

variable {ops : List broker_op}

/-- The trees stay in line with the history as time goes on. -/
theorem Consistent.later (h : Consistent ops now_real_s db) {later : Int} (hle : now_real_s ≤ later) :
    Consistent ops later db where
  subs := h.subs
  table := h.table
  retained := h.retained.later hle

/-- After any operation at its time the retained messages are those of the longer history, but for
expired ones. -/
theorem Consistent.retained_step (h : Consistent ops now_real_s db) (op : broker_op)
    (htime : ∀ time, broker_time op = some time → time = now_real_s) :
    Retained now_real_s (last_retained (ops ++ [op])) (broker_step db op).1.retains := by
  rw [last_retained_snoc]
  cases op with
  | subscribe client sub subscription_options identifier time =>
    obtain rfl := htime time rfl
    by_cases hsub : can_subscribe sub = true
    · cases hasked : check_subscription client sub subscription_options with
      | error rc =>
        rw [broker_step_refused hasked]
        exact h.retained
      | ok asked =>
        have hretained := h.retained.subscribe client.id sub asked.qos
          (retained_identifier client.protocol identifier)
        rw [retain_step, if_pos hsub] at hretained
        rw [broker_step_subscribe hsub hasked rfl rfl]
        change Retained time (last_retained ops) _
        split
        · exact hretained
        · exact h.retained
    · rw [broker_step, if_neg hsub]
      exact h.retained
  | unsubscribe context sub => exact h.retained
  | clean context => exact h.retained
  | publish stored =>
    have hretained := h.retained.publish stored
    rw [broker_step]
    by_cases hpublish : can_publish stored.topic = true
    · rw [if_pos hpublish]
      exact hretained
    · rw [if_neg hpublish]
      rw [retain_step, if_neg fun hboth => hpublish (Bool.and_eq_true_iff.mp hboth).1] at hretained
      exact hretained

/-- The step lemma: every operation keeps the trees for subscriptions and for retained messages in
line with the history. -/
theorem Consistent.step (h : Consistent ops now_real_s db) (op : broker_op)
    (htime : ∀ time, broker_time op = some time → time = now_real_s) :
    Consistent (ops ++ [op]) now_real_s (broker_step db op).1 := by
  have hsubs := subs_broker_step db op
  cases hop : sub_op_of op with
  | none =>
    rw [hop] at hsubs
    refine ⟨hsubs ▸ h.subs, ?_, h.retained_step op htime⟩
    rw [hsubs, h.table, List.filterMap_append]
    simp [hop]
  | some changed =>
    rw [hop] at hsubs
    obtain ⟨hsubsNext, htable⟩ := h.subs.step changed
    refine ⟨hsubs ▸ hsubsNext, ?_, h.retained_step op htime⟩
    rw [hsubs, htable, h.table, List.filterMap_append, subscriptions, subscriptions]
    simp [hop]

/-- Time does not go back. -/
def TimesInOrder (ops : List broker_op) (now_real_s : Int) : Prop :=
  (ops.filterMap broker_time ++ [now_real_s]).Pairwise (· ≤ ·)

instance (ops : List broker_op) (now_real_s : Int) : Decidable (TimesInOrder ops now_real_s) :=
  inferInstanceAs (Decidable (List.Pairwise _ _))

/-- Without its last operation a history is in order up to some time that is not later, and that
the operation has if it has one. -/
theorem TimesInOrder.before {op : broker_op} (h : TimesInOrder (ops ++ [op]) now_real_s) :
    ∃ time, TimesInOrder ops time ∧ time ≤ now_real_s ∧
      ∀ own, broker_time op = some own → own = time := by
  unfold TimesInOrder at h ⊢
  rw [List.filterMap_append] at h
  cases htime : broker_time op with
  | none => exact ⟨now_real_s, by simpa [htime] using h, le_refl _, nofun⟩
  | some time =>
    simp only [List.filterMap_cons, htime, List.filterMap_nil] at h
    obtain ⟨hbefore, -, hlast⟩ := List.pairwise_append.mp h
    exact ⟨time, hbefore, hlast time (by simp) now_real_s (by simp),
      fun own heq => (Option.some.inj heq).symm⟩

/-- A run with one operation more goes on from where the shorter one ends. -/
theorem broker_run_snoc (ops : List broker_op) (op : broker_op) (db : mosquitto_db) :
    broker_run (ops ++ [op]) db = ((broker_step (broker_run ops db).1 op).1,
      (broker_run ops db).2 ++ (broker_step (broker_run ops db).1 op).2) := by
  rw [broker_run, List.foldl_concat, ← broker_run]

/-- The broker's state after any history in which time does not go back is that of its tables. -/
theorem consistent_run (ops : List broker_op) (hordered : TimesInOrder ops now_real_s) :
    Consistent ops now_real_s (broker_run ops db_open).1 := by
  induction ops using List.reverseRecOn generalizing now_real_s with
  | nil => exact consistent_open now_real_s
  | append_singleton ops op ih =>
    obtain ⟨time, hbefore, hle, htime⟩ := hordered.before
    rw [broker_run_snoc]
    exact ((ih hbefore).step op htime).later hle

/-- Two runs in a row are one run, with what was inserted in the one and then in the other. -/
theorem broker_run_append (first second : List broker_op) (db : mosquitto_db) :
    broker_run (first ++ second) db = ((broker_run second (broker_run first db).1).1,
      (broker_run first db).2 ++ (broker_run second (broker_run first db).1).2) := by
  induction second using List.reverseRecOn with
  | nil => rw [List.append_nil, broker_run, broker_run, List.foldl_nil, List.append_nil]
  | append_singleton second op ih =>
    rw [← List.append_assoc, broker_run_snoc, broker_run_snoc, ih, List.append_assoc]

/-- A run begins with its first operation. -/
theorem broker_run_cons (op : broker_op) (ops : List broker_op) (db : mosquitto_db) :
    broker_run (op :: ops) db = ((broker_run ops (broker_step db op).1).1,
      (broker_step db op).2 ++ (broker_run ops (broker_step db op).1).2) :=
  broker_run_append [op] ops db

/-- The filters of a packet are handled as subscriptions one by one, up to the one at which the
packet is malformed. Those before it stay. -/
theorem handle_subscribe_loop_run (client : subscriber) (identifier : UInt32) (now_real_s : Int)
    (n : Nat) (packet : mosquitto_packet) (db : mosquitto_db) :
    ∃ filters : List (Text × UInt8),
      (handle_subscribe_loop client identifier now_real_s n packet db).2.2 =
        broker_run (filters.map fun filter =>
          .subscribe client filter.1 filter.2 identifier now_real_s) db := by
  induction n generalizing packet db with
  | zero => exact ⟨[], rfl⟩
  | succ n ih =>
    rw [handle_subscribe_loop]
    split
    · exact ⟨[], rfl⟩
    · split
      · exact ⟨[], rfl⟩
      · exact ih _ db
      · rename_i sub packet hsub
        split
        · exact ⟨[], rfl⟩
        · rename_i hchecked
          split
          · exact ⟨[], rfl⟩
          · rename_i options packet hoptions
            have hallowed : can_subscribe sub = true := by
              obtain ⟨hne, -⟩ := (packet_read_string_iff _ _ _).mp hsub
              rw [can_subscribe_iff]
              exact ⟨fun hnil => hne (congrArg some hnil), not_not.mp hchecked⟩
            have hstep : broker_step db (.subscribe client sub options identifier now_real_s) =
                ((handle_subscribe_filter client sub options identifier now_real_s db).db,
                  (handle_subscribe_filter client sub options identifier now_real_s db).inserted) :=
              if_pos hallowed
            simp only
            split
            · refine ⟨[(sub, options)], ?_⟩
              rw [List.map_singleton, broker_run_cons, hstep]
              exact Prod.ext rfl (List.append_nil _).symm
            · obtain ⟨filters, hfilters⟩ := ih packet
                (handle_subscribe_filter client sub options identifier now_real_s db).db
              refine ⟨(sub, options) :: filters, ?_⟩
              rw [List.map_cons, broker_run_cons, hstep, ← hfilters]

/-- So is a whole packet, also one that fails: what it does to the broker is what some list of
subscriptions does. Nothing is assumed of its bytes. -/
theorem handle_subscribe_run (command : UInt8) (packet : mosquitto_packet) (db : mosquitto_db) :
    ∃ (identifier : UInt32) (filters : List (Text × UInt8)),
      (handle_subscribe client command packet now_real_s db).2.2 =
        broker_run (filters.map fun filter =>
          .subscribe client filter.1 filter.2 identifier now_real_s) db := by
  have hnothing : ∃ (identifier : UInt32) (filters : List (Text × UInt8)),
      (db, []) = broker_run (filters.map fun filter =>
        .subscribe client filter.1 filter.2 identifier now_real_s) db := ⟨0, [], rfl⟩
  rw [handle_subscribe]
  split
  · exact hnothing
  · split
    · exact hnothing
    · split
      · exact hnothing
      · split
        · exact hnothing
        · rename_i identifier packet _
          obtain ⟨filters, hfilters⟩ := handle_subscribe_loop_run client identifier now_real_s
            packet.length packet db
          refine ⟨identifier, filters, ?_⟩
          rw [← hfilters]
          simp only
          split
          · rfl
          · split
            · rfl
            · rfl

end communication_center.mosquitto
