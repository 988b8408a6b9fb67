import CommunicationCenter.Mosquitto.Messages
import CommunicationCenter.Mosquitto.Publish
import Mathlib.Data.List.Find

open libc

namespace communication_center.mosquitto

abbrev MQTT_RC_NO_MATCHING_SUBSCRIBERS : UInt8 := 16
abbrev MQTT_RC_IMPLEMENTATION_SPECIFIC : UInt8 := 131
abbrev MQTT_RC_QUOTA_EXCEEDED : UInt8 := 151

/-- What is sent to a client about its messages. -/
inductive mosquitto_reply where
  | puback (mid : UInt16) (reason_code : UInt8)
  | pubrec (mid : UInt16) (reason_code : UInt8)
  | pubcomp (mid : UInt16)
  deriving DecidableEq

/-- The result of a handler, the messages in flight, what is sent to the client and what is
passed on to the subscribers. -/
structure handled where
  rc : mosq_err_t
  msgs_in : mosquitto_msg_data
  replies : List mosquitto_reply
  routed : List mosquitto_msg_store

def db_message_store_find (mid : UInt16) (msgs_in : mosquitto_msg_data) : Option mosquitto_client_msg :=
  (msgs_in.inflight.find? fun cmsg => cmsg.store.source_mid = mid).or
    (msgs_in.queued.find? fun cmsg => cmsg.store.source_mid = mid)

def db_message_remove_incoming (mid : UInt16) (msgs_in : mosquitto_msg_data) : mosquitto_msg_data :=
  match msgs_in.inflight.find? fun tail => tail.mid = mid with
  | none => msgs_in
  | some tail =>
    if tail.store.qos ≠ 2 then msgs_in
    else { msgs_in with inflight := msgs_in.inflight.eraseP fun tail => tail.mid = mid }

/-- The message of a direction that a client sends in. -/
def db_message_insert_in (stored : mosquitto_msg_store) (msgs_in : mosquitto_msg_data) :
    Nat × mosquitto_msg_data :=
  let msg (state : mosquitto_msg_state) : mosquitto_client_msg :=
    ⟨stored, stored.source_mid, stored.qos, stored.retain, state, 0, []⟩
  if db_ready_for_flight msgs_in then
    if stored.qos = 2 then
      (0, util_decrement_quota
        { msgs_in with inflight := msgs_in.inflight ++ [msg .mosq_ms_wait_for_pubrel] })
    else (1, msgs_in)
  else if db_ready_for_queue true stored.qos msgs_in then
    (2, { msgs_in with
      queued := msgs_in.queued ++ [msg .mosq_ms_queued]
      queued_count12 := msgs_in.queued_count12 + 1 })
  else (2, msgs_in)

def same_message (stored msg : mosquitto_msg_store) : Bool :=
  stored.qos = msg.qos && stored.payload = msg.payload && stored.topic = msg.topic

/-- One more copy of the first message with this identifier. -/
def count_dup (mid : UInt16) : List mosquitto_client_msg → List mosquitto_client_msg
  | [] => []
  | cmsg :: cmsgs =>
    if cmsg.store.source_mid = mid then { cmsg with dup := cmsg.dup + 1 } :: cmsgs
    else cmsg :: count_dup mid cmsgs

def count_dup_stored (mid : UInt16) (msgs_in : mosquitto_msg_data) : mosquitto_msg_data :=
  if msgs_in.inflight.any fun cmsg => cmsg.store.source_mid = mid then
    { msgs_in with inflight := count_dup mid msgs_in.inflight }
  else { msgs_in with queued := count_dup mid msgs_in.queued }

/-- The loop over the queue as it was at the start. -/
def write_queued_in : List mosquitto_client_msg → mosquitto_msg_data →
    mosquitto_msg_data × List mosquitto_reply
  | [], msgs_in => (msgs_in, [])
  | tail :: queued, msgs_in =>
    if msgs_in.inflight_maximum ≠ 0 ∧ msgs_in.inflight_quota = 0 then (msgs_in, [])
    else if tail.qos = 2 then
      let rest := write_queued_in queued (db_message_dequeue_first .mosq_ms_wait_for_pubrel msgs_in)
      (rest.1, .pubrec tail.mid 0 :: rest.2)
    else write_queued_in queued msgs_in

def db_message_write_queued_in (msgs_in : mosquitto_msg_data) :
    mosquitto_msg_data × List mosquitto_reply :=
  write_queued_in msgs_in.queued msgs_in

/-- The answer to a message that is not taken. A PUBREC that refuses it gives the quota
back, but before version 5 it cannot say that it does. -/
def process_bad_message (protocol : mosquitto_protocol) (reason_code : UInt8)
    (msg : mosquitto_msg_store) (msgs_in : mosquitto_msg_data) : handled :=
  if msg.qos = 1 then
    ⟨.MOSQ_ERR_SUCCESS, util_increment_quota msgs_in, [.puback msg.source_mid reason_code], []⟩
  else if msg.qos = 2 then
    ⟨.MOSQ_ERR_SUCCESS,
      if reason_code ≥ 0x80 ∧ protocol = .mosq_p_mqtt5 then util_increment_quota msgs_in else msgs_in,
      [.pubrec msg.source_mid reason_code], []⟩
  else ⟨.MOSQ_ERR_SUCCESS, msgs_in, [], []⟩

/-- The results of passing a message on that are no errors. -/
def passed_on (rc : mosq_err_t) : Bool :=
  rc = .MOSQ_ERR_SUCCESS || rc = .MOSQ_ERR_NO_SUBSCRIBERS

/-- What is done with a message by its QoS. The function gives the result of passing it on. -/
def process_stored (protocol : mosquitto_protocol) (deliver : mosquitto_msg_store → mosq_err_t)
    (stored : mosquitto_msg_store) (dup : UInt8) (msgs_in : mosquitto_msg_data) : handled :=
  if stored.qos = 0 then
    ⟨if passed_on (deliver stored) then .MOSQ_ERR_SUCCESS else .MOSQ_ERR_NOMEM, msgs_in, [], [stored]⟩
  else if stored.qos = 1 then
    let decremented := util_decrement_quota msgs_in
    if deliver stored = .MOSQ_ERR_SUCCESS ∨ protocol ≠ .mosq_p_mqtt5 then
      ⟨.MOSQ_ERR_SUCCESS, util_increment_quota decremented, [.puback stored.source_mid 0], [stored]⟩
    else if deliver stored = .MOSQ_ERR_NO_SUBSCRIBERS then
      ⟨.MOSQ_ERR_SUCCESS, util_increment_quota decremented,
        [.puback stored.source_mid MQTT_RC_NO_MATCHING_SUBSCRIBERS], [stored]⟩
    else ⟨deliver stored, decremented, [], [stored]⟩
  else
    let inserted := if dup = 0 then db_message_insert_in stored msgs_in else (0, msgs_in)
    if inserted.1 = 0 then
      if dup = 0 ∨ dup = 1 then
        ⟨.MOSQ_ERR_SUCCESS, inserted.2, [.pubrec stored.source_mid 0], []⟩
      else ⟨.MOSQ_ERR_PROTOCOL, inserted.2, [], []⟩
    else if inserted.1 = 1 then ⟨.MOSQ_ERR_NOMEM, inserted.2, [], []⟩
    else ⟨.MOSQ_ERR_SUCCESS, inserted.2, [], []⟩

/-- The topics of commands to the broker, for which nothing is built in. -/
def control_topic (topic : Text) : Bool := (ascii "$CONTROL/").isPrefixOf topic

/-- The part of the handling of a PUBLISH that keeps the message. -/
def handle_publish_msg (protocol : mosquitto_protocol) (deliver : mosquitto_msg_store → mosq_err_t)
    (msg : mosquitto_msg_store) (msgs_in : mosquitto_msg_data) : handled :=
  if control_topic msg.topic then
    process_bad_message protocol MQTT_RC_IMPLEMENTATION_SPECIFIC msg msgs_in
  else
    let found := if msg.qos > 0 then db_message_store_find msg.source_mid msgs_in else none
    let reused := found.any fun cmsg => msg.source_mid ≠ 0 && !same_message cmsg.store msg
    let cleared := if reused then db_message_remove_incoming msg.source_mid msgs_in else msgs_in
    match if reused then none else found with
    | none =>
      if msg.qos = 0 ∨ db_ready_for_flight cleared = true then
        finish (process_stored protocol deliver msg 0 cleared)
      else process_bad_message protocol MQTT_RC_QUOTA_EXCEEDED msg cleared
    | some cmsg =>
      finish (process_stored protocol deliver cmsg.store (cmsg.dup + 1)
        (count_dup_stored msg.source_mid cleared))
where
  /-- The queued messages are gone through unless the handler has returned. -/
  finish (result : handled) : handled :=
    if result.rc = .MOSQ_ERR_PROTOCOL then result
    else
      let written := db_message_write_queued_in result.msgs_in
      { result with msgs_in := written.1, replies := result.replies ++ written.2 }

/-- The messages in flight with an identifier are passed on and taken away, unless one
cannot be. -/
def release_inflight (deliver : mosquitto_msg_store → mosq_err_t) (mid : UInt16) :
    List mosquitto_client_msg →
      mosq_err_t × List mosquitto_client_msg × List mosquitto_msg_store
  | [] => (.MOSQ_ERR_NOT_FOUND, [], [])
  | tail :: inflight =>
    if tail.mid = mid then
      if tail.store.qos ≠ 2 then (.MOSQ_ERR_PROTOCOL, tail :: inflight, [])
      else if passed_on (deliver tail.store) then
        let rest := release_inflight deliver mid inflight
        (if rest.1 = .MOSQ_ERR_NOT_FOUND then .MOSQ_ERR_SUCCESS else rest.1, rest.2.1,
          tail.store :: rest.2.2)
      else (.MOSQ_ERR_NOMEM, tail :: inflight, [tail.store])
    else
      let rest := release_inflight deliver mid inflight
      (rest.1, tail :: rest.2.1, rest.2.2)

/-- The loop over the queue as it was at the start. It stops where messages may go into
flight, and not where they may not. -/
def release_queued : List mosquitto_client_msg → mosquitto_msg_data →
    mosquitto_msg_data × List mosquitto_reply
  | [], msgs_in => (msgs_in, [])
  | tail :: queued, msgs_in =>
    if db_ready_for_flight msgs_in then (msgs_in, [])
    else if tail.qos = 2 then
      let rest := release_queued queued (db_message_dequeue_first .mosq_ms_wait_for_pubrel msgs_in)
      (rest.1, .pubrec tail.mid 0 :: rest.2)
    else release_queued queued msgs_in

def db_message_release_incoming (deliver : mosquitto_msg_store → mosq_err_t) (mid : UInt16)
    (msgs_in : mosquitto_msg_data) : handled :=
  let released := release_inflight deliver mid msgs_in.inflight
  let cleared := { msgs_in with inflight := released.2.1 }
  if released.1 = .MOSQ_ERR_PROTOCOL ∨ released.1 = .MOSQ_ERR_NOMEM then
    ⟨released.1, cleared, [], released.2.2⟩
  else
    let written := release_queued msgs_in.queued cleared
    ⟨released.1, written.1, written.2, released.2.2⟩

/-- A PUBREL is answered also when there is no message for it. -/
def handle_pubrel (deliver : mosquitto_msg_store → mosq_err_t) (mid : UInt16)
    (msgs_in : mosquitto_msg_data) : handled :=
  let released := db_message_release_incoming deliver mid msgs_in
  if released.rc ≠ .MOSQ_ERR_SUCCESS ∧ released.rc ≠ .MOSQ_ERR_NOT_FOUND then released
  else
    ⟨.MOSQ_ERR_SUCCESS, util_increment_quota released.msgs_in, released.replies ++ [.pubcomp mid],
      released.routed⟩

/-- Only messages with QoS 2 stay in flight while there is no connection. -/
def reset_inflight : List mosquitto_client_msg → mosquitto_msg_data → mosquitto_msg_data
  | [], msgs_in => msgs_in
  | msg :: inflight, msgs_in =>
    let decremented := if msg.qos > 0 then util_decrement_quota msgs_in else msgs_in
    if msg.qos ≠ 2 then reset_inflight inflight decremented
    else reset_inflight inflight
      { decremented with inflight := decremented.inflight ++ [{ msg with dup := 0 }] }

def reset_queued : List mosquitto_client_msg → mosquitto_msg_data → mosquitto_msg_data
  | [], msgs_in => msgs_in
  | msg :: queued, msgs_in =>
    let counted := if msg.qos ≠ 0 then { msgs_in with queued_count12 := msgs_in.queued_count12 + 1 }
      else msgs_in
    if db_ready_for_flight counted then
      reset_queued queued (db_message_dequeue_first (publish_msg_state msg.qos msg.state) counted)
    else reset_queued queued counted

def db_message_reconnect_reset_incoming (msgs_in : mosquitto_msg_data) : mosquitto_msg_data :=
  let queued := msgs_in.queued.map fun msg => { msg with dup := 0 }
  reset_queued queued (reset_inflight msgs_in.inflight
    { inflight := []
      queued := queued
      queued_count12 := 0
      inflight_quota := msgs_in.inflight_maximum
      inflight_maximum := msgs_in.inflight_maximum })

/-- The messages that a client has sent and not released. The queue is not used, since a
message that may not be in flight is not taken. -/
structure Incoming (msgs_in : mosquitto_msg_data) : Prop where
  queued : msgs_in.queued = []
  mids : (msgs_in.inflight.map mosquitto_client_msg.mid).Nodup
  stored : ∀ cmsg ∈ msgs_in.inflight,
    cmsg.mid = cmsg.store.source_mid ∧ cmsg.store.qos = 2 ∧ cmsg.qos = 2

def held_of (msgs_in : mosquitto_msg_data) (mid : UInt16) : Option mosquitto_msg_store :=
  (msgs_in.inflight.find? fun cmsg => cmsg.mid = mid).map mosquitto_client_msg.store

variable {msgs_in : mosquitto_msg_data} {protocol : mosquitto_protocol} {mid : UInt16}
  {deliver : mosquitto_msg_store → mosq_err_t} {stored msg : mosquitto_msg_store}
  {cmsg : mosquitto_client_msg} {inflight : List mosquitto_client_msg}

/-- Nothing is held under an identifier if no message in flight has it. -/
theorem held_of_eq_none_iff : held_of msgs_in mid = none ↔ ∀ cmsg ∈ msgs_in.inflight, cmsg.mid ≠ mid := by
  simp [held_of]

/-- Where identifiers are distinct, what is held under one is the message with it. -/
theorem Incoming.held_of_eq_some_iff (h : Incoming msgs_in) :
    held_of msgs_in mid = some stored ↔
      ∃ cmsg ∈ msgs_in.inflight, cmsg.mid = mid ∧ cmsg.store = stored := by
  constructor
  · intro hheld
    obtain ⟨cmsg, hfind, rfl⟩ := Option.map_eq_some_iff.mp hheld
    have hmid := List.find?_some hfind
    exact ⟨cmsg, List.mem_of_find?_eq_some hfind, of_decide_eq_true hmid, rfl⟩
  · rintro ⟨cmsg, hcmsg, rfl, rfl⟩
    rw [held_of, find_mid h.mids hcmsg]
    rfl

/-- Messages are sought by the identifier that they came with. -/
theorem Incoming.store_find (h : Incoming msgs_in) (mid : UInt16) :
    db_message_store_find mid msgs_in = msgs_in.inflight.find? fun cmsg => cmsg.mid = mid := by
  rw [db_message_store_find, h.queued, List.find?_nil, Option.or_none]
  apply List.find?_congr
  intro cmsg hcmsg
  rw [(h.stored cmsg hcmsg).1]

/-- Where nothing is queued there is nothing to write. -/
theorem write_queued_in_nil (h : msgs_in.queued = []) :
    db_message_write_queued_in msgs_in = (msgs_in, []) := by
  rw [db_message_write_queued_in, h]
  rfl

/-- A message that is kept until it is released. -/
def kept (msg : mosquitto_msg_store) : mosquitto_client_msg where
  store := msg
  mid := msg.source_mid
  qos := msg.qos
  retain := msg.retain
  state := .mosq_ms_wait_for_pubrel
  dup := 0
  properties := []

/-- What is done with a message whose identifier is not in use: it is kept, takes one of the quota
and is answered with a PUBREC. Nothing is handed on yet. The client is within its quota, and the
topic is none below `$CONTROL/`. -/
theorem Incoming.publish_new (h : Incoming msgs_in) (hqos : msg.qos = 2)
    (htopic : control_topic msg.topic = false)
    (hnew : held_of msgs_in msg.source_mid = none) (hready : db_ready_for_flight msgs_in = true) :
    handle_publish_msg protocol deliver msg msgs_in =
      ⟨.MOSQ_ERR_SUCCESS,
        util_decrement_quota { msgs_in with inflight := msgs_in.inflight ++ [kept msg] },
        [.pubrec msg.source_mid 0], []⟩ := by
  have hpositive : msg.qos > 0 := by
    rw [hqos]
    decide
  have hfind : db_message_store_find msg.source_mid msgs_in = none := by
    rw [h.store_find]
    exact Option.map_eq_none_iff.mp hnew
  have hprocess : process_stored protocol deliver msg 0 msgs_in =
      ⟨.MOSQ_ERR_SUCCESS,
        util_decrement_quota { msgs_in with inflight := msgs_in.inflight ++ [kept msg] },
        [.pubrec msg.source_mid 0], []⟩ := by
    rw [process_stored, if_neg (by rw [hqos]; decide), if_neg (by rw [hqos]; decide), if_pos rfl,
      db_message_insert_in, if_pos hready, if_pos hqos]
    rfl
  have hqueued : (util_decrement_quota
      { msgs_in with inflight := msgs_in.inflight ++ [kept msg] }).queued = [] := by
    rw [(same_util_decrement_quota _).queued]
    exact h.queued
  rw [handle_publish_msg, htopic, if_neg Bool.false_ne_true, if_pos hpositive, hfind]
  simp only [Option.any_none, Bool.false_eq_true, if_false]
  rw [if_pos (Or.inr hready), hprocess, handle_publish_msg.finish]
  simp only [reduceCtorEq, if_false, write_queued_in_nil hqueued, List.append_nil]

/-- A message is taken for itself when it is sent again. -/
theorem same_message_self (msg : mosquitto_msg_store) : same_message msg msg = true := by
  simp [same_message]

/-- A PUBLISH that is sent again is answered with a PUBREC, and neither kept nor handed on a second
time. -/
theorem process_stored_again (hqos : stored.qos = 2) :
    process_stored protocol deliver stored 1 msgs_in =
      ⟨.MOSQ_ERR_SUCCESS, msgs_in, [.pubrec stored.source_mid 0], []⟩ := by
  rw [process_stored, if_neg (by rw [hqos]; decide), if_neg (by rw [hqos]; decide)]
  simp

/-- What is done with a message that is there already and comes again for the first time in this
connection: it is answered with a PUBREC, and only counted. Its topic is none below `$CONTROL/`. -/
theorem Incoming.publish_again (h : Incoming msgs_in) (hcmsg : cmsg ∈ msgs_in.inflight)
    (htopic : control_topic cmsg.store.topic = false) (hdup : cmsg.dup = 0) :
    handle_publish_msg protocol deliver cmsg.store msgs_in =
      ⟨.MOSQ_ERR_SUCCESS, { msgs_in with inflight := count_dup cmsg.mid msgs_in.inflight },
        [.pubrec cmsg.mid 0], []⟩ := by
  obtain ⟨hmid, hqos, -⟩ := h.stored cmsg hcmsg
  have hpositive : cmsg.store.qos > 0 := by
    rw [hqos]
    decide
  have hfind : db_message_store_find cmsg.store.source_mid msgs_in = some cmsg := by
    rw [h.store_find, ← hmid, find_mid h.mids hcmsg]
  have hcounted : count_dup_stored cmsg.store.source_mid msgs_in =
      { msgs_in with inflight := count_dup cmsg.mid msgs_in.inflight } := by
    have hany : (msgs_in.inflight.any fun other =>
        other.store.source_mid = cmsg.store.source_mid) = true :=
      List.any_eq_true.mpr ⟨cmsg, hcmsg, decide_eq_true rfl⟩
    rw [count_dup_stored, if_pos hany, hmid]
  have hone : cmsg.dup + 1 = 1 := by
    rw [hdup]
    rfl
  have hqueued : { msgs_in with inflight := count_dup cmsg.mid msgs_in.inflight }.queued = [] :=
    h.queued
  rw [handle_publish_msg, htopic, if_neg Bool.false_ne_true, if_pos hpositive, hfind]
  simp only [Option.any_some, same_message_self, Bool.not_true, Bool.and_false, Bool.false_eq_true,
    if_false]
  rw [hcounted, hone, process_stored_again hqos, ← hmid, handle_publish_msg.finish]
  simp only [reduceCtorEq, if_false, write_queued_in_nil hqueued, List.append_nil]

/-- The messages with an identifier are passed on, and the others stay. All of them have QoS 2, and
none is refused when it is passed on. -/
theorem release_inflight_eq (hqos : ∀ cmsg ∈ inflight, cmsg.store.qos = 2)
    (hdeliver : ∀ cmsg ∈ inflight, passed_on (deliver cmsg.store) = true) :
    release_inflight deliver mid inflight =
      (if (inflight.filter fun cmsg => cmsg.mid = mid) = [] then .MOSQ_ERR_NOT_FOUND
        else .MOSQ_ERR_SUCCESS,
        inflight.filter fun cmsg => !(cmsg.mid = mid),
        (inflight.filter fun cmsg => cmsg.mid = mid).map mosquitto_client_msg.store) := by
  induction inflight with
  | nil => rfl
  | cons tail inflight ih =>
    obtain ⟨htailQos, hqos⟩ := List.forall_mem_cons.mp hqos
    obtain ⟨htailDeliver, hdeliver⟩ := List.forall_mem_cons.mp hdeliver
    rw [release_inflight, ih hqos hdeliver]
    by_cases hmid : tail.mid = mid
    · rw [if_pos hmid, if_neg (not_not_intro htailQos), if_pos htailDeliver]
      by_cases hrest : (inflight.filter fun cmsg => cmsg.mid = mid) = []
      · simp [hmid, hrest]
      · simp [hmid, hrest]
    · rw [if_neg hmid]
      simp [hmid]

/-- Where identifiers are distinct, at most one message has a given one, and the search finds it.
-/
theorem filter_mid (hmids : (inflight.map mosquitto_client_msg.mid).Nodup) (mid : UInt16) :
    inflight.filter (fun cmsg => cmsg.mid = mid) =
      (inflight.find? fun cmsg => cmsg.mid = mid).toList := by
  induction inflight with
  | nil => rfl
  | cons tail inflight ih =>
    obtain ⟨hnotMem, hmids⟩ := List.nodup_cons.mp hmids
    by_cases hmid : tail.mid = mid
    · have hnone : inflight.filter (fun cmsg => cmsg.mid = mid) = [] := by
        apply List.filter_eq_nil_iff.mpr
        intro cmsg hcmsg heq
        apply hnotMem
        rw [hmid, ← of_decide_eq_true heq]
        exact List.mem_map_of_mem hcmsg
      rw [List.filter_cons_of_pos (by exact decide_eq_true hmid),
        List.find?_cons_of_pos (by exact decide_eq_true hmid), hnone]
      rfl
    · rw [List.filter_cons_of_neg (by simpa using hmid), List.find?_cons_of_neg (by simpa using hmid),
        ih hmids]

/-- What is done with a PUBREL: the message is passed on, if it is still there. -/
theorem Incoming.pubrel (h : Incoming msgs_in)
    (hdeliver : ∀ cmsg ∈ msgs_in.inflight, passed_on (deliver cmsg.store) = true) :
    handle_pubrel deliver mid msgs_in =
      ⟨.MOSQ_ERR_SUCCESS, util_increment_quota
        { msgs_in with inflight := msgs_in.inflight.filter fun cmsg => !(cmsg.mid = mid) },
        [.pubcomp mid], (held_of msgs_in mid).toList⟩ := by
  have hqos (cmsg : mosquitto_client_msg) (hcmsg : cmsg ∈ msgs_in.inflight) : cmsg.store.qos = 2 :=
    (h.stored cmsg hcmsg).2.1
  have hrouted : (msgs_in.inflight.filter fun cmsg => cmsg.mid = mid).map mosquitto_client_msg.store =
      (held_of msgs_in mid).toList := by
    rw [filter_mid h.mids, held_of, Option.toList_map]
  rw [handle_pubrel, db_message_release_incoming, release_inflight_eq hqos hdeliver, hrouted, h.queued]
  by_cases hnone : (msgs_in.inflight.filter fun cmsg => cmsg.mid = mid) = []
  · simp [hnone, release_queued]
  · simp [hnone, release_queued]

/-- After a new connection the same messages are there, and the quota is what is left. -/
theorem reset_inflight_eq (hqos : ∀ cmsg ∈ inflight, cmsg.qos = 2) :
    reset_inflight inflight msgs_in =
      { msgs_in with
        inflight := msgs_in.inflight ++ inflight.map fun cmsg => { cmsg with dup := 0 }
        inflight_quota := msgs_in.inflight_quota - inflight.length } := by
  induction inflight generalizing msgs_in with
  | nil => simp [reset_inflight]
  | cons cmsg inflight ih =>
    obtain ⟨hfirst, hqos⟩ := List.forall_mem_cons.mp hqos
    have hpositive : cmsg.qos > 0 := by
      rw [hfirst]
      decide
    rw [reset_inflight, if_pos hpositive, if_neg (not_not_intro hfirst), ih hqos, util_decrement_quota]
    split
    · simp [Nat.sub_sub, Nat.add_comm]
    · rename_i hquota
      have hzero : msgs_in.inflight_quota = 0 := by omega
      simp [hzero]

/-- At a reconnect the messages with QoS 2 stay as they are, in their order. Only their marks as
duplicates are gone, and the quota counts them. -/
theorem Incoming.reset (h : Incoming msgs_in) :
    db_message_reconnect_reset_incoming msgs_in =
      { inflight := msgs_in.inflight.map fun cmsg => { cmsg with dup := 0 }
        queued := []
        queued_count12 := 0
        inflight_quota := msgs_in.inflight_maximum - msgs_in.inflight.length
        inflight_maximum := msgs_in.inflight_maximum } := by
  have hqos (cmsg : mosquitto_client_msg) (hcmsg : cmsg ∈ msgs_in.inflight) : cmsg.qos = 2 :=
    (h.stored cmsg hcmsg).2.2
  rw [db_message_reconnect_reset_incoming, h.queued, reset_inflight_eq hqos]
  rfl

/-- What is asked of the incoming messages does not depend on the quota. -/
theorem incoming_congr {other : mosquitto_msg_data} (hsame : SameMessages other msgs_in)
    (h : Incoming msgs_in) : Incoming other where
  queued := hsame.queued.trans h.queued
  mids := hsame.inflight ▸ h.mids
  stored := hsame.inflight ▸ h.stored

/-- Nor does what is held. -/
theorem held_of_congr {other : mosquitto_msg_data} (hsame : SameMessages other msgs_in) :
    held_of other = held_of msgs_in := by
  funext mid
  rw [held_of, hsame.inflight]
  rfl

/-- A message with QoS 2 can be added if its identifier is free. It is held under it then, and what
is held under other identifiers stays. -/
theorem Incoming.insert (h : Incoming msgs_in) (hqos : msg.qos = 2)
    (hnew : held_of msgs_in msg.source_mid = none) :
    Incoming { msgs_in with inflight := msgs_in.inflight ++ [kept msg] } ∧
      held_of { msgs_in with inflight := msgs_in.inflight ++ [kept msg] } =
        Function.update (held_of msgs_in) msg.source_mid (some msg) := by
  have hfresh := held_of_eq_none_iff.mp hnew
  refine ⟨⟨h.queued, ?_, fun cmsg hcmsg => ?_⟩, funext fun mid => ?_⟩
  · rw [List.map_append, List.map_singleton]
    refine (List.perm_append_singleton _ _).nodup_iff.mpr (List.nodup_cons.mpr ⟨fun hmem => ?_, h.mids⟩)
    obtain ⟨cmsg, hcmsg, hmid⟩ := List.mem_map.mp hmem
    exact hfresh cmsg hcmsg hmid
  · obtain hold | hadded := List.mem_append.mp hcmsg
    · exact h.stored cmsg hold
    · obtain rfl := List.mem_singleton.mp hadded
      exact ⟨rfl, hqos, hqos⟩
  · rw [held_of, List.find?_append, List.find?_singleton]
    by_cases hmid : mid = msg.source_mid
    · subst hmid
      rw [Function.update_self, Option.map_eq_none_iff.mp hnew, Option.none_or]
      simp [kept]
    · have hother : decide ((kept msg).mid = mid) = false := decide_eq_false (Ne.symm hmid)
      rw [Function.update_of_ne hmid, hother]
      exact congrArg _ (Option.or_none ..)

/-- A message without the number of copies that have come. -/
def mosquitto_client_msg.plain (cmsg : mosquitto_client_msg) : mosquitto_client_msg :=
  { cmsg with dup := 0 }

/-- Counting a duplicate changes nothing of the messages but the count, and keeps their order. -/
theorem map_plain_count_dup (mid : UInt16) (inflight : List mosquitto_client_msg) :
    (count_dup mid inflight).map mosquitto_client_msg.plain =
      inflight.map mosquitto_client_msg.plain := by
  induction inflight with
  | nil => rfl
  | cons cmsg inflight ih =>
    rw [count_dup]
    split
    · rfl
    · rw [List.map_cons, List.map_cons, ih]

/-- Messages without a count of duplicates are so. -/
theorem map_plain_plain (inflight : List mosquitto_client_msg) :
    (inflight.map mosquitto_client_msg.plain).map mosquitto_client_msg.plain =
      inflight.map mosquitto_client_msg.plain := by
  rw [List.map_map]
  rfl

/-- How often a message came makes no difference to what is held, nor to what is asked of the
messages. -/
theorem Incoming.of_plain (h : Incoming msgs_in) {other : mosquitto_msg_data}
    (hqueued : other.queued = [])
    (hplain : other.inflight.map mosquitto_client_msg.plain =
      msgs_in.inflight.map mosquitto_client_msg.plain) :
    Incoming other ∧ held_of other = held_of msgs_in := by
  have hmids (inflight : List mosquitto_client_msg) : inflight.map mosquitto_client_msg.mid =
      (inflight.map mosquitto_client_msg.plain).map mosquitto_client_msg.mid := by
    rw [List.map_map]
    rfl
  have hfind (inflight : List mosquitto_client_msg) (mid : UInt16) :
      (inflight.find? fun cmsg => cmsg.mid = mid).map mosquitto_client_msg.store =
        ((inflight.map mosquitto_client_msg.plain).find? fun cmsg => cmsg.mid = mid).map
          mosquitto_client_msg.store := by
    rw [List.find?_map, Option.map_map]
    rfl
  refine ⟨⟨hqueued, ?_, fun cmsg hcmsg => ?_⟩, funext fun mid => ?_⟩
  · rw [hmids, hplain, ← hmids]
    exact h.mids
  · have hmem : cmsg.plain ∈ msgs_in.inflight.map mosquitto_client_msg.plain :=
      hplain ▸ List.mem_map_of_mem hcmsg
    obtain ⟨old, hold, heq⟩ := List.mem_map.mp hmem
    obtain ⟨hstore, hmid, hqos, -⟩ := mosquitto_client_msg.mk.inj heq
    rw [← hstore, ← hmid, ← hqos]
    exact h.stored old hold
  · rw [held_of, held_of, hfind, hplain, ← hfind]

/-- Taking away the message of an identifier leaves the others as they should be. -/
theorem Incoming.remove (h : Incoming msgs_in) (mid : UInt16) :
    Incoming { msgs_in with inflight := msgs_in.inflight.filter fun cmsg => !(cmsg.mid = mid) } ∧
      held_of { msgs_in with inflight := msgs_in.inflight.filter fun cmsg => !(cmsg.mid = mid) } =
        Function.update (held_of msgs_in) mid none := by
  refine ⟨⟨h.queued, ?_, fun cmsg hcmsg => h.stored cmsg (List.mem_of_mem_filter hcmsg)⟩,
    funext fun other => ?_⟩
  · exact h.mids.sublist (List.filter_sublist.map _)
  · by_cases hother : other = mid
    · subst hother
      rw [Function.update_self, held_of_eq_none_iff]
      intro cmsg hcmsg
      simpa using (List.mem_filter.mp hcmsg).2
    · rw [Function.update_of_ne hother, held_of, held_of, List.find?_filter]
      congr 1
      apply List.find?_congr
      intro cmsg _
      by_cases hmid : cmsg.mid = other
      · simp [hmid, hother]
      · simp [hmid]

end communication_center.mosquitto
