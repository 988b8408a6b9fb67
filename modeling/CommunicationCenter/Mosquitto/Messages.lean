import CommunicationCenter.Mosquitto.Retain
import Mathlib.Data.List.Nodup

open libc

namespace communication_center.mosquitto

/-- Where a message is in its exchange with a client. -/
inductive mosquitto_msg_state where
  | mosq_ms_invalid
  | mosq_ms_publish_qos0
  | mosq_ms_publish_qos1
  | mosq_ms_wait_for_puback
  | mosq_ms_publish_qos2
  | mosq_ms_wait_for_pubrec
  | mosq_ms_resend_pubrel
  | mosq_ms_wait_for_pubrel
  | mosq_ms_resend_pubcomp
  | mosq_ms_wait_for_pubcomp
  | mosq_ms_send_pubrec
  | mosq_ms_queued
  deriving DecidableEq

/-- A message for a client or from it. The properties are those that the client's subscription
adds to the message's own. -/
structure mosquitto_client_msg where
  store : mosquitto_msg_store
  mid : UInt16
  qos : UInt8
  retain : Bool
  state : mosquitto_msg_state
  dup : UInt8
  properties : List mosquitto_property
  deriving DecidableEq

/-- The messages of one direction. The quota is how many more may be in flight. -/
structure mosquitto_msg_data where
  inflight : List mosquitto_client_msg
  queued : List mosquitto_client_msg
  queued_count12 : Int
  inflight_quota : Nat
  inflight_maximum : Nat

def max_queued_messages : Int := 1000

def util_increment_quota (data : mosquitto_msg_data) : mosquitto_msg_data :=
  if data.inflight_quota < data.inflight_maximum then
    { data with inflight_quota := data.inflight_quota + 1 }
  else data

def util_decrement_quota (data : mosquitto_msg_data) : mosquitto_msg_data :=
  if data.inflight_quota > 0 then { data with inflight_quota := data.inflight_quota - 1 } else data

/-- Whether a message with a QoS above 0 may be in flight. -/
def db_ready_for_flight (data : mosquitto_msg_data) : Bool :=
  data.inflight_maximum = 0 || data.inflight_quota > 0

/-- Nothing is in flight to clients that are not connected. -/
def db_ready_for_queue (connected : Bool) (qos : UInt8) (data : mosquitto_msg_data) : Bool :=
  qos ≠ 0 && data.queued_count12 - (if connected then data.inflight_maximum else 0 : Int) <
    max_queued_messages

/-- The first message of the queue goes into flight, in a given state. -/
def db_message_dequeue_first (state : mosquitto_msg_state) (data : mosquitto_msg_data) :
    mosquitto_msg_data :=
  match data.queued with
  | [] => data
  | msg :: queued =>
    { data with
      inflight := data.inflight ++ [{ msg with state := state }]
      queued := queued
      queued_count12 := if msg.qos ≠ 0 then data.queued_count12 - 1 else data.queued_count12
      inflight_quota := data.inflight_quota - 1 }

def message_expired (now_real_s : Int) (stored : mosquitto_msg_store) : Bool :=
  stored.message_expiry_time ≠ 0 && now_real_s > stored.message_expiry_time

def in_flight (msg : mosquitto_client_msg) (data : mosquitto_msg_data) : mosquitto_msg_data :=
  { data with inflight := data.inflight ++ [msg] }

/-- The loop over the messages in flight. The quota counts those that are taken away. -/
def expire_inflight (now_real_s : Int) :
    List mosquitto_client_msg → mosquitto_msg_data → mosquitto_msg_data
  | [], data => data
  | msg :: inflight, data =>
    if message_expired now_real_s msg.store then
      expire_inflight now_real_s inflight (if msg.qos > 0 then util_increment_quota data else data)
    else expire_inflight now_real_s inflight (in_flight msg data)

/-- The messages of one direction that have expired when the client connects again are
forgotten. The count of the queue stays as it is. -/
def db_expire_all_messages (now_real_s : Int) (data : mosquitto_msg_data) : mosquitto_msg_data :=
  let left := expire_inflight now_real_s data.inflight { data with inflight := [] }
  { left with queued := left.queued.filter fun msg => !message_expired now_real_s msg.store }

/-- A message that is to be published with this QoS. -/
def publish_msg_state (qos : UInt8) (state : mosquitto_msg_state) : mosquitto_msg_state :=
  if qos = 0 then .mosq_ms_publish_qos0
  else if qos = 1 then .mosq_ms_publish_qos1
  else if qos = 2 then .mosq_ms_publish_qos2
  else state

/-- The same messages, whatever the quotas are. -/
structure SameMessages (first second : mosquitto_msg_data) : Prop where
  inflight : first.inflight = second.inflight
  queued : first.queued = second.queued
  inflight_maximum : first.inflight_maximum = second.inflight_maximum

/-- A message without an expiry never expires. -/
theorem message_expired_of_lasting {stored : mosquitto_msg_store} (now_real_s : Int)
    (h : stored.message_expiry_time = 0) : message_expired now_real_s stored = false := by
  simp [message_expired, h]

/-- Where nothing expires, the loop over the messages in flight leaves them all, in their order. -/
theorem expire_inflight_eq {now_real_s : Int} {inflight : List mosquitto_client_msg}
    (data : mosquitto_msg_data) (h : ∀ msg ∈ inflight, msg.store.message_expiry_time = 0) :
    expire_inflight now_real_s inflight data = { data with inflight := data.inflight ++ inflight } := by
  induction inflight generalizing data with
  | nil =>
    rw [List.append_nil]
    rfl
  | cons msg inflight ih =>
    obtain ⟨hfirst, hrest⟩ := List.forall_mem_cons.mp h
    rw [expire_inflight, message_expired_of_lasting now_real_s hfirst, if_neg Bool.false_ne_true,
      ih _ hrest, in_flight]
    simp only [List.append_assoc, List.singleton_append]

/-- Messages without an expiry time are all kept, in flight and in the queue, at any time of the
clock. -/
theorem db_expire_all_messages_eq {now_real_s : Int} {data : mosquitto_msg_data}
    (h : ∀ msg ∈ data.inflight ++ data.queued, msg.store.message_expiry_time = 0) :
    db_expire_all_messages now_real_s data = data := by
  obtain ⟨hinflight, hqueued⟩ := List.forall_mem_append.mp h
  have hkept : data.queued.filter (fun msg => !message_expired now_real_s msg.store) = data.queued := by
    refine List.filter_eq_self.mpr fun msg hmsg => ?_
    rw [message_expired_of_lasting now_real_s (hqueued msg hmsg), Bool.not_false]
  rw [db_expire_all_messages, expire_inflight_eq _ hinflight]
  simp only [List.nil_append, hkept]

/-- A message in flight is found by its identifier, where no two messages have the same. -/
theorem find_mid {inflight : List mosquitto_client_msg} {msg : mosquitto_client_msg}
    (hmids : (inflight.map mosquitto_client_msg.mid).Nodup) (hmsg : msg ∈ inflight) :
    inflight.find? (fun tail => tail.mid = msg.mid) = some msg := by
  cases hfind : inflight.find? fun tail => tail.mid = msg.mid with
  | none => exact absurd (decide_eq_true rfl) (List.find?_eq_none.mp hfind msg hmsg)
  | some tail =>
    have hsame := List.find?_some hfind
    have hmid : tail.mid = msg.mid := of_decide_eq_true hsame
    rw [List.inj_on_of_nodup_map hmids (List.mem_of_find?_eq_some hfind) hmsg hmid]

/-- The quota is all that is changed by taking from it. -/
theorem same_util_decrement_quota (data : mosquitto_msg_data) :
    SameMessages (util_decrement_quota data) data := by
  rw [util_decrement_quota]
  split
  · exact ⟨rfl, rfl, rfl⟩
  · exact ⟨rfl, rfl, rfl⟩

/-- Or by giving back to it. -/
theorem same_util_increment_quota (data : mosquitto_msg_data) :
    SameMessages (util_increment_quota data) data := by
  rw [util_increment_quota]
  split
  · exact ⟨rfl, rfl, rfl⟩
  · exact ⟨rfl, rfl, rfl⟩

/-- Taking from the quota takes one, if there is any. -/
theorem inflight_quota_util_decrement_quota (data : mosquitto_msg_data) :
    (util_decrement_quota data).inflight_quota = data.inflight_quota - 1 := by
  rw [util_decrement_quota]
  split
  · rfl
  · omega

/-- Giving back to it gives one, up to the maximum. -/
theorem inflight_quota_util_increment_quota (data : mosquitto_msg_data) :
    min data.inflight_maximum (data.inflight_quota + 1) ≤ (util_increment_quota data).inflight_quota := by
  rw [util_increment_quota]
  split
  · exact min_le_right _ _
  · omega

end communication_center.mosquitto
