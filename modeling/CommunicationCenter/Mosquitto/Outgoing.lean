import CommunicationCenter.Mosquitto.Incoming

open libc

namespace communication_center.mosquitto

/-- What is sent to a subscriber about its messages. -/
inductive outgoing_packet where
  | publish (msg : mosquitto_client_msg)
  | pubrel (mid : UInt16)
  deriving DecidableEq

/-- The result of a function, the messages and what is sent. -/
structure written where
  rc : mosq_err_t
  msgs_out : mosquitto_msg_data
  packets : List outgoing_packet

/-- The identifier after a given one. There is no identifier 0. -/
def mid_generate (last_mid : UInt16) : UInt16 :=
  if last_mid + 1 = 0 then last_mid + 2 else last_mid + 1

/-- A message without QoS is always sent, and there is no limit where the maximum is 0. -/
def db_ready_for_flight_out (qos : UInt8) (msgs_out : mosquitto_msg_data) : Bool :=
  qos = 0 || db_ready_for_flight msgs_out

/-- What the sending of a message takes from the context of its client. -/
structure client_context where
  protocol : mosquitto_protocol
  maximum_packet_size : Nat

/-- For how many seconds a message is still of use. -/
def expiry_interval (now_real_s : Int) (stored : mosquitto_msg_store) : UInt32 :=
  if stored.message_expiry_time = 0 then 0
  else UInt32.ofNat (stored.message_expiry_time - now_real_s).toNat

def send_publish (client : client_context) (now_real_s : Int) (msg : mosquitto_client_msg) :
    Except mosq_err_t (List UInt8) :=
  send_real_publish client.protocol client.maximum_packet_size msg.mid msg.store.topic
    msg.store.payload msg.qos msg.retain (msg.dup ≠ 0) msg.properties msg.store.properties
    (expiry_interval now_real_s msg.store)

/-- The sending of one message, and what is left if it succeeds. A message that is too large
for the client is dropped, and the quota goes on counting it. -/
def write_publish (client : client_context) (now_real_s : Int) (msg : mosquitto_client_msg)
    (msgs_out sent : mosquitto_msg_data) : written :=
  match send_publish client now_real_s msg with
  | .ok _ => ⟨.MOSQ_ERR_SUCCESS, sent, [.publish msg]⟩
  | .error .MOSQ_ERR_OVERSIZE_PACKET => ⟨.MOSQ_ERR_SUCCESS, msgs_out, []⟩
  | .error rc => ⟨rc, in_flight msg msgs_out, []⟩

/-- One message, behind those in flight that have been seen to. -/
def db_message_write_inflight_out_single (client : client_context) (now_real_s : Int)
    (msg : mosquitto_client_msg) (msgs_out : mosquitto_msg_data) : written :=
  if message_expired now_real_s msg.store then
    ⟨.MOSQ_ERR_SUCCESS, if msg.qos > 0 then util_increment_quota msgs_out else msgs_out, []⟩
  else match msg.state with
    | .mosq_ms_publish_qos0 => write_publish client now_real_s msg msgs_out msgs_out
    | .mosq_ms_publish_qos1 => write_publish client now_real_s msg msgs_out
        (in_flight { msg with dup := 1, state := .mosq_ms_wait_for_puback } msgs_out)
    | .mosq_ms_publish_qos2 => write_publish client now_real_s msg msgs_out
        (in_flight { msg with dup := 1, state := .mosq_ms_wait_for_pubrec } msgs_out)
    | .mosq_ms_resend_pubrel =>
      ⟨.MOSQ_ERR_SUCCESS, in_flight { msg with state := .mosq_ms_wait_for_pubcomp } msgs_out,
        [.pubrel msg.mid]⟩
    | _ => ⟨.MOSQ_ERR_SUCCESS, in_flight msg msgs_out, []⟩

/-- The loop over messages in flight. An error leaves the rest of them as they are. -/
def write_inflight_out (client : client_context) (now_real_s : Int) :
    List mosquitto_client_msg → mosquitto_msg_data → written
  | [], msgs_out => ⟨.MOSQ_ERR_SUCCESS, msgs_out, []⟩
  | tail :: inflight, msgs_out =>
    let single := db_message_write_inflight_out_single client now_real_s tail msgs_out
    if single.rc ≠ .MOSQ_ERR_SUCCESS then
      { single with msgs_out := { single.msgs_out with inflight := single.msgs_out.inflight ++ inflight } }
    else
      let rest := write_inflight_out client now_real_s inflight single.msgs_out
      { rest with packets := single.packets ++ rest.packets }

def db_message_write_inflight_out_all (client : client_context) (now_real_s : Int)
    (msgs_out : mosquitto_msg_data) : written :=
  write_inflight_out client now_real_s msgs_out.inflight { msgs_out with inflight := [] }

def waits_for_publish (msg : mosquitto_client_msg) : Bool :=
  msg.state = .mosq_ms_publish_qos0 || msg.state = .mosq_ms_publish_qos1 ||
    msg.state = .mosq_ms_publish_qos2

/-- The messages behind the last one that does not wait to be published, or all of them if
that one is the first. -/
def db_message_write_inflight_out_latest (client : client_context) (now_real_s : Int)
    (msgs_out : mosquitto_msg_data) : written :=
  let older := msgs_out.inflight.rdropWhile waits_for_publish
  let before := if older.length ≤ 1 then [] else older
  write_inflight_out client now_real_s (msgs_out.inflight.drop before.length)
    { msgs_out with inflight := before }

/-- The loop over the queue as it was at the start. -/
def write_queued_out : List mosquitto_client_msg → mosquitto_msg_data → mosquitto_msg_data
  | [], msgs_out => msgs_out
  | tail :: queued, msgs_out =>
    if db_ready_for_flight_out tail.qos msgs_out then
      write_queued_out queued
        (db_message_dequeue_first (publish_msg_state tail.qos tail.state) msgs_out)
    else msgs_out

def db_message_write_queued_out (msgs_out : mosquitto_msg_data) : mosquitto_msg_data :=
  write_queued_out msgs_out.queued msgs_out

def to_queue (msg : mosquitto_client_msg) (msgs_out : mosquitto_msg_data) : mosquitto_msg_data :=
  { msgs_out with
    queued := msgs_out.queued ++ [msg]
    queued_count12 := if msg.qos ≠ 0 then msgs_out.queued_count12 + 1 else msgs_out.queued_count12 }

/-- A message for a subscriber that it was not sent to before. A client without a connection
gets no message with QoS 0. -/
def db_message_insert_out (client : client_context) (connected : Bool) (now_real_s : Int)
    (mid : UInt16) (qos : UInt8) (retain : Bool) (stored : mosquitto_msg_store)
    (properties : List mosquitto_property) (msgs_out : mosquitto_msg_data) :
    mosquitto_msg_data × List outgoing_packet :=
  let msg (state : mosquitto_msg_state) : mosquitto_client_msg :=
    ⟨stored, mid, qos, retain, state, 0, properties⟩
  if connected then
    if db_ready_for_flight_out qos msgs_out then
      let added := in_flight (msg (publish_msg_state qos .mosq_ms_invalid)) msgs_out
      update (if qos > 0 then util_decrement_quota added else added)
    else if qos ≠ 0 ∧ db_ready_for_queue true qos msgs_out = true then
      update (to_queue (msg .mosq_ms_queued) msgs_out)
    else (msgs_out, [])
  else if qos ≠ 0 ∧ db_ready_for_queue false qos msgs_out = true then
    (to_queue (msg .mosq_ms_queued) msgs_out, [])
  else (msgs_out, [])
where
  update (msgs_out : mosquitto_msg_data) : mosquitto_msg_data × List outgoing_packet :=
    let latest := db_message_write_inflight_out_latest client now_real_s msgs_out
    (if latest.rc = .MOSQ_ERR_SUCCESS then db_message_write_queued_out latest.msgs_out
      else latest.msgs_out, latest.packets)

def db_message_delete_outgoing (client : client_context) (now_real_s : Int)
    (mid : UInt16) (expect_state : mosquitto_msg_state) (qos : UInt8)
    (msgs_out : mosquitto_msg_data) : written :=
  match msgs_out.inflight.find? fun tail => tail.mid = mid with
  | none => write msgs_out
  | some tail =>
    if tail.qos ≠ qos then ⟨.MOSQ_ERR_PROTOCOL, msgs_out, []⟩
    else if qos = 2 ∧ tail.state ≠ expect_state then ⟨.MOSQ_ERR_PROTOCOL, msgs_out, []⟩
    else write { msgs_out with inflight := msgs_out.inflight.eraseP fun tail => tail.mid = mid }
where
  write (msgs_out : mosquitto_msg_data) : written :=
    db_message_write_inflight_out_latest client now_real_s
      (write_queued_out msgs_out.queued msgs_out)

/-- The first message in flight with an identifier gets a state. -/
def update_outgoing (mid : UInt16) (state : mosquitto_msg_state) :
    List mosquitto_client_msg → List mosquitto_client_msg
  | [] => []
  | tail :: inflight =>
    if tail.mid = mid then { tail with state := state } :: inflight
    else tail :: update_outgoing mid state inflight

def db_message_update_outgoing (mid : UInt16) (state : mosquitto_msg_state) (qos : UInt8)
    (msgs_out : mosquitto_msg_data) : mosq_err_t × mosquitto_msg_data :=
  match msgs_out.inflight.find? fun tail => tail.mid = mid with
  | none => (.MOSQ_ERR_NOT_FOUND, msgs_out)
  | some tail =>
    if tail.qos ≠ qos then (.MOSQ_ERR_PROTOCOL, msgs_out)
    else (.MOSQ_ERR_SUCCESS, { msgs_out with inflight := update_outgoing mid state msgs_out.inflight })

/-- A PUBREC is answered also when there is no message for it. -/
def handle_pubrec (client : client_context) (now_real_s : Int) (mid : UInt16)
    (reason_code : UInt8) (msgs_out : mosquitto_msg_data) : written :=
  if reason_code < 0x80 then
    let updated := db_message_update_outgoing mid .mosq_ms_wait_for_pubcomp 2 msgs_out
    if updated.1 ≠ .MOSQ_ERR_SUCCESS ∧ updated.1 ≠ .MOSQ_ERR_NOT_FOUND then ⟨updated.1, updated.2, []⟩
    else ⟨.MOSQ_ERR_SUCCESS, updated.2, [.pubrel mid]⟩
  else db_message_delete_outgoing client now_real_s mid .mosq_ms_wait_for_pubrec 2 msgs_out

/-- A PUBACK (with QoS 1) or a PUBCOMP (with QoS 2). The quota counts it whatever it is about. -/
def handle_pubackcomp (client : client_context) (now_real_s : Int) (qos : UInt8) (mid : UInt16)
    (msgs_out : mosquitto_msg_data) : written :=
  db_message_delete_outgoing client now_real_s mid .mosq_ms_wait_for_pubcomp qos
    (util_increment_quota msgs_out)

/-- The state in which a message goes into a new connection. -/
def resend_state (msg : mosquitto_client_msg) : mosquitto_msg_state :=
  if msg.qos = 2 ∧ msg.state = .mosq_ms_wait_for_pubcomp then .mosq_ms_resend_pubrel
  else publish_msg_state msg.qos msg.state

def reset_outgoing : List mosquitto_client_msg → mosquitto_msg_data → mosquitto_msg_data
  | [], msgs_out => msgs_out
  | msg :: inflight, msgs_out =>
    let decremented := if msg.qos > 0 then util_decrement_quota msgs_out else msgs_out
    reset_outgoing inflight (in_flight { msg with state := resend_state msg } decremented)

def db_message_reconnect_reset_outgoing (msgs_out : mosquitto_msg_data) : mosquitto_msg_data :=
  reset_queued msgs_out.queued (reset_outgoing msgs_out.inflight
    { inflight := []
      queued := msgs_out.queued
      queued_count12 := 0
      inflight_quota := msgs_out.inflight_maximum
      inflight_maximum := msgs_out.inflight_maximum })

/-- What a client with messages gets when it is back. -/
def connect_outgoing (client : client_context) (now_real_s : Int) (msgs_out : mosquitto_msg_data) :
    written :=
  db_message_write_inflight_out_all client now_real_s (db_message_write_queued_out
    (db_expire_all_messages now_real_s (db_message_reconnect_reset_outgoing msgs_out)))

/-- A message as it goes from the queue into flight. -/
def launched (msg : mosquitto_client_msg) : mosquitto_client_msg :=
  { msg with state := .mosq_ms_publish_qos2 }

/-- A message after it was written. -/
def written_msg (msg : mosquitto_client_msg) : mosquitto_client_msg :=
  match msg.state with
  | .mosq_ms_publish_qos1 => { msg with dup := 1, state := .mosq_ms_wait_for_puback }
  | .mosq_ms_publish_qos2 => { msg with dup := 1, state := .mosq_ms_wait_for_pubrec }
  | .mosq_ms_resend_pubrel => { msg with state := .mosq_ms_wait_for_pubcomp }
  | _ => msg

def written_packets (msg : mosquitto_client_msg) : List outgoing_packet :=
  match msg.state with
  | .mosq_ms_publish_qos0 | .mosq_ms_publish_qos1 | .mosq_ms_publish_qos2 => [.publish msg]
  | .mosq_ms_resend_pubrel => [.pubrel msg.mid]
  | _ => []

/-- The PUBLISH of a message with QoS 2 is not too large for the client, nor for a packet. -/
def Fits (client : client_context) (stored : mosquitto_msg_store)
    (properties : List mosquitto_property) : Prop :=
  let packetlen := 2 + stored.topic.length + stored.payload.length + 2 +
    (publish_properties client.protocol properties stored.properties 0).1
  packet_check_oversize client.maximum_packet_size packetlen = .MOSQ_ERR_SUCCESS ∧
    packet_varint_bytes packetlen ≠ 5

instance (client : client_context) (stored : mosquitto_msg_store)
    (properties : List mosquitto_property) : Decidable (Fits client stored properties) :=
  inferInstanceAs (Decidable (_ ∧ _))

/-- A message with QoS 2 that is kept for good and can be sent. -/
structure Delivery (client : client_context) (msg : mosquitto_client_msg) : Prop where
  qos : msg.qos = 2
  lasting : msg.store.message_expiry_time = 0
  fits : Fits client msg.store msg.properties

/-- A message that was written, and is not done with. -/
def Underway (msg : mosquitto_client_msg) : Prop :=
  msg.state = .mosq_ms_wait_for_pubrec ∨ msg.state = .mosq_ms_wait_for_pubcomp

/-- The quota allows as many messages as are not in flight. -/
def QuotaLeft (msgs_out : mosquitto_msg_data) : Prop :=
  msgs_out.inflight_maximum ≤ msgs_out.inflight_quota + msgs_out.inflight.length

/-- The first messages of the queue have gone into flight, as many as may. -/
structure Launched (before after : mosquitto_msg_data) (fresh : List mosquitto_client_msg) : Prop where
  queued : before.queued = fresh ++ after.queued
  inflight : after.inflight = before.inflight ++ fresh.map launched
  ready : after.queued = [] ∨ db_ready_for_flight after = false
  quota : QuotaLeft before → QuotaLeft after

/-- Messages have come, and as many as may have gone into flight and were written. -/
structure Advanced (before after : mosquitto_msg_data) (new fresh : List mosquitto_client_msg)
    (packets : List outgoing_packet) : Prop where
  queued : before.queued ++ new = fresh ++ after.queued
  inflight : after.inflight = before.inflight ++ (fresh.map launched).map written_msg
  packets : packets = fresh.map fun msg => .publish (launched msg)
  ready : after.queued = [] ∨ db_ready_for_flight after = false
  quota : QuotaLeft before → QuotaLeft after

variable {client : client_context} {now_real_s : Int} {msgs_out before mid_way after : mosquitto_msg_data}
  {msg : mosquitto_client_msg} {inflight older fresh later queued : List mosquitto_client_msg}
  {mid : UInt16}

/-- Whether a message can be sent depends neither on its state nor on how often it was. -/
theorem Delivery.send_publish (h : Delivery client msg) :
    ∃ packet, send_publish client now_real_s msg = .ok packet := by
  obtain ⟨hsize, hbytes⟩ := h.fits
  have hinterval : expiry_interval now_real_s msg.store = 0 := if_pos h.lasting
  have hlength : (if msg.qos > 0 then 2 else 0) = 2 := by
    rw [h.qos]
    rfl
  rw [mosquitto.send_publish, hinterval, send_real_publish]
  simp only [hlength]
  rw [if_neg (not_not_intro hsize), packet_alloc]
  simp only [varint_digits_length]
  rw [if_neg hbytes]
  exact ⟨_, rfl⟩

/-- So `write_publish` succeeds with a delivery: it writes the packet, and the message stays in
flight in its next state. -/
theorem Delivery.write_publish (h : Delivery client msg) (sent : mosquitto_msg_data) :
    write_publish client now_real_s msg msgs_out sent = ⟨.MOSQ_ERR_SUCCESS, sent, [.publish msg]⟩ := by
  obtain ⟨packet, hpacket⟩ : ∃ packet, mosquitto.send_publish client now_real_s msg = .ok packet :=
    h.send_publish
  rw [mosquitto.write_publish, hpacket]

/-- Writing one delivery never fails and drops nothing. Messages of QoS 0, which leave the list
when they are written, are not looked at. -/
theorem write_single_eq (hdelivery : Delivery client msg)
    (hstate : msg.state ≠ .mosq_ms_publish_qos0) :
    db_message_write_inflight_out_single client now_real_s msg msgs_out =
      ⟨.MOSQ_ERR_SUCCESS, in_flight (written_msg msg) msgs_out, written_packets msg⟩ := by
  rw [db_message_write_inflight_out_single, message_expired_of_lasting now_real_s hdelivery.lasting,
    written_msg, written_packets]
  cases hcase : msg.state with
  | mosq_ms_publish_qos0 => exact absurd hcase hstate
  | mosq_ms_publish_qos1 => exact hdelivery.write_publish _
  | mosq_ms_publish_qos2 => exact hdelivery.write_publish _
  | _ => rfl

/-- What is written of messages that can be sent: each changes its state, and leads to its packet
or to none. Those that were written before stay in front. -/
theorem write_inflight_out_eq (hdelivery : ∀ msg ∈ inflight, Delivery client msg)
    (hstate : ∀ msg ∈ inflight, msg.state ≠ .mosq_ms_publish_qos0) :
    write_inflight_out client now_real_s inflight msgs_out =
      ⟨.MOSQ_ERR_SUCCESS, { msgs_out with inflight := msgs_out.inflight ++ inflight.map written_msg },
        inflight.flatMap written_packets⟩ := by
  induction inflight generalizing msgs_out with
  | nil => simp [write_inflight_out]
  | cons msg inflight ih =>
    obtain ⟨hfirst, hrest⟩ := List.forall_mem_cons.mp hdelivery
    obtain ⟨hfirstState, hrestState⟩ := List.forall_mem_cons.mp hstate
    rw [write_inflight_out, write_single_eq hfirst hfirstState]
    simp only [ih hrest hrestState]
    simp [in_flight]

/-- A delivery is one in any state. -/
theorem Delivery.with_state (h : Delivery client msg) (state : mosquitto_msg_state) :
    Delivery client { msg with state := state } :=
  ⟨h.qos, h.lasting, h.fits⟩

/-- A message that waits for the client's answer is left alone when it is written. -/
theorem Underway.written_msg (h : Underway msg) : written_msg msg = msg := by
  rw [mosquitto.written_msg]
  obtain hstate | hstate := h
  · rw [hstate]
  · rw [hstate]

/-- And nothing is sent for it. -/
theorem Underway.written_packets (h : Underway msg) : written_packets msg = [] := by
  rw [mosquitto.written_packets]
  obtain hstate | hstate := h
  · rw [hstate]
  · rw [hstate]

/-- It does not wait to be published. -/
theorem Underway.not_publish (h : Underway msg) : waits_for_publish msg = false := by
  rw [waits_for_publish]
  obtain hstate | hstate := h
  · rw [hstate]
    rfl
  · rw [hstate]
    rfl

/-- Behind the messages that wait for an answer, the ones to be published are exactly the fresh
ones. -/
theorem rdropWhile_fresh (holder : ∀ msg ∈ older, Underway msg) :
    (older ++ fresh.map launched).rdropWhile waits_for_publish = older := by
  rw [List.rdropWhile, List.reverse_append, List.dropWhile_append_of_pos, List.dropWhile_eq_self_iff.mpr,
    List.reverse_reverse]
  · intro hlength hpublish
    have hmem := List.mem_reverse.mp (List.getElem_mem hlength)
    rw [(holder _ hmem).not_publish] at hpublish
    cases hpublish
  · intro msg hmsg
    obtain ⟨old, -, rfl⟩ := List.mem_map.mp (List.mem_reverse.mp hmsg)
    rfl

/-- Writing messages that all wait for an answer changes and sends nothing. This is so for those in
flight, whatever their stage. -/
theorem map_written_underway (holder : ∀ msg ∈ older, Underway msg) :
    older.map written_msg = older ∧ older.flatMap written_packets = [] := by
  constructor
  · calc
      older.map written_msg = older.map id :=
        List.map_congr_left fun msg hmsg => (holder msg hmsg).written_msg
      _ = older := List.map_id older
  · exact List.flatMap_eq_nil_iff.mpr fun msg hmsg => (holder msg hmsg).written_packets

/-- For fresh messages one PUBLISH each is sent. -/
theorem flatMap_launched (fresh : List mosquitto_client_msg) :
    (fresh.map launched).flatMap written_packets = fresh.map fun msg => .publish (launched msg) := by
  rw [List.flatMap_map]
  exact List.flatMap_pure_eq_map _ _

/-- Exactly the messages that are new are written, each once and in order. The older ones all wait
for an answer of the client, and none is too large for it or expires. -/
theorem write_latest_eq (hinflight : msgs_out.inflight = older ++ fresh.map launched)
    (holder : ∀ msg ∈ older, Underway msg)
    (hdelivery : ∀ msg ∈ older ++ fresh, Delivery client msg) :
    db_message_write_inflight_out_latest client now_real_s msgs_out =
      ⟨.MOSQ_ERR_SUCCESS, { msgs_out with inflight := older ++ (fresh.map launched).map written_msg },
        fresh.map fun msg => .publish (launched msg)⟩ := by
  have hpackets := flatMap_launched fresh
  obtain ⟨hsame, hsilent⟩ := map_written_underway holder
  have hfresh : ∀ msg ∈ fresh.map launched, Delivery client msg := by
    intro msg hmsg
    obtain ⟨old, hold, rfl⟩ := List.mem_map.mp hmsg
    exact (hdelivery old (List.mem_append_right _ hold)).with_state _
  have hfreshState : ∀ msg ∈ fresh.map launched, msg.state ≠ .mosq_ms_publish_qos0 := by
    intro msg hmsg
    obtain ⟨old, -, rfl⟩ := List.mem_map.mp hmsg
    exact fun heq => nomatch heq
  have holderState : ∀ msg ∈ older, msg.state ≠ .mosq_ms_publish_qos0 := by
    intro msg hmsg heq
    have hnot := (holder msg hmsg).not_publish
    rw [waits_for_publish, heq] at hnot
    cases hnot
  rw [db_message_write_inflight_out_latest, hinflight, rdropWhile_fresh holder]
  -- With at most one older message the search ends at the head of the list, and the older
  -- message is written too, which sends nothing.
  split
  · rw [List.length_nil, List.drop_zero, write_inflight_out_eq, List.map_append, List.flatMap_append,
      hsame, hsilent, hpackets]
    · rfl
    · refine List.forall_mem_append.mpr ⟨fun msg hmsg => ?_, hfresh⟩
      exact hdelivery msg (List.mem_append_left _ hmsg)
    · exact List.forall_mem_append.mpr ⟨holderState, hfreshState⟩
  · rw [List.drop_left, write_inflight_out_eq hfresh hfreshState, hpackets]

/-- The first message of the queue becomes the last one in flight, in its new state, and the quota
is one less. -/
theorem dequeue_first_eq (state : mosquitto_msg_state) (hqueued : msgs_out.queued = msg :: queued) :
    (db_message_dequeue_first state msgs_out).inflight =
        msgs_out.inflight ++ [{ msg with state := state }] ∧
      (db_message_dequeue_first state msgs_out).queued = queued := by
  rw [db_message_dequeue_first, hqueued]
  exact ⟨rfl, rfl⟩

/-- What the quota allows is still right when a message has gone from the queue into flight. -/
theorem quota_dequeue_first (state : mosquitto_msg_state) (hqueued : msgs_out.queued = msg :: queued)
    (h : QuotaLeft msgs_out) : QuotaLeft (db_message_dequeue_first state msgs_out) := by
  rw [QuotaLeft] at h ⊢
  rw [db_message_dequeue_first, hqueued]
  simp only [List.length_append, List.length_singleton]
  omega

/-- Where nothing waits, or nothing may go into flight, nothing has to be done. -/
theorem Launched.none (hready : before.queued = [] ∨ db_ready_for_flight before = false) :
    Launched before before [] where
  queued := rfl
  inflight := (List.append_nil _).symm
  ready := hready
  quota := id

/-- If the first message of the queue goes into flight and then others do, they have gone into
flight together. -/
theorem Launched.cons (hqueued : before.queued = msg :: queued) (hqos : msg.qos = 2)
    (h : Launched (db_message_dequeue_first (publish_msg_state msg.qos msg.state) before) after fresh) :
    Launched before after (msg :: fresh) := by
  obtain ⟨hinflight, hrest⟩ := dequeue_first_eq (publish_msg_state msg.qos msg.state) hqueued
  have hstate : publish_msg_state msg.qos msg.state = .mosq_ms_publish_qos2 := by
    rw [hqos]
    rfl
  refine ⟨?_, ?_, h.ready, fun hquota => h.quota (quota_dequeue_first _ hqueued hquota)⟩
  · rw [hqueued, ← hrest, h.queued, List.cons_append]
  · rw [h.inflight, hinflight, hstate, List.append_assoc]
    rfl

/-- Messages that went into flight in two goes are those of the first go and then those of the
second. -/
theorem Launched.trans (hfirst : Launched before mid_way fresh)
    (hsecond : Launched mid_way after later) : Launched before after (fresh ++ later) where
  queued := by rw [hfirst.queued, hsecond.queued, List.append_assoc]
  inflight := by rw [hsecond.inflight, hfirst.inflight, List.map_append, List.append_assoc]
  ready := hsecond.ready
  quota := hsecond.quota ∘ hfirst.quota

/-- What is in flight and in the queue can still be sent, since only the states of messages were
changed. -/
theorem Launched.delivery (h : Launched before after fresh)
    (hdelivery : ∀ msg ∈ before.inflight ++ before.queued, Delivery client msg) :
    ∀ msg ∈ after.inflight ++ after.queued, Delivery client msg := by
  rw [h.queued] at hdelivery
  rw [h.inflight]
  obtain ⟨hold, hwaiting⟩ := List.forall_mem_append.mp hdelivery
  obtain ⟨hfresh, hleft⟩ := List.forall_mem_append.mp hwaiting
  refine List.forall_mem_append.mpr ⟨List.forall_mem_append.mpr ⟨hold, fun msg hmsg => ?_⟩, hleft⟩
  obtain ⟨waiting, hmem, rfl⟩ := List.mem_map.mp hmsg
  exact (hfresh waiting hmem).with_state _

/-- The quota counts messages, whatever their states are. -/
theorem QuotaLeft.of_length (h : QuotaLeft msgs_out)
    (hlength : inflight.length = msgs_out.inflight.length) :
    QuotaLeft { msgs_out with inflight := inflight } := by
  rw [QuotaLeft] at h ⊢
  rw [hlength]
  exact h

/-- The loop of `db__message_write_queued_out` takes messages from the front of the queue, as many
as may go. All of them have QoS 2. -/
theorem launched_write_queued_out (hqos : ∀ msg ∈ queued, msg.qos = 2)
    (hqueued : msgs_out.queued = queued) :
    ∃ fresh, Launched msgs_out (write_queued_out queued msgs_out) fresh := by
  induction queued generalizing msgs_out with
  | nil => exact ⟨[], .none (Or.inl hqueued)⟩
  | cons tail queued ih =>
    obtain ⟨hfirst, hrest⟩ := List.forall_mem_cons.mp hqos
    rw [write_queued_out]
    split
    · obtain ⟨fresh, hfresh⟩ := ih hrest (dequeue_first_eq _ hqueued).2
      exact ⟨tail :: fresh, .cons hqueued hfirst hfresh⟩
    · rename_i hready
      rw [db_ready_for_flight_out, hfirst] at hready
      exact ⟨[], .none (Or.inr (by simpa using hready))⟩

/-- One round of the loop over the queue at a reconnect: the message is counted, and goes into
flight if it may. -/
theorem reset_queued_cons (hqos : msg.qos = 2) :
    reset_queued (msg :: queued) msgs_out =
      if db_ready_for_flight msgs_out then
        reset_queued queued (db_message_dequeue_first (publish_msg_state msg.qos msg.state)
          { msgs_out with queued_count12 := msgs_out.queued_count12 + 1 })
      else reset_queued queued { msgs_out with queued_count12 := msgs_out.queued_count12 + 1 } := by
  rw [reset_queued, hqos]
  rfl

/-- Where nothing more may go into flight the rest of the queue is only counted. -/
theorem reset_queued_not_ready (hqos : ∀ msg ∈ queued, msg.qos = 2)
    (hready : db_ready_for_flight msgs_out = false) :
    SameMessages (reset_queued queued msgs_out) msgs_out ∧
      (reset_queued queued msgs_out).inflight_quota = msgs_out.inflight_quota ∧
      db_ready_for_flight (reset_queued queued msgs_out) = false := by
  induction queued generalizing msgs_out with
  | nil => exact ⟨⟨rfl, rfl, rfl⟩, rfl, hready⟩
  | cons msg queued ih =>
    obtain ⟨hfirst, hrest⟩ := List.forall_mem_cons.mp hqos
    rw [reset_queued_cons hfirst, if_neg (by rw [hready]; exact Bool.false_ne_true)]
    have hcounted : db_ready_for_flight
        { msgs_out with queued_count12 := msgs_out.queued_count12 + 1 } = false := hready
    obtain ⟨hsame, hquota, hstill⟩ := ih hrest hcounted
    exact ⟨⟨hsame.inflight, hsame.queued, hsame.inflight_maximum⟩, hquota, hstill⟩

/-- The loop over the queue at a reconnect takes messages from its front too, although it does not
stop at the first one that may not go. -/
theorem launched_reset_queued (hqos : ∀ msg ∈ queued, msg.qos = 2)
    (hqueued : msgs_out.queued = queued) :
    ∃ fresh, Launched msgs_out (reset_queued queued msgs_out) fresh := by
  induction queued generalizing msgs_out with
  | nil => exact ⟨[], .none (Or.inl hqueued)⟩
  | cons tail queued ih =>
    obtain ⟨hfirst, hrest⟩ := List.forall_mem_cons.mp hqos
    rw [reset_queued_cons hfirst]
    split
    · have hcounted : { msgs_out with queued_count12 := msgs_out.queued_count12 + 1 }.queued =
          tail :: queued := hqueued
      have hdequeue := (dequeue_first_eq (publish_msg_state tail.qos tail.state) hcounted).2
      obtain ⟨fresh, hfresh⟩ := ih hrest hdequeue
      obtain ⟨hall, hinflight, hready, hquota⟩ := Launched.cons hcounted hfirst hfresh
      exact ⟨tail :: fresh, hall, hinflight, hready, hquota⟩
    · rename_i hready
      have hcounted : db_ready_for_flight
          { msgs_out with queued_count12 := msgs_out.queued_count12 + 1 } = false :=
        Bool.not_eq_true _ ▸ hready
      obtain ⟨hsame, hquota, hstill⟩ := reset_queued_not_ready hrest hcounted
      refine ⟨[], hsame.queued.symm, ?_, Or.inr hstill, fun hleft => ?_⟩
      · rw [hsame.inflight, List.map_nil, List.append_nil]
      · rwa [QuotaLeft, hsame.inflight_maximum, hquota, hsame.inflight]

/-- The loop over the messages in flight at a reconnect gives each its state for the new
connection, keeps their order, and leaves as much of the quota as they do not need. -/
theorem reset_outgoing_eq (hqos : ∀ msg ∈ inflight, msg.qos = 2) :
    (reset_outgoing inflight msgs_out).inflight =
        msgs_out.inflight ++ inflight.map (fun msg => { msg with state := resend_state msg }) ∧
      (reset_outgoing inflight msgs_out).queued = msgs_out.queued ∧
      (reset_outgoing inflight msgs_out).inflight_maximum = msgs_out.inflight_maximum ∧
      (reset_outgoing inflight msgs_out).inflight_quota = msgs_out.inflight_quota - inflight.length := by
  induction inflight generalizing msgs_out with
  | nil => exact ⟨(List.append_nil _).symm, rfl, rfl, rfl⟩
  | cons msg inflight ih =>
    obtain ⟨hfirst, hrest⟩ := List.forall_mem_cons.mp hqos
    have hpositive : msg.qos > 0 := by
      rw [hfirst]
      decide
    have hsame := same_util_decrement_quota msgs_out
    rw [reset_outgoing, if_pos hpositive]
    refine ⟨(ih hrest).1.trans ?_, (ih hrest).2.1.trans hsame.queued,
      (ih hrest).2.2.1.trans hsame.inflight_maximum, (ih hrest).2.2.2.trans ?_⟩
    · rw [in_flight, hsame.inflight, List.append_assoc]
      rfl
    · rw [in_flight, List.length_cons, inflight_quota_util_decrement_quota]
      omega

/-- For messages with QoS 2 the limits in both directions are the same. -/
theorem ready_for_flight_out (msgs_out : mosquitto_msg_data) :
    db_ready_for_flight_out 2 msgs_out = db_ready_for_flight msgs_out := by
  simp [db_ready_for_flight_out]

/-- Where nothing may go into flight, the loop over the queue changes nothing. -/
theorem write_queued_out_not_ready (hqos : ∀ msg ∈ queued, msg.qos = 2)
    (hready : db_ready_for_flight msgs_out = false) : write_queued_out queued msgs_out = msgs_out := by
  cases queued with
  | nil => rfl
  | cons tail queued =>
    rw [write_queued_out, hqos tail List.mem_cons_self, ready_for_flight_out, hready]
    rfl

/-- What has gone into flight is written, and what was in flight before is left alone. Nothing
fails, since every message fits. -/
theorem Launched.write (h : Launched before after fresh)
    (holder : ∀ msg ∈ before.inflight, Underway msg)
    (hdelivery : ∀ msg ∈ before.inflight ++ before.queued, Delivery client msg) :
    (db_message_write_inflight_out_latest client now_real_s after).rc = .MOSQ_ERR_SUCCESS ∧
      Advanced before (db_message_write_inflight_out_latest client now_real_s after).msgs_out [] fresh
        (db_message_write_inflight_out_latest client now_real_s after).packets := by
  rw [write_latest_eq h.inflight holder]
  · refine ⟨rfl, (List.append_nil _).trans h.queued, rfl, rfl, h.ready, fun hbefore => ?_⟩
    exact (h.quota hbefore).of_length (by rw [h.inflight]; simp)
  · intro msg hmsg
    apply hdelivery
    rw [h.queued]
    obtain hold | hnew := List.mem_append.mp hmsg
    · exact List.mem_append_left _ hold
    · exact List.mem_append_right _ (List.mem_append_left _ hnew)

/-- Where nothing waits to be written and nothing may go into flight, nothing changes. -/
theorem update_waiting (hready : db_ready_for_flight msgs_out = false)
    (holder : ∀ msg ∈ msgs_out.inflight, Underway msg)
    (hdelivery : ∀ msg ∈ msgs_out.inflight, Delivery client msg)
    (hqos : ∀ msg ∈ msgs_out.queued, msg.qos = 2) :
    db_message_insert_out.update client now_real_s msgs_out = (msgs_out, []) := by
  have hinflight : msgs_out.inflight =
      msgs_out.inflight ++ ([] : List mosquitto_client_msg).map launched := (List.append_nil _).symm
  have hlatest : db_message_write_inflight_out_latest client now_real_s msgs_out =
      ⟨.MOSQ_ERR_SUCCESS, msgs_out, []⟩ := by
    rw [write_latest_eq hinflight holder (by rwa [List.append_nil]), List.map_nil, List.map_nil,
      List.append_nil, List.map_nil]
  rw [db_message_insert_out.update, hlatest]
  simp only [if_true, db_message_write_queued_out, write_queued_out_not_ready hqos hready]

/-- A message for a client with a connection is taken or dropped as a whole. If it is taken it
waits in the queue, or goes into flight and is written at once; those in front of it stay as they
were. All messages have QoS 2, do not expire and are not too large for the client. -/
theorem insert_connected (now_real_s : Int) (mid : UInt16) (retain : Bool)
    {stored : mosquitto_msg_store} {properties : List mosquitto_property}
    (hready : msgs_out.queued = [] ∨ db_ready_for_flight msgs_out = false)
    (holder : ∀ msg ∈ msgs_out.inflight, Underway msg)
    (hplain : ∀ msg ∈ msgs_out.inflight ++ msgs_out.queued, Delivery client msg)
    (hstored : stored.message_expiry_time = 0) (hfits : Fits client stored properties) :
    ∃ new fresh,
      Advanced msgs_out
        (db_message_insert_out client true now_real_s mid 2 retain stored properties msgs_out).1 new fresh
        (db_message_insert_out client true now_real_s mid 2 retain stored properties msgs_out).2 ∧
      (new = [] ∨ ∃ state, new = [⟨stored, mid, 2, retain, state, 0, properties⟩]) := by
  obtain ⟨hinflight, hqueued⟩ := List.forall_mem_append.mp hplain
  have hqos : ∀ msg ∈ msgs_out.queued, msg.qos = 2 := fun msg hmsg => (hqueued msg hmsg).qos
  rw [db_message_insert_out, if_pos rfl, ready_for_flight_out]
  split
  · rename_i hflight
    -- If there were a queue, the message would have to wait behind it.
    have hempty : msgs_out.queued = [] := by
      obtain hempty | hnot := hready
      · exact hempty
      · rw [hnot] at hflight
        cases hflight
    let msg : mosquitto_client_msg := ⟨stored, mid, 2, retain, .mosq_ms_publish_qos2, 0, properties⟩
    have hmsg : Delivery client msg := ⟨rfl, hstored, hfits⟩
    have hsame := same_util_decrement_quota (in_flight msg msgs_out)
    have hlatest : db_message_write_inflight_out_latest client now_real_s
        (util_decrement_quota (in_flight msg msgs_out)) = _ := write_latest_eq
      (show (util_decrement_quota (in_flight msg msgs_out)).inflight =
        msgs_out.inflight ++ [msg].map launched from hsame.inflight) holder
      (List.forall_mem_append.mpr ⟨hinflight, List.forall_mem_singleton.mpr hmsg⟩)
    have hresult : db_message_insert_out.update client now_real_s
        (util_decrement_quota (in_flight msg msgs_out)) =
        ({ util_decrement_quota (in_flight msg msgs_out) with
            inflight := msgs_out.inflight ++ ([msg].map launched).map written_msg },
          [.publish (launched msg)]) := by
      rw [db_message_insert_out.update, hlatest]
      simp only [if_true, db_message_write_queued_out, hsame.queued.trans hempty]
      rfl
    refine ⟨[msg], [msg], ?_, Or.inr ⟨_, rfl⟩⟩
    refine hresult.symm ▸ ⟨?_, rfl, rfl, Or.inl (hsame.queued.trans hempty), fun hquota => ?_⟩
    · rw [hempty]
      exact congrArg (msg :: ·) (hsame.queued.trans hempty).symm
    · have hmaximum : (util_decrement_quota (in_flight msg msgs_out)).inflight_maximum =
          msgs_out.inflight_maximum := hsame.inflight_maximum
      have hless : (util_decrement_quota (in_flight msg msgs_out)).inflight_quota =
          msgs_out.inflight_quota - 1 := inflight_quota_util_decrement_quota _
      rw [QuotaLeft] at hquota ⊢
      simp only [hmaximum, hless, List.length_append, List.length_map, List.length_singleton]
      omega
  · rename_i hflight
    have hnot : db_ready_for_flight msgs_out = false := Bool.not_eq_true _ ▸ hflight
    split
    · let msg : mosquitto_client_msg := ⟨stored, mid, 2, retain, .mosq_ms_queued, 0, properties⟩
      have hresult : db_message_insert_out.update client now_real_s (to_queue msg msgs_out) =
          (to_queue msg msgs_out, []) :=
        update_waiting hnot holder hinflight
          (List.forall_mem_append.mpr ⟨hqos, List.forall_mem_singleton.mpr rfl⟩)
      refine ⟨[msg], [], ?_, Or.inr ⟨_, rfl⟩⟩
      exact hresult.symm ▸ ⟨rfl, (List.append_nil _).symm, rfl, Or.inr hnot, id⟩
    · exact ⟨[], [], ⟨List.append_nil _, (List.append_nil _).symm, rfl, hready, id⟩, Or.inl rfl⟩

/-- A message for a client without a connection is put into the queue, or dropped where the queue
is full. Nothing is written then. -/
theorem insert_disconnected (client : client_context) (now_real_s : Int) (mid : UInt16) (retain : Bool)
    (stored : mosquitto_msg_store) (properties : List mosquitto_property)
    (msgs_out : mosquitto_msg_data) {result : mosquitto_msg_data × List outgoing_packet}
    (hresult : db_message_insert_out client false now_real_s mid 2 retain stored properties msgs_out =
      result) :
    ∃ new, result.1.inflight = msgs_out.inflight ∧ result.1.queued = msgs_out.queued ++ new ∧
      result.2 = [] ∧ (QuotaLeft msgs_out → QuotaLeft result.1) ∧
      (new = [] ∨ ∃ state, new = [⟨stored, mid, 2, retain, state, 0, properties⟩]) := by
  rw [← hresult, db_message_insert_out, if_neg Bool.false_ne_true]
  split
  · exact ⟨_, rfl, rfl, rfl, id, Or.inr ⟨_, rfl⟩⟩
  · exact ⟨[], rfl, (List.append_nil _).symm, rfl, id, Or.inl rfl⟩

/-- A PUBREC for a message in flight, with a reason code that accepts it: the message waits for a
PUBCOMP from now on, and a PUBREL is written. Its stage before does not matter. -/
theorem pubrec_eq (hmids : (msgs_out.inflight.map mosquitto_client_msg.mid).Nodup)
    (hmsg : msg ∈ msgs_out.inflight) (hqos : msg.qos = 2) :
    handle_pubrec client now_real_s msg.mid 0 msgs_out =
      ⟨.MOSQ_ERR_SUCCESS, { msgs_out with
        inflight := update_outgoing msg.mid .mosq_ms_wait_for_pubcomp msgs_out.inflight },
        [.pubrel msg.mid]⟩ := by
  rw [handle_pubrec, if_pos (by decide), db_message_update_outgoing, find_mid hmids hmsg]
  simp [hqos]

/-- Once a message was taken away, others go into flight, as many as may, and are written. -/
theorem delete_write_advanced (holder : ∀ msg ∈ msgs_out.inflight, Underway msg)
    (hplain : ∀ msg ∈ msgs_out.inflight ++ msgs_out.queued, Delivery client msg) :
    (db_message_delete_outgoing.write client now_real_s msgs_out).rc = .MOSQ_ERR_SUCCESS ∧
      ∃ fresh, Advanced msgs_out
        (db_message_delete_outgoing.write client now_real_s msgs_out).msgs_out [] fresh
        (db_message_delete_outgoing.write client now_real_s msgs_out).packets := by
  have hqos : ∀ msg ∈ msgs_out.queued, msg.qos = 2 :=
    fun msg hmsg => (hplain msg (List.mem_append_right _ hmsg)).qos
  obtain ⟨fresh, hfresh⟩ := launched_write_queued_out hqos rfl
  obtain ⟨hrc, hadvanced⟩ := hfresh.write holder hplain
  exact ⟨hrc, fresh, hadvanced⟩

/-- A PUBCOMP for a message that was released takes the message away and gives its part of the
quota back, and messages of the queue follow, as many as may. It never fails here. -/
theorem pubcomp_advanced (hmids : (msgs_out.inflight.map mosquitto_client_msg.mid).Nodup)
    (hmsg : msg ∈ msgs_out.inflight) (hstate : msg.state = .mosq_ms_wait_for_pubcomp)
    (holder : ∀ msg ∈ msgs_out.inflight, Underway msg)
    (hplain : ∀ msg ∈ msgs_out.inflight ++ msgs_out.queued, Delivery client msg) :
    (handle_pubackcomp client now_real_s 2 msg.mid msgs_out).rc = .MOSQ_ERR_SUCCESS ∧
      ∃ fresh, Advanced
        { util_increment_quota msgs_out with
          inflight := msgs_out.inflight.eraseP fun tail => tail.mid = msg.mid }
        (handle_pubackcomp client now_real_s 2 msg.mid msgs_out).msgs_out [] fresh
        (handle_pubackcomp client now_real_s 2 msg.mid msgs_out).packets := by
  have hsame := same_util_increment_quota msgs_out
  have hqos := (hplain msg (List.mem_append_left _ hmsg)).qos
  have hdelete : handle_pubackcomp client now_real_s 2 msg.mid msgs_out =
      db_message_delete_outgoing.write client now_real_s { util_increment_quota msgs_out with
        inflight := msgs_out.inflight.eraseP fun tail => tail.mid = msg.mid } := by
    rw [handle_pubackcomp, db_message_delete_outgoing, hsame.inflight, find_mid hmids hmsg]
    simp [hqos, hstate]
  rw [hdelete]
  refine delete_write_advanced (fun tail htail => holder tail (List.mem_of_mem_eraseP htail))
    fun tail htail => ?_
  simp only [hsame.queued] at htail
  obtain hold | hwaiting := List.mem_append.mp htail
  · exact hplain tail (List.mem_append_left _ (List.mem_of_mem_eraseP hold))
  · exact hplain tail (List.mem_append_right _ hwaiting)

/-- The quota counts a message that is taken away: what it gives back makes up for the place in
flight. -/
theorem quota_erase (hmsg : msg ∈ msgs_out.inflight) (h : QuotaLeft msgs_out) :
    QuotaLeft { util_increment_quota msgs_out with
      inflight := msgs_out.inflight.eraseP fun tail => tail.mid = msg.mid } := by
  have hsame := same_util_increment_quota msgs_out
  have hmore := inflight_quota_util_increment_quota msgs_out
  have hlength := List.length_eraseP_of_mem (p := fun tail : mosquitto_client_msg =>
    decide (tail.mid = msg.mid)) hmsg (decide_eq_true rfl)
  rw [QuotaLeft] at h ⊢
  simp only [hsame.inflight_maximum, hlength]
  omega

/-- A message in the state for a new connection. -/
def resend (msg : mosquitto_client_msg) : mosquitto_client_msg := { msg with state := resend_state msg }

/-- No message with QoS 2 is resent in the state of QoS 0. -/
theorem resend_state_ne (hqos : msg.qos = 2) : resend_state msg ≠ .mosq_ms_publish_qos0 := by
  rw [resend_state, hqos]
  split
  · exact fun heq => nomatch heq
  · exact fun heq => nomatch heq

/-- The reset at a new connection puts what is in flight into the states in which it is written
again, and then takes messages from the queue, as many as may go. All of them have QoS 2. -/
theorem launched_reconnect_reset
    (hqos : ∀ msg ∈ msgs_out.inflight ++ msgs_out.queued, msg.qos = 2) :
    ∃ (start : mosquitto_msg_data) (fresh : List mosquitto_client_msg),
      start.inflight = msgs_out.inflight.map resend ∧ start.queued = msgs_out.queued ∧
      QuotaLeft start ∧ Launched start (db_message_reconnect_reset_outgoing msgs_out) fresh := by
  obtain ⟨hinflight, hqueued⟩ := List.forall_mem_append.mp hqos
  let empty : mosquitto_msg_data :=
    { inflight := []
      queued := msgs_out.queued
      queued_count12 := 0
      inflight_quota := msgs_out.inflight_maximum
      inflight_maximum := msgs_out.inflight_maximum }
  obtain ⟨hreset, hkept, hmaximum, hquota⟩ : (reset_outgoing msgs_out.inflight empty).inflight =
      empty.inflight ++ msgs_out.inflight.map resend ∧ _ := reset_outgoing_eq hinflight
  rw [List.nil_append] at hreset
  obtain ⟨fresh, hfresh⟩ := launched_reset_queued hqueued hkept
  refine ⟨reset_outgoing msgs_out.inflight empty, fresh, hreset, hkept, ?_, hfresh⟩
  rw [QuotaLeft, hmaximum, hquota, hreset, List.length_map]
  exact Nat.le_add_of_sub_le le_rfl

/-- A new connection. What is in flight is written again, each message in its own stage and in
order, and messages of the queue follow, as many as may. Nothing is lost and nothing is written
twice. The messages have QoS 2, do not expire and are not too large for the client. -/
theorem connect_advanced (now_real_s : Int)
    (hplain : ∀ msg ∈ msgs_out.inflight ++ msgs_out.queued, Delivery client msg) :
    (connect_outgoing client now_real_s msgs_out).rc = .MOSQ_ERR_SUCCESS ∧
    ∃ (before : mosquitto_msg_data) (fresh : List mosquitto_client_msg),
      before.inflight = (msgs_out.inflight.map resend).map written_msg ∧
      before.queued = msgs_out.queued ∧ QuotaLeft before ∧
      (connect_outgoing client now_real_s msgs_out).packets =
        (msgs_out.inflight.map resend).flatMap written_packets ++
          fresh.map (fun msg => .publish (launched msg)) ∧
      Advanced before (connect_outgoing client now_real_s msgs_out).msgs_out [] fresh
        (fresh.map fun msg => .publish (launched msg)) := by
  obtain ⟨start, fresh, hstart, hkept, hleft, hfresh⟩ :=
    launched_reconnect_reset fun msg hmsg => (hplain msg hmsg).qos
  have hdelivery : ∀ msg ∈ start.inflight ++ start.queued, Delivery client msg := by
    obtain ⟨hinflight, hqueued⟩ := List.forall_mem_append.mp hplain
    rw [hstart, hkept]
    refine List.forall_mem_append.mpr ⟨fun msg hmsg => ?_, hqueued⟩
    obtain ⟨old, hold, rfl⟩ := List.mem_map.mp hmsg
    exact (hinflight old hold).with_state _
  -- Nothing that is there after the reset can expire.
  have hreset := hfresh.delivery hdelivery
  have hlasting : db_expire_all_messages now_real_s (db_message_reconnect_reset_outgoing msgs_out) =
      db_message_reconnect_reset_outgoing msgs_out :=
    db_expire_all_messages_eq fun msg hmsg => (hreset msg hmsg).lasting
  obtain ⟨later, hlater⟩ := launched_write_queued_out
    (fun msg hmsg => (hreset msg (List.mem_append_right _ hmsg)).qos) rfl
  -- Nothing is left to do for the second loop over the queue, but it need not be known here.
  have hall := hfresh.trans hlater
  have hflight := hall.inflight
  rw [hstart] at hflight
  let sent := db_message_write_queued_out (db_message_reconnect_reset_outgoing msgs_out)
  have hwritten : connect_outgoing client now_real_s msgs_out =
      ⟨.MOSQ_ERR_SUCCESS, { sent with inflight := (msgs_out.inflight.map resend).map written_msg ++
          ((fresh ++ later).map launched).map written_msg },
        (msgs_out.inflight.map resend).flatMap written_packets ++
          ((fresh ++ later).map launched).flatMap written_packets⟩ := by
    rw [connect_outgoing, hlasting, db_message_write_inflight_out_all,
      db_message_write_queued_out, write_inflight_out_eq, List.nil_append, hflight, List.map_append,
      List.flatMap_append]
    · rfl
    · exact fun msg hmsg => hall.delivery hdelivery msg (List.mem_append_left _ hmsg)
    · rw [hflight]
      refine List.forall_mem_append.mpr ⟨fun msg hmsg => ?_, fun msg hmsg => ?_⟩
      · obtain ⟨old, hold, rfl⟩ := List.mem_map.mp hmsg
        exact resend_state_ne (hplain old (List.mem_append_left _ hold)).qos
      · obtain ⟨old, hold, rfl⟩ := List.mem_map.mp hmsg
        exact fun heq => nomatch heq
  rw [hwritten]
  refine ⟨rfl, { start with inflight := (msgs_out.inflight.map resend).map written_msg },
    fresh ++ later, rfl, hkept, ?_, ?_, ?_⟩
  · exact hleft.of_length (by rw [hstart, List.length_map])
  · rw [flatMap_launched]
  · refine ⟨(List.append_nil _).trans hall.queued, rfl, rfl, hall.ready, fun _ => ?_⟩
    have hsent : QuotaLeft sent := hall.quota hleft
    have hlength : sent.inflight.length = _ := congrArg List.length hflight
    exact hsent.of_length (by rw [hlength]; simp)

end communication_center.mosquitto
