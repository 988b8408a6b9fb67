import CommunicationCenter.Handshake.Progress
import CommunicationCenter.Mosquitto.Incoming
import CommunicationCenter.Mosquitto.Subscribe

open libc handshake transition

namespace communication_center.mosquitto

/-- The result of passing a message on to its subscribers. -/
def sub_messages_queue_rc (db : mosquitto_subs) (stored : mosquitto_msg_store) : mosq_err_t :=
  match sub_topic_tokenise stored.topic with
  | .error _ => .MOSQ_ERR_NOMEM
  | .ok _ =>
    if (sub_messages_queue (routed_of stored) db).2.have_subscribers then .MOSQ_ERR_SUCCESS
    else .MOSQ_ERR_NO_SUBSCRIBERS

/-- A client that publishes with QoS 2, its messages at the broker, the packets of its
connection, and everything that the broker has done. -/
structure publisher where
  outbox : List (Pending UInt16 mosquitto_msg_store)
  to_broker : List (Packet UInt16 mosquitto_msg_store)
  to_client : List mosquitto_reply
  msgs_in : mosquitto_msg_data
  ops : List broker_op

inductive publisher_label where
  | send (mid : UInt16) (message : mosquitto_msg_store)
  | receive
  | reply
  | reconnect (now_real_s : Int)
  | other (op : broker_op)

/-- What a PUBREC or PUBCOMP says to the client. -/
def reply_of : mosquitto_reply → Option (Reply UInt16)
  | .pubrec mid reason_code => if reason_code < 0x80 then some (.received mid) else none
  | .pubcomp mid => some (.complete mid)
  | .puback _ _ => none

def handle_packet (protocol : mosquitto_protocol) (db : mosquitto_subs)
    (msgs_in : mosquitto_msg_data) : Packet UInt16 mosquitto_msg_store → handled
  | .publish _ message => handle_publish_msg protocol (sub_messages_queue_rc db) message msgs_in
  | .release mid => handle_pubrel (sub_messages_queue_rc db) mid msgs_in

/-- A message that the client may send with an identifier. The broker refuses the topics of
its own commands, and forgets a message that expires before it is released. -/
structure Sendable (client : Text) (mid : UInt16) (message : mosquitto_msg_store) : Prop where
  source_id : message.source_id = client
  source_mid : message.source_mid = mid
  nonzero : mid ≠ 0
  qos : message.qos = 2
  topic : can_publish message.topic = true
  no_control : control_topic message.topic = false
  lasting : message.message_expiry_time = 0

instance (client : Text) (mid : UInt16) (message : mosquitto_msg_store) :
    Decidable (Sendable client mid message) :=
  decidable_of_iff (message.source_id = client ∧ message.source_mid = mid ∧ mid ≠ 0 ∧
      message.qos = 2 ∧ can_publish message.topic = true ∧ control_topic message.topic = false ∧
      message.message_expiry_time = 0)
    ⟨fun ⟨source_id, source_mid, nonzero, qos, topic, no_control, lasting⟩ =>
        ⟨source_id, source_mid, nonzero, qos, topic, no_control, lasting⟩,
      fun h => ⟨h.source_id, h.source_mid, h.nonzero, h.qos, h.topic, h.no_control, h.lasting⟩⟩

/-- Whether an operation publishes a message of the client. -/
def publishes_for (client : Text) (op : broker_op) : Bool :=
  (published_of op).any fun stored => stored.source_id = client

/-- The client and the broker. The client has no more messages pending than may be in
flight, and the other clients do as they like. A packet that is not accepted closes the
connection. -/
def publisher_step (client : Text) (protocol : mosquitto_protocol) (s : publisher) :
    publisher_label → Option (publisher × List (Event mosquitto_msg_store))
  | .send mid message =>
    if mid ∉ s.outbox.map Pending.id ∧ Sendable client mid message ∧
        (s.msgs_in.inflight_maximum = 0 ∨ s.outbox.length < s.msgs_in.inflight_maximum) then
      some ({ s with
          outbox := s.outbox ++ [⟨mid, message, false⟩]
          to_broker := s.to_broker ++ [.publish mid message] }, [.sent message])
    else none
  | .receive => match s.to_broker with
    | [] => none
    | packet :: packets =>
      let result := handle_packet protocol (broker_run s.ops db_open).1.subs s.msgs_in packet
      let ops := s.ops ++ result.routed.map .publish
      if result.rc = .MOSQ_ERR_SUCCESS then
        some ({ s with
            to_broker := packets
            to_client := s.to_client ++ result.replies
            msgs_in := result.msgs_in
            ops := ops }, result.routed.map .delivered)
      else
        some ({ s with
            to_broker := []
            to_client := []
            msgs_in := result.msgs_in
            ops := ops }, result.routed.map .delivered)
  | .reply => match s.to_client with
    | [] => none
    | reply :: replies => match reply_of reply with
      | none => some ({ s with to_client := replies }, [])
      | some reply =>
        let result := answer s.outbox reply
        some ({ s with
            outbox := result.1
            to_broker := s.to_broker ++ result.2.1
            to_client := replies }, result.2.2)
  | .reconnect now_real_s => some ({ s with
      to_broker := s.outbox.map Pending.packet
      to_client := []
      msgs_in := db_expire_all_messages now_real_s (db_message_reconnect_reset_incoming s.msgs_in) }, [])
  | .other op =>
    if publishes_for client op then none else some ({ s with ops := s.ops ++ [op] }, [])

/-- A client that connects for the first time. -/
def publisher_start (inflight_maximum : Nat) : publisher where
  outbox := []
  to_broker := []
  to_client := []
  msgs_in :=
    { inflight := []
      queued := []
      queued_count12 := 0
      inflight_quota := inflight_maximum
      inflight_maximum := inflight_maximum }
  ops := []

/-- What the broker has published for the client. -/
def published_for (client : Text) (ops : List broker_op) : List mosquitto_msg_store :=
  (ops.filterMap published_of).filter fun stored => stored.source_id = client

/-- The client and the broker as the parties of a handshake. -/
def publisher.session (s : publisher) : Session UInt16 mosquitto_msg_store where
  outbox := s.outbox
  held := held_of s.msgs_in
  to_receiver := s.to_broker
  to_sender := s.to_client.filterMap reply_of

structure PublisherInv (client : Text) (s : publisher) : Prop where
  synced : Synced s.session
  incoming : Incoming s.msgs_in
  quota : s.msgs_in.inflight_maximum ≤ s.msgs_in.inflight_quota + s.msgs_in.inflight.length
  window : s.msgs_in.inflight_maximum = 0 ∨ s.outbox.length ≤ s.msgs_in.inflight_maximum
  sendable : ∀ pending ∈ s.outbox, Sendable client pending.id pending.message
  replies : ∀ reply ∈ s.to_client, (reply_of reply).isSome = true
  first : ∀ mid message, .publish mid message ∈ s.to_broker →
    ∀ cmsg ∈ s.msgs_in.inflight, cmsg.mid = mid → cmsg.dup = 0

variable {client : Text} {protocol : mosquitto_protocol} {s : publisher} {db : mosquitto_subs}
  {msgs_in : mosquitto_msg_data} {packet : Packet UInt16 mosquitto_msg_store}
  {packets : List (Packet UInt16 mosquitto_msg_store)} {message stored : mosquitto_msg_store}
  {mid : UInt16}

/-- A message that may be published is passed on. -/
theorem passed_on_rc (hpublish : can_publish stored.topic = true) :
    passed_on (sub_messages_queue_rc db stored) = true := by
  rw [sub_messages_queue_rc, (tokenise_of_can_publish hpublish).1]
  simp only
  split
  · rfl
  · rfl

/-- The broker does with a packet what the receiver of a handshake does. -/
structure Accepted (msgs_in : mosquitto_msg_data) (packet : Packet UInt16 mosquitto_msg_store)
    (result : handled) : Prop where
  rc : result.rc = .MOSQ_ERR_SUCCESS
  incoming : Incoming result.msgs_in
  held : held_of result.msgs_in = (handshake.receive (held_of msgs_in) packet).1
  replies : ∃ reply, result.replies = [reply] ∧
    reply_of reply = some (handshake.receive (held_of msgs_in) packet).2.1
  routed : result.routed.map .delivered = (handshake.receive (held_of msgs_in) packet).2.2
  inflight_maximum : result.msgs_in.inflight_maximum = msgs_in.inflight_maximum
  quota : result.msgs_in.inflight_maximum ≤
    result.msgs_in.inflight_quota + result.msgs_in.inflight.length
  others : ∀ cmsg ∈ result.msgs_in.inflight, cmsg ∈ msgs_in.inflight ∨ cmsg.mid = packet.id

/-- A new message is accepted as the receiver of a handshake does: it is held, and answered with a
PUBREC. The client is within its window, so that the quota is not used up. -/
theorem accepted_new (h : Incoming msgs_in) (hqos : message.qos = 2)
    (htopic : control_topic message.topic = false) (hmid : message.source_mid = mid)
    (hnew : held_of msgs_in mid = none)
    (hquota : msgs_in.inflight_maximum ≤ msgs_in.inflight_quota + msgs_in.inflight.length)
    (hwindow : msgs_in.inflight_maximum = 0 ∨ msgs_in.inflight.length < msgs_in.inflight_maximum) :
    Accepted msgs_in (.publish mid message) (handle_packet protocol db msgs_in (.publish mid message)) := by
  subst hmid
  have hready : db_ready_for_flight msgs_in = true := by
    obtain hzero | hless := hwindow
    · simp [db_ready_for_flight, hzero]
    · have hleft : msgs_in.inflight_quota > 0 := by omega
      simp [db_ready_for_flight, hleft]
  obtain ⟨hincoming, hheld⟩ := h.insert hqos hnew
  have hsame := same_util_decrement_quota { msgs_in with inflight := msgs_in.inflight ++ [kept message] }
  rw [handle_packet, h.publish_new hqos htopic hnew hready]
  refine ⟨rfl, incoming_congr hsame hincoming, (held_of_congr hsame).trans hheld, ⟨_, rfl, rfl⟩, rfl,
    hsame.inflight_maximum, ?_, fun cmsg hcmsg => ?_⟩
  · rw [hsame.inflight_maximum, inflight_quota_util_decrement_quota, hsame.inflight]
    simp only [List.length_append, List.length_singleton]
    omega
  · rw [hsame.inflight] at hcmsg
    obtain hold | hadded := List.mem_append.mp hcmsg
    · exact Or.inl hold
    · obtain rfl := List.mem_singleton.mp hadded
      exact Or.inr rfl

theorem mem_of_mem_count_dup {inflight : List mosquitto_client_msg} {cmsg : mosquitto_client_msg}
    (h : cmsg ∈ count_dup mid inflight) : cmsg ∈ inflight ∨ cmsg.store.source_mid = mid := by
  induction inflight with
  | nil => exact Or.inl h
  | cons first inflight ih =>
    rw [count_dup] at h
    split at h
    · rename_i hmid
      obtain rfl | hrest := List.mem_cons.mp h
      · exact Or.inr hmid
      · exact Or.inl (List.mem_cons_of_mem _ hrest)
    · obtain rfl | hrest := List.mem_cons.mp h
      · exact Or.inl List.mem_cons_self
      · exact (ih hrest).imp_left (List.mem_cons_of_mem _)

/-- A message that is held already is accepted again, and a PUBREC is sent for it again. It is not
held twice, and the quota is not counted down for it. -/
theorem accepted_again (h : Incoming msgs_in) (hheld : held_of msgs_in mid = some message)
    (htopic : control_topic message.topic = false)
    (hfirst : ∀ cmsg ∈ msgs_in.inflight, cmsg.mid = mid → cmsg.dup = 0)
    (hquota : msgs_in.inflight_maximum ≤ msgs_in.inflight_quota + msgs_in.inflight.length) :
    Accepted msgs_in (.publish mid message) (handle_packet protocol db msgs_in (.publish mid message)) := by
  obtain ⟨cmsg, hcmsg, rfl, rfl⟩ := h.held_of_eq_some_iff.mp hheld
  obtain ⟨hincoming, hsame⟩ := h.of_plain
    (show { msgs_in with inflight := count_dup cmsg.mid msgs_in.inflight }.queued = [] from h.queued)
    (map_plain_count_dup cmsg.mid msgs_in.inflight)
  have hlength : (count_dup cmsg.mid msgs_in.inflight).length = msgs_in.inflight.length := by
    simpa using congrArg List.length (map_plain_count_dup cmsg.mid msgs_in.inflight)
  rw [handle_packet, h.publish_again hcmsg htopic (hfirst cmsg hcmsg rfl)]
  refine ⟨rfl, hincoming, ?_, ⟨_, rfl, rfl⟩, rfl, rfl, ?_, fun other hother => ?_⟩
  · rw [hsame, handshake.receive, ← hheld, Function.update_eq_self]
  · rw [hlength]
    exact hquota
  · obtain hold | hmid := mem_of_mem_count_dup hother
    · exact Or.inl hold
    · exact Or.inr ((hincoming.stored other hother).1.trans hmid)

/-- A PUBREL is accepted, whether there is a message for it or not, and answered with a PUBCOMP. A
message that is there is handed on once and forgotten. -/
theorem accepted_release (h : Incoming msgs_in)
    (hpublish : ∀ cmsg ∈ msgs_in.inflight, can_publish cmsg.store.topic = true)
    (hquota : msgs_in.inflight_maximum ≤ msgs_in.inflight_quota + msgs_in.inflight.length) :
    Accepted msgs_in (.release mid) (handle_packet protocol db msgs_in (.release mid)) := by
  obtain ⟨hincoming, hheld⟩ := h.remove mid
  have hsame := same_util_increment_quota
    { msgs_in with inflight := msgs_in.inflight.filter fun cmsg => !(cmsg.mid = mid) }
  have hmore := inflight_quota_util_increment_quota
    { msgs_in with inflight := msgs_in.inflight.filter fun cmsg => !(cmsg.mid = mid) }
  have hdeliver (cmsg : mosquitto_client_msg) (hcmsg : cmsg ∈ msgs_in.inflight) :
      passed_on (sub_messages_queue_rc db cmsg.store) = true := passed_on_rc (hpublish cmsg hcmsg)
  rw [handle_packet, h.pubrel hdeliver]
  refine ⟨rfl, incoming_congr hsame hincoming, (held_of_congr hsame).trans hheld, ⟨_, rfl, rfl⟩, rfl,
    hsame.inflight_maximum, ?_, fun cmsg hcmsg => ?_⟩
  · have hlength : msgs_in.inflight.length ≤
        (msgs_in.inflight.filter fun cmsg => !(cmsg.mid = mid)).length + 1 := by
      have hsplit := List.length_eq_length_filter_add (l := msgs_in.inflight)
        fun cmsg => decide (cmsg.mid = mid)
      have hone : (msgs_in.inflight.filter fun cmsg => cmsg.mid = mid).length ≤ 1 := by
        rw [filter_mid h.mids]
        exact Option.length_toList_le
      omega
    rw [hsame.inflight_maximum, hsame.inflight]
    simp only at hmore hlength ⊢
    omega
  · rw [hsame.inflight] at hcmsg
    exact Or.inl (List.mem_of_mem_filter hcmsg)

/-- What the broker holds is pending. -/
theorem PublisherInv.pending_of_mem (h : PublisherInv client s) {cmsg : mosquitto_client_msg}
    (hcmsg : cmsg ∈ s.msgs_in.inflight) :
    ∃ pending ∈ s.outbox, pending.id = cmsg.mid ∧ pending.message = cmsg.store :=
  h.synced.held cmsg.mid cmsg.store (h.incoming.held_of_eq_some_iff.mpr ⟨cmsg, hcmsg, rfl, rfl⟩)

theorem PublisherInv.length_lt (h : PublisherInv client s) (hmid : mid ∈ s.outbox.map Pending.id)
    (hnew : held_of s.msgs_in mid = none) : s.msgs_in.inflight.length < s.outbox.length := by
  have hfresh := held_of_eq_none_iff.mp hnew
  have hnodup : (mid :: s.msgs_in.inflight.map mosquitto_client_msg.mid).Nodup := by
    refine List.nodup_cons.mpr ⟨fun hmem => ?_, h.incoming.mids⟩
    obtain ⟨cmsg, hcmsg, heq⟩ := List.mem_map.mp hmem
    exact hfresh cmsg hcmsg heq
  have hsubset : mid :: s.msgs_in.inflight.map mosquitto_client_msg.mid ⊆ s.outbox.map Pending.id := by
    refine List.cons_subset.mpr ⟨hmid, fun other hother => ?_⟩
    obtain ⟨cmsg, hcmsg, rfl⟩ := List.mem_map.mp hother
    obtain ⟨pending, hpending, hid, -⟩ := h.pending_of_mem hcmsg
    exact hid ▸ List.mem_map_of_mem hpending
  have hlength := (hnodup.subperm hsubset).length_le
  simp only [List.length_cons, List.length_map] at hlength
  omega

/-- The broker accepts every packet that the client sends, in every state that a run can reach: a
new message, one that is sent again, and a release. -/
theorem PublisherInv.accepted (h : PublisherInv client s) (hpacket : packet ∈ s.to_broker) :
    Accepted s.msgs_in packet (handle_packet protocol db s.msgs_in packet) := by
  cases packet with
  | release mid =>
    refine accepted_release h.incoming (fun cmsg hcmsg => ?_) h.quota
    obtain ⟨pending, hpending, -, hmessage⟩ := h.pending_of_mem hcmsg
    rw [← hmessage]
    exact (h.sendable pending hpending).topic
  | publish mid message =>
    obtain ⟨pending, hpending, heq⟩ := h.synced.packets _ hpacket
    rw [Pending.packet] at heq
    split at heq
    · cases heq
    · obtain ⟨rfl, rfl⟩ := Packet.publish.inj heq
      have hsendable := h.sendable pending hpending
      cases hheld : held_of s.msgs_in pending.id with
      | none =>
        have hless := h.length_lt (List.mem_map_of_mem hpending) hheld
        exact accepted_new h.incoming hsendable.qos hsendable.no_control hsendable.source_mid hheld h.quota
          (h.window.imp_right fun hle => hless.trans_le hle)
      | some message =>
        obtain rfl := h.synced.message_eq hpending hheld
        exact accepted_again h.incoming hheld hsendable.no_control (h.first _ _ hpacket) h.quota

/-- What the receiving of a packet keeps: both sides stay in step, and the broker's messages are as
they should be. Other operations may have come before it. -/
theorem PublisherInv.receive (h : PublisherInv client s) (hqueue : s.to_broker = packet :: packets)
    (ops : List broker_op) {result : handled} (hresult : Accepted s.msgs_in packet result) :
    PublisherInv client { s with
        to_broker := packets
        to_client := s.to_client ++ result.replies
        msgs_in := result.msgs_in
        ops := ops } ∧
      step s.session .receive = some (publisher.session { s with
        to_broker := packets
        to_client := s.to_client ++ result.replies
        msgs_in := result.msgs_in
        ops := ops }, result.routed.map .delivered) := by
  obtain ⟨reply, hreply, hanswer⟩ := hresult.replies
  have hsession : publisher.session { s with
      to_broker := packets
      to_client := s.to_client ++ result.replies
      msgs_in := result.msgs_in
      ops := ops } = { s.session with
        held := (handshake.receive s.session.held packet).1
        to_receiver := packets
        to_sender := s.session.to_sender ++ [(handshake.receive s.session.held packet).2.1] } := by
    rw [publisher.session, hresult.held, hreply, List.filterMap_append, List.filterMap_cons, hanswer]
    rfl
  have hnodup := h.synced.nodup_underway
  rw [Session.underway, show s.session.to_receiver = packet :: packets from hqueue, List.map_cons,
    List.cons_append] at hnodup
  refine ⟨⟨hsession ▸ h.synced.receive hqueue, hresult.incoming, hresult.quota, ?_, h.sendable, ?_, ?_⟩,
    ?_⟩
  · simp only [hresult.inflight_maximum]
    exact h.window
  · refine List.forall_mem_append.mpr ⟨h.replies, ?_⟩
    rw [hreply]
    exact List.forall_mem_singleton.mpr (by rw [hanswer]; rfl)
  · intro mid message hmem cmsg hcmsg hmid
    obtain hold | hown := hresult.others cmsg hcmsg
    · exact h.first mid message (hqueue ▸ List.mem_cons_of_mem _ hmem) cmsg hold hmid
    · have hin : packet.id ∈ packets.map Packet.id := by
        rw [← hown, hmid]
        exact List.mem_map_of_mem (f := Packet.id) hmem
      exact absurd (List.mem_append_left _ hin) (List.nodup_cons.mp hnodup).1
  · rw [hsession, hresult.routed, step, show s.session.to_receiver = packet :: packets from hqueue]
    rfl

end communication_center.mosquitto
