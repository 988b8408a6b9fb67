import CommunicationCenter.Handshake.Progress
import CommunicationCenter.Mosquitto.Outgoing

open libc handshake transition

namespace communication_center.mosquitto

/-- A client that is sent messages with QoS 2, its messages at the broker and the packets
of its connection. The messages that the broker has taken are those it has not dropped. -/
structure recipient where
  connected : Bool
  last_mid : UInt16
  msgs_out : mosquitto_msg_data
  to_client : List outgoing_packet
  to_broker : List (Reply UInt16)
  received : UInt16 → Option mosquitto_msg_store
  taken : List mosquitto_msg_store

inductive recipient_label where
  | insert (now_real_s : Int) (stored : mosquitto_msg_store) (retain : Bool)
    (properties : List mosquitto_property)
  | receive
  | reply (now_real_s : Int)
  | disconnect
  | reconnect (now_real_s : Int)

/-- What a packet says to the client. -/
def packet_of : outgoing_packet → Packet UInt16 mosquitto_msg_store
  | .publish msg => .publish msg.mid msg.store
  | .pubrel mid => .release mid

/-- A PUBREC or a PUBCOMP of the client. -/
def handle_reply (client : client_context) (now_real_s : Int) (msgs_out : mosquitto_msg_data) :
    Reply UInt16 → written
  | .received mid => handle_pubrec client now_real_s mid 0 msgs_out
  | .complete mid => handle_pubackcomp client now_real_s 2 mid msgs_out

def mosquitto_msg_data.messages (msgs_out : mosquitto_msg_data) : List mosquitto_client_msg :=
  msgs_out.inflight ++ msgs_out.queued

/-- The broker and the client. A message comes with the next identifier, as long as none
with this identifier is left, if it does not expire and is not too large for the client. A
reply that is not accepted closes the connection. -/
def recipient_step (client : client_context) (s : recipient) :
    recipient_label → Option (recipient × List mosquitto_msg_store)
  | .insert now_real_s stored retain properties =>
    let mid := mid_generate s.last_mid
    let result := db_message_insert_out client s.connected now_real_s mid 2 retain stored properties
      s.msgs_out
    if mid ∉ s.msgs_out.messages.map mosquitto_client_msg.mid ∧ stored.message_expiry_time = 0 ∧
        Fits client stored properties then
      some ({ s with
          last_mid := mid
          msgs_out := result.1
          to_client := s.to_client ++ result.2
          taken := if s.msgs_out.messages.length < result.1.messages.length then s.taken ++ [stored]
            else s.taken }, [])
    else none
  | .receive => match s.to_client with
    | [] => none
    | packet :: packets =>
      let result := handshake.receive s.received (packet_of packet)
      some ({ s with
          received := result.1
          to_client := packets
          to_broker := s.to_broker ++ [result.2.1] }, delivered result.2.2)
  | .reply now_real_s => match s.to_broker with
    | [] => none
    | reply :: replies =>
      let result := handle_reply client now_real_s s.msgs_out reply
      if result.rc = .MOSQ_ERR_SUCCESS then
        some ({ s with
            msgs_out := result.msgs_out
            to_client := s.to_client ++ result.packets
            to_broker := replies }, [])
      else
        some ({ s with
            connected := false
            msgs_out := result.msgs_out
            to_client := []
            to_broker := [] }, [])
  | .disconnect => some ({ s with
      connected := false
      to_client := []
      to_broker := [] }, [])
  | .reconnect now_real_s =>
    let result := connect_outgoing client now_real_s s.msgs_out
    if result.rc = .MOSQ_ERR_SUCCESS then
      some ({ s with
          connected := true
          msgs_out := result.msgs_out
          to_client := result.packets
          to_broker := [] }, [])
    else
      some ({ s with
          connected := false
          msgs_out := result.msgs_out
          to_client := []
          to_broker := [] }, [])

/-- A client that has connected for the first time. -/
def recipient_start (inflight_maximum : Nat) : recipient where
  connected := true
  last_mid := 0
  msgs_out :=
    { inflight := []
      queued := []
      queued_count12 := 0
      inflight_quota := inflight_maximum
      inflight_maximum := inflight_maximum }
  to_client := []
  to_broker := []
  received := fun _ => none
  taken := []

/-- The client has said that it has a message for which a PUBCOMP is waited. -/
def pending_of (msg : mosquitto_client_msg) : Pending UInt16 mosquitto_msg_store where
  id := msg.mid
  message := msg.store
  released := msg.state = .mosq_ms_wait_for_pubcomp

/-- The broker and the client as the parties of a handshake. While there is no connection,
the packets of the next one are under way. -/
def recipient.session (s : recipient) : Session UInt16 mosquitto_msg_store where
  outbox := s.msgs_out.inflight.map pending_of
  held := s.received
  to_receiver := if s.connected then s.to_client.map packet_of
    else (s.msgs_out.inflight.map pending_of).map Pending.packet
  to_sender := s.to_broker

/-- Packets that arrive. -/
def recipient_label.Arrival : recipient_label → Prop
  | .receive | .reply _ => True
  | .insert _ _ _ _ | .disconnect | .reconnect _ => False

/-- How many packets there are at most until nothing is left. -/
def recipient.remaining (s : recipient) : Nat :=
  (s.to_client.map fun packet => (packet_of packet).remaining).sum +
    (s.to_broker.map Reply.remaining).sum + 5 * s.msgs_out.queued.length

structure RecipientInv (client : client_context) (s : recipient) : Prop where
  underway : ∀ msg ∈ s.msgs_out.inflight, Underway msg
  plain : ∀ msg ∈ s.msgs_out.messages, Delivery client msg
  mids : (s.msgs_out.messages.map mosquitto_client_msg.mid).Nodup
  ready : s.connected = true → s.msgs_out.queued = [] ∨ db_ready_for_flight s.msgs_out = false
  links : s.connected = false → s.to_client = [] ∧ s.to_broker = []
  quota : QuotaLeft s.msgs_out

/-- What has become of the messages for a client that has received some of them. -/
structure Receiving (client : client_context) (s : recipient) (got : List mosquitto_msg_store) :
    Prop where
  inv : RecipientInv client s
  synced : Synced s.session
  log : ∃ log, Accounted s.session log ∧ delivered log = got ∧
    s.taken = sent log ++ s.msgs_out.queued.map mosquitto_client_msg.store

variable {client : client_context} {s next : recipient} {got emitted : List mosquitto_msg_store} {label : recipient_label}
  {msg : mosquitto_client_msg} {before after : mosquitto_msg_data}
  {new fresh inflight : List mosquitto_client_msg} {packets : List outgoing_packet} {now_real_s : Int}
  {session : Session UInt16 mosquitto_msg_store} {mid : UInt16}

/-- A step of the code is a step of the handshake, or several. The books are kept if what was taken
from the queue was sent. -/
theorem Receiving.run (h : Receiving client s got) (hinv : RecipientInv client next)
    {labels : List (Label UInt16 mosquitto_msg_store)} {log : List (Event mosquitto_msg_store)}
    (hrun : Run step s.session labels next.session log)
    (htaken : ∃ new, next.taken = s.taken ++ new ∧
      s.msgs_out.queued.map mosquitto_client_msg.store ++ new =
        sent log ++ next.msgs_out.queued.map mosquitto_client_msg.store) :
    Receiving client next (got ++ delivered log) := by
  obtain ⟨past, haccounted, rfl, hpast⟩ := h.log
  obtain ⟨hsynced, hnext⟩ := h.synced.run haccounted hrun
  obtain ⟨new, hnew, hqueue⟩ := htaken
  refine ⟨hinv, hsynced, past ++ log, hnext, delivered_append past log, ?_⟩
  rw [hnew, hpast, List.append_assoc, hqueue, sent_append, List.append_assoc]

/-- A step of the handshake in which nothing is sent: neither the messages that were taken nor the
queue may change. -/
theorem Receiving.step (h : Receiving client s got) (label : Label UInt16 mosquitto_msg_store)
    (hinv : RecipientInv client next) {log : List (Event mosquitto_msg_store)}
    (hstep : handshake.step s.session label = some (next.session, log)) (hsent : sent log = [])
    (htaken : next.taken = s.taken) (hqueued : next.msgs_out.queued = s.msgs_out.queued) :
    Receiving client next (got ++ delivered log) := by
  have hrun : Run handshake.step s.session [label] next.session log := Run.snoc .nil hstep
  refine h.run hinv hrun ⟨[], htaken.trans (List.append_nil _).symm, ?_⟩
  rw [hsent, hqueued]
  exact List.append_nil _

/-- A message that has just gone into flight and was written waits for the PUBREC. -/
theorem underway_sent_out (msg : mosquitto_client_msg) : Underway (written_msg (launched msg)) :=
  Or.inl rfl

/-- The messages stay the same, in order, when some go into flight and are written, for everything
that does not depend on their states. -/
theorem Advanced.map_messages {T : Type} (h : Advanced before after new fresh packets)
    (f : mosquitto_client_msg → T) (hf : ∀ msg, f (written_msg (launched msg)) = f msg) :
    after.messages.map f = before.messages.map f ++ new.map f := by
  have hfresh : ((fresh.map launched).map written_msg).map f = fresh.map f := by
    rw [List.map_map, List.map_map]
    exact List.map_congr_left fun msg _ => hf msg
  rw [mosquitto_msg_data.messages, mosquitto_msg_data.messages, h.inflight, List.map_append,
    List.map_append, List.map_append, hfresh, List.append_assoc, ← List.map_append, ← h.queued,
    List.map_append, List.append_assoc]

/-- All messages in flight wait for an answer if all did before. -/
theorem Advanced.underway (h : Advanced before after new fresh packets)
    (hbefore : ∀ msg ∈ before.inflight, Underway msg) : ∀ msg ∈ after.inflight, Underway msg := by
  rw [h.inflight]
  refine List.forall_mem_append.mpr ⟨hbefore, fun msg hmsg => ?_⟩
  obtain ⟨waiting, hwaiting, rfl⟩ := List.mem_map.mp hmsg
  obtain ⟨old, -, rfl⟩ := List.mem_map.mp hwaiting
  exact underway_sent_out old

/-- All messages are deliveries if those that were there and those that came are. -/
theorem Advanced.plain (h : Advanced before after new fresh packets)
    (hbefore : ∀ msg ∈ before.messages, Delivery client msg) (hnew : ∀ msg ∈ new, Delivery client msg) :
    ∀ msg ∈ after.messages, Delivery client msg := by
  intro msg hmsg
  have hmem := List.mem_map_of_mem (f := fun msg : mosquitto_client_msg =>
    (msg.qos, msg.store, msg.properties)) hmsg
  rw [h.map_messages _ fun _ => rfl, ← List.map_append] at hmem
  obtain ⟨old, hold, heq⟩ := List.mem_map.mp hmem
  obtain ⟨hqos, hrest⟩ := Prod.mk.inj heq
  obtain ⟨hstore, hproperties⟩ := Prod.mk.inj hrest
  have hdelivery := (List.forall_mem_append.mpr ⟨hbefore, hnew⟩) old hold
  exact ⟨hqos ▸ hdelivery.qos, hstore ▸ hdelivery.lasting, hstore ▸ hproperties ▸ hdelivery.fits⟩

/-- The messages that go into flight are sent in the handshake, one after the other, with what was
written as their packets. Their identifiers are new, and those of other messages are not in the
way. -/
theorem Advanced.run (h : Advanced before after new fresh packets)
    (houtbox : session.outbox = before.inflight.map pending_of)
    (hmids : ((before.messages ++ new).map mosquitto_client_msg.mid).Nodup) :
    ∃ labels log, Run step session labels { session with
        outbox := after.inflight.map pending_of
        to_receiver := session.to_receiver ++ packets.map packet_of } log ∧
      sent log = fresh.map mosquitto_client_msg.store ∧ delivered log = [] := by
  have hsent : (fresh.map fun msg => (msg.mid, msg.store)).map Prod.fst =
      fresh.map mosquitto_client_msg.mid := by
    rw [List.map_map]
    rfl
  have houtboxIds : session.outbox.map Pending.id = before.inflight.map mosquitto_client_msg.mid := by
    rw [houtbox, List.map_map]
    rfl
  have hids : (session.outbox.map Pending.id ++
      (fresh.map fun msg => (msg.mid, msg.store)).map Prod.fst).Nodup := by
    rw [hsent, houtboxIds, ← List.map_append]
    refine hmids.sublist (List.Sublist.map _ ?_)
    rw [mosquitto_msg_data.messages, List.append_assoc, h.queued, ← List.append_assoc]
    exact List.sublist_append_left _ _
  have hrun := run_sends (fresh.map fun msg => (msg.mid, msg.store)) hids
  have hnextOutbox : after.inflight.map pending_of = session.outbox ++
      (fresh.map fun msg => (msg.mid, msg.store)).map fun entry => ⟨entry.1, entry.2, false⟩ := by
    rw [h.inflight, List.map_append, houtbox, List.map_map, List.map_map, List.map_map]
    rfl
  have hpackets : packets.map packet_of =
      (fresh.map fun msg => (msg.mid, msg.store)).map fun entry => .publish entry.1 entry.2 := by
    rw [h.packets, List.map_map, List.map_map]
    rfl
  rw [hnextOutbox, hpackets]
  refine ⟨_, _, hrun, ?_, ?_⟩
  · rw [List.map_map]
    exact sent_map_sent fresh mosquitto_client_msg.store
  · rw [List.map_map]
    exact delivered_map_sent fresh mosquitto_client_msg.store

/-- With a connection, what the session of the handshake has under way is what is on its way in
both directions. -/
theorem recipient.session_connected (hconnected : s.connected = true) :
    s.session = ⟨s.msgs_out.inflight.map pending_of, s.received, s.to_client.map packet_of,
      s.to_broker⟩ := by
  rw [recipient.session, if_pos hconnected]

/-- A packet is under way only while there is a connection. -/
theorem RecipientInv.connected (h : RecipientInv client s) (hlinks : ¬(s.to_client = [] ∧ s.to_broker = [])) :
    s.connected = true := by
  cases hconnected : s.connected with
  | true => rfl
  | false => exact absurd (h.links hconnected) hlinks

/-- The client takes the next packet, and its reply goes to the broker. What it delivers there is
received. -/
theorem Receiving.receive (h : Receiving client s got) {packet : outgoing_packet}
    {rest : List outgoing_packet} (hqueue : s.to_client = packet :: rest) :
    Receiving client { s with
        received := (handshake.receive s.received (packet_of packet)).1
        to_client := rest
        to_broker := s.to_broker ++ [(handshake.receive s.received (packet_of packet)).2.1] }
      (got ++ delivered (handshake.receive s.received (packet_of packet)).2.2) := by
  have hconnected : s.connected = true := h.inv.connected fun hlinks => by
    rw [hlinks.1] at hqueue
    cases hqueue
  have hinv : RecipientInv client { s with
      received := (handshake.receive s.received (packet_of packet)).1
      to_client := rest
      to_broker := s.to_broker ++ [(handshake.receive s.received (packet_of packet)).2.1] } := by
    refine ⟨h.inv.underway, h.inv.plain, h.inv.mids, h.inv.ready, fun hnot => ?_, h.inv.quota⟩
    exact absurd (hconnected.symm.trans hnot) Bool.noConfusion
  refine h.step .receive hinv ?_ (sent_receive s.received (packet_of packet)) rfl rfl
  simp only [recipient.session, hconnected, hqueue]
  rfl

/-- The connection is lost, with everything that was under way on it. The lists of the broker stay
as they are. -/
theorem Receiving.disconnect (h : Receiving client s got) :
    Receiving client { s with
      connected := false
      to_client := []
      to_broker := [] } got := by
  have hinv : RecipientInv client { s with
      connected := false
      to_client := []
      to_broker := [] } :=
    ⟨h.inv.underway, h.inv.plain, h.inv.mids, fun heq => Bool.noConfusion heq, fun _ => ⟨rfl, rfl⟩,
      h.inv.quota⟩
  have hnext := h.step .reconnect hinv rfl rfl rfl rfl
  exact (List.append_nil got).symm ▸ hnext

/-- After some steps of the handshake, messages come or go into flight, and everything that was
received or is still to be received is accounted for. The client has a connection. -/
theorem Receiving.advance (h : Receiving client s got) (hconnected : next.connected = true)
    {labels : List (Label UInt16 mosquitto_msg_store)} {log : List (Event mosquitto_msg_store)}
    (hfirst : Run handshake.step s.session labels session log) (hsent : sent log = [])
    (hadvanced : Advanced before next.msgs_out new fresh packets)
    (houtbox : session.outbox = before.inflight.map pending_of)
    (hqueued : before.queued = s.msgs_out.queued)
    (hsession : next.session = { session with
      outbox := next.msgs_out.inflight.map pending_of
      to_receiver := session.to_receiver ++ packets.map packet_of })
    (hmids : ((before.messages ++ new).map mosquitto_client_msg.mid).Nodup)
    (hunderway : ∀ msg ∈ before.inflight, Underway msg)
    (hplain : ∀ msg ∈ before.messages, Delivery client msg) (hnew : ∀ msg ∈ new, Delivery client msg)
    (hquota : QuotaLeft before) (htaken : next.taken = s.taken ++ new.map mosquitto_client_msg.store) :
    Receiving client next (got ++ delivered log) := by
  have hinv : RecipientInv client next := by
    refine ⟨hadvanced.underway hunderway, hadvanced.plain hplain hnew, ?_, fun _ => hadvanced.ready,
      fun hnot => ?_, hadvanced.quota hquota⟩
    · rw [hadvanced.map_messages mosquitto_client_msg.mid fun _ => rfl, ← List.map_append]
      exact hmids
    · exact absurd (hconnected.symm.trans hnot) Bool.noConfusion
  -- What goes into flight is sent in the handshake, one message after the other.
  obtain ⟨sends, later, hrun, hlater, hnothing⟩ := hadvanced.run houtbox hmids
  have hall := hfirst.append (hsession ▸ hrun)
  have hnext := h.run hinv hall ⟨new.map mosquitto_client_msg.store, htaken, ?_⟩
  · rwa [delivered_append, hnothing, List.append_nil] at hnext
  · rw [sent_append, hsent, hlater, ← List.map_append, ← hqueued, hadvanced.queued, List.map_append]
    rfl

/-- A message that is resent in a new connection is pending in the same stage as before, and what
is sent for it is the packet of that stage. -/
theorem resend_eq (hunderway : Underway msg) (hdelivery : Delivery client msg) :
    pending_of (written_msg (resend msg)) = pending_of msg ∧ Underway (written_msg (resend msg)) ∧
      Delivery client (written_msg (resend msg)) ∧
        (written_packets (resend msg)).map packet_of = [(pending_of msg).packet] := by
  obtain ⟨store, mid, qos, retain, state, dup, properties⟩ := msg
  obtain rfl : qos = 2 := hdelivery.qos
  obtain rfl | rfl := hunderway
  · exact ⟨rfl, Or.inl rfl, ⟨rfl, hdelivery.lasting, hdelivery.fits⟩, rfl⟩
  · exact ⟨rfl, Or.inr rfl, ⟨rfl, hdelivery.lasting, hdelivery.fits⟩, rfl⟩

/-- So the packets that a new connection starts with are those of all messages in flight, in order.
-/
theorem resend_packets (hunderway : ∀ msg ∈ inflight, Underway msg)
    (hdelivery : ∀ msg ∈ inflight, Delivery client msg) :
    ((inflight.map resend).flatMap written_packets).map packet_of =
      (inflight.map pending_of).map Pending.packet := by
  induction inflight with
  | nil => rfl
  | cons msg inflight ih =>
    obtain ⟨hfirst, hrest⟩ := List.forall_mem_cons.mp hunderway
    obtain ⟨hfirstKind, hrestKind⟩ := List.forall_mem_cons.mp hdelivery
    rw [List.map_cons, List.flatMap_cons, List.map_append, ih hrest hrestKind,
      (resend_eq hfirst hfirstKind).2.2.2]
    rfl

/-- The client is back: the state is as it should be, with every message in flight resent in its
own stage, and what was taken is neither lost nor received again. -/
theorem Receiving.reconnect (h : Receiving client s got) (now_real_s : Int) :
    Receiving client { s with
      connected := true
      msgs_out := (connect_outgoing client now_real_s s.msgs_out).msgs_out
      to_client := (connect_outgoing client now_real_s s.msgs_out).packets
      to_broker := [] } got := by
  obtain ⟨-, before, fresh, hbefore, hsame, hquota, hpackets, hadvanced⟩ :=
    connect_advanced now_real_s h.inv.plain
  obtain ⟨hinflight, hqueued⟩ := List.forall_mem_append.mp h.inv.plain
  have hpending : before.inflight.map pending_of = s.msgs_out.inflight.map pending_of := by
    rw [hbefore, List.map_map, List.map_map]
    exact List.map_congr_left fun msg hmsg =>
      (resend_eq (h.inv.underway msg hmsg) (hinflight msg hmsg)).1
  have hid (msgs : List mosquitto_client_msg) :
      msgs.map mosquitto_client_msg.mid = (msgs.map pending_of).map Pending.id := by
    rw [List.map_map]
    rfl
  have hresent {msg : mosquitto_client_msg} (hmsg : msg ∈ before.inflight) :
      Underway msg ∧ Delivery client msg := by
    rw [hbefore] at hmsg
    obtain ⟨waiting, hwaiting, rfl⟩ := List.mem_map.mp hmsg
    obtain ⟨old, hold, rfl⟩ := List.mem_map.mp hwaiting
    obtain ⟨-, hunderway, hdelivery, -⟩ := resend_eq (h.inv.underway old hold) (hinflight old hold)
    exact ⟨hunderway, hdelivery⟩
  -- The handshake reconnects, and only then the messages of the queue are sent.
  have hfirst : Run handshake.step s.session [Label.reconnect] { s.session with
      to_receiver := s.session.outbox.map Pending.packet
      to_sender := [] } [] := Run.snoc .nil rfl
  rw [← List.append_nil got]
  change Receiving client _ (got ++ delivered [])
  refine h.advance rfl hfirst rfl hadvanced hpending.symm hsame ?_ ?_
    (fun msg hmsg => (hresent hmsg).1)
    (List.forall_mem_append.mpr ⟨fun msg hmsg => (hresent hmsg).2, hsame ▸ hqueued⟩)
    (fun _ hmsg => absurd hmsg List.not_mem_nil) hquota (List.append_nil _).symm
  · rw [recipient.session_connected rfl, hpackets, List.map_append, resend_packets h.inv.underway hinflight]
    rfl
  · rw [List.append_nil, mosquitto_msg_data.messages, List.map_append, hid, hpending, ← hid, hsame,
      ← List.map_append]
    exact h.inv.mids

/-- The connection is not lost again in the resending: every packet of it can be written, at any
time of the clock. -/
theorem Receiving.step_reconnect (h : Receiving client s got) (now_real_s : Int) :
    recipient_step client s (.reconnect now_real_s) = some ({ s with
      connected := true
      msgs_out := (connect_outgoing client now_real_s s.msgs_out).msgs_out
      to_client := (connect_outgoing client now_real_s s.msgs_out).packets
      to_broker := [] }, []) := by
  obtain ⟨hrc, -⟩ : (connect_outgoing client now_real_s s.msgs_out).rc = .MOSQ_ERR_SUCCESS ∧ _ :=
    connect_advanced now_real_s h.inv.plain
  rw [recipient_step]
  exact if_pos hrc

/-- A message that came, if it was not dropped, can be sent, and its identifier is not that of
another one. That the number of messages has grown says whether it was taken. -/
theorem new_message {stored : mosquitto_msg_store} {retain : Bool}
    {properties : List mosquitto_property} {msgs : List mosquitto_client_msg}
    (hnew : new = [] ∨ ∃ state, new = [⟨stored, mid, 2, retain, state, 0, properties⟩])
    (hstored : stored.message_expiry_time = 0) (hfits : Fits client stored properties)
    (hmids : (msgs.map mosquitto_client_msg.mid).Nodup)
    (hfresh : mid ∉ msgs.map mosquitto_client_msg.mid) (taken : List mosquitto_msg_store) :
    (∀ msg ∈ new, Delivery client msg) ∧ ((msgs ++ new).map mosquitto_client_msg.mid).Nodup ∧
      (if msgs.length < msgs.length + new.length then taken ++ [stored] else taken) =
        taken ++ new.map mosquitto_client_msg.store := by
  obtain rfl | ⟨state, rfl⟩ := hnew
  · refine ⟨fun _ hmsg => absurd hmsg List.not_mem_nil, ?_, ?_⟩
    · rwa [List.append_nil]
    · simp
  · refine ⟨List.forall_mem_singleton.mpr ⟨rfl, hstored, hfits⟩, ?_, ?_⟩
    · rw [List.map_append]
      exact (List.perm_append_singleton _ _).nodup_iff.mpr (List.nodup_cons.mpr ⟨hfresh, hmids⟩)
    · simp

/-- A message comes for the client, which may be away. It is taken and accounted for, or dropped by
the limits without a trace. Its identifier is not in use, it does not expire, and it fits. -/
theorem Receiving.insert (h : Receiving client s got) {stored : mosquitto_msg_store}
    {properties : List mosquitto_property}
    (hfresh : mid ∉ s.msgs_out.messages.map mosquitto_client_msg.mid)
    (hstored : stored.message_expiry_time = 0) (hfits : Fits client stored properties)
    (now_real_s : Int) (retain : Bool) {result : mosquitto_msg_data × List outgoing_packet}
    (hresult : db_message_insert_out client s.connected now_real_s mid 2 retain stored properties
      s.msgs_out = result) :
    Receiving client { s with
      last_mid := mid
      msgs_out := result.1
      to_client := s.to_client ++ result.2
      taken := if s.msgs_out.messages.length < result.1.messages.length then s.taken ++ [stored]
        else s.taken } got := by
  rw [← List.append_nil got]
  change Receiving client _ (got ++ delivered [])
  cases hconnected : s.connected with
  | true =>
    obtain ⟨new, fresh, hadvanced, hnew⟩ := insert_connected now_real_s mid retain
      (h.inv.ready hconnected) h.inv.underway h.inv.plain hstored hfits
    rw [← hconnected, hresult] at hadvanced
    obtain ⟨hnewKind, hmids, htaken⟩ := new_message hnew hstored hfits h.inv.mids hfresh s.taken
    have hlength : result.1.messages.length = s.msgs_out.messages.length + new.length := by
      simpa using congrArg List.length (hadvanced.map_messages mosquitto_client_msg.mid fun _ => rfl)
    refine h.advance rfl .nil rfl hadvanced rfl rfl ?_ hmids h.inv.underway h.inv.plain hnewKind
      h.inv.quota ?_
    · rw [recipient.session_connected rfl, recipient.session_connected hconnected, List.map_append]
    · rw [← htaken, ← hlength]
  | false =>
    -- The handshake does not see the queue.
    rw [hconnected] at hresult
    obtain ⟨new, hinflight, hqueued, hpackets, hquota, hnew⟩ :=
      insert_disconnected client now_real_s mid retain stored properties s.msgs_out hresult
    obtain ⟨hnewKind, hmids, htaken⟩ := new_message hnew hstored hfits h.inv.mids hfresh s.taken
    have hmessages : result.1.messages = s.msgs_out.messages ++ new := by
      rw [mosquitto_msg_data.messages, hinflight, hqueued, mosquitto_msg_data.messages,
        List.append_assoc]
    have hlength : result.1.messages.length = s.msgs_out.messages.length + new.length := by
      rw [hmessages, List.length_append]
    obtain ⟨hclient, hbroker⟩ := h.inv.links hconnected
    have hinv : RecipientInv client { s with
        connected := false
        last_mid := mid
        msgs_out := result.1
        to_client := s.to_client ++ result.2
        taken := if s.msgs_out.messages.length < result.1.messages.length then s.taken ++ [stored]
          else s.taken } := by
      refine ⟨?_, ?_, ?_, fun heq => Bool.noConfusion heq, fun _ => ⟨?_, hbroker⟩, hquota h.inv.quota⟩
      · simpa only [hinflight] using h.inv.underway
      · simpa only [hmessages] using List.forall_mem_append.mpr ⟨h.inv.plain, hnewKind⟩
      · simpa only [hmessages] using hmids
      · simp only [hclient, hpackets, List.append_nil]
    have hsession : recipient.session { s with
        connected := false
        last_mid := mid
        msgs_out := result.1
        to_client := s.to_client ++ result.2
        taken := if s.msgs_out.messages.length < result.1.messages.length then s.taken ++ [stored]
          else s.taken } = s.session := by
      simp only [recipient.session, hinflight, hconnected]
      rfl
    have hrun := (congrArg (fun stop => Run handshake.step s.session [] stop []) hsession).mpr .nil
    refine h.run hinv hrun ⟨new.map mosquitto_client_msg.store, ?_, ?_⟩
    · rw [← htaken, ← hlength]
    · simp only [hqueued, List.map_append]
      rfl

/-- No two messages in flight have one identifier. -/
theorem RecipientInv.inflight_mids (h : RecipientInv client s) :
    (s.msgs_out.inflight.map mosquitto_client_msg.mid).Nodup :=
  h.mids.sublist ((List.sublist_append_left _ _).map _)

/-- A reply waits only while the session is connected. -/
theorem RecipientInv.connected_of_reply (h : RecipientInv client s) {reply : Reply UInt16}
    {replies : List (Reply UInt16)} (hqueue : s.to_broker = reply :: replies) :
    s.connected = true := by
  refine h.connected fun hlinks => ?_
  rw [hlinks.2] at hqueue
  cases hqueue

/-- A message in flight has others in front and behind, all of which have other identifiers. -/
theorem split_mid (hmids : (inflight.map mosquitto_client_msg.mid).Nodup) (hmsg : msg ∈ inflight) :
    ∃ older newer, inflight = older ++ msg :: newer ∧
      ∀ other ∈ older ++ newer, other.mid ≠ msg.mid := by
  obtain ⟨older, newer, rfl⟩ := List.append_of_mem hmsg
  refine ⟨older, newer, rfl, fun other hother hmid => ?_⟩
  rw [List.map_append, List.map_cons] at hmids
  have hnotMem := (List.nodup_cons.mp (List.perm_middle.nodup_iff.mp hmids)).1
  rw [← List.map_append] at hnotMem
  exact hnotMem (hmid ▸ List.mem_map_of_mem hother)

/-- The same, said of what is pending in the handshake. -/
theorem pending_ids_ne {older newer : List mosquitto_client_msg}
    (hne : ∀ other ∈ older ++ newer, other.mid ≠ msg.mid) :
    ∀ other ∈ older.map pending_of ++ newer.map pending_of, other.id ≠ (pending_of msg).id := by
  rw [← List.map_append]
  exact List.forall_mem_map.mpr hne

/-- The update of a state finds the message with the identifier and leaves all others. -/
theorem update_outgoing_split {older newer : List mosquitto_client_msg}
    {state : mosquitto_msg_state} (hne : ∀ other ∈ older, other.mid ≠ msg.mid) :
    update_outgoing msg.mid state (older ++ msg :: newer) =
      older ++ { msg with state := state } :: newer := by
  induction older with
  | nil => exact if_pos rfl
  | cons other older ih =>
    obtain ⟨hfirst, hrest⟩ := List.forall_mem_cons.mp hne
    rw [List.cons_append, update_outgoing, if_neg hfirst, ih hrest]
    rfl

/-- So does the removal of a message. -/
theorem eraseP_split {older newer : List mosquitto_client_msg}
    (hne : ∀ other ∈ older, other.mid ≠ msg.mid) :
    (older ++ msg :: newer).eraseP (fun tail => tail.mid = msg.mid) = older ++ newer := by
  rw [List.eraseP_append_right _ fun other hother => by simpa using hne other hother]
  exact congrArg (older ++ ·) (List.eraseP_cons_of_pos (by simp))

/-- A reply that has arrived is a step of the handshake. -/
theorem step_reply {reply : Reply UInt16} {replies : List (Reply UInt16)}
    (hqueue : s.to_broker = reply :: replies) :
    handshake.step s.session .reply = some ({ s.session with
      outbox := (answer s.session.outbox reply).1
      to_receiver := s.session.to_receiver ++ (answer s.session.outbox reply).2.1
      to_sender := replies }, (answer s.session.outbox reply).2.2) := by
  rw [handshake.step, show s.session.to_sender = reply :: replies from hqueue]

/-- A reply under way is about a message in flight, and says what the broker waits for: a PUBREC or
a PUBCOMP. -/
theorem Receiving.reply_cases (h : Receiving client s got) {reply : Reply UInt16}
    (hreply : reply ∈ s.to_broker) :
    ∃ msg ∈ s.msgs_out.inflight, reply = (pending_of msg).reply ∧
      (msg.state = .mosq_ms_wait_for_pubrec ∧ reply = .received msg.mid ∨
        msg.state = .mosq_ms_wait_for_pubcomp ∧ reply = .complete msg.mid) := by
  obtain ⟨pending, hpending, hsame, -⟩ := h.synced.replies reply hreply
  obtain ⟨msg, hmsg, rfl⟩ := List.mem_map.mp hpending
  refine ⟨msg, hmsg, hsame, ?_⟩
  obtain hstate | hstate := h.inv.underway msg hmsg
  · refine Or.inl ⟨hstate, hsame.trans ?_⟩
    rw [Pending.reply, pending_of, hstate]
    rfl
  · refine Or.inr ⟨hstate, hsame.trans ?_⟩
    rw [Pending.reply, pending_of, hstate]
    rfl

/-- The client says that it has a message, and the broker releases it. The message stays in flight
in its next stage, and nothing else is changed. -/
theorem Receiving.pubrec (h : Receiving client s got) {replies : List (Reply UInt16)}
    (hmsg : msg ∈ s.msgs_out.inflight) (hstate : msg.state = .mosq_ms_wait_for_pubrec)
    (hreply : (pending_of msg).reply = .received msg.mid)
    (hqueue : s.to_broker = .received msg.mid :: replies) :
    Receiving client { s with
      msgs_out := { s.msgs_out with
        inflight := update_outgoing msg.mid .mosq_ms_wait_for_pubcomp s.msgs_out.inflight }
      to_client := s.to_client ++ [.pubrel msg.mid]
      to_broker := replies } got := by
  have hconnected := h.inv.connected_of_reply hqueue
  obtain ⟨older, newer, hsplit, hne⟩ := split_mid h.inv.inflight_mids hmsg
  obtain ⟨holder, hnewer⟩ := List.forall_mem_append.mp hne
  have hupdate : update_outgoing msg.mid .mosq_ms_wait_for_pubcomp s.msgs_out.inflight =
      older ++ { msg with state := .mosq_ms_wait_for_pubcomp } :: newer := by
    rw [hsplit, update_outgoing_split holder]
  have hstay {other : mosquitto_client_msg} (hother : other ∈ older ++ newer) :
      other ∈ s.msgs_out.inflight := by
    rw [hsplit]
    exact List.perm_middle.mem_iff.mpr (List.mem_cons_of_mem _ hother)
  obtain ⟨hplain, hwaiting⟩ := List.forall_mem_append.mp h.inv.plain
  have hmem {P : mosquitto_client_msg → Prop} (hother : ∀ other ∈ s.msgs_out.inflight, P other)
      (hthis : P { msg with state := .mosq_ms_wait_for_pubcomp }) :
      ∀ other ∈ older ++ { msg with state := .mosq_ms_wait_for_pubcomp } :: newer, P other := by
    intro other hin
    obtain rfl | hrest := List.mem_cons.mp (List.perm_middle.mem_iff.mp hin)
    · exact hthis
    · exact hother other (hstay hrest)
  rw [hupdate, ← List.append_nil got]
  change Receiving client _ (got ++ delivered [])
  have hinv : RecipientInv client { s with
      msgs_out := { s.msgs_out with
        inflight := older ++ { msg with state := .mosq_ms_wait_for_pubcomp } :: newer }
      to_client := s.to_client ++ [.pubrel msg.mid]
      to_broker := replies } := by
    refine ⟨hmem h.inv.underway (Or.inr rfl), List.forall_mem_append.mpr
      ⟨hmem hplain ((hplain msg hmsg).with_state _), hwaiting⟩, ?_, h.inv.ready,
      fun hnot => absurd (hconnected.symm.trans hnot) Bool.noConfusion, ?_⟩
    · have hmids := h.inv.mids
      rw [mosquitto_msg_data.messages, hsplit] at hmids
      simpa [mosquitto_msg_data.messages] using hmids
    · have hquota := h.inv.quota
      rw [QuotaLeft, hsplit] at hquota
      rw [QuotaLeft]
      simpa using hquota
  refine h.step .reply hinv ?_ rfl rfl rfl
  have hpending : (pending_of msg).released = false := by
    rw [pending_of, hstate]
    rfl
  have hanswer : answer s.session.outbox (.received msg.mid) =
      (older.map pending_of ++ { pending_of msg with released := true } :: newer.map pending_of,
        [.release msg.mid], []) := by
    rw [recipient.session, hsplit, List.map_append, List.map_cons, ← hreply,
      answer_received (pending_ids_ne hne) hpending]
    rfl
  rw [step_reply hqueue, hanswer]
  simp only [recipient.session, hconnected, List.map_append, List.map_cons, List.map_nil]
  rfl

/-- The client says that it has taken a message for good, and the broker is done with it. Messages
of the queue go into flight in its place. -/
theorem Receiving.pubcomp (h : Receiving client s got) {replies : List (Reply UInt16)} {result : written}
    (hmsg : msg ∈ s.msgs_out.inflight) (hstate : msg.state = .mosq_ms_wait_for_pubcomp)
    (hreply : (pending_of msg).reply = .complete msg.mid)
    (hqueue : s.to_broker = .complete msg.mid :: replies)
    (hadvanced : Advanced
      { util_increment_quota s.msgs_out with
        inflight := s.msgs_out.inflight.eraseP fun tail => tail.mid = msg.mid }
      result.msgs_out [] fresh result.packets) :
    Receiving client { s with
      msgs_out := result.msgs_out
      to_client := s.to_client ++ result.packets
      to_broker := replies } got := by
  have hconnected := h.inv.connected_of_reply hqueue
  obtain ⟨older, newer, hsplit, hne⟩ := split_mid h.inv.inflight_mids hmsg
  have herase : s.msgs_out.inflight.eraseP (fun tail => tail.mid = msg.mid) = older ++ newer := by
    rw [hsplit, eraseP_split (List.forall_mem_append.mp hne).1]
  have hless : (older ++ newer).Sublist s.msgs_out.inflight := by
    rw [hsplit]
    exact (List.Sublist.refl older).append (List.sublist_cons_self msg newer)
  obtain ⟨hplain, hwaiting⟩ := List.forall_mem_append.mp h.inv.plain
  have hqueued : (util_increment_quota s.msgs_out).queued = s.msgs_out.queued :=
    (same_util_increment_quota s.msgs_out).queued
  have hquota := quota_erase hmsg h.inv.quota
  rw [herase] at hadvanced hquota
  have hpending : (pending_of msg).released = true := by
    rw [pending_of, hstate]
    rfl
  have hanswer : answer s.session.outbox (.complete msg.mid) =
      (older.map pending_of ++ newer.map pending_of, [], [.completed msg.store]) := by
    rw [recipient.session, hsplit, List.map_append, List.map_cons, ← hreply,
      answer_complete (pending_ids_ne hne) hpending]
    rfl
  have hstep := step_reply hqueue
  rw [hanswer, List.append_nil] at hstep
  have hfirst := Run.snoc .nil hstep
  rw [← List.append_nil got]
  change Receiving client _ (got ++ delivered ([] ++ [.completed msg.store]))
  refine h.advance ?_ hfirst rfl hadvanced ?_ hqueued ?_ ?_
    (fun other hother => h.inv.underway other (hless.subset hother))
    (List.forall_mem_append.mpr ⟨fun other hother => hplain other (hless.subset hother),
      hqueued.symm ▸ hwaiting⟩)
    (fun _ hother => absurd hother List.not_mem_nil) hquota (List.append_nil _).symm
  · exact hconnected
  · exact List.map_append.symm
  · simp only [recipient.session, hconnected, List.map_append]
    rfl
  · rw [List.append_nil, mosquitto_msg_data.messages, hqueued]
    exact h.inv.mids.sublist ((hless.append_right _).map _)

/-- The broker accepts every reply of the client. -/
theorem Receiving.accepted (h : Receiving client s got) {reply : Reply UInt16}
    (hreply : reply ∈ s.to_broker) (now_real_s : Int) : (handle_reply client now_real_s s.msgs_out reply).rc = .MOSQ_ERR_SUCCESS := by
  obtain ⟨msg, hmsg, -, ⟨hstate, rfl⟩ | ⟨hstate, rfl⟩⟩ := h.reply_cases hreply
  · have hqos := (h.inv.plain msg (List.mem_append_left _ hmsg)).qos
    rw [handle_reply, pubrec_eq h.inv.inflight_mids hmsg hqos]
  · exact (pubcomp_advanced h.inv.inflight_mids hmsg hstate h.inv.underway h.inv.plain).1

/-- The broker handles the next reply: it sends a PUBREL, or is done with the message and sends
others of the queue. It accepts every reply that can be under way. -/
theorem Receiving.reply (h : Receiving client s got) {reply : Reply UInt16} {replies : List (Reply UInt16)}
    (hqueue : s.to_broker = reply :: replies) (now_real_s : Int) :
    Receiving client { s with
      msgs_out := (handle_reply client now_real_s s.msgs_out reply).msgs_out
      to_client := s.to_client ++ (handle_reply client now_real_s s.msgs_out reply).packets
      to_broker := replies } got := by
  obtain ⟨msg, hmsg, hsame, ⟨hstate, rfl⟩ | ⟨hstate, rfl⟩⟩ :=
    h.reply_cases (hqueue ▸ List.mem_cons_self)
  · have hqos := (h.inv.plain msg (List.mem_append_left _ hmsg)).qos
    rw [handle_reply, pubrec_eq h.inv.inflight_mids hmsg hqos]
    exact h.pubrec hmsg hstate hsame.symm hqueue
  · obtain ⟨-, fresh, hadvanced⟩ :=
      pubcomp_advanced h.inv.inflight_mids hmsg hstate h.inv.underway h.inv.plain
    exact h.pubcomp hmsg hstate hsame.symm hqueue hadvanced

/-- The step lemma: whatever the broker, the client or the connection do, what was taken for the
client was received once or is still at the broker. -/
theorem recipient_step_receiving (h : Receiving client s got)
    (hstep : recipient_step client s label = some (next, emitted)) : Receiving client next (got ++ emitted) := by
  cases label with
  | insert now_real_s stored retain properties =>
    rw [recipient_step] at hstep
    split at hstep
    · rename_i hguard
      obtain ⟨rfl, rfl⟩ := Prod.mk.inj (Option.some.inj hstep)
      obtain ⟨hfresh, hstored, hfits⟩ := hguard
      rw [List.append_nil]
      exact h.insert hfresh hstored hfits now_real_s retain rfl
    · cases hstep
  | receive =>
    rw [recipient_step] at hstep
    split at hstep
    · cases hstep
    · rename_i hqueue
      obtain ⟨rfl, rfl⟩ := Prod.mk.inj (Option.some.inj hstep)
      exact h.receive hqueue
  | reply now_real_s =>
    rw [recipient_step] at hstep
    split at hstep
    · cases hstep
    · rename_i reply replies hqueue
      rw [if_pos (h.accepted (hqueue ▸ List.mem_cons_self) now_real_s)] at hstep
      obtain ⟨rfl, rfl⟩ := Prod.mk.inj (Option.some.inj hstep)
      rw [List.append_nil]
      exact h.reply hqueue now_real_s
  | disconnect =>
    obtain ⟨rfl, rfl⟩ := Prod.mk.inj (Option.some.inj hstep)
    rw [List.append_nil]
    exact h.disconnect
  | reconnect now_real_s =>
    rw [h.step_reconnect] at hstep
    obtain ⟨rfl, rfl⟩ := Prod.mk.inj (Option.some.inj hstep)
    rw [List.append_nil]
    exact h.reconnect now_real_s

/-- At the start nothing was taken, nothing is there and nothing is on its way. -/
theorem receiving_start (client : client_context) (inflight_maximum : Nat) :
    Receiving client (recipient_start inflight_maximum) [] where
  inv :=
    { underway := fun _ hmsg => absurd hmsg List.not_mem_nil
      plain := fun _ hmsg => absurd hmsg List.not_mem_nil
      mids := List.nodup_nil
      ready := fun _ => Or.inl rfl
      links := fun _ => ⟨rfl, rfl⟩
      quota := Nat.le_add_right _ _ }
  synced := synced_empty
  log := ⟨[], accounted_empty, rfl, rfl⟩

/-- Everything that was taken was received, or is still there, and nothing was received more often
than it was taken. -/
theorem Receiving.taken_subperm (h : Receiving client s got) :
    got.Subperm s.taken ∧
      s.taken.Subperm (got ++ s.msgs_out.messages.map mosquitto_client_msg.store) := by
  obtain ⟨log, haccounted, rfl, htaken⟩ := h.log
  obtain ⟨hcompleted, hdelivered⟩ := haccounted.exactly_once
  have hstores : s.session.outbox.map Pending.message =
      s.msgs_out.inflight.map mosquitto_client_msg.store := by
    rw [recipient.session, List.map_map]
    rfl
  have hsent := haccounted.sent_perm
  rw [hstores] at hsent
  rw [htaken, mosquitto_msg_data.messages, List.map_append, ← List.append_assoc]
  constructor
  · exact hdelivered.trans (List.sublist_append_left _ _).subperm
  · exact (List.subperm_append_right _).mpr
      (hsent.subperm.trans ((List.subperm_append_right _).mpr hcompleted))

/-- While messages may go into flight, the queue is empty, so that with a connection and any
message left some message is in flight. -/
theorem RecipientInv.inflight_ne_nil (h : RecipientInv client s) (hconnected : s.connected = true)
    (hmessages : s.msgs_out.messages ≠ []) : s.msgs_out.inflight ≠ [] := by
  intro hnone
  obtain hqueued | hready := h.ready hconnected
  · exact hmessages (by rw [mosquitto_msg_data.messages, hnone, hqueued, List.append_nil])
  · have hquota := h.quota
    rw [QuotaLeft, hnone, List.length_nil] at hquota
    simp only [db_ready_for_flight, Bool.or_eq_false_iff, decide_eq_false_iff_not] at hready
    omega

/-- The answer to a packet is one step closer to the end of its message than the packet. -/
theorem remaining_receive (held : UInt16 → Option mosquitto_msg_store)
    (packet : Packet UInt16 mosquitto_msg_store) :
    (handshake.receive held packet).2.1.remaining < packet.remaining := by
  cases packet with
  | publish id message => exact Nat.lt_succ_self 3
  | release id => exact Nat.lt_succ_self 1

/-- A reply leads to fewer packets than it ends, with those of the messages counted that it lets
into flight. This is the measure that ends the exchange. -/
theorem Receiving.remaining_reply (h : Receiving client s got) {reply : Reply UInt16}
    (hreply : reply ∈ s.to_broker) (now_real_s : Int) :
    ((handle_reply client now_real_s s.msgs_out reply).packets.map fun packet =>
        (packet_of packet).remaining).sum +
      5 * (handle_reply client now_real_s s.msgs_out reply).msgs_out.queued.length <
        reply.remaining + 5 * s.msgs_out.queued.length := by
  obtain ⟨msg, hmsg, -, ⟨hstate, rfl⟩ | ⟨hstate, rfl⟩⟩ := h.reply_cases hreply
  · have hqos := (h.inv.plain msg (List.mem_append_left _ hmsg)).qos
    rw [handle_reply, pubrec_eq h.inv.inflight_mids hmsg hqos]
    simp [packet_of, Packet.remaining, Reply.remaining]
  · obtain ⟨-, fresh, hadvanced⟩ : _ ∧ ∃ fresh, Advanced _
        (handle_pubackcomp client now_real_s 2 msg.mid s.msgs_out).msgs_out _ fresh _ :=
      pubcomp_advanced h.inv.inflight_mids hmsg hstate h.inv.underway h.inv.plain
    have hqueued : (s.msgs_out.queued ++ []).length = _ :=
      (same_util_increment_quota s.msgs_out).queued ▸ congrArg List.length hadvanced.queued
    rw [List.append_nil, List.length_append] at hqueued
    rw [handle_reply, hadvanced.packets, List.map_map, hqueued]
    have hsum : (fresh.map ((fun packet => (packet_of packet).remaining) ∘ fun msg =>
        .publish (launched msg))).sum = 4 * fresh.length := by
      simp [Function.comp_def, packet_of, Packet.remaining, Nat.mul_comm]
    rw [hsum]
    simp only [Reply.remaining]
    omega

/-- While messages are left, a packet or a reply is on its way and can arrive, and fewer remain
then. The connection lasts, and nothing is taken meanwhile. -/
theorem Receiving.arrival (h : Receiving client s got) (hconnected : s.connected = true)
    (hmessages : s.msgs_out.messages ≠ []) :
    ∃ label next emitted, recipient_label.Arrival label ∧
      recipient_step client s label = some (next, emitted) ∧ next.connected = true ∧ next.taken = s.taken ∧
        next.remaining < s.remaining := by
  cases hclient : s.to_client with
  | cons packet rest =>
    have hstep : recipient_step client s .receive = some ({ s with
        received := (handshake.receive s.received (packet_of packet)).1
        to_client := rest
        to_broker := s.to_broker ++ [(handshake.receive s.received (packet_of packet)).2.1] },
        delivered (handshake.receive s.received (packet_of packet)).2.2) := by
      rw [recipient_step, hclient]
    refine ⟨.receive, _, _, trivial, hstep, hconnected, rfl, ?_⟩
    have hless := remaining_receive s.received (packet_of packet)
    simp only [recipient.remaining, hclient, List.map_append, List.sum_append, List.map_cons,
      List.sum_cons, List.map_nil, List.sum_nil]
    omega
  | nil =>
    cases hbroker : s.to_broker with
    | nil =>
      have hreceiver : s.session.to_receiver = [] := by
        rw [recipient.session_connected hconnected, hclient]
        rfl
      have hnone := h.synced.outbox_eq_nil hreceiver hbroker
      exact absurd (List.map_eq_nil_iff.mp hnone) (h.inv.inflight_ne_nil hconnected hmessages)
    | cons reply replies =>
      have hmem : reply ∈ s.to_broker := hbroker ▸ List.mem_cons_self
      have hstep : recipient_step client s (.reply 0) = some ({ s with
          msgs_out := (handle_reply client 0 s.msgs_out reply).msgs_out
          to_client := s.to_client ++ (handle_reply client 0 s.msgs_out reply).packets
          to_broker := replies }, []) := by
        rw [recipient_step, hbroker]
        exact if_pos (h.accepted hmem 0)
      refine ⟨.reply 0, _, _, trivial, hstep, hconnected, rfl, ?_⟩
      have hless := h.remaining_reply hmem 0
      simp only [recipient.remaining, hclient, hbroker, List.map_append, List.sum_append,
        List.map_cons, List.sum_cons, List.map_nil, List.sum_nil]
      omega

/-- If the connection lasts, nothing is left in the end: there is a run of arrivals after which the
broker has no message for the client. Nothing new is taken in it. -/
theorem Receiving.drain (h : Receiving client s got) (hconnected : s.connected = true) :
    ∃ labels stop rest, (∀ label ∈ labels, recipient_label.Arrival label) ∧
      Run (recipient_step client) s labels stop rest ∧ stop.msgs_out.messages = [] ∧ stop.taken = s.taken ∧
        Receiving client stop (got ++ rest) := by
  -- A message of the queue counts for more than the four packets that it leads to.
  induction hmeasure : s.remaining using Nat.strong_induction_on generalizing s got with
  | _ n ih =>
    by_cases hmessages : s.msgs_out.messages = []
    · exact ⟨[], s, [], fun _ hlabel => absurd hlabel List.not_mem_nil, .nil, hmessages, rfl,
        (List.append_nil got).symm ▸ h⟩
    · obtain ⟨label, next, emitted, harrival, hstep, hstill, htaken, hless⟩ :=
        h.arrival hconnected hmessages
      obtain ⟨labels, stop, rest, harrivals, hrun, hempty, hsame, hstop⟩ :=
        ih next.remaining (hmeasure ▸ hless) (recipient_step_receiving h hstep) hstill rfl
      have hfirst : Run (recipient_step client) s [label] next emitted := Run.snoc .nil hstep
      refine ⟨[label] ++ labels, stop, emitted ++ rest, ?_, hfirst.append hrun, hempty,
        hsame.trans htaken, ?_⟩
      · exact List.forall_mem_append.mpr ⟨List.forall_mem_singleton.mpr harrival, harrivals⟩
      · rw [← List.append_assoc]
        exact hstop

/-- However often the connection is lost, a client receives no message more often than the
broker has taken it, and what it has not received is still at the broker. The broker never
refuses what the client says. If the client comes back and the connection lasts for a while,
it has received every message exactly once. All of its messages have QoS 2 and no expiry, and
none is too large for it: the broker drops those without a word, and what it does for the
other QoS is not said here. -/
theorem received_once (client : client_context) (inflight_maximum : Nat)
    (labels : List recipient_label) :
    EveryState (recipient_step client) (recipient_start inflight_maximum) labels fun _ s got =>
      got.Subperm s.taken ∧
        s.taken.Subperm (got ++ s.msgs_out.messages.map mosquitto_client_msg.store) ∧
        (∀ reply ∈ s.to_broker, ∀ now_real_s,
          (handle_reply client now_real_s s.msgs_out reply).rc = .MOSQ_ERR_SUCCESS) ∧
        ∀ now_real_s, ∃ later stop rest, (∀ label ∈ later, recipient_label.Arrival label) ∧
          Run (recipient_step client) s (.reconnect now_real_s :: later) stop rest ∧
            (got ++ rest).Perm s.taken := by
  have hreceiving : EveryState (recipient_step client) (recipient_start inflight_maximum) labels
      fun _ s got => Receiving client s got := by
    refine everyState_of_step (receiving_start client inflight_maximum)
      (fun _ _ _ _ _ _ h hstep => ?_) labels
    exact recipient_step_receiving h hstep
  intro past s got hprefix hrun
  have h := hreceiving past s got hprefix hrun
  obtain ⟨honce, hkept⟩ := h.taken_subperm
  refine ⟨honce, hkept, fun reply hreply now_real_s => h.accepted hreply now_real_s, fun now_real_s => ?_⟩
  obtain ⟨later, stop, rest, hlater, hdrain, hempty, htaken, hstop⟩ := (h.reconnect now_real_s).drain rfl
  have hback : Run (recipient_step client) s [.reconnect now_real_s] _ [] :=
    Run.snoc .nil (h.step_reconnect now_real_s)
  refine ⟨later, stop, rest, hlater, hback.append hdrain, ?_⟩
  obtain ⟨hdelivered, hall⟩ := hstop.taken_subperm
  rw [hempty, List.map_nil, List.append_nil] at hall
  rw [htaken] at hdelivered hall
  exact hdelivered.antisymm hall

private def window_delivery (payload : Text) : mosquitto_msg_store :=
  { source_id := ascii "publisher"
    topic := ascii "ESP32/window"
    payload := payload
    qos := 2
    retain := true
    message_expiry_time := 0 }

private def small_client : client_context where
  protocol := .mosq_p_mqtt5
  maximum_packet_size := 64

-- The second message comes while the client is away.
private def interrupted : List recipient_label :=
  [.insert 0 (window_delivery (ascii "1")) true [], .receive, .disconnect,
    .insert 0 (window_delivery (ascii "0")) true (subscription_properties 7), .reconnect 0, .receive,
    .receive, .reply 0, .reply 0, .receive, .receive, .reply 0, .reply 0]

theorem received_once_interrupted :
    ∃ s got, Run (recipient_step small_client) (recipient_start 20) interrupted s got ∧
      got = [window_delivery (ascii "1"), window_delivery (ascii "0")] ∧
      s.taken = [window_delivery (ascii "1"), window_delivery (ascii "0")] ∧ got.Subperm s.taken := by
  have hexec : (exec (recipient_step small_client) (recipient_start 20) interrupted).map (fun run =>
      (run.2, run.1.taken)) = some ([window_delivery (ascii "1"), window_delivery (ascii "0")],
        [window_delivery (ascii "1"), window_delivery (ascii "0")]) := by
    decide
  obtain ⟨⟨s, got⟩, hrun, hdone⟩ := Option.map_eq_some_iff.mp hexec
  obtain ⟨hgot, htaken⟩ := Prod.mk.inj hdone
  have honce := (received_once small_client 20 interrupted).last (.of_exec hrun)
  exact ⟨s, got, .of_exec hrun, hgot, htaken, honce.1⟩

end communication_center.mosquitto
