import CommunicationCenter.Mosquitto.Publisher

open libc handshake transition

namespace communication_center.mosquitto

/-- What a step of the client and the broker keeps. It is a step of the handshake, or
one that the handshake does not see. -/
structure Kept (client : Text) (s next : publisher) (emitted : List (Event mosquitto_msg_store)) :
    Prop where
  inv : PublisherInv client next
  published : published_for client next.ops = published_for client s.ops ++ delivered emitted
  session : (∃ label, step s.session label = some (next.session, emitted)) ∨
    next.session = s.session ∧ emitted = []

/-- Packets that arrive. -/
def publisher_label.Arrival : publisher_label → Prop
  | .receive | .reply => True
  | .send _ _ | .reconnect _ | .other _ => False

variable {client : Text} {protocol : mosquitto_protocol} {s next : publisher}
  {packet : Packet UInt16 mosquitto_msg_store} {packets : List (Packet UInt16 mosquitto_msg_store)}
  {message : mosquitto_msg_store} {mid : UInt16} {label : publisher_label}
  {events emitted : List (Event mosquitto_msg_store)} {inflight_maximum : Nat}

/-- What was published for a client in two histories is what was published in the one and then in
the other. -/
theorem published_for_append (first second : List broker_op) :
    published_for client (first ++ second) = published_for client first ++ published_for client second := by
  rw [published_for, List.filterMap_append, List.filter_append]
  rfl

/-- An operation that publishes nothing for the client adds nothing. -/
theorem published_for_other {op : broker_op} (hother : publishes_for client op = false) :
    published_for client [op] = [] := by
  cases hpublished : published_of op with
  | none => simp [published_for, hpublished]
  | some stored => simpa [published_for, publishes_for, hpublished] using hother

/-- What is published for the client adds itself. -/
theorem published_for_publish {routed : List mosquitto_msg_store}
    (hsource : ∀ stored ∈ routed, stored.source_id = client) :
    published_for client (routed.map .publish) = routed := by
  rw [published_for, List.filterMap_map]
  refine (congrArg _ List.filterMap_some).trans (List.filter_eq_self.mpr fun stored hstored => ?_)
  exact decide_eq_true (hsource stored hstored)

/-- At the start both sides are in step, as there is nothing under way, and the whole quota is
left. -/
theorem publisherInv_start (client : Text) (inflight_maximum : Nat) :
    PublisherInv client (publisher_start inflight_maximum) where
  synced := synced_empty
  incoming :=
    { queued := rfl
      mids := List.nodup_nil
      stored := fun _ hcmsg => absurd hcmsg List.not_mem_nil }
  quota := Nat.le_add_right _ _
  window := Or.inr (Nat.zero_le _)
  sendable := fun _ hpending => absurd hpending List.not_mem_nil
  replies := fun _ hreply => absurd hreply List.not_mem_nil
  first := fun _ _ hpacket => absurd hpacket List.not_mem_nil

/-- The client can send a message with a free identifier while its window has room, and the
invariant is kept. The packet that is on its way holds nothing of an older message. -/
theorem PublisherInv.send (h : PublisherInv client s) (hfresh : mid ∉ s.outbox.map Pending.id)
    (hsendable : Sendable client mid message)
    (hwindow : s.msgs_in.inflight_maximum = 0 ∨ s.outbox.length < s.msgs_in.inflight_maximum) :
    PublisherInv client { s with
      outbox := s.outbox ++ [⟨mid, message, false⟩]
      to_broker := s.to_broker ++ [.publish mid message] } where
  synced := h.synced.send hfresh
  incoming := h.incoming
  quota := h.quota
  window := by
    rw [List.length_append]
    exact hwindow
  sendable := List.forall_mem_append.mpr ⟨h.sendable, List.forall_mem_singleton.mpr hsendable⟩
  replies := h.replies
  first := by
    intro other stored hpacket cmsg hcmsg hmid
    obtain hold | hnew := List.mem_append.mp hpacket
    · exact h.first other stored hold cmsg hcmsg hmid
    · -- The broker holds nothing with an identifier that is not pending.
      obtain ⟨rfl, rfl⟩ := Packet.publish.inj (List.mem_singleton.mp hnew)
      obtain ⟨pending, hpending, hid, -⟩ := h.pending_of_mem hcmsg
      exact absurd (List.mem_map.mpr ⟨pending, hpending, hid.trans hmid⟩) hfresh

/-- A reply that arrives at the client keeps the invariant, and is a reply of the handshake. -/
theorem PublisherInv.reply (h : PublisherInv client s) {reply : mosquitto_reply}
    {replies : List mosquitto_reply} {said : Reply UInt16} (hqueue : s.to_client = reply :: replies)
    (hsaid : reply_of reply = some said) :
    PublisherInv client { s with
        outbox := (answer s.outbox said).1
        to_broker := s.to_broker ++ (answer s.outbox said).2.1
        to_client := replies } ∧
      step s.session .reply = some (publisher.session { s with
        outbox := (answer s.outbox said).1
        to_broker := s.to_broker ++ (answer s.outbox said).2.1
        to_client := replies }, (answer s.outbox said).2.2) := by
  have hsender : s.session.to_sender = said :: replies.filterMap reply_of := by
    rw [publisher.session, hqueue]
    exact List.filterMap_cons_some hsaid
  refine ⟨⟨h.synced.reply hsender, h.incoming, h.quota, ?_, fun pending hpending => ?_,
    fun other hother => ?_, fun mid message hpacket => ?_⟩, ?_⟩
  · exact h.window.imp_right fun hle => (length_answer_le s.outbox said).trans hle
  · obtain ⟨old, hold, hid, hmessage⟩ := mem_answer hpending
    rw [← hid, ← hmessage]
    exact h.sendable old hold
  · exact h.replies other (hqueue ▸ List.mem_cons_of_mem _ hother)
  · obtain hold | hnew := List.mem_append.mp hpacket
    · exact h.first mid message hold
    · obtain ⟨id, heq⟩ := release_of_mem_answer hnew
      cases heq
  · rw [step, hsender]
    rfl

/-- What the broker holds does not expire. -/
theorem PublisherInv.lasting (h : PublisherInv client s) {cmsg : mosquitto_client_msg}
    (hcmsg : cmsg ∈ s.msgs_in.inflight) : cmsg.store.message_expiry_time = 0 := by
  obtain ⟨pending, hpending, -, hmessage⟩ := h.pending_of_mem hcmsg
  exact hmessage ▸ (h.sendable pending hpending).lasting

/-- When the client is back, nothing of it has expired, because its messages never do. -/
theorem PublisherInv.connect_incoming (h : PublisherInv client s) (now_real_s : Int) :
    db_expire_all_messages now_real_s (db_message_reconnect_reset_incoming s.msgs_in) =
      db_message_reconnect_reset_incoming s.msgs_in := by
  refine db_expire_all_messages_eq fun cmsg hcmsg => ?_
  rw [h.incoming.reset, List.append_nil] at hcmsg
  obtain ⟨old, hold, rfl⟩ := List.mem_map.mp hcmsg
  have hlasting := h.lasting hold
  exact hlasting

/-- A new connection keeps the invariant: the client resends what is pending, and the broker, which
keeps what it holds, forgets how often a message came. -/
theorem PublisherInv.reconnect (h : PublisherInv client s) :
    PublisherInv client { s with
        to_broker := s.outbox.map Pending.packet
        to_client := []
        msgs_in := db_message_reconnect_reset_incoming s.msgs_in } ∧
      step s.session .reconnect = some (publisher.session { s with
        to_broker := s.outbox.map Pending.packet
        to_client := []
        msgs_in := db_message_reconnect_reset_incoming s.msgs_in }, []) := by
  have hreset := h.incoming.reset
  obtain ⟨hincoming, hheld⟩ : Incoming (db_message_reconnect_reset_incoming s.msgs_in) ∧
      held_of (db_message_reconnect_reset_incoming s.msgs_in) = held_of s.msgs_in := by
    refine h.incoming.of_plain (by rw [hreset]) ?_
    rw [hreset]
    exact map_plain_plain s.msgs_in.inflight
  have hsession : publisher.session { s with
      to_broker := s.outbox.map Pending.packet
      to_client := []
      msgs_in := db_message_reconnect_reset_incoming s.msgs_in } = { s.session with
        to_receiver := s.session.outbox.map Pending.packet
        to_sender := [] } := by
    rw [publisher.session]
    simp only [hheld]
    rfl
  refine ⟨⟨hsession ▸ h.synced.reconnect, hincoming, ?_, ?_, h.sendable, ?_, ?_⟩, hsession ▸ rfl⟩
  · simp only [hreset, List.length_map]
    omega
  · simp only [hreset]
    exact h.window
  · exact fun _ hreply => absurd hreply List.not_mem_nil
  · intro mid message _ cmsg hcmsg _
    simp only [hreset] at hcmsg
    obtain ⟨old, -, rfl⟩ := List.mem_map.mp hcmsg
    rfl

/-- Everything that is passed on was sent by the client. -/
theorem PublisherInv.source_of_routed (h : PublisherInv client s) {result : handled}
    (hresult : Accepted s.msgs_in packet result) {stored : mosquitto_msg_store}
    (hstored : stored ∈ result.routed) : stored.source_id = client := by
  have hdelivered : .delivered stored ∈ (handshake.receive (held_of s.msgs_in) packet).2.2 :=
    hresult.routed ▸ List.mem_map_of_mem hstored
  obtain ⟨pending, hpending, -, rfl⟩ := h.synced.held _ _ (held_of_mem_receive hdelivered)
  exact (h.sendable pending hpending).source_id

/-- What one step keeps, whoever takes it: the invariant, and what the handshake says of the
messages that were sent, published and completed. -/
theorem publisher_step_kept (h : PublisherInv client s)
    (hstep : publisher_step client protocol s label = some (next, emitted)) :
    Kept client s next emitted := by
  cases label with
  | send mid message =>
    rw [publisher_step] at hstep
    split at hstep
    · rename_i hguard
      obtain ⟨hfresh, hsendable, hwindow⟩ := hguard
      obtain ⟨rfl, rfl⟩ := Prod.mk.inj (Option.some.inj hstep)
      refine ⟨h.send hfresh hsendable hwindow, (List.append_nil _).symm, ?_⟩
      refine Or.inl ⟨.send mid message, ?_⟩
      exact if_neg hfresh
    · cases hstep
  | receive =>
    rw [publisher_step] at hstep
    split at hstep
    · cases hstep
    · rename_i packet packets hqueue
      have haccepted : Accepted s.msgs_in packet
          (handle_packet protocol (broker_run s.ops db_open).1.subs s.msgs_in packet) :=
        h.accepted (hqueue ▸ List.mem_cons_self)
      -- The connection is not closed, since the broker accepts the packet.
      rw [if_pos haccepted.rc] at hstep
      obtain ⟨rfl, rfl⟩ := Prod.mk.inj (Option.some.inj hstep)
      obtain ⟨hinv, hsession⟩ := h.receive hqueue _ haccepted
      refine ⟨hinv, ?_, Or.inl ⟨.receive, hsession⟩⟩
      rw [published_for_append, delivered_map_delivered, published_for_publish]
      exact fun stored hstored => h.source_of_routed haccepted hstored
  | reply =>
    rw [publisher_step] at hstep
    split at hstep
    · cases hstep
    · rename_i reply replies hqueue
      have hsome := h.replies reply (hqueue ▸ List.mem_cons_self)
      split at hstep
      · rename_i hnone
        rw [hnone] at hsome
        cases hsome
      · rename_i said hsaid
        obtain ⟨rfl, rfl⟩ := Prod.mk.inj (Option.some.inj hstep)
        obtain ⟨hinv, hsession⟩ := h.reply hqueue hsaid
        refine ⟨hinv, ?_, Or.inl ⟨.reply, hsession⟩⟩
        rw [delivered_answer, List.append_nil]
  | reconnect now_real_s =>
    rw [publisher_step, h.connect_incoming now_real_s] at hstep
    obtain ⟨rfl, rfl⟩ := Prod.mk.inj (Option.some.inj hstep)
    obtain ⟨hinv, hsession⟩ := h.reconnect
    exact ⟨hinv, (List.append_nil _).symm, Or.inl ⟨.reconnect, hsession⟩⟩
  | other op =>
    rw [publisher_step] at hstep
    split at hstep
    · cases hstep
    · rename_i hother
      obtain ⟨rfl, rfl⟩ := Prod.mk.inj (Option.some.inj hstep)
      refine ⟨{ h with }, ?_, Or.inr ⟨rfl, rfl⟩⟩
      rw [published_for_append, published_for_other (Bool.not_eq_true _ ▸ hother)]
      rfl

/-- The broker takes the next packet. It can always do so, and it does in the handshake what the
receiver does. -/
theorem PublisherInv.step_receive (h : PublisherInv client s) (protocol : mosquitto_protocol)
    (hqueue : s.to_broker = packet :: packets) :
    ∃ next emitted, publisher_step client protocol s .receive = some (next, emitted) ∧
      step s.session .receive = some (next.session, emitted) := by
  have haccepted : Accepted s.msgs_in packet
      (handle_packet protocol (broker_run s.ops db_open).1.subs s.msgs_in packet) :=
    h.accepted (hqueue ▸ List.mem_cons_self)
  have hsession := (h.receive hqueue
    (s.ops ++ (handle_packet protocol (broker_run s.ops db_open).1.subs s.msgs_in packet).routed.map
      .publish) haccepted).2
  refine ⟨_, _, ?_, hsession⟩
  rw [publisher_step, hqueue]
  exact if_pos haccepted.rc

/-- The client takes the next reply. It can always do so, and it does in the handshake what the
sender does. -/
theorem PublisherInv.step_reply (h : PublisherInv client s) (protocol : mosquitto_protocol)
    {reply : mosquitto_reply} {replies : List mosquitto_reply} (hqueue : s.to_client = reply :: replies) :
    ∃ next emitted, publisher_step client protocol s .reply = some (next, emitted) ∧
      step s.session .reply = some (next.session, emitted) := by
  obtain ⟨said, hsaid⟩ := Option.isSome_iff_exists.mp (h.replies reply (hqueue ▸ List.mem_cons_self))
  refine ⟨_, _, ?_, (h.reply hqueue hsaid).2⟩
  rw [publisher_step, hqueue]
  simp only [hsaid]

/-- What can arrive in the handshake can arrive here, with the same effect on it. This carries the
progress of the handshake over to the broker. -/
theorem PublisherInv.follow (h : PublisherInv client s) (protocol : mosquitto_protocol)
    {label : Label UInt16 mosquitto_msg_store} {session : Session UInt16 mosquitto_msg_store}
    (harrival : label.Arrival)
    (hstep : step s.session label = some (session, emitted)) :
    ∃ label next, publisher_label.Arrival label ∧
      publisher_step client protocol s label = some (next, emitted) ∧ next.session = session := by
  cases label with
  | send id message => exact harrival.elim
  | reconnect => exact harrival.elim
  | receive =>
    cases hqueue : s.to_broker with
    | nil =>
      rw [step, show s.session.to_receiver = [] from hqueue] at hstep
      cases hstep
    | cons packet packets =>
      obtain ⟨next, taken, hnext, hsession⟩ := h.step_receive protocol hqueue
      obtain ⟨hsame, rfl⟩ := Prod.mk.inj (Option.some.inj (hsession.symm.trans hstep))
      exact ⟨.receive, next, trivial, hnext, hsame⟩
  | reply =>
    cases hqueue : s.to_client with
    | nil =>
      rw [step, publisher.session, hqueue] at hstep
      cases hstep
    | cons reply replies =>
      obtain ⟨next, taken, hnext, hsession⟩ := h.step_reply protocol hqueue
      obtain ⟨hsame, rfl⟩ := Prod.mk.inj (Option.some.inj (hsession.symm.trans hstep))
      exact ⟨.reply, next, trivial, hnext, hsame⟩

/-- What a run of the client and the broker has done. -/
structure Publishing (client : Text) (s : publisher) (events : List (Event mosquitto_msg_store)) :
    Prop where
  inv : PublisherInv client s
  accounted : Accounted s.session events
  published : published_for client s.ops = delivered events

/-- The step lemma: every step of the client, the broker and the connection keeps the invariant and
the books. -/
theorem Publishing.step (h : Publishing client s events)
    (hstep : publisher_step client protocol s label = some (next, emitted)) :
    Publishing client next (events ++ emitted) := by
  obtain ⟨hinv, hpublished, hsession⟩ := publisher_step_kept h.inv hstep
  refine ⟨hinv, ?_, ?_⟩
  · obtain ⟨label, hsession⟩ | ⟨hsession, rfl⟩ := hsession
    · exact (synced_step h.inv.synced h.accounted hsession).2
    · rw [hsession, List.append_nil]
      exact h.accounted
  · rw [hpublished, h.published, delivered_append]

/-- What can happen in the handshake can happen at the broker: a run of arrivals there is one of
packets and replies here, with the same end. -/
theorem Publishing.follow_run (h : Publishing client s events) (protocol : mosquitto_protocol)
    {labels : List (Label UInt16 mosquitto_msg_store)} {session : Session UInt16 mosquitto_msg_store}
    (harrivals : ∀ label ∈ labels, Label.Arrival label)
    (hrun : Run handshake.step s.session labels session emitted) :
    ∃ later stop, (∀ label ∈ later, publisher_label.Arrival label) ∧
      Run (publisher_step client protocol) s later stop emitted ∧ stop.session = session ∧
        Publishing client stop (events ++ emitted) := by
  induction hrun with
  | nil => exact ⟨[], s, by simp, .nil, rfl, (List.append_nil events).symm ▸ h⟩
  | snoc _ hstep ih =>
    obtain ⟨hbefore, hlast⟩ := List.forall_mem_append.mp harrivals
    obtain ⟨later, mid, hlater, hmid, rfl, hpublishing⟩ := ih hbefore
    obtain ⟨label, stop, harrival, hstop, hsession⟩ :=
      hpublishing.inv.follow protocol (List.forall_mem_singleton.mp hlast) hstep
    refine ⟨later ++ [label], stop, ?_, hmid.snoc hstop, hsession, ?_⟩
    · exact List.forall_mem_append.mpr ⟨hlater, List.forall_mem_singleton.mpr harrival⟩
    · rw [← List.append_assoc]
      exact hpublishing.step hstop

/-- However often the connection is lost and packets are sent again, the broker publishes no
message of the client more often than it was sent, and every message before the client is told so.
It never refuses a packet. If the connection lasts for a while, everything has been published
exactly once. The client keeps its session and has no more messages pending than it may; its
messages do not expire and are not below `$CONTROL/`, which the model of the client asks of each
one it sends. Other clients may do anything in between. What the broker does for those that are
subscribed is no part of this. -/
theorem published_once (client : Text) (protocol : mosquitto_protocol) (inflight_maximum : Nat)
    (labels : List publisher_label) :
    EveryState (publisher_step client protocol) (publisher_start inflight_maximum) labels
      fun _ s events =>
        (completed events).Subperm (published_for client s.ops) ∧
          (published_for client s.ops).Subperm (sent events) ∧
          (∀ packet ∈ s.to_broker,
            (handle_packet protocol (broker_run s.ops db_open).1.subs s.msgs_in packet).rc =
              .MOSQ_ERR_SUCCESS) ∧
          ∃ later stop emitted, (∀ label ∈ later, publisher_label.Arrival label) ∧
            Run (publisher_step client protocol) s later stop emitted ∧ stop.outbox = [] ∧
              (published_for client stop.ops).Perm (sent events) := by
  have hpublishing : EveryState (publisher_step client protocol) (publisher_start inflight_maximum)
      labels fun _ s events => Publishing client s events := by
    refine everyState_of_step ⟨publisherInv_start client inflight_maximum, accounted_empty, rfl⟩
      (fun _ _ _ _ _ _ h hstep => ?_) labels
    exact h.step hstep
  intro past s events hprefix hrun
  have h := hpublishing past s events hprefix hrun
  obtain ⟨hcompleted, hdelivered⟩ := h.accounted.exactly_once
  -- The handshake comes to its end, and the broker and the client follow it.
  obtain ⟨arrivals, session, emitted, harrivals, hdrain, hempty, -⟩ := h.inv.synced.drain h.accounted
  obtain ⟨later, stop, hlater, hstop, rfl, hend⟩ := h.follow_run protocol harrivals hdrain
  refine ⟨h.published ▸ hcompleted, h.published ▸ hdelivered,
    fun packet hpacket => (h.inv.accepted hpacket).rc, later, stop, emitted, hlater, hstop, hempty, ?_⟩
  have hsent : sent (events ++ emitted) = sent events := by
    rw [sent_append, sent_of_arrivals harrivals hdrain, List.append_nil]
  rw [hend.published, ← hsent]
  exact hend.accounted.all_delivered hempty

private def window_sent : mosquitto_msg_store :=
  { source_id := ascii "publisher"
    topic := ascii "ESP32/window"
    payload := ascii "1"
    qos := 2
    retain := true
    message_expiry_time := 0
    source_mid := 1 }

-- The connection is lost with the PUBREC under way, and again with the PUBCOMP.
private def lost_connections : List publisher_label :=
  [.send 1 window_sent, .receive, .reconnect 10, .receive, .reply, .receive, .reconnect 20, .receive,
    .reply]

theorem published_once_lost_connections :
    ∃ s events,
      Run (publisher_step (ascii "publisher") .mosq_p_mqtt311) (publisher_start 20) lost_connections s
        events ∧
      completed events = [window_sent] ∧
      (completed events).Subperm (published_for (ascii "publisher") s.ops) ∧
      published_for (ascii "publisher") s.ops = [window_sent] := by
  have hexec : (exec (publisher_step (ascii "publisher") .mosq_p_mqtt311) (publisher_start 20)
      lost_connections).map (fun run => (completed run.2, published_for (ascii "publisher") run.1.ops)) =
        some ([window_sent], [window_sent]) := by
    decide
  obtain ⟨⟨s, events⟩, hrun, hdone⟩ := Option.map_eq_some_iff.mp hexec
  obtain ⟨hcompleted, hpublished⟩ := Prod.mk.inj hdone
  have honce := (published_once (ascii "publisher") .mosq_p_mqtt311 20 lost_connections).last
    (.of_exec hrun)
  exact ⟨s, events, .of_exec hrun, hcompleted, honce.1, hpublished⟩

end communication_center.mosquitto
