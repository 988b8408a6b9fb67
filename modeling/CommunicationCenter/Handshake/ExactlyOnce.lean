import CommunicationCenter.Handshake.Session

open transition

namespace handshake

variable {K M : Type} {session next : Session K M} {pending other : Pending K M}
  {before after : List (Pending K M)} {events emitted : List (Event M)} {label : Label K M}

theorem id_packet (pending : Pending K M) : pending.packet.id = pending.id := by
  rw [Pending.packet]
  split
  · rfl
  · rfl

theorem id_reply (pending : Pending K M) : pending.reply.id = pending.id := by
  rw [Pending.reply]
  split
  · rfl
  · rfl

/-- A pending message is the only one with its identifier, so that the outbox can be taken apart at
it. -/
theorem Synced.split (h : Synced session) (hmem : pending ∈ session.outbox) :
    ∃ before after, session.outbox = before ++ pending :: after ∧
      ∀ other ∈ before ++ after, other.id ≠ pending.id := by
  obtain ⟨before, after, heq⟩ := List.append_of_mem hmem
  refine ⟨before, after, heq, fun other hother hid => ?_⟩
  have hids := h.ids
  rw [heq, List.map_append, List.map_cons] at hids
  have hnotMem := (List.nodup_cons.mp (List.perm_middle.nodup_iff.mp hids)).1
  rw [← List.map_append] at hnotMem
  exact hnotMem (hid ▸ List.mem_map_of_mem hother)

/-- The messages under way are known by their identifiers, as no two of them share one. -/
theorem Synced.eq_of_id (h : Synced session) (hmem : pending ∈ session.outbox)
    (hother : other ∈ session.outbox) (hid : other.id = pending.id) : other = pending :=
  List.inj_on_of_nodup_map h.ids hother hmem hid

/-- What the receiver holds of a pending message is the message. -/
theorem Synced.message_eq (h : Synced session) (hmem : pending ∈ session.outbox) {message : M}
    (hheld : session.held pending.id = some message) : message = pending.message := by
  obtain ⟨other, hother, hid, rfl⟩ := h.held _ _ hheld
  rw [h.eq_of_id hmem hother hid]

/-- No two packets or replies under way are about one message. -/
theorem Synced.nodup_underway (h : Synced session) : session.underway.Nodup :=
  h.underway.nodup_iff.mpr h.ids

/-- A session without messages is in step. -/
theorem synced_empty : Synced (.empty : Session K M) where
  ids := List.nodup_nil
  underway := .nil
  packets := nofun
  replies := nofun
  held := nofun

/-- A new message whose identifier is free leaves both sides in step: its packet is the last one on
the way, and the receiver holds nothing for it yet. -/
theorem Synced.send (h : Synced session) {id : K} {message : M}
    (hfresh : id ∉ session.outbox.map Pending.id) :
    Synced { session with
      outbox := session.outbox ++ [⟨id, message, false⟩]
      to_receiver := session.to_receiver ++ [.publish id message] } where
  ids := by
    rw [List.map_append, List.map_singleton]
    exact (List.perm_append_singleton _ _).nodup_iff.mpr (List.nodup_cons.mpr ⟨hfresh, h.ids⟩)
  underway := by
    rw [List.map_append, List.map_singleton]
    refine List.Perm.trans ?_ (h.underway.append_right [id])
    rw [Session.underway, Session.underway, List.map_append, List.map_singleton, List.append_assoc,
      List.append_assoc]
    exact List.Perm.append_left _ List.perm_append_comm
  packets := by
    intro packet hpacket
    obtain hold | hnew := List.mem_append.mp hpacket
    · obtain ⟨pending, hpending, heq⟩ := h.packets packet hold
      exact ⟨pending, List.mem_append_left _ hpending, heq⟩
    · exact ⟨_, List.mem_append_right _ (List.mem_singleton_self _), List.mem_singleton.mp hnew⟩
  replies := by
    intro reply hreply
    obtain ⟨pending, hpending, heq⟩ := h.replies reply hreply
    exact ⟨pending, List.mem_append_left _ hpending, heq⟩
  held := by
    intro id message hheld
    obtain ⟨pending, hpending, heq⟩ := h.held id message hheld
    exact ⟨pending, List.mem_append_left _ hpending, heq⟩

/-- When a reply about one message is taken from the link, what is said about the other messages
stays as it is, in both directions. -/
theorem Synced.others (h : Synced session) {reply : Reply K} {replies : List (Reply K)}
    (hqueue : session.to_sender = reply :: replies) (hreply : reply = pending.reply) :
    (∀ packet ∈ session.to_receiver, ∃ other ∈ session.outbox,
        packet = other.packet ∧ other.id ≠ pending.id) ∧
      ∀ reply ∈ replies, ∃ other ∈ session.outbox,
        reply = other.reply ∧ session.held other.id = other.expected ∧ other.id ≠ pending.id := by
  have hnodup := h.nodup_underway
  rw [Session.underway, hqueue, List.map_cons, hreply, id_reply] at hnodup
  have hnotMem := (List.nodup_cons.mp (List.perm_middle.nodup_iff.mp hnodup)).1
  constructor
  · intro packet hpacket
    obtain ⟨other, hother, rfl⟩ := h.packets packet hpacket
    refine ⟨other, hother, rfl, fun hid => hnotMem (List.mem_append_left _ ?_)⟩
    rw [← hid, ← id_packet]
    exact List.mem_map_of_mem hpacket
  · intro reply hmem
    obtain ⟨other, hother, rfl, hheld⟩ := h.replies reply (hqueue ▸ List.mem_cons_of_mem _ hmem)
    refine ⟨other, hother, rfl, hheld, fun hid => hnotMem (List.mem_append_right _ ?_)⟩
    rw [← hid, ← id_reply]
    exact List.mem_map_of_mem hmem

/-- The packets of a new connection are what the sender has to say about each message, in order.
What was on the old links is gone, and nothing else need be known of them. -/
theorem Synced.reconnect (h : Synced session) : Synced { session with
    to_receiver := session.outbox.map Pending.packet
    to_sender := [] } where
  ids := h.ids
  underway := by
    have hsame : session.outbox.map (Packet.id ∘ Pending.packet) = session.outbox.map Pending.id :=
      List.map_congr_left fun pending _ => id_packet pending
    rw [Session.underway, List.map_nil, List.append_nil, List.map_map, hsame]
  packets := by
    intro packet hpacket
    obtain ⟨pending, hpending, rfl⟩ := List.mem_map.mp hpacket
    exact ⟨pending, hpending, rfl⟩
  replies := fun _ hreply => absurd hreply List.not_mem_nil
  held := h.held

/-- What was sent in two stretches of a run is what was sent in the one and then in the other. -/
theorem sent_append (first second : List (Event M)) :
    sent (first ++ second) = sent first ++ sent second :=
  List.filterMap_append

/-- The same holds for what was delivered. -/
theorem delivered_append (first second : List (Event M)) :
    delivered (first ++ second) = delivered first ++ delivered second :=
  List.filterMap_append

/-- And for what the sender is done with. -/
theorem completed_append (first second : List (Event M)) :
    completed (first ++ second) = completed first ++ completed second :=
  List.filterMap_append

theorem sent_map_delivered (messages : List M) : sent (messages.map .delivered) = [] := by
  rw [sent, List.filterMap_map]
  exact List.filterMap_eq_nil_iff.mpr fun _ _ => rfl

theorem sent_map_sent {T : Type} (list : List T) (message : T → M) :
    sent (list.map fun x => .sent (message x)) = list.map message := by
  rw [sent, List.filterMap_map]
  exact congrFun List.filterMap_eq_map' list

theorem delivered_map_sent {T : Type} (list : List T) (message : T → M) :
    delivered (list.map fun x => .sent (message x)) = [] := by
  rw [delivered, List.filterMap_map]
  exact List.filterMap_eq_nil_iff.mpr fun _ _ => rfl

theorem completed_map_delivered (messages : List M) : completed (messages.map .delivered) = [] := by
  rw [completed, List.filterMap_map]
  exact List.filterMap_eq_nil_iff.mpr fun _ _ => rfl

theorem delivered_map_delivered (messages : List M) :
    delivered (messages.map .delivered) = messages := by
  rw [delivered, List.filterMap_map]
  exact List.filterMap_some

/-- A new last element can be put in front of the third of three parts, in a list that is known up
to order. -/
theorem perm_snoc_middle {T : Type} {x : T} {list first second third : List T}
    (h : list.Perm (first ++ (second ++ third))) :
    (list ++ [x]).Perm (first ++ (second ++ x :: third)) := by
  refine (List.perm_append_singleton x list).trans ((h.cons x).trans ?_)
  rw [← List.append_assoc, ← List.append_assoc]
  exact List.perm_middle.symm

/-- An element can be moved from in front of the third part to behind the first one. -/
theorem perm_middle_snoc {T : Type} {x : T} {list first second third : List T}
    (h : list.Perm (first ++ (second ++ x :: third))) :
    list.Perm (first ++ [x] ++ (second ++ third)) := by
  rw [List.append_assoc, List.singleton_append]
  exact h.trans (List.Perm.append_left _ List.perm_middle)

/-- At the start nothing was sent, and nothing is owed. -/
theorem accounted_empty : Accounted (.empty : Session K M) [] where
  sent_perm := .nil
  delivered_perm := .nil

/-- A message that is sent is accounted for as pending, and is not settled before the receiver has
delivered it. -/
theorem Accounted.send (h : Accounted session events) (id : K) (message : M) :
    Accounted { session with
      outbox := session.outbox ++ [⟨id, message, false⟩]
      to_receiver := session.to_receiver ++ [.publish id message] } (events ++ [.sent message]) := by
  have hcompleted : completed (events ++ [.sent message]) = completed events :=
    (completed_append _ _).trans (List.append_nil _)
  have hdelivered : delivered (events ++ [.sent message]) = delivered events :=
    (delivered_append _ _).trans (List.append_nil _)
  constructor
  · rw [sent_append, hcompleted, List.map_append, ← List.append_assoc]
    exact h.sent_perm.append_right [message]
  · have hsettled : (session.outbox ++ [(⟨id, message, false⟩ : Pending K M)]).filter
        (Pending.settled session.held) = session.settled := by
      rw [List.filter_append]
      exact List.append_nil _
    rw [hdelivered, hcompleted, Session.settled, hsettled]
    exact h.delivered_perm

/-- Nothing is delivered more often than it was sent, and what its sender has finished
with was delivered. -/
theorem Accounted.exactly_once (h : Accounted session events) :
    (completed events).Subperm (delivered events) ∧ (delivered events).Subperm (sent events) := by
  constructor
  · exact (List.sublist_append_left _ _).subperm.trans h.delivered_perm.symm.subperm
  · have hsettled : (session.settled.map Pending.message).Sublist
        (session.outbox.map Pending.message) := List.filter_sublist.map _
    exact h.delivered_perm.subperm.trans
      ((hsettled.append_left _).subperm.trans h.sent_perm.symm.subperm)

variable [DecidableEq K]

/-- What the receiver does with a packet that the sender has under way: it holds what is expected
behind it, answers, and delivers what it held if the message is released. -/
theorem receive_packet (held : K → Option M) (pending : Pending K M) :
    receive held pending.packet = (Function.update held pending.id pending.expected, pending.reply,
      (if pending.released then (held pending.id).toList else []).map .delivered) := by
  rw [Pending.packet, Pending.reply, Pending.expected]
  cases pending.released with
  | true => rfl
  | false => rfl

/-- Both sides are in step when the first packet has arrived. Its answer is under way instead, and
the receiver holds what it should for the message. -/
theorem Synced.receive (h : Synced session) {packet : Packet K M} {packets : List (Packet K M)}
    (hqueue : session.to_receiver = packet :: packets) :
    Synced { session with
      held := (receive session.held packet).1
      to_receiver := packets
      to_sender := session.to_sender ++ [(receive session.held packet).2.1] } := by
  obtain ⟨pending, hpending, rfl⟩ := h.packets packet (hqueue ▸ List.mem_cons_self)
  have hunderway : session.underway =
      pending.id :: (packets.map Packet.id ++ session.to_sender.map Reply.id) := by
    rw [Session.underway, hqueue, List.map_cons, id_packet, List.cons_append]
  have hnotMem := (List.nodup_cons.mp (hunderway ▸ h.nodup_underway)).1
  rw [receive_packet]
  refine ⟨h.ids, ?_, fun packet hpacket => h.packets packet ?_, ?_, ?_⟩
  · refine List.Perm.trans ?_ h.underway
    rw [hunderway, Session.underway, List.map_append, List.map_singleton, id_reply, ← List.append_assoc]
    exact List.perm_append_singleton _ _
  · exact hqueue ▸ List.mem_cons_of_mem _ hpacket
  · intro reply hreply
    obtain hold | hnew := List.mem_append.mp hreply
    · obtain ⟨other, hother, rfl, hheld⟩ := h.replies reply hold
      have hne : other.id ≠ pending.id := by
        intro hid
        apply hnotMem
        rw [← hid, ← id_reply]
        exact List.mem_append_right _ (List.mem_map_of_mem hold)
      exact ⟨other, hother, rfl, (Function.update_of_ne hne _ _).trans hheld⟩
    · exact ⟨pending, hpending, List.mem_singleton.mp hnew, Function.update_self _ _ _⟩
  · intro id message hheld
    change Function.update session.held pending.id pending.expected id = some message at hheld
    by_cases hid : id = pending.id
    · subst hid
      rw [Function.update_self, Pending.expected] at hheld
      split at hheld
      · cases hheld
      · exact ⟨pending, hpending, rfl, Option.some.inj hheld⟩
    · exact h.held id message ((Function.update_of_ne hid _ _).symm.trans hheld)

/-- Releasing a message leaves those with other identifiers as they are. -/
theorem map_release (hne : ∀ other ∈ before, other.id ≠ pending.id) :
    before.map (Pending.release pending.id) = before := by
  calc
    before.map (Pending.release pending.id) = before.map id :=
      List.map_congr_left fun other hother => if_neg (hne other hother)
    _ = before := List.map_id before

/-- Among messages with other identifiers none is found for this one. -/
theorem filter_id (hne : ∀ other ∈ before, other.id ≠ pending.id) (p : Pending K M → Bool) :
    (before.filter fun other => other.id = pending.id && p other) = [] := by
  apply List.filter_eq_nil_iff.mpr
  intro other hother
  simp [hne other hother]

/-- And all of them are left when it is taken away. -/
theorem filter_not_id (hne : ∀ other ∈ before, other.id ≠ pending.id) (p : Pending K M → Bool) :
    (before.filter fun other => !(other.id = pending.id && p other)) = before := by
  apply List.filter_eq_self.mpr
  intro other hother
  simp [hne other hother]

/-- A message that the receiver has said it has is released. The other messages keep their places
and their states. -/
theorem answer_received (hne : ∀ other ∈ before ++ after, other.id ≠ pending.id)
    (hreleased : pending.released = false) :
    answer (before ++ pending :: after) pending.reply =
      (before ++ { pending with released := true } :: after, [.release pending.id], []) := by
  obtain ⟨hbefore, hafter⟩ := List.forall_mem_append.mp hne
  have hreply : pending.reply = .received pending.id := by
    rw [Pending.reply, hreleased]
    rfl
  rw [hreply, answer, List.map_append, List.map_cons, map_release hbefore, map_release hafter,
    List.filter_append, List.filter_cons, filter_id hbefore, filter_id hafter, Pending.release,
    if_pos rfl, hreleased]
  simp

/-- A message that was delivered is done with, and the sender is told so. The message has been
released before. -/
theorem answer_complete (hne : ∀ other ∈ before ++ after, other.id ≠ pending.id)
    (hreleased : pending.released = true) :
    answer (before ++ pending :: after) pending.reply =
      (before ++ after, [], [.completed pending.message]) := by
  obtain ⟨hbefore, hafter⟩ := List.forall_mem_append.mp hne
  have hreply : pending.reply = .complete pending.id := by
    rw [Pending.reply, hreleased]
    rfl
  rw [hreply, answer, List.filter_append, List.filter_append, List.filter_cons, List.filter_cons,
    filter_id hbefore, filter_id hafter, filter_not_id hbefore, filter_not_id hafter, hreleased]
  simp

/-- An answer makes nothing pending, and changes no message. It may change the stage that a message
is in. -/
theorem mem_answer {reply : Reply K} (hmem : pending ∈ (answer before reply).1) :
    ∃ other ∈ before, other.id = pending.id ∧ other.message = pending.message := by
  cases reply with
  | received id =>
    obtain ⟨other, hother, rfl⟩ := List.mem_map.mp hmem
    refine ⟨other, hother, ?_⟩
    rw [Pending.release]
    split
    · exact ⟨rfl, rfl⟩
    · exact ⟨rfl, rfl⟩
  | complete id => exact ⟨pending, List.mem_of_mem_filter hmem, rfl, rfl⟩

/-- An answer never makes the outbox longer. -/
theorem length_answer_le (outbox : List (Pending K M)) (reply : Reply K) :
    (answer outbox reply).1.length ≤ outbox.length := by
  cases reply with
  | received id => exact (List.length_map _).le
  | complete id => exact List.length_filter_le _ _

/-- A reply is answered by releases only. -/
theorem release_of_mem_answer {outbox : List (Pending K M)} {reply : Reply K} {packet : Packet K M}
    (hmem : packet ∈ (answer outbox reply).2.1) : ∃ id, packet = .release id := by
  cases reply with
  | received id =>
    obtain ⟨other, -, rfl⟩ := List.mem_map.mp hmem
    exact ⟨id, rfl⟩
  | complete id => exact absurd hmem List.not_mem_nil

/-- An answer delivers nothing, as only packets do. -/
theorem delivered_answer (outbox : List (Pending K M)) (reply : Reply K) :
    delivered (answer outbox reply).2.2 = [] := by
  cases reply with
  | received id => rfl
  | complete id =>
    rw [answer, delivered, List.filterMap_map]
    exact List.filterMap_eq_nil_iff.mpr fun _ _ => rfl

/-- What is delivered was held before: a release delivers the message that is kept under its
identifier, and a PUBLISH delivers nothing. -/
theorem held_of_mem_receive {held : K → Option M} {packet : Packet K M} {message : M}
    (hmem : .delivered message ∈ (handshake.receive held packet).2.2) :
    held packet.id = some message := by
  cases packet with
  | publish id message => exact absurd hmem List.not_mem_nil
  | release id =>
    obtain ⟨found, hfound, heq⟩ := List.mem_map.mp hmem
    obtain rfl := Event.delivered.inj heq
    exact Option.mem_toList.mp hfound

/-- Both sides are in step when the first reply has arrived. The message is released and its next
packet is under way, or it is done with and nothing is left of it. -/
theorem Synced.reply (h : Synced session) {reply : Reply K} {replies : List (Reply K)}
    (hqueue : session.to_sender = reply :: replies) :
    Synced { session with
      outbox := (answer session.outbox reply).1
      to_receiver := session.to_receiver ++ (answer session.outbox reply).2.1
      to_sender := replies } := by
  obtain ⟨pending, hpending, hreply, hheld⟩ := h.replies reply (hqueue ▸ List.mem_cons_self)
  obtain ⟨hpackets, hreplies⟩ := h.others hqueue hreply
  obtain ⟨before, after, hsplit, hne⟩ := h.split hpending
  have hunderway := h.underway
  have hids := h.ids
  rw [Session.underway, hqueue, List.map_cons, hreply, id_reply] at hunderway
  rw [hsplit] at hpackets hreplies hunderway hids
  rw [hreply, hsplit]
  have hmiddle {other : Pending K M} (hother : other ∈ before ++ pending :: after)
      (hid : other.id ≠ pending.id) : other ∈ before ++ after := by
    obtain rfl | hrest := List.mem_cons.mp (List.perm_middle.mem_iff.mp hother)
    · exact absurd rfl hid
    · exact hrest
  cases hreleased : pending.released with
  | false =>
    have hkept {other : Pending K M} (hother : other ∈ before ++ pending :: after)
        (hid : other.id ≠ pending.id) :
        other ∈ before ++ { pending with released := true } :: after :=
      List.perm_middle.mem_iff.mpr (List.mem_cons_of_mem _ (hmiddle hother hid))
    have hmarked : { pending with released := true } ∈
        before ++ { pending with released := true } :: after :=
      List.mem_append_right _ List.mem_cons_self
    have hsame : (before ++ { pending with released := true } :: after).map Pending.id =
        (before ++ pending :: after).map Pending.id := by
      rw [List.map_append, List.map_append, List.map_cons, List.map_cons]
    rw [answer_received hne hreleased]
    refine ⟨hsame.symm ▸ hids, ?_, fun packet hpacket => ?_, fun reply hmem => ?_,
      fun id message hid => ?_⟩
    · rw [hsame, Session.underway, List.map_append, List.map_singleton, List.append_assoc]
      exact hunderway
    · obtain hold | hnew := List.mem_append.mp hpacket
      · obtain ⟨other, hother, heq, hid⟩ := hpackets packet hold
        exact ⟨other, hkept hother hid, heq⟩
      · exact ⟨_, hmarked, List.mem_singleton.mp hnew⟩
    · obtain ⟨other, hother, heq, hexpected, hid⟩ := hreplies reply hmem
      exact ⟨other, hkept hother hid, heq, hexpected⟩
    · obtain ⟨other, hother, rfl, rfl⟩ := h.held id message hid
      by_cases hsame : other.id = pending.id
      · rw [h.eq_of_id hpending hother hsame]
        exact ⟨_, hmarked, rfl, rfl⟩
      · exact ⟨other, hkept (hsplit ▸ hother) hsame, rfl, rfl⟩
  | true =>
    rw [List.map_append, List.map_cons] at hids hunderway
    rw [answer_complete hne hreleased]
    refine ⟨?_, ?_, fun packet hpacket => ?_, fun reply hmem => ?_, fun id message hid => ?_⟩
    · rw [List.map_append]
      exact (List.nodup_cons.mp (List.perm_middle.nodup_iff.mp hids)).2
    · rw [Session.underway, List.append_nil, List.map_append]
      exact ((List.perm_middle.symm.trans hunderway).trans List.perm_middle).cons_inv
    · rw [List.append_nil] at hpacket
      obtain ⟨other, hother, heq, hid⟩ := hpackets packet hpacket
      exact ⟨other, hmiddle hother hid, heq⟩
    · obtain ⟨other, hother, heq, hexpected, hid⟩ := hreplies reply hmem
      exact ⟨other, hmiddle hother hid, heq, hexpected⟩
    · obtain ⟨other, hother, rfl, rfl⟩ := h.held id message hid
      refine ⟨other, hmiddle (hsplit ▸ hother) fun hsame => ?_, rfl, rfl⟩
      rw [Pending.expected, hreleased, ← hsame] at hheld
      exact nomatch hid.symm.trans hheld

/-- What is settled of the outbox after one message was answered about: the same of the others, and
this one if it is released and no longer held. -/
theorem filter_settled (hne : ∀ other ∈ before ++ after, other.id ≠ pending.id)
    (held : K → Option M) (value : Option M) :
    (before ++ pending :: after).filter
        (Pending.settled (Function.update held pending.id value)) =
      before.filter (Pending.settled held) ++
        ((if pending.released && value.isNone then [pending] else []) ++
          after.filter (Pending.settled held)) := by
  obtain ⟨hbefore, hafter⟩ := List.forall_mem_append.mp hne
  have hothers {others : List (Pending K M)} (h : ∀ other ∈ others, other.id ≠ pending.id) :
      others.filter (Pending.settled (Function.update held pending.id value)) =
        others.filter (Pending.settled held) := by
    apply List.filter_congr
    intro other hother
    rw [Pending.settled, Function.update_of_ne (h other hother)]
    rfl
  rw [List.filter_append, List.filter_cons, hothers hbefore, hothers hafter, Pending.settled,
    Function.update_self]
  split
  · rfl
  · rfl

/-- A packet that arrives delivers its message only if it is released and still held, and the
message is settled from then on. So the books still balance. -/
theorem Accounted.receive (h : Accounted session events) (hsynced : Synced session)
    {packet : Packet K M} {packets : List (Packet K M)}
    (hqueue : session.to_receiver = packet :: packets) :
    Accounted { session with
      held := (receive session.held packet).1
      to_receiver := packets
      to_sender := session.to_sender ++ [(receive session.held packet).2.1] }
      (events ++ (receive session.held packet).2.2) := by
  obtain ⟨pending, hpending, rfl⟩ := hsynced.packets packet (hqueue ▸ List.mem_cons_self)
  obtain ⟨before, after, hsplit, hne⟩ := hsynced.split hpending
  have hold := filter_settled hne session.held (session.held pending.id)
  have hnew := filter_settled hne session.held pending.expected
  have hdelivered := h.delivered_perm
  rw [Function.update_eq_self, ← hsplit, ← Session.settled] at hold
  rw [← hsplit] at hnew
  rw [hold, List.map_append, List.map_append] at hdelivered
  rw [receive_packet]
  constructor
  · rw [sent_append, sent_map_delivered, completed_append, completed_map_delivered, List.append_nil,
      List.append_nil]
    exact h.sent_perm
  · rw [delivered_append, delivered_map_delivered, completed_append, completed_map_delivered,
      List.append_nil, Session.settled, hnew, List.map_append, List.map_append]
    cases hreleased : pending.released with
    | false =>
      rw [hreleased] at hdelivered
      simpa using hdelivered
    | true =>
      rw [hreleased] at hdelivered
      rw [Pending.expected, hreleased]
      cases hheld : session.held pending.id with
      | none =>
        rw [hheld] at hdelivered
        simpa using hdelivered
      | some message =>
        rw [hheld] at hdelivered
        rw [hsynced.message_eq hpending hheld]
        exact perm_snoc_middle hdelivered

/-- A reply that arrives takes a message off the pending ones only when it is complete, and counts
it as done with. So the books still balance. -/
theorem Accounted.reply (h : Accounted session events) (hsynced : Synced session) {reply : Reply K}
    {replies : List (Reply K)} (hqueue : session.to_sender = reply :: replies) :
    Accounted { session with
      outbox := (answer session.outbox reply).1
      to_receiver := session.to_receiver ++ (answer session.outbox reply).2.1
      to_sender := replies } (events ++ (answer session.outbox reply).2.2) := by
  obtain ⟨pending, hpending, rfl, hheld⟩ := hsynced.replies reply (hqueue ▸ List.mem_cons_self)
  obtain ⟨before, after, hsplit, hne⟩ := hsynced.split hpending
  have hsent := h.sent_perm
  have hdelivered := h.delivered_perm
  rw [Session.settled, hsplit, List.filter_append, List.filter_cons, Pending.settled, hheld,
    Pending.expected] at hdelivered
  rw [hsplit, List.map_append, List.map_cons] at hsent
  rw [hsplit]
  cases hreleased : pending.released with
  | false =>
    rw [hreleased] at hdelivered
    have hsettled : Pending.settled session.held { pending with released := true } = false := by
      rw [Pending.settled, hheld, Pending.expected, hreleased]
      rfl
    rw [answer_received hne hreleased, List.append_nil]
    constructor
    · rw [List.map_append, List.map_cons]
      exact hsent
    · rw [Session.settled, List.filter_append, List.filter_cons, hsettled]
      exact hdelivered
  | true =>
    rw [hreleased] at hdelivered
    rw [answer_complete hne hreleased]
    constructor
    · rw [sent_append, completed_append, List.map_append]
      exact (List.append_nil _).symm ▸ perm_middle_snoc hsent
    · rw [delivered_append, completed_append, Session.settled, List.filter_append, List.map_append]
      rw [List.map_append] at hdelivered
      exact (List.append_nil _).symm ▸ perm_middle_snoc hdelivered

/-- The step lemma: every step of the sender, the receiver or the connection keeps both sides in
step and the books balanced. A step may be the loss of everything on the way. -/
theorem synced_step (h : Synced session) (haccounted : Accounted session events)
    (hstep : step session label = some (next, emitted)) :
    Synced next ∧ Accounted next (events ++ emitted) := by
  cases label with
  | send id message =>
    rw [step] at hstep
    split at hstep
    · cases hstep
    · rename_i hfresh
      obtain ⟨rfl, rfl⟩ := Prod.mk.inj (Option.some.inj hstep)
      exact ⟨h.send hfresh, haccounted.send id message⟩
  | receive =>
    rw [step] at hstep
    split at hstep
    · cases hstep
    · rename_i hqueue
      obtain ⟨rfl, rfl⟩ := Prod.mk.inj (Option.some.inj hstep)
      exact ⟨h.receive hqueue, haccounted.receive h hqueue⟩
  | reply =>
    rw [step] at hstep
    split at hstep
    · cases hstep
    · rename_i hqueue
      obtain ⟨rfl, rfl⟩ := Prod.mk.inj (Option.some.inj hstep)
      exact ⟨h.reply hqueue, haccounted.reply h hqueue⟩
  | reconnect =>
    obtain ⟨rfl, rfl⟩ := Prod.mk.inj (Option.some.inj hstep)
    rw [List.append_nil]
    exact ⟨h.reconnect, haccounted.sent_perm, haccounted.delivered_perm⟩

/-- What a run keeps, from wherever it starts: the parties stay in step, and the books are kept.
The steps may be of any kind. -/
theorem Synced.run {stop : Session K M} {labels : List (Label K M)} (h : Synced session)
    (haccounted : Accounted session events) (hrun : Run step session labels stop emitted) :
    Synced stop ∧ Accounted stop (events ++ emitted) := by
  induction hrun with
  | nil => exact ⟨h, (List.append_nil events).symm ▸ haccounted⟩
  | snoc _ hstep ih =>
    rw [← List.append_assoc]
    exact synced_step ih.1 ih.2 hstep

/-- Messages with new identifiers can be sent one after the other, and are pending then in this
order. Nothing is asked of what else is under way. -/
theorem run_sends (messages : List (K × M))
    (hids : (session.outbox.map Pending.id ++ messages.map Prod.fst).Nodup) :
    Run step session (messages.map fun entry => .send entry.1 entry.2)
      { session with
        outbox := session.outbox ++ messages.map fun entry => ⟨entry.1, entry.2, false⟩
        to_receiver := session.to_receiver ++ messages.map fun entry => .publish entry.1 entry.2 }
      (messages.map fun entry => .sent entry.2) := by
  induction messages using List.reverseRecOn with
  | nil =>
    simp only [List.map_nil, List.append_nil]
    exact .nil
  | append_singleton messages last ih =>
    rw [List.map_append, ← List.append_assoc] at hids
    obtain ⟨hbefore, -, hnew⟩ := List.nodup_append.mp hids
    have hsent : (session.outbox ++ messages.map fun entry =>
        (⟨entry.1, entry.2, false⟩ : Pending K M)).map Pending.id =
          session.outbox.map Pending.id ++ messages.map Prod.fst := by
      rw [List.map_append, List.map_map]
      rfl
    have hfresh : last.1 ∉ session.outbox.map Pending.id ++ messages.map Prod.fst :=
      fun hmem => hnew last.1 hmem last.1 (List.mem_singleton_self _) rfl
    simp only [List.map_append, List.map_cons, List.map_nil, ← List.append_assoc]
    exact (ih hbefore).snoc (if_neg (hsent ▸ hfresh))

end handshake
