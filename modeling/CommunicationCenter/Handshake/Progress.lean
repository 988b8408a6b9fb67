import CommunicationCenter.Handshake.ExactlyOnce
import Mathlib.Algebra.GroupWithZero.Nat

open transition

namespace handshake

variable {K M : Type} {session next stop : Session K M} {label : Label K M}
  {labels : List (Label K M)} {emitted : List (Event M)}

/-- How many packets there are until a message is done with, this one included. -/
def Packet.remaining : Packet K M → Nat
  | .publish _ _ => 4
  | .release _ => 2

def Reply.remaining : Reply K → Nat
  | .received _ => 3
  | .complete _ => 1

def Session.remaining (session : Session K M) : Nat :=
  (session.to_receiver.map Packet.remaining).sum + (session.to_sender.map Reply.remaining).sum

/-- Nothing but arrivals of packets. -/
def Label.Arrival : Label K M → Prop
  | .receive | .reply => True
  | .send _ _ | .reconnect => False

theorem remaining_reply (pending : Pending K M) :
    pending.packet.remaining = pending.reply.remaining + 1 := by
  rw [Pending.packet, Pending.reply]
  split
  · rfl
  · rfl

/-- Where nothing is under way, nothing is pending. -/
theorem Synced.outbox_eq_nil (h : Synced session) (hreceiver : session.to_receiver = [])
    (hsender : session.to_sender = []) : session.outbox = [] := by
  have hunderway := h.underway
  rw [Session.underway, hreceiver, hsender] at hunderway
  exact List.map_eq_nil_iff.mp hunderway.symm.eq_nil

/-- Then everything that was sent was delivered once. -/
theorem Accounted.all_delivered {events : List (Event M)} (h : Accounted session events)
    (hdone : session.outbox = []) : (delivered events).Perm (sent events) := by
  have hsent := h.sent_perm
  have hdelivered := h.delivered_perm
  rw [hdone, List.map_nil, List.append_nil] at hsent
  rw [Session.settled, hdone, List.filter_nil, List.map_nil, List.append_nil] at hdelivered
  exact hdelivered.trans hsent.symm

variable [DecidableEq K]

theorem sent_receive (held : K → Option M) (packet : Packet K M) :
    sent (receive held packet).2.2 = [] := by
  cases packet with
  | publish id message => rfl
  | release id => exact sent_map_delivered (held id).toList

theorem sent_answer (outbox : List (Pending K M)) (reply : Reply K) :
    sent (answer outbox reply).2.2 = [] := by
  cases reply with
  | received id => rfl
  | complete id =>
    rw [answer, sent, List.filterMap_map]
    exact List.filterMap_eq_nil_iff.mpr fun _ _ => rfl

/-- An arrival sends no new message. It can only lead to packets about messages that are pending
already. -/
theorem sent_of_arrival (harrival : label.Arrival) (hstep : step session label = some (next, emitted)) :
    sent emitted = [] := by
  cases label with
  | send id message => exact harrival.elim
  | reconnect => exact harrival.elim
  | receive =>
    rw [step] at hstep
    split at hstep
    · cases hstep
    · obtain ⟨-, rfl⟩ := Prod.mk.inj (Option.some.inj hstep)
      exact sent_receive _ _
  | reply =>
    rw [step] at hstep
    split at hstep
    · cases hstep
    · obtain ⟨-, rfl⟩ := Prod.mk.inj (Option.some.inj hstep)
      exact sent_answer _ _

theorem sent_of_arrivals (harrivals : ∀ label ∈ labels, Label.Arrival label)
    (hrun : Run step session labels stop emitted) : sent emitted = [] := by
  induction hrun with
  | nil => rfl
  | snoc _ hstep ih =>
    obtain ⟨hbefore, hlast⟩ := List.forall_mem_append.mp harrivals
    rw [sent_append, ih hbefore, sent_of_arrival (List.forall_mem_singleton.mp hlast) hstep]
    rfl

/-- While a message is pending, a packet or a reply is under way and can arrive, and fewer are left
until the end then. So no state without a loss is stuck. -/
theorem Synced.arrival (h : Synced session) (hpending : session.outbox ≠ []) :
    ∃ label next emitted, Label.Arrival label ∧ step session label = some (next, emitted) ∧
      Session.remaining next < session.remaining := by
  cases hreceiver : session.to_receiver with
  | cons packet packets =>
    obtain ⟨pending, -, rfl⟩ := h.packets packet (hreceiver ▸ List.mem_cons_self)
    refine ⟨.receive, _, _, trivial, by rw [step, hreceiver], ?_⟩
    have hless := remaining_reply pending
    simp only [Session.remaining, hreceiver, receive_packet, List.map_append, List.sum_append,
      List.map_cons, List.sum_cons, List.map_nil, List.sum_nil]
    omega
  | nil =>
    cases hsender : session.to_sender with
    | nil => exact absurd (h.outbox_eq_nil hreceiver hsender) hpending
    | cons reply replies =>
      obtain ⟨pending, hmem, rfl, -⟩ := h.replies reply (hsender ▸ List.mem_cons_self)
      obtain ⟨before, after, hsplit, hne⟩ := h.split hmem
      refine ⟨.reply, _, _, trivial, by rw [step, hsender], ?_⟩
      rw [Session.remaining, Session.remaining, hreceiver, hsender, hsplit, List.map_cons,
        List.sum_cons, List.nil_append]
      cases hreleased : pending.released with
      | false =>
        have hreply : pending.reply.remaining = 3 := by
          rw [Pending.reply, hreleased]
          rfl
        rw [answer_received hne hreleased, hreply]
        simp [Packet.remaining]
      | true =>
        have hreply : pending.reply.remaining = 1 := by
          rw [Pending.reply, hreleased]
          rfl
        rw [answer_complete hne hreleased, hreply]
        simp

/-- If the connection lasts, everything is done with in the end: there is a run of arrivals after
which nothing is pending. No new message is sent in it and no connection is made. -/
theorem Synced.drain (h : Synced session) {events : List (Event M)}
    (haccounted : Accounted session events) :
    ∃ labels stop emitted, (∀ label ∈ labels, Label.Arrival label) ∧
      Run step session labels stop emitted ∧ stop.outbox = [] ∧ Synced stop ∧
        Accounted stop (events ++ emitted) := by
  induction hmeasure : session.remaining using Nat.strong_induction_on generalizing session events with
  | _ n ih =>
    by_cases hpending : session.outbox = []
    · exact ⟨[], session, [], by simp, .nil, hpending, h, by rwa [List.append_nil]⟩
    · obtain ⟨label, next, emitted, harrival, hstep, hless⟩ := h.arrival hpending
      obtain ⟨hnext, hnextAccounted⟩ := synced_step h haccounted hstep
      obtain ⟨labels, stop, later, harrivals, hrun, hstop⟩ :=
        ih next.remaining (hmeasure ▸ hless) hnext hnextAccounted rfl
      have hfirst : Run step session [label] next emitted := Run.snoc .nil hstep
      refine ⟨[label] ++ labels, stop, emitted ++ later, ?_, hfirst.append hrun, hstop.1, hstop.2.1, ?_⟩
      · exact List.forall_mem_append.mpr ⟨List.forall_mem_singleton.mpr harrival, harrivals⟩
      · rw [← List.append_assoc]
        exact hstop.2.2

end handshake
