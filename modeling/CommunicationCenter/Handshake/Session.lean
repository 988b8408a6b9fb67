import CommunicationCenter.Transition.Run
import Mathlib.Data.List.Nodup
import Mathlib.Data.List.Perm.Basic
import Mathlib.Data.List.Perm.Subperm
import Mathlib.Logic.Function.Basic

open transition

namespace handshake

/-- A message that its sender has not finished with. It is released once the
receiver has said that it has it. -/
structure Pending (K M : Type) where
  id : K
  message : M
  released : Bool

inductive Packet (K M : Type) where
  | publish (id : K) (message : M)
  | release (id : K)

inductive Reply (K : Type) where
  | received (id : K)
  | complete (id : K)

/-- Two parties and the packets of their connection. What they have survives it. -/
structure Session (K M : Type) where
  outbox : List (Pending K M)
  held : K → Option M
  to_receiver : List (Packet K M)
  to_sender : List (Reply K)

inductive Label (K M : Type) where
  | send (id : K) (message : M)
  | receive
  | reply
  | reconnect

inductive Event (M : Type) where
  | sent (message : M)
  | delivered (message : M)
  | completed (message : M)

variable {K M : Type}

def Packet.id : Packet K M → K
  | .publish id _ => id
  | .release id => id

def Reply.id : Reply K → K
  | .received id => id
  | .complete id => id

/-- What the sender has to say about a message. -/
def Pending.packet (pending : Pending K M) : Packet K M :=
  if pending.released then .release pending.id else .publish pending.id pending.message

/-- What is answered to it. -/
def Pending.reply (pending : Pending K M) : Reply K :=
  if pending.released then .complete pending.id else .received pending.id

def Session.empty : Session K M where
  outbox := []
  held := fun _ => none
  to_receiver := []
  to_sender := []

def sent (events : List (Event M)) : List M :=
  events.filterMap fun event => match event with
    | .sent message => some message
    | _ => none

def delivered (events : List (Event M)) : List M :=
  events.filterMap fun event => match event with
    | .delivered message => some message
    | _ => none

def completed (events : List (Event M)) : List M :=
  events.filterMap fun event => match event with
    | .completed message => some message
    | _ => none

variable [DecidableEq K]

/-- A message is held until it is released, and delivered then. -/
def receive (held : K → Option M) : Packet K M → (K → Option M) × Reply K × List (Event M)
  | .publish id message => (Function.update held id (some message), .received id, [])
  | .release id =>
    (Function.update held id none, .complete id, (held id).toList.map .delivered)

def Pending.release (id : K) (pending : Pending K M) : Pending K M :=
  if pending.id = id then { pending with released := true } else pending

def answer (outbox : List (Pending K M)) :
    Reply K → List (Pending K M) × List (Packet K M) × List (Event M)
  | .received id =>
    (outbox.map (Pending.release id),
      (outbox.filter fun pending => pending.id = id && !pending.released).map fun _ => .release id, [])
  | .complete id =>
    (outbox.filter fun pending => !(pending.id = id && pending.released), [],
      (outbox.filter fun pending => pending.id = id && pending.released).map fun pending =>
        .completed pending.message)

/-- Packets arrive in order while the connection lasts. After a new one is made, the
sender says again what has not been answered. -/
def step (session : Session K M) : Label K M → Option (Session K M × List (Event M))
  | .send id message =>
    if id ∈ session.outbox.map Pending.id then none
    else some ({ session with
        outbox := session.outbox ++ [⟨id, message, false⟩]
        to_receiver := session.to_receiver ++ [.publish id message] }, [.sent message])
  | .receive => match session.to_receiver with
    | [] => none
    | packet :: packets =>
      let result := receive session.held packet
      some ({ session with
          held := result.1
          to_receiver := packets
          to_sender := session.to_sender ++ [result.2.1] }, result.2.2)
  | .reply => match session.to_sender with
    | [] => none
    | reply :: replies =>
      let result := answer session.outbox reply
      some ({ session with
          outbox := result.1
          to_receiver := session.to_receiver ++ result.2.1
          to_sender := replies }, result.2.2)
  | .reconnect => some ({ session with
      to_receiver := session.outbox.map Pending.packet
      to_sender := [] }, [])

/-- The messages that packets are under way about. -/
def Session.underway (session : Session K M) : List K :=
  session.to_receiver.map Packet.id ++ session.to_sender.map Reply.id

/-- What the receiver has of a message once it has answered about it. -/
def Pending.expected (pending : Pending K M) : Option M :=
  if pending.released then none else some pending.message

/-- For each message of the outbox one packet is under way, and the parties agree
about what it says. -/
structure Synced (session : Session K M) : Prop where
  ids : (session.outbox.map Pending.id).Nodup
  underway : session.underway.Perm (session.outbox.map Pending.id)
  packets : ∀ packet ∈ session.to_receiver, ∃ pending ∈ session.outbox, packet = pending.packet
  replies : ∀ reply ∈ session.to_sender, ∃ pending ∈ session.outbox,
    reply = pending.reply ∧ session.held pending.id = pending.expected
  held : ∀ id message, session.held id = some message →
    ∃ pending ∈ session.outbox, pending.id = id ∧ pending.message = message

/-- A message that has been delivered. -/
def Pending.settled (held : K → Option M) (pending : Pending K M) : Bool :=
  pending.released && (held pending.id).isNone

def Session.settled (session : Session K M) : List (Pending K M) :=
  session.outbox.filter (Pending.settled session.held)

/-- What has become of the messages. -/
structure Accounted (session : Session K M) (events : List (Event M)) : Prop where
  sent_perm : (sent events).Perm (completed events ++ session.outbox.map Pending.message)
  delivered_perm : (delivered events).Perm (completed events ++ session.settled.map Pending.message)

end handshake
