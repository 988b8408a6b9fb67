import CommunicationCenter.Mosquitto.PacketRead
import Mathlib.Data.List.Forall2

open encoding

namespace communication_center.mosquitto

/-- A client's connection, with the bytes that have arrived and were not read yet. -/
structure connection (C : Type) where
  context : C
  packet : in_packet
  received : List UInt8
  closed : Bool

def connection.new {C : Type} (context : C) : connection C where
  context := context
  packet := packet_cleanup
  received := []
  closed := false

/-- What happens to a connection. It is lost when the broker closes it for a reason that is
not in its own packets: another client takes its identifier, or it was silent for too long. -/
inductive socket_event where
  | arrive (bytes : List UInt8)
  | read
  | lost
  deriving DecidableEq

/-- A connection is read while there is something to read. It is closed on an error, and by
a handler that closes the socket itself. -/
def loops_handle_reads {C : Type} (handler : packet_handler C) (conn : connection C) : connection C :=
  if conn.closed || conn.received.isEmpty then conn
  else
    let result := packet_read handler conn.context conn.packet conn.received
    { context := result.2.1
      packet := result.2.2.1
      received := result.2.2.2
      closed := result.1 ≠ .MOSQ_ERR_SUCCESS || !handler.connected result.2.1 }

def connection.step {C : Type} (handler : packet_handler C) (conn : connection C) :
    socket_event → connection C
  | .arrive bytes => { conn with received := conn.received ++ bytes }
  | .read => loops_handle_reads handler conn
  | .lost => { conn with closed := true }

def connection.run {C : Type} (handler : packet_handler C) (conn : connection C)
    (events : List socket_event) : connection C :=
  events.foldl (connection.step handler) conn

def arrived : List socket_event → List UInt8
  | [] => []
  | .arrive bytes :: events => bytes ++ arrived events
  | .read :: events => arrived events
  | .lost :: events => arrived events

/-- The packets handled one by one, up to the first that is refused, fails or closes the
connection, and whether the connection is still open then. -/
def receive {C : Type} (handler : packet_handler C) (context : C) :
    List (UInt8 × List UInt8) → C × Bool
  | [] => (context, true)
  | (command, payload) :: packets =>
    if packet_refused handler context command payload.length then (context, false)
    else
      let handled := handler.handle_packet context command payload
      if handled.2 = .MOSQ_ERR_SUCCESS ∧ handler.connected handled.1 = true then
        receive handler handled.1 packets
      else (handled.1, false)

/-- The bytes that stand for the packets. -/
def Frames (frames : List (List UInt8)) (packets : List (UInt8 × List UInt8)) : Prop :=
  List.Forall₂ (fun frame packet => Frame frame packet.1 packet.2) frames packets

variable {C : Type} {handler : packet_handler C} {context initial : C} {conn : connection C}
  {packets : List (UInt8 × List UInt8)} {future : List UInt8}

/-- A text begins with one frame at most, since the length of a frame stands at its front. -/
theorem Frame.append_inj {first second rest other : List UInt8} {command command' : UInt8}
    {payload payload' : List UInt8} (h : Frame first command payload)
    (hsecond : Frame second command' payload') (heq : first ++ rest = second ++ other) :
    command = command' ∧ payload = payload' ∧ rest = other := by
  obtain ⟨-, hvarint, -⟩ := h
  obtain ⟨-, hvarint', -⟩ := hsecond
  rw [List.cons_append, List.cons_append, List.append_assoc, List.append_assoc] at heq
  obtain ⟨hcommand, heq⟩ := List.cons.inj heq
  obtain ⟨-, hlength, heq⟩ := hvarint.append_inj hvarint' heq
  obtain ⟨hpayload, hrest⟩ := List.append_inj heq hlength
  exact ⟨hcommand, hpayload, hrest⟩

/-- A frame does not begin with a zero. -/
theorem Frame.head? {frame payload : List UInt8} {command : UInt8} (h : Frame frame command payload)
    (rest : List UInt8) : (frame ++ rest).head? ≠ some 0 := by
  obtain ⟨hnonzero, -, -⟩ := h
  exact fun heq => hnonzero (Option.some.inj heq)

/-- Packets that are all handled can be handled in two goes, the second from the context that the
first has led to. -/
theorem receive_append (done : List (UInt8 × List UInt8)) (pending : List (UInt8 × List UInt8))
    (h : receive handler initial done = (context, true)) :
    receive handler initial (done ++ pending) = receive handler context pending := by
  induction done generalizing initial with
  | nil =>
    obtain ⟨rfl, -⟩ := Prod.mk.inj h
    rfl
  | cons packet done ih =>
    obtain ⟨command, payload⟩ := packet
    rw [receive] at h
    rw [List.cons_append, receive]
    split at h
    · cases (Prod.mk.inj h).2
    · rename_i haccepted
      rw [if_neg haccepted]
      simp only at h ⊢
      split at h
      · rename_i hsuccess
        rw [if_pos hsuccess]
        exact ih h
      · cases (Prod.mk.inj h).2

/-- Where a connection that is not lost stands, by the bytes that are still to arrive: it was
closed where the packets end it, or has handled the first of them and is reading the next. -/
inductive Serving (handler : packet_handler C) (initial : C) (packets : List (UInt8 × List UInt8))
    (future : List UInt8) (conn : connection C) : List (UInt8 × List UInt8) → Prop where
  | closed (ended : conn.closed = true)
      (result : receive handler initial packets = (conn.context, false)) :
      Serving handler initial packets future conn []
  | serving {done pending : List (UInt8 × List UInt8)} {frames : List (List UInt8)}
      {consumed : List UInt8} (alive : conn.closed = false)
      (connected : handler.connected conn.context = true) (split : packets = done ++ pending)
      (result : receive handler initial done = (conn.context, true)) (framed : Frames frames pending)
      (reading : Reading handler conn.context conn.packet consumed)
      (bytes : consumed ++ conn.received ++ future = frames.flatten) :
      Serving handler initial packets future conn pending

variable {pending : List (UInt8 × List UInt8)}

/-- The arrival of bytes that belong to the frames changes nothing but where they are. -/
theorem Serving.arrive {bytes : List UInt8}
    (h : Serving handler initial packets (bytes ++ future) conn pending) :
    Serving handler initial packets future (conn.step handler (.arrive bytes)) pending := by
  cases h with
  | closed ended result => exact .closed ended result
  | serving alive connected split result framed reading bytes =>
    refine .serving alive connected split result framed reading ?_
    rw [← bytes, connection.step]
    simp only [List.append_assoc]

/-- The step lemma for a call of `packet__read`: the packets that are handled are still the first
ones, and the connection is closed, nothing is left to read, or a packet more has been handled. -/
theorem Serving.read (h : Serving handler initial packets future conn pending) :
    ∃ left, Serving handler initial packets future (conn.step handler .read) left ∧
      ((conn.step handler .read).closed = true ∨ (conn.step handler .read).received = [] ∨
        left.length < pending.length) := by
  rw [connection.step, loops_handle_reads]
  cases h with
  | closed ended result =>
    rw [ended, Bool.true_or, if_pos rfl]
    exact ⟨[], .closed ended result, Or.inl ended⟩
  | @serving done _ frames consumed alive connected split result framed reading bytes =>
    rw [alive, Bool.false_or]
    cases hreceived : conn.received with
    | nil =>
      refine ⟨pending, ?_, Or.inr (Or.inl hreceived)⟩
      exact .serving alive connected split result framed reading bytes
    | cons byte received =>
      rw [if_neg (by simp), ← hreceived]
      cases framed with
      | nil => simp [hreceived] at bytes
      | @cons frame packet frames pending hframe hframes =>
        obtain ⟨command, payload⟩ := packet
        rw [List.flatten_cons] at bytes
        have hnonzero : (consumed ++ conn.received).head? ≠ some 0 := by
          have hhead := hframe.head? frames.flatten
          rw [← bytes, List.head?_append_of_ne_nil _ (by simp [hreceived])] at hhead
          exact hhead
        have houtcome := packet_read_outcome reading connected hnonzero
        have hreceive := receive_append done ((command, payload) :: pending) result
        rw [← split, receive] at hreceive
        revert houtcome
        generalize packet_read handler conn.context conn.packet conn.received = outcome
        intro houtcome
        cases houtcome with
        | waits reading' =>
          refine ⟨(command, payload) :: pending, .serving ?_ connected split result
            (.cons hframe hframes) reading' ?_, Or.inr (Or.inl rfl)⟩
          · simpa using connected
          rw [List.append_nil]
          exact bytes
        | @refused error_code error refused =>
          have hrefused := refused _ _ _ _ _ hframe bytes
          rw [if_pos hrefused] at hreceive
          have hended : (decide (error_code ≠ .MOSQ_ERR_SUCCESS) ||
              !handler.connected conn.context) = true := by
            simp [error]
          exact ⟨[], .closed hended hreceive, Or.inl hended⟩
        | @handled frame' payload' rest command' whole split' accepted =>
          rw [split', List.append_assoc] at bytes
          obtain ⟨rfl, rfl, hrest⟩ := whole.append_inj hframe bytes
          rw [if_neg (by simp [accepted])] at hreceive
          simp only at hreceive ⊢
          by_cases hsuccess : (handler.handle_packet conn.context command' payload').2 =
              .MOSQ_ERR_SUCCESS ∧
              handler.connected (handler.handle_packet conn.context command' payload').1 = true
          · rw [if_pos hsuccess] at hreceive
            have hsplit : packets = (done ++ [(command', payload')]) ++ pending := by
              rw [split, List.append_cons]
            refine ⟨pending, .serving ?_ hsuccess.2 hsplit ?_ hframes .idle hrest,
              Or.inr (Or.inr (Nat.lt_succ_self _))⟩
            · simpa using hsuccess
            · rw [receive_append done _ result, receive, if_neg (by simp [accepted])]
              simp only [hsuccess, and_self, if_true]
              rfl
          · rw [if_neg hsuccess] at hreceive
            have hended : (decide ((handler.handle_packet conn.context command' payload').2 ≠
                .MOSQ_ERR_SUCCESS) || !handler.connected
                  (handler.handle_packet conn.context command' payload').1) = true := by
              simpa [imp_iff_not_or] using hsuccess
            exact ⟨[], .closed hended hreceive, Or.inl hended⟩

/-- A new connection with a socket has all packets ahead of it. -/
theorem Serving.new {frames : List (List UInt8)} (h : Frames frames packets)
    (hconnected : handler.connected context = true) :
    Serving handler context packets frames.flatten (connection.new context) packets :=
  .serving rfl hconnected (List.nil_append packets).symm rfl h .idle rfl

/-- Where a connection stands after any arrivals and calls, in any order, as long as it is not lost
from outside. -/
theorem Serving.run (events : List socket_event) (hkept : .lost ∉ events)
    (h : Serving handler initial packets (arrived events ++ future) conn pending) :
    ∃ left, Serving handler initial packets future (conn.run handler events) left := by
  induction events generalizing conn pending with
  | nil => exact ⟨pending, h⟩
  | cons event events ih =>
    obtain ⟨hevent, hrest⟩ := List.ne_and_not_mem_of_not_mem_cons hkept
    cases event with
    | arrive bytes =>
      rw [arrived, List.append_assoc] at h
      exact ih hrest h.arrive
    | read =>
      obtain ⟨left, hleft, -⟩ := h.read
      exact ih hrest hleft
    | lost => exact absurd rfl hevent

/-- Reading lets nothing arrive. -/
theorem arrived_reads (n : Nat) : arrived (List.replicate n .read) ++ [] = [] := by
  induction n with
  | zero => rfl
  | succ n ih => exact ih

/-- One call for each packet, and one more, leave nothing to read, unless the connection is closed.
What arrived before may end anywhere in a packet. -/
theorem Serving.reads {n : Nat} (h : Serving handler initial packets future conn pending)
    (hn : pending.length < n) :
    (conn.run handler (List.replicate n .read)).closed = true ∨
      (conn.run handler (List.replicate n .read)).received = [] := by
  have hstays (n : Nat) (conn : connection C) (hdone : conn.closed = true ∨ conn.received = []) :
      conn.run handler (List.replicate n .read) = conn := by
    have hread : conn.step handler .read = conn := by
      rw [connection.step, loops_handle_reads]
      exact if_pos (by simpa using hdone)
    induction n with
    | zero => rfl
    | succ n ih =>
      rw [List.replicate_succ, connection.run, List.foldl_cons, hread]
      exact ih
  induction n generalizing conn pending with
  | zero => exact absurd hn (Nat.not_lt_zero _)
  | succ n ih =>
    rw [List.replicate_succ, connection.run, List.foldl_cons, ← connection.run]
    obtain ⟨left, hleft, hclosed | hempty | hless⟩ := h.read
    · rw [hstays n _ (Or.inl hclosed)]
      exact Or.inl hclosed
    · rw [hstays n _ (Or.inr hempty)]
      exact Or.inr hempty
    · exact ih hleft (by omega)

/-- What is kept of a packet is never the whole of it: a whole packet is handled at once and
forgotten. -/
theorem Reading.incomplete {packet : in_packet} {consumed frame payload rest : List UInt8}
    {command : UInt8} (h : Reading handler context packet consumed)
    (hframe : Frame frame command payload) : consumed ≠ frame ++ rest := by
  obtain ⟨-, hvarint, -⟩ := hframe
  rintro heq
  rw [List.cons_append, List.append_assoc] at heq
  cases h with
  | idle => cases heq
  | @length _ bytes _ _ high _ =>
    obtain ⟨-, heq⟩ := List.cons.inj heq
    rw [← List.append_nil bytes] at heq
    obtain ⟨more, hne, -, hmore⟩ := hvarint.high_prefix high heq.symm
    exact hne (List.append_eq_nil_iff.mp hmore.symm).1
  | payload _ _ varint _ _ missing =>
    obtain ⟨-, heq⟩ := List.cons.inj heq
    obtain ⟨-, hlength, rfl⟩ := varint.append_inj hvarint heq
    rw [hlength, List.length_append] at missing
    omega

/-- When the connection is closed or everything is read, the packets have been handled as `receive`
says. -/
theorem Serving.served (h : Serving handler initial packets [] conn pending)
    (hdone : conn.closed = true ∨ conn.received = []) :
    (conn.context, !conn.closed) = receive handler initial packets := by
  cases h with
  | closed ended result => rw [result, ended, Bool.not_true]
  | serving alive connected split result framed reading bytes =>
    have hempty := hdone.resolve_left (by simp [alive])
    rw [hempty, List.append_nil, List.append_nil] at bytes
    cases framed with
    | nil => rw [split, List.append_nil, result, alive, Bool.not_false]
    | cons hframe _ => exact absurd bytes (reading.incomplete hframe)

/-- At any time the packets that were handled are the first ones of the sequence, each of them
once, and what is still to come is no longer than all of it. -/
theorem Serving.first (h : Serving handler initial packets future conn pending) :
    (∃ done, done <+: packets ∧ receive handler initial done = (conn.context, !conn.closed)) ∧
      pending.length ≤ packets.length := by
  cases h with
  | closed ended result =>
    rw [ended]
    exact ⟨⟨packets, List.prefix_rfl, result⟩, Nat.zero_le _⟩
  | serving alive connected split result framed reading bytes =>
    rw [alive, split, List.length_append]
    exact ⟨⟨_, List.prefix_append _ _, result⟩, Nat.le_add_left _ _⟩

/-- What arrives in two stretches is what arrives in the one and then in the other. -/
theorem arrived_append (events later : List socket_event) :
    arrived (events ++ later) = arrived events ++ arrived later := by
  induction events with
  | nil => rfl
  | cons event events ih => cases event <;> simp [arrived, ih]

/-- Nothing is handled on a connection that was closed or lost, whatever arrives and however often
it is read. -/
theorem context_run_of_closed (events : List socket_event) (h : conn.closed = true) :
    (conn.run handler events).context = conn.context := by
  induction events generalizing conn with
  | nil => rfl
  | cons event events ih =>
    cases event with
    | arrive bytes => exact ih h
    | lost => exact ih rfl
    | read =>
      have hread : conn.step handler .read = conn := by
        rw [connection.step, loops_handle_reads, h, Bool.true_or, if_pos rfl]
      rw [connection.run, List.foldl_cons, hread]
      exact ih h

/-- While the connection is not lost, the first packets were handled, one by one and each as
a whole. -/
theorem context_run_first_of_kept {frames : List (List UInt8)} (hframes : Frames frames packets)
    {events : List socket_event} (harrived : arrived events <+: frames.flatten)
    (hkept : .lost ∉ events) (hconnected : handler.connected context = true) :
    ∃ done, done <+: packets ∧
      receive handler context done = (((connection.new context).run handler events).context,
        !((connection.new context).run handler events).closed) := by
  obtain ⟨future, hfuture⟩ := harrived
  have hnew : Serving handler context packets frames.flatten (connection.new context) packets :=
    .new hframes hconnected
  rw [← hfuture] at hnew
  obtain ⟨left, hleft⟩ := hnew.run events hkept
  exact hleft.first.1

/-- The packets that a connection has handled are the first ones, also after it is lost. -/
theorem context_run_first {frames : List (List UInt8)} (hframes : Frames frames packets)
    {events : List socket_event} (harrived : arrived events <+: frames.flatten)
    (hconnected : handler.connected context = true) :
    ∃ done, done <+: packets ∧
      (receive handler context done).1 = ((connection.new context).run handler events).context := by
  by_cases hlost : socket_event.lost ∈ events
  · obtain ⟨before, later, rfl, hkept⟩ := List.eq_append_cons_of_mem hlost
    rw [arrived_append] at harrived
    obtain ⟨done, hdone, hreceive⟩ := context_run_first_of_kept hframes
      ((List.prefix_append _ _).trans harrived) hkept hconnected
    have hcut : (((connection.new context).run handler before).step handler .lost).closed = true :=
      rfl
    refine ⟨done, hdone, ?_⟩
    rw [hreceive, connection.run, connection.run, List.foldl_append, List.foldl_cons]
    exact (context_run_of_closed later hcut).symm
  · obtain ⟨done, hdone, hreceive⟩ := context_run_first_of_kept hframes harrived hlost hconnected
    exact ⟨done, hdone, by rw [hreceive]⟩

/-- Where all the bytes have arrived on a connection that lasts, one call for each packet and
one more have handled the packets as if they had come one by one. -/
theorem context_run_reads {frames : List (List UInt8)} (hframes : Frames frames packets)
    {events : List socket_event} (harrived : arrived events = frames.flatten)
    (hkept : .lost ∉ events) {n : Nat} (hn : packets.length < n)
    (hconnected : handler.connected context = true) :
    let conn := (connection.new context).run handler (events ++ List.replicate n .read)
    (conn.context, !conn.closed) = receive handler context packets := by
  have hnew : Serving handler context packets frames.flatten (connection.new context) packets :=
    .new hframes hconnected
  rw [← harrived, ← List.append_nil (arrived events)] at hnew
  obtain ⟨left, hleft⟩ := hnew.run events hkept
  have hdone := hleft.reads (Nat.lt_of_le_of_lt hleft.first.2 hn)
  rw [← arrived_reads n] at hleft
  have hreads : socket_event.lost ∉ List.replicate n .read :=
    fun hmem => nomatch List.eq_of_mem_replicate hmem
  obtain ⟨_, hlast⟩ := hleft.run (List.replicate n .read) hreads
  rw [connection.run, List.foldl_append, ← connection.run, ← connection.run]
  exact hlast.served hdone

/-- However the bytes of the packets arrive, and whenever they are read, the packets are
handled one by one in their order. At any time, also when the connection is lost, the first
packets have been handled, each as a whole. When all have arrived, and the connection is
not lost from outside, they are handled up to the one that is refused, fails or closes the
socket. What the handler does with a packet is left open; only the context that it starts
from has to have a socket. -/
theorem context_run_eq_receive {frames : List (List UInt8)} (hframes : Frames frames packets)
    {events : List socket_event} (harrived : arrived events <+: frames.flatten) (context : C)
    (hconnected : handler.connected context = true) :
    (∃ done, done <+: packets ∧
      (receive handler context done).1 = ((connection.new context).run handler events).context) ∧
    (arrived events = frames.flatten → .lost ∉ events → ∀ n, packets.length < n →
      let conn := (connection.new context).run handler (events ++ List.replicate n .read)
      (conn.context, !conn.closed) = receive handler context packets) :=
  ⟨context_run_first hframes harrived hconnected,
    fun hall hkept _ hn => context_run_reads hframes hall hkept hn hconnected⟩

-- writes the packets down, and closes the socket after a DISCONNECT as the broker does
private def recorder : packet_handler (List (UInt8 × List UInt8)) where
  connected packets := packets.all fun packet => packet.1 &&& 0xF0 ≠ CMD_DISCONNECT
  state_new packets := packets.isEmpty
  protocol _ := .mosq_p_mqtt311
  handle_packet packets command payload := (packets ++ [(command, payload)], .MOSQ_ERR_SUCCESS)

private def split_events : List socket_event :=
  [.arrive [0x10, 2], .read, .arrive [7], .read, .read, .arrive [8, 0xE0, 0, 0xC0, 0]]

/-- The bytes are cut within the packets, and the handler closes the socket at the DISCONNECT. The
ping behind it is not handled, although it has arrived. -/
theorem context_run_eq_receive_split :
    (∃ done, done <+: [(0x10, [7, 8]), (0xE0, []), (0xC0, [])] ∧
      (receive recorder [] done).1 = ((connection.new []).run recorder split_events).context) ∧
    ∃ conn, conn = (connection.new []).run recorder (split_events ++ List.replicate 4 .read) ∧
      (conn.context, !conn.closed) =
        receive recorder [] [(0x10, [7, 8]), (0xE0, []), (0xC0, [])] ∧
      (conn.context, !conn.closed) = ([(0x10, [7, 8]), (0xE0, [])], false) := by
  have hconnect : Frame (0x10 :: ([2] ++ [7, 8])) 0x10 [7, 8] :=
    .intro (by decide) (.last (by decide)) (by decide)
  have hempty (command : UInt8) (hcommand : command ≠ 0) : Frame (command :: ([0] ++ [])) command [] :=
    .intro hcommand (.last (by decide)) (by decide)
  have hframes : Frames [[0x10, 2, 7, 8], [0xE0, 0], [0xC0, 0]]
      [(0x10, [7, 8]), (0xE0, []), (0xC0, [])] :=
    .cons hconnect (.cons (hempty 0xE0 (by decide)) (.cons (hempty 0xC0 (by decide)) .nil))
  obtain ⟨hfirst, hall⟩ :=
    @context_run_eq_receive _ recorder _ _ hframes split_events (by decide) [] rfl
  have hlast := hall rfl (by decide) 4 (by decide)
  exact ⟨hfirst, _, rfl, hlast, hlast.trans (by decide)⟩

end communication_center.mosquitto
