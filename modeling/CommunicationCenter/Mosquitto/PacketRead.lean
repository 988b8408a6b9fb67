import CommunicationCenter.Mosquitto.PacketData
import CommunicationCenter.Mosquitto.Subs

open encoding

namespace communication_center.mosquitto

abbrev CMD_CONNECT : UInt8 := 0x10
abbrev CMD_PUBLISH : UInt8 := 0x30
abbrev CMD_PUBACK : UInt8 := 0x40
abbrev CMD_PUBREC : UInt8 := 0x50
abbrev CMD_PUBREL : UInt8 := 0x60
abbrev CMD_PUBCOMP : UInt8 := 0x70
abbrev CMD_SUBSCRIBE : UInt8 := 0x80
abbrev CMD_UNSUBSCRIBE : UInt8 := 0xA0
abbrev CMD_UNSUBACK : UInt8 := 0xB0
abbrev CMD_PINGREQ : UInt8 := 0xC0
abbrev CMD_PINGRESP : UInt8 := 0xD0
abbrev CMD_DISCONNECT : UInt8 := 0xE0

/-- A packet that comes in. Its payload holds the bytes that were read of it. -/
structure in_packet where
  command : UInt8
  remaining_count : Int
  remaining_mult : Nat
  remaining_length : Nat
  payload : List UInt8
  to_process : Nat

def packet_cleanup : in_packet where
  command := 0
  remaining_count := 0
  remaining_mult := 1
  remaining_length := 0
  payload := []
  to_process := 0

/-- What the reading of packets asks of a client's context, and does with a whole packet. A
handler can close the socket of its context, and some do so although they succeed. -/
structure packet_handler (C : Type) where
  connected : C → Bool
  state_new : C → Bool
  protocol : C → mosquitto_protocol
  handle_packet : C → UInt8 → List UInt8 → C × mosq_err_t

/-- Clients must send CONNECT as their first command. -/
def command_refused {C : Type} (handler : packet_handler C) (context : C) (command : UInt8) : Bool :=
  handler.state_new context && command &&& 0xF0 ≠ CMD_CONNECT

/-- The lengths that some packets cannot have. -/
def length_refused (protocol : mosquitto_protocol) (command : UInt8) (remaining_length : Nat) : Bool :=
  let type := command &&& 0xF0
  if type = CMD_CONNECT then remaining_length > 100000
  else if type ∈ [CMD_PUBACK, CMD_PUBREC, CMD_PUBREL, CMD_PUBCOMP, CMD_UNSUBACK] then
    protocol ≠ .mosq_p_mqtt5 && remaining_length ≠ 2
  else if type ∈ [CMD_PINGREQ, CMD_PINGRESP] then remaining_length ≠ 0
  else if type = CMD_DISCONNECT then protocol ≠ .mosq_p_mqtt5 && remaining_length ≠ 0
  else false

/-- How far a part of the reading came: it has to wait for more bytes, has failed, or
goes on with the bytes that are left. -/
inductive read_result where
  | wait (packet : in_packet)
  | failed (rc : mosq_err_t)
  | ready (packet : in_packet) (available : List UInt8)

def read_result.andThen (result : read_result) (next : in_packet → List UInt8 → read_result) :
    read_result :=
  match result with
  | .ready packet available => next packet available
  | result => result

def packet_read_command {C : Type} (handler : packet_handler C) (context : C) (packet : in_packet)
    (available : List UInt8) : read_result :=
  if packet.command ≠ 0 then .ready packet available
  else match available with
    | [] => .wait packet
    | byte :: available =>
      if command_refused handler context byte then .failed .MOSQ_ERR_PROTOCOL
      else .ready { packet with command := byte } available

def packet_read_remaining_loop : in_packet → List UInt8 → read_result
  | packet, [] => .wait packet
  | packet, byte :: available =>
    if packet.remaining_count - 1 < -4 then .failed .MOSQ_ERR_MALFORMED_PACKET
    else
      let packet := { packet with
        remaining_count := packet.remaining_count - 1
        remaining_length := packet.remaining_length + (byte &&& 127).toNat * packet.remaining_mult
        remaining_mult := packet.remaining_mult * 128 }
      if byte &&& 128 ≠ 0 then packet_read_remaining_loop packet available
      else .ready packet available

/-- The count is made positive when the length is there. -/
def packet_read_remaining (protocol : mosquitto_protocol) (packet : in_packet)
    (available : List UInt8) : read_result :=
  if packet.remaining_count ≤ 0 then
    (packet_read_remaining_loop packet available).andThen fun packet available =>
      if length_refused protocol packet.command packet.remaining_length then
        .failed .MOSQ_ERR_MALFORMED_PACKET
      else .ready { packet with
        remaining_count := -packet.remaining_count
        to_process := packet.remaining_length } available
  else .ready packet available

def packet_read_payload (packet : in_packet) (available : List UInt8) : read_result :=
  let read := { packet with
    payload := packet.payload ++ available.take packet.to_process
    to_process := packet.to_process - available.length }
  if read.to_process > 0 then .wait read else .ready read (available.drop packet.to_process)

/-- A packet that is whole is handled, and what was read of it is forgotten. -/
def packet_read_finish {C : Type} (handler : packet_handler C) (context : C) :
    read_result → mosq_err_t × C × in_packet × List UInt8
  | .wait packet => (.MOSQ_ERR_SUCCESS, context, packet, [])
  | .failed rc => (rc, context, packet_cleanup, [])
  | .ready packet available =>
    let handled := handler.handle_packet context packet.command packet.payload
    (handled.2, handled.1, packet_cleanup, available)

/-- One call with the bytes that are available, and the ones that it leaves. Nothing is read
without a socket. -/
def packet_read {C : Type} (handler : packet_handler C) (context : C) (packet : in_packet)
    (available : List UInt8) : mosq_err_t × C × in_packet × List UInt8 :=
  if !handler.connected context then (.MOSQ_ERR_NO_CONN, context, packet, available)
  else packet_read_finish handler context <|
    (packet_read_command handler context packet available).andThen fun packet available =>
      (packet_read_remaining (handler.protocol context) packet available).andThen packet_read_payload

/-- The bytes of a packet. -/
inductive Frame : List UInt8 → UInt8 → List UInt8 → Prop where
  | intro {command : UInt8} {encoded payload : List UInt8} (nonzero : command ≠ 0)
      (varint : Varint encoded payload.length) (short : encoded.length ≤ 4) :
      Frame (command :: (encoded ++ payload)) command payload

/-- A packet whose length is being read, and its bytes so far. -/
def length_begun (command : UInt8) (bytes : List UInt8) : in_packet where
  command := command
  remaining_count := -bytes.length
  remaining_mult := 128 ^ bytes.length
  remaining_length := value bytes
  payload := []
  to_process := 0

/-- A packet whose payload is being read. -/
def payload_begun (command : UInt8) (encoded payload : List UInt8) : in_packet where
  command := command
  remaining_count := encoded.length
  remaining_mult := 128 ^ encoded.length
  remaining_length := value encoded
  payload := payload
  to_process := value encoded - payload.length

/-- The loop over the bytes of the length waits while all of them have the high bit, fails behind
the fourth of these, and otherwise has read a whole varint. It may begin anywhere in the length. -/
theorem packet_read_remaining_loop_spec (command : UInt8) {bytes : List UInt8} (hhigh : High bytes)
    (hshort : bytes.length ≤ 4) (available : List UInt8) :
    match packet_read_remaining_loop (length_begun command bytes) available with
    | .wait packet => High (bytes ++ available) ∧ (bytes ++ available).length ≤ 4 ∧
        packet = length_begun command (bytes ++ available)
    | .failed rc => rc ≠ .MOSQ_ERR_SUCCESS ∧ ∃ first rest, bytes ++ available = first ++ rest ∧
        High first ∧ first.length = 4 ∧ rest ≠ []
    | .ready packet rest => ∃ more, available = more ++ rest ∧
        Varint (bytes ++ more) (value (bytes ++ more)) ∧ (bytes ++ more).length ≤ 4 ∧
        packet = length_begun command (bytes ++ more) := by
  induction available generalizing bytes with
  | nil =>
    rw [packet_read_remaining_loop, List.append_nil]
    exact ⟨hhigh, hshort, rfl⟩
  | cons byte available ih =>
    obtain ⟨hdigit, hlow⟩ := digit_bits byte
    have hnext : ({ length_begun command bytes with
        remaining_count := (length_begun command bytes).remaining_count - 1
        remaining_length := (length_begun command bytes).remaining_length +
          (byte &&& 127).toNat * (length_begun command bytes).remaining_mult
        remaining_mult := (length_begun command bytes).remaining_mult * 128 } : in_packet) =
        length_begun command (bytes ++ [byte]) := by
      rw [length_begun, length_begun, value_concat, hdigit, List.length_append, List.length_singleton,
        Nat.pow_succ, Nat.cast_add, Nat.cast_one, neg_add']
    rw [packet_read_remaining_loop]
    by_cases hfull : bytes.length = 4
    · have hcount : (length_begun command bytes).remaining_count - 1 < -4 := by
        simp [length_begun, hfull]
      rw [if_pos hcount]
      exact ⟨nofun, bytes, byte :: available, rfl, hhigh, hfull, List.cons_ne_nil _ _⟩
    · have hcount : ¬ (length_begun command bytes).remaining_count - 1 < -4 := by
        simp only [length_begun]
        omega
      rw [if_neg hcount]
      simp only
      rw [hnext]
      by_cases hlast : byte < 0x80
      · rw [if_neg (not_not_intro (hlow.mpr hlast))]
        refine ⟨[byte], rfl, hhigh.varint hlast, ?_, rfl⟩
        rw [List.length_append, List.length_singleton]
        omega
      · rw [if_pos fun hzero => hlast (hlow.mp hzero)]
        have hspec := ih (hhigh.concat hlast) (by
          rw [List.length_append, List.length_singleton]
          omega)
        have happend : bytes ++ [byte] ++ available = bytes ++ byte :: available :=
          List.append_cons bytes byte available ▸ rfl
        revert hspec
        cases packet_read_remaining_loop (length_begun command (bytes ++ [byte])) available with
        | wait packet =>
          rw [happend]
          exact id
        | failed rc =>
          rw [happend]
          exact id
        | ready packet rest =>
          rintro ⟨more, rfl, hvarint, hmore, hpacket⟩
          rw [List.append_assoc] at hvarint hmore hpacket
          exact ⟨byte :: more, rfl, hvarint, hmore, hpacket⟩

variable {C : Type} {handler : packet_handler C} {context : C} {packet : in_packet}
  {consumed available : List UInt8}

/-- What is kept of a packet, by the bytes of it that were read. -/
inductive Reading (handler : packet_handler C) (context : C) : in_packet → List UInt8 → Prop where
  | idle : Reading handler context packet_cleanup []
  | length {command : UInt8} {bytes : List UInt8} (nonzero : command ≠ 0)
      (accepted : command_refused handler context command = false) (high : High bytes)
      (short : bytes.length ≤ 4) :
      Reading handler context (length_begun command bytes) (command :: bytes)
  | payload {command : UInt8} {encoded payload : List UInt8} (nonzero : command ≠ 0)
      (accepted : command_refused handler context command = false)
      (varint : Varint encoded (value encoded)) (short : encoded.length ≤ 4)
      (length : length_refused (handler.protocol context) command (value encoded) = false)
      (missing : payload.length < value encoded) :
      Reading handler context (payload_begun command encoded payload)
        (command :: (encoded ++ payload))

/-- A packet that is not let through, by its first byte or its length. -/
def packet_refused (handler : packet_handler C) (context : C) (command : UInt8)
    (remaining_length : Nat) : Bool :=
  command_refused handler context command ||
    length_refused (handler.protocol context) command remaining_length

/-- What a call can do. -/
inductive Outcome (handler : packet_handler C) (context : C) (bytes : List UInt8) :
    mosq_err_t × C × in_packet × List UInt8 → Prop where
  | waits {packet : in_packet} (reading : Reading handler context packet bytes) :
      Outcome handler context bytes (.MOSQ_ERR_SUCCESS, context, packet, [])
  | refused {rc : mosq_err_t} (error : rc ≠ .MOSQ_ERR_SUCCESS)
      (refused : ∀ rest frame command payload tail, Frame frame command payload →
        bytes ++ rest = frame ++ tail →
        packet_refused handler context command payload.length = true) :
      Outcome handler context bytes (rc, context, packet_cleanup, [])
  | handled {frame payload rest : List UInt8} {command : UInt8}
      (whole : Frame frame command payload) (split : bytes = frame ++ rest)
      (accepted : packet_refused handler context command payload.length = false) :
      Outcome handler context bytes ((handler.handle_packet context command payload).2,
        (handler.handle_packet context command payload).1, packet_cleanup, rest)

/-- The payload is complete when as many bytes are available as the length says, less those that
came before. The bytes behind them are left for the next packet. -/
theorem packet_read_payload_eq (command : UInt8) (encoded payload available : List UInt8)
    (missing : payload.length ≤ value encoded) :
    packet_read_payload (payload_begun command encoded payload) available =
      if available.length < value encoded - payload.length then
        .wait (payload_begun command encoded (payload ++ available))
      else .ready (payload_begun command encoded
          (payload ++ available.take (value encoded - payload.length)))
        (available.drop (value encoded - payload.length)) := by
  have hmore : value encoded - payload.length - available.length > 0 ↔
      available.length < value encoded - payload.length := by
    omega
  rw [packet_read_payload]
  change (if value encoded - payload.length - available.length > 0 then _ else _) = _
  simp only [hmore]
  split
  · rename_i hless
    have hlength : value encoded - (payload ++ available).length =
        value encoded - payload.length - available.length := by
      rw [List.length_append]
      omega
    have htake : available.take (value encoded - payload.length) = available :=
      List.take_of_length_le hless.le
    rw [payload_begun, payload_begun, hlength, htake]
  · rename_i hle
    have hlength : value encoded - (payload ++ available.take (value encoded - payload.length)).length =
        value encoded - payload.length - available.length := by
      rw [List.length_append, List.length_take]
      omega
    rw [payload_begun, payload_begun, hlength]

/-- The payload is read once the length is there, in as many calls as it takes. Then the packet is
handed on whole, and the reader begins with the next one. -/
theorem payload_outcome {command : UInt8} {encoded payload : List UInt8} (nonzero : command ≠ 0)
    (accepted : command_refused handler context command = false)
    (varint : Varint encoded (value encoded)) (short : encoded.length ≤ 4)
    (length : length_refused (handler.protocol context) command (value encoded) = false)
    (missing : payload.length ≤ value encoded) :
    Outcome handler context (command :: (encoded ++ payload) ++ available)
      (packet_read_finish handler context
        (packet_read_payload (payload_begun command encoded payload) available)) := by
  have hbytes : command :: (encoded ++ payload) ++ available =
      command :: (encoded ++ (payload ++ available)) := by
    rw [List.cons_append, List.append_assoc]
  rw [packet_read_payload_eq _ _ _ _ missing, hbytes]
  split
  · refine .waits (.payload nonzero accepted varint short length ?_)
    rw [List.length_append]
    omega
  · have hlength : (payload ++ available.take (value encoded - payload.length)).length =
        value encoded := by
      rw [List.length_append, List.length_take]
      omega
    have hframe : Frame (command :: (encoded ++ (payload ++
        available.take (value encoded - payload.length)))) command
          (payload ++ available.take (value encoded - payload.length)) :=
      .intro nonzero (hlength.symm ▸ varint) short
    have haccepted : packet_refused handler context command
        (payload ++ available.take (value encoded - payload.length)).length = false := by
      rw [packet_refused, hlength, accepted, length]
      rfl
    refine .handled hframe ?_ haccepted
    rw [List.cons_append, List.append_assoc, List.append_assoc, List.take_append_drop]

/-- The length is read once the first byte is there, in as many calls as it takes, and then the
payload. A length with more than four bytes, or one that is refused, ends the connection. -/
theorem length_outcome {command : UInt8} {bytes : List UInt8} (nonzero : command ≠ 0)
    (accepted : command_refused handler context command = false) (high : High bytes)
    (short : bytes.length ≤ 4) :
    Outcome handler context (command :: bytes ++ available)
      (packet_read_finish handler context
        ((packet_read_remaining (handler.protocol context) (length_begun command bytes)
          available).andThen packet_read_payload)) := by
  have hspec := packet_read_remaining_loop_spec command high short available
  have hcount : (length_begun command bytes).remaining_count ≤ 0 := by simp [length_begun]
  rw [packet_read_remaining, if_pos hcount, List.cons_append]
  cases hloop : packet_read_remaining_loop (length_begun command bytes) available with
  | wait packet =>
    rw [hloop] at hspec
    obtain ⟨hhigh, hshort, rfl⟩ := hspec
    exact .waits (.length nonzero accepted hhigh hshort)
  | failed rc =>
    rw [hloop] at hspec
    obtain ⟨herror, first, rest, heq, hhigh, hfour, hne⟩ := hspec
    refine .refused herror fun future frame other payload tail hframe hsplit => ?_
    obtain ⟨-, hvarint, hencoded⟩ := hframe
    rw [List.cons_append, heq, List.cons_append, List.append_assoc, List.append_assoc] at hsplit
    obtain ⟨-, hsplit⟩ := List.cons.inj hsplit
    -- four bytes that say that more follow are too many
    obtain ⟨more, hmore, rfl, -⟩ := hvarint.high_prefix hhigh hsplit.symm
    rw [List.length_append, hfour] at hencoded
    exact absurd (List.length_pos_iff.mpr hmore) (by omega)
  | ready packet rest =>
    rw [hloop] at hspec
    obtain ⟨more, rfl, hvarint, hshort, rfl⟩ := hspec
    have hbytes : command :: (bytes ++ (more ++ rest)) =
        command :: ((bytes ++ more) ++ []) ++ rest := by
      simp
    change Outcome handler context _ (packet_read_finish handler context
      (read_result.andThen
        (if length_refused (handler.protocol context) command (value (bytes ++ more)) = true then _
          else _) packet_read_payload))
    by_cases hrefused : length_refused (handler.protocol context) command (value (bytes ++ more)) = true
    · rw [if_pos hrefused]
      refine .refused nofun fun future frame other payload tail hframe hsplit => ?_
      obtain ⟨-, hother, -⟩ := hframe
      rw [hbytes, List.append_nil] at hsplit
      simp only [List.cons_append, List.append_assoc (_ ++ _)] at hsplit
      obtain ⟨rfl, hencoded⟩ := List.cons.inj hsplit
      rw [List.append_assoc _ payload] at hencoded
      obtain ⟨-, hlength, -⟩ := hvarint.append_inj hother hencoded
      rw [packet_refused, ← hlength, hrefused, Bool.or_true]
    · have haccept := Bool.not_eq_true _ ▸ hrefused
      have hbegun : ({ length_begun command (bytes ++ more) with
          remaining_count := -(length_begun command (bytes ++ more)).remaining_count
          to_process := (length_begun command (bytes ++ more)).remaining_length } : in_packet) =
          payload_begun command (bytes ++ more) [] := by
        simp [length_begun, payload_begun]
      have houtcome : Outcome handler context (command :: ((bytes ++ more) ++ []) ++ rest)
          (packet_read_finish handler context
            (packet_read_payload (payload_begun command (bytes ++ more) []) rest)) :=
        payload_outcome nonzero accepted hvarint hshort haccept (Nat.zero_le _)
      rw [← hbytes, ← hbegun] at houtcome
      rw [if_neg hrefused]
      exact houtcome

theorem packet_read_command_of_begun (h : packet.command ≠ 0) :
    packet_read_command handler context packet available = .ready packet available :=
  if_pos h

theorem packet_read_command_cons (command : UInt8) :
    packet_read_command handler context packet_cleanup (command :: available) =
      if command_refused handler context command then .failed .MOSQ_ERR_PROTOCOL
      else .ready (length_begun command []) available :=
  rfl

/-- While the context has its socket, what a call does depends on the bytes of the packet,
and not on the calls in which they came. -/
theorem packet_read_outcome (h : Reading handler context packet consumed)
    (hconnected : handler.connected context = true)
    (hnonzero : (consumed ++ available).head? ≠ some 0) :
    Outcome handler context (consumed ++ available) (packet_read handler context packet available) := by
  rw [packet_read, hconnected, if_neg (by decide)]
  cases h with
  | idle =>
    cases available with
    | nil => exact .waits .idle
    | cons command available =>
      have hcommand : command ≠ 0 := fun hzero => hnonzero (by rw [hzero]; rfl)
      rw [packet_read_command_cons]
      by_cases hrefused : command_refused handler context command = true
      · rw [if_pos hrefused]
        refine .refused nofun fun future frame other payload tail hframe hsplit => ?_
        obtain ⟨-, -, -⟩ := hframe
        obtain ⟨rfl, -⟩ := List.cons.inj hsplit
        rw [packet_refused, hrefused, Bool.true_or]
      · rw [if_neg hrefused]
        have hhigh : High [] := fun _ hmem => absurd hmem List.not_mem_nil
        exact length_outcome hcommand (Bool.not_eq_true _ ▸ hrefused) hhigh (Nat.zero_le 4)
  | length nonzero accepted high short =>
    rw [packet_read_command_of_begun nonzero]
    exact length_outcome nonzero accepted high short
  | @payload command encoded payload nonzero accepted varint short length missing =>
    rw [packet_read_command_of_begun nonzero]
    have hcount : ¬ (payload_begun command encoded payload).remaining_count ≤ 0 := by
      simpa [payload_begun] using varint.ne_nil
    change Outcome handler context _ (packet_read_finish handler context
      ((packet_read_remaining (handler.protocol context) (payload_begun command encoded payload)
        available).andThen packet_read_payload))
    rw [packet_read_remaining, if_neg hcount]
    exact payload_outcome nonzero accepted varint short length missing.le

end communication_center.mosquitto
