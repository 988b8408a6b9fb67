import CommunicationCenter.Mosquitto.PacketRead

open libc encoding

namespace communication_center.mosquitto

abbrev CMD_CONNACK : UInt8 := 0x20
abbrev CMD_AUTH : UInt8 := 0xF0

inductive mqtt5_property where
  | MQTT_PROP_PAYLOAD_FORMAT_INDICATOR
  | MQTT_PROP_MESSAGE_EXPIRY_INTERVAL
  | MQTT_PROP_CONTENT_TYPE
  | MQTT_PROP_RESPONSE_TOPIC
  | MQTT_PROP_CORRELATION_DATA
  | MQTT_PROP_SUBSCRIPTION_IDENTIFIER
  | MQTT_PROP_SESSION_EXPIRY_INTERVAL
  | MQTT_PROP_ASSIGNED_CLIENT_IDENTIFIER
  | MQTT_PROP_SERVER_KEEP_ALIVE
  | MQTT_PROP_AUTHENTICATION_METHOD
  | MQTT_PROP_AUTHENTICATION_DATA
  | MQTT_PROP_REQUEST_PROBLEM_INFORMATION
  | MQTT_PROP_WILL_DELAY_INTERVAL
  | MQTT_PROP_REQUEST_RESPONSE_INFORMATION
  | MQTT_PROP_RESPONSE_INFORMATION
  | MQTT_PROP_SERVER_REFERENCE
  | MQTT_PROP_REASON_STRING
  | MQTT_PROP_RECEIVE_MAXIMUM
  | MQTT_PROP_TOPIC_ALIAS_MAXIMUM
  | MQTT_PROP_TOPIC_ALIAS
  | MQTT_PROP_MAXIMUM_QOS
  | MQTT_PROP_RETAIN_AVAILABLE
  | MQTT_PROP_USER_PROPERTY
  | MQTT_PROP_MAXIMUM_PACKET_SIZE
  | MQTT_PROP_WILDCARD_SUB_AVAILABLE
  | MQTT_PROP_SUBSCRIPTION_ID_AVAILABLE
  | MQTT_PROP_SHARED_SUB_AVAILABLE
  deriving DecidableEq

namespace mqtt5_property

def number : mqtt5_property → Nat
  | MQTT_PROP_PAYLOAD_FORMAT_INDICATOR => 1
  | MQTT_PROP_MESSAGE_EXPIRY_INTERVAL => 2
  | MQTT_PROP_CONTENT_TYPE => 3
  | MQTT_PROP_RESPONSE_TOPIC => 8
  | MQTT_PROP_CORRELATION_DATA => 9
  | MQTT_PROP_SUBSCRIPTION_IDENTIFIER => 11
  | MQTT_PROP_SESSION_EXPIRY_INTERVAL => 17
  | MQTT_PROP_ASSIGNED_CLIENT_IDENTIFIER => 18
  | MQTT_PROP_SERVER_KEEP_ALIVE => 19
  | MQTT_PROP_AUTHENTICATION_METHOD => 21
  | MQTT_PROP_AUTHENTICATION_DATA => 22
  | MQTT_PROP_REQUEST_PROBLEM_INFORMATION => 23
  | MQTT_PROP_WILL_DELAY_INTERVAL => 24
  | MQTT_PROP_REQUEST_RESPONSE_INFORMATION => 25
  | MQTT_PROP_RESPONSE_INFORMATION => 26
  | MQTT_PROP_SERVER_REFERENCE => 28
  | MQTT_PROP_REASON_STRING => 31
  | MQTT_PROP_RECEIVE_MAXIMUM => 33
  | MQTT_PROP_TOPIC_ALIAS_MAXIMUM => 34
  | MQTT_PROP_TOPIC_ALIAS => 35
  | MQTT_PROP_MAXIMUM_QOS => 36
  | MQTT_PROP_RETAIN_AVAILABLE => 37
  | MQTT_PROP_USER_PROPERTY => 38
  | MQTT_PROP_MAXIMUM_PACKET_SIZE => 39
  | MQTT_PROP_WILDCARD_SUB_AVAILABLE => 40
  | MQTT_PROP_SUBSCRIPTION_ID_AVAILABLE => 41
  | MQTT_PROP_SHARED_SUB_AVAILABLE => 42

def all : List mqtt5_property :=
  [MQTT_PROP_PAYLOAD_FORMAT_INDICATOR, MQTT_PROP_MESSAGE_EXPIRY_INTERVAL, MQTT_PROP_CONTENT_TYPE,
    MQTT_PROP_RESPONSE_TOPIC, MQTT_PROP_CORRELATION_DATA, MQTT_PROP_SUBSCRIPTION_IDENTIFIER,
    MQTT_PROP_SESSION_EXPIRY_INTERVAL, MQTT_PROP_ASSIGNED_CLIENT_IDENTIFIER,
    MQTT_PROP_SERVER_KEEP_ALIVE, MQTT_PROP_AUTHENTICATION_METHOD, MQTT_PROP_AUTHENTICATION_DATA,
    MQTT_PROP_REQUEST_PROBLEM_INFORMATION, MQTT_PROP_WILL_DELAY_INTERVAL,
    MQTT_PROP_REQUEST_RESPONSE_INFORMATION, MQTT_PROP_RESPONSE_INFORMATION,
    MQTT_PROP_SERVER_REFERENCE, MQTT_PROP_REASON_STRING, MQTT_PROP_RECEIVE_MAXIMUM,
    MQTT_PROP_TOPIC_ALIAS_MAXIMUM, MQTT_PROP_TOPIC_ALIAS, MQTT_PROP_MAXIMUM_QOS,
    MQTT_PROP_RETAIN_AVAILABLE, MQTT_PROP_USER_PROPERTY, MQTT_PROP_MAXIMUM_PACKET_SIZE,
    MQTT_PROP_WILDCARD_SUB_AVAILABLE, MQTT_PROP_SUBSCRIPTION_ID_AVAILABLE,
    MQTT_PROP_SHARED_SUB_AVAILABLE]

def of_number (identifier : Nat) : Option mqtt5_property :=
  all.find? fun property => property.number = identifier

end mqtt5_property

inductive mqtt5_property_type where
  | MQTT_PROP_TYPE_BYTE
  | MQTT_PROP_TYPE_INT16
  | MQTT_PROP_TYPE_INT32
  | MQTT_PROP_TYPE_VARINT
  | MQTT_PROP_TYPE_BINARY
  | MQTT_PROP_TYPE_STRING
  | MQTT_PROP_TYPE_STRING_PAIR

open mqtt5_property mqtt5_property_type

/-- The type that the reading and the writing of a property take. -/
def mqtt5_property.type : mqtt5_property → mqtt5_property_type
  | MQTT_PROP_PAYLOAD_FORMAT_INDICATOR | MQTT_PROP_REQUEST_PROBLEM_INFORMATION
  | MQTT_PROP_REQUEST_RESPONSE_INFORMATION | MQTT_PROP_MAXIMUM_QOS | MQTT_PROP_RETAIN_AVAILABLE
  | MQTT_PROP_WILDCARD_SUB_AVAILABLE | MQTT_PROP_SUBSCRIPTION_ID_AVAILABLE
  | MQTT_PROP_SHARED_SUB_AVAILABLE => MQTT_PROP_TYPE_BYTE
  | MQTT_PROP_SERVER_KEEP_ALIVE | MQTT_PROP_RECEIVE_MAXIMUM | MQTT_PROP_TOPIC_ALIAS_MAXIMUM
  | MQTT_PROP_TOPIC_ALIAS => MQTT_PROP_TYPE_INT16
  | MQTT_PROP_MESSAGE_EXPIRY_INTERVAL | MQTT_PROP_SESSION_EXPIRY_INTERVAL
  | MQTT_PROP_WILL_DELAY_INTERVAL | MQTT_PROP_MAXIMUM_PACKET_SIZE => MQTT_PROP_TYPE_INT32
  | MQTT_PROP_SUBSCRIPTION_IDENTIFIER => MQTT_PROP_TYPE_VARINT
  | MQTT_PROP_CONTENT_TYPE | MQTT_PROP_RESPONSE_TOPIC | MQTT_PROP_ASSIGNED_CLIENT_IDENTIFIER
  | MQTT_PROP_AUTHENTICATION_METHOD | MQTT_PROP_RESPONSE_INFORMATION | MQTT_PROP_SERVER_REFERENCE
  | MQTT_PROP_REASON_STRING => MQTT_PROP_TYPE_STRING
  | MQTT_PROP_AUTHENTICATION_DATA | MQTT_PROP_CORRELATION_DATA => MQTT_PROP_TYPE_BINARY
  | MQTT_PROP_USER_PROPERTY => MQTT_PROP_TYPE_STRING_PAIR

/-- The values that a property of a type can have. A string of length zero is `NULL`. -/
abbrev mqtt5_property_type.Value : mqtt5_property_type → Type
  | MQTT_PROP_TYPE_BYTE => UInt8
  | MQTT_PROP_TYPE_INT16 => UInt16
  | MQTT_PROP_TYPE_INT32 => UInt32
  | MQTT_PROP_TYPE_VARINT => Nat
  | MQTT_PROP_TYPE_BINARY => Option (List UInt8)
  | MQTT_PROP_TYPE_STRING => Option Text
  | MQTT_PROP_TYPE_STRING_PAIR => Option Text × Option Text

instance : (type : mqtt5_property_type) → DecidableEq type.Value
  | MQTT_PROP_TYPE_BYTE => inferInstanceAs (DecidableEq UInt8)
  | MQTT_PROP_TYPE_INT16 => inferInstanceAs (DecidableEq UInt16)
  | MQTT_PROP_TYPE_INT32 => inferInstanceAs (DecidableEq UInt32)
  | MQTT_PROP_TYPE_VARINT => inferInstanceAs (DecidableEq Nat)
  | MQTT_PROP_TYPE_BINARY => inferInstanceAs (DecidableEq (Option (List UInt8)))
  | MQTT_PROP_TYPE_STRING => inferInstanceAs (DecidableEq (Option Text))
  | MQTT_PROP_TYPE_STRING_PAIR => inferInstanceAs (DecidableEq (Option Text × Option Text))

structure mosquitto_property where
  identifier : mqtt5_property
  value : identifier.type.Value
  deriving DecidableEq

/-- The length of a string or of binary data. -/
def value_len (text : Option Text) : UInt32 :=
  UInt32.ofNat (text.getD []).length

/-- The value, what is left of the length of all properties and of the packet. -/
def property_read_value (len : UInt32) (packet : mosquitto_packet) :
    (type : mqtt5_property_type) → Except mosq_err_t (type.Value × UInt32 × mosquitto_packet)
  | MQTT_PROP_TYPE_BYTE => do
    let (byte, packet) ← packet_read_byte packet
    .ok (byte, len - 1, packet)
  | MQTT_PROP_TYPE_INT16 => do
    let (uint16, packet) ← packet_read_uint16 packet
    .ok (uint16, len - 2, packet)
  | MQTT_PROP_TYPE_INT32 => do
    let (uint32, packet) ← packet_read_uint32 packet
    .ok (uint32, len - 4, packet)
  | MQTT_PROP_TYPE_VARINT => do
    let (varint, byte_count, packet) ← packet_read_varint packet
    .ok (varint, len - UInt32.ofNat byte_count, packet)
  | MQTT_PROP_TYPE_BINARY => do
    let (str, packet) ← packet_read_binary packet
    .ok (str, len - 2 - value_len str, packet)
  | MQTT_PROP_TYPE_STRING => do
    let (str, packet) ← packet_read_string packet
    .ok (str, len - 2 - value_len str, packet)
  | MQTT_PROP_TYPE_STRING_PAIR => do
    let (name, packet) ← packet_read_string packet
    let (str, packet) ← packet_read_string packet
    .ok ((name, str), len - 2 - value_len name - 2 - value_len str, packet)

/-- One byte of the length is reckoned for the identifier. -/
def property_read (len : UInt32) (packet : mosquitto_packet) :
    Except mosq_err_t (mosquitto_property × UInt32 × mosquitto_packet) := do
  let (property_identifier, _, packet) ← packet_read_varint packet
  match of_number property_identifier with
  | none => .error .MOSQ_ERR_MALFORMED_PACKET
  | some identifier =>
    let (value, len, packet) ← property_read_value (len - 1) packet identifier.type
    .ok (⟨identifier, value⟩, len, packet)

/-- Properties are read until the length has come to zero. -/
def property_read_loop : Nat → UInt32 → mosquitto_packet →
    Except mosq_err_t (List mosquitto_property × mosquitto_packet)
  | 0, proplen, packet => if proplen = 0 then .ok ([], packet) else .error .MOSQ_ERR_MALFORMED_PACKET
  | n + 1, proplen, packet =>
    if proplen = 0 then .ok ([], packet)
    else do
      let (property, proplen, packet) ← property_read proplen packet
      let (properties, packet) ← property_read_loop n proplen packet
      .ok (property :: properties, packet)

/-- What can stand for a command in the check of properties: also the will. -/
inductive property_command where
  | command (command : UInt8)
  | CMD_WILL
  deriving DecidableEq

def mosquitto_property_check_command (command : property_command) : mqtt5_property → mosq_err_t
  | MQTT_PROP_PAYLOAD_FORMAT_INDICATOR | MQTT_PROP_MESSAGE_EXPIRY_INTERVAL
  | MQTT_PROP_CONTENT_TYPE | MQTT_PROP_RESPONSE_TOPIC | MQTT_PROP_CORRELATION_DATA =>
    if command ∉ [.command CMD_PUBLISH, .CMD_WILL] then .MOSQ_ERR_PROTOCOL else .MOSQ_ERR_SUCCESS
  | MQTT_PROP_SUBSCRIPTION_IDENTIFIER =>
    if command ∉ [.command CMD_PUBLISH, .command CMD_SUBSCRIBE] then .MOSQ_ERR_PROTOCOL
    else .MOSQ_ERR_SUCCESS
  | MQTT_PROP_SESSION_EXPIRY_INTERVAL =>
    if command ∉ [.command CMD_CONNECT, .command CMD_CONNACK, .command CMD_DISCONNECT] then
      .MOSQ_ERR_PROTOCOL
    else .MOSQ_ERR_SUCCESS
  | MQTT_PROP_AUTHENTICATION_METHOD | MQTT_PROP_AUTHENTICATION_DATA =>
    if command ∉ [.command CMD_CONNECT, .command CMD_CONNACK, .command CMD_AUTH] then
      .MOSQ_ERR_PROTOCOL
    else .MOSQ_ERR_SUCCESS
  | MQTT_PROP_ASSIGNED_CLIENT_IDENTIFIER | MQTT_PROP_SERVER_KEEP_ALIVE
  | MQTT_PROP_RESPONSE_INFORMATION | MQTT_PROP_MAXIMUM_QOS | MQTT_PROP_RETAIN_AVAILABLE
  | MQTT_PROP_WILDCARD_SUB_AVAILABLE | MQTT_PROP_SUBSCRIPTION_ID_AVAILABLE
  | MQTT_PROP_SHARED_SUB_AVAILABLE =>
    if command ≠ .command CMD_CONNACK then .MOSQ_ERR_PROTOCOL else .MOSQ_ERR_SUCCESS
  | MQTT_PROP_WILL_DELAY_INTERVAL =>
    if command ≠ .CMD_WILL then .MOSQ_ERR_PROTOCOL else .MOSQ_ERR_SUCCESS
  | MQTT_PROP_REQUEST_PROBLEM_INFORMATION | MQTT_PROP_REQUEST_RESPONSE_INFORMATION =>
    if command ≠ .command CMD_CONNECT then .MOSQ_ERR_PROTOCOL else .MOSQ_ERR_SUCCESS
  | MQTT_PROP_SERVER_REFERENCE =>
    if command ∉ [.command CMD_CONNACK, .command CMD_DISCONNECT] then .MOSQ_ERR_PROTOCOL
    else .MOSQ_ERR_SUCCESS
  | MQTT_PROP_REASON_STRING =>
    if command ∈ [.command CMD_CONNECT, .command CMD_PUBLISH, .command CMD_SUBSCRIBE,
        .command CMD_UNSUBSCRIBE] then .MOSQ_ERR_PROTOCOL
    else .MOSQ_ERR_SUCCESS
  | MQTT_PROP_RECEIVE_MAXIMUM | MQTT_PROP_TOPIC_ALIAS_MAXIMUM | MQTT_PROP_MAXIMUM_PACKET_SIZE =>
    if command ∉ [.command CMD_CONNECT, .command CMD_CONNACK] then .MOSQ_ERR_PROTOCOL
    else .MOSQ_ERR_SUCCESS
  | MQTT_PROP_TOPIC_ALIAS =>
    if command ≠ .command CMD_PUBLISH then .MOSQ_ERR_PROTOCOL else .MOSQ_ERR_SUCCESS
  | MQTT_PROP_USER_PROPERTY => .MOSQ_ERR_SUCCESS

/-- The values that are refused, by the identifier. -/
def property_value_refused : mosquitto_property → Bool
  | ⟨MQTT_PROP_REQUEST_PROBLEM_INFORMATION, value⟩ | ⟨MQTT_PROP_PAYLOAD_FORMAT_INDICATOR, value⟩
  | ⟨MQTT_PROP_REQUEST_RESPONSE_INFORMATION, value⟩ | ⟨MQTT_PROP_MAXIMUM_QOS, value⟩
  | ⟨MQTT_PROP_RETAIN_AVAILABLE, value⟩ | ⟨MQTT_PROP_WILDCARD_SUB_AVAILABLE, value⟩
  | ⟨MQTT_PROP_SUBSCRIPTION_ID_AVAILABLE, value⟩ | ⟨MQTT_PROP_SHARED_SUB_AVAILABLE, value⟩ =>
    decide ((show UInt8 from value) > 1)
  | ⟨MQTT_PROP_MAXIMUM_PACKET_SIZE, value⟩ => decide ((show UInt32 from value) = 0)
  | ⟨MQTT_PROP_RECEIVE_MAXIMUM, value⟩ | ⟨MQTT_PROP_TOPIC_ALIAS, value⟩ =>
    decide ((show UInt16 from value) = 0)
  | ⟨MQTT_PROP_RESPONSE_TOPIC, value⟩ =>
    match (show Option Text from value) with
    | none => true
    | some topic => mosquitto_pub_topic_check topic ≠ .MOSQ_ERR_SUCCESS
  | _ => false

def mosquitto_property_check_all (command : property_command) : List mosquitto_property → mosq_err_t
  | [] => .MOSQ_ERR_SUCCESS
  | p :: tail =>
    if property_value_refused p then .MOSQ_ERR_PROTOCOL
    else if mosquitto_property_check_command command p.identifier ≠ .MOSQ_ERR_SUCCESS then
      mosquitto_property_check_command command p.identifier
    else if p.identifier ≠ MQTT_PROP_USER_PROPERTY ∧
        tail.any (fun other => p.identifier = other.identifier) then
      .MOSQ_ERR_DUPLICATE_PROPERTY
    else mosquitto_property_check_all command tail

def property_read_all (command : property_command) (packet : mosquitto_packet) :
    Except mosq_err_t (List mosquitto_property × mosquitto_packet) := do
  let (proplen, _, packet) ← packet_read_varint packet
  let (properties, packet) ← property_read_loop packet.length (UInt32.ofNat proplen) packet
  if mosquitto_property_check_all command properties ≠ .MOSQ_ERR_SUCCESS then
    .error (mosquitto_property_check_all command properties)
  else .ok (properties, packet)

/-- The bytes of a value, and whether it could be written. -/
def property_write_value : (type : mqtt5_property_type) → type.Value → List UInt8 × mosq_err_t
  | MQTT_PROP_TYPE_BYTE, (value : UInt8) => ([value], .MOSQ_ERR_SUCCESS)
  | MQTT_PROP_TYPE_INT16, (value : UInt16) => (packet_write_uint16 value, .MOSQ_ERR_SUCCESS)
  | MQTT_PROP_TYPE_INT32, (value : UInt32) => (packet_write_uint32 value, .MOSQ_ERR_SUCCESS)
  | MQTT_PROP_TYPE_VARINT, (value : Nat) => packet_write_varint value
  | MQTT_PROP_TYPE_BINARY, (value : Option (List UInt8)) =>
    (packet_write_string (value.getD []) (UInt16.ofNat (value.getD []).length), .MOSQ_ERR_SUCCESS)
  | MQTT_PROP_TYPE_STRING, (value : Option Text) =>
    (packet_write_string (value.getD []) (UInt16.ofNat (value.getD []).length), .MOSQ_ERR_SUCCESS)
  | MQTT_PROP_TYPE_STRING_PAIR, (value : Option Text × Option Text) =>
    (packet_write_string (value.1.getD []) (UInt16.ofNat (value.1.getD []).length) ++
      packet_write_string (value.2.getD []) (UInt16.ofNat (value.2.getD []).length),
      .MOSQ_ERR_SUCCESS)

def property_write (property : mosquitto_property) : List UInt8 × mosq_err_t :=
  let identifier := packet_write_varint property.identifier.number
  let value := property_write_value property.identifier.type property.value
  (identifier.1 ++ value.1, value.2)

def property_get_length (property : mosquitto_property) : Nat :=
  match property.identifier.type, property.value with
  | MQTT_PROP_TYPE_BYTE, _ => 2
  | MQTT_PROP_TYPE_INT16, _ => 3
  | MQTT_PROP_TYPE_INT32, _ => 5
  | MQTT_PROP_TYPE_VARINT, (value : Nat) =>
    if value < 128 then 2
    else if value < 16384 then 3
    else if value < 2097152 then 4
    else if value < 268435456 then 5
    else 0
  | MQTT_PROP_TYPE_BINARY, (value : Option (List UInt8)) => 3 + (value.getD []).length
  | MQTT_PROP_TYPE_STRING, (value : Option Text) => 3 + (value.getD []).length
  | MQTT_PROP_TYPE_STRING_PAIR, (value : Option Text × Option Text) =>
    5 + (value.2.getD []).length + (value.1.getD []).length

def property_get_length_all (properties : List mosquitto_property) : Nat :=
  (properties.map property_get_length).sum

/-- The properties up to the first that cannot be written. -/
def property_write_loop : List mosquitto_property → List UInt8 × mosq_err_t
  | [] => ([], .MOSQ_ERR_SUCCESS)
  | property :: properties =>
    let written := property_write property
    if written.2 ≠ .MOSQ_ERR_SUCCESS then written
    else
      let rest := property_write_loop properties
      (written.1 ++ rest.1, rest.2)

/-- The properties after their length. -/
def property_write_all (properties : List mosquitto_property) : List UInt8 × mosq_err_t :=
  let length := packet_write_varint (property_get_length_all properties)
  if length.2 ≠ .MOSQ_ERR_SUCCESS then length
  else
    let rest := property_write_loop properties
    (length.1 ++ rest.1, rest.2)

/-- A string that can be read: it is not empty where it is there. -/
def Readable (str : Option Text) : Prop :=
  str ≠ some [] ∧ (str.getD []).length < 65536 ∧ PermittedText (str.getD [])

/-- The values that can be read. -/
def ValidValue : (type : mqtt5_property_type) → type.Value → Prop
  | MQTT_PROP_TYPE_VARINT, (value : Nat) => (packet_write_varint value).2 = .MOSQ_ERR_SUCCESS
  | MQTT_PROP_TYPE_BINARY, (value : Option (List UInt8)) =>
    value ≠ some [] ∧ (value.getD []).length < 65536
  | MQTT_PROP_TYPE_STRING, (value : Option Text) => Readable value
  | MQTT_PROP_TYPE_STRING_PAIR, (value : Option Text × Option Text) =>
    Readable value.1 ∧ Readable value.2
  | MQTT_PROP_TYPE_BYTE, _ | MQTT_PROP_TYPE_INT16, _ | MQTT_PROP_TYPE_INT32, _ => True

def mosquitto_property.Valid (property : mosquitto_property) : Prop :=
  ValidValue property.identifier.type property.value

/-- A byte is read if there is one. -/
theorem packet_read_byte_iff (packet rest : mosquitto_packet) (byte : UInt8) :
    packet_read_byte packet = .ok (byte, rest) ↔ packet = [byte] ++ rest := by
  cases packet with
  | nil => exact ⟨nofun, nofun⟩
  | cons first packet => simp [packet_read_byte]

/-- A text is written with two bytes for its length. -/
theorem packet_write_string_length {str : Text} (h : str.length < 65536) :
    (packet_write_string str (UInt16.ofNat str.length)).length = 2 + str.length := by
  have hlength : (UInt16.ofNat str.length).toNat = str.length := UInt16.toNat_ofNat_of_lt' h
  rw [packet_write_string, hlength, List.take_length, List.length_append]
  rfl

/-- What is counted down in two steps of 32 bits can be counted down in one. -/
theorem sub_two_sub (len : UInt32) (n : Nat) :
    len - 2 - UInt32.ofNat n = len - UInt32.ofNat (2 + n) := by
  have hadd : UInt32.ofNat (2 + n) = 2 + UInt32.ofNat n := UInt32.ofNat_add 2 n
  rw [hadd]
  grind

/-- One value is read, and the length that is left is reckoned in the arithmetic of 32 bits,
whatever the reader is. -/
theorem read_value_iff {T : Type} (read : Except mosq_err_t (T × mosquitto_packet)) (left : T → UInt32)
    (len' : UInt32) (value : T) (rest : mosquitto_packet) :
    (do
      let (read, packet) ← read
      Except.ok (read, left read, packet)) = .ok (value, len', rest) ↔
      read = .ok (value, rest) ∧ len' = left value := by
  rw [bind_eq_ok_iff]
  constructor
  · rintro ⟨⟨first, packet⟩, hread, h⟩
    obtain ⟨rfl, hleft⟩ := Prod.mk.inj (Except.ok.inj h)
    obtain ⟨rfl, rfl⟩ := Prod.mk.inj hleft
    exact ⟨hread, rfl⟩
  · rintro ⟨hread, rfl⟩
    exact ⟨(value, rest), hread, rfl⟩

/-- The reader counts down for a text what was written for it. -/
theorem string_length {str : Option Text} (h : (str.getD []).length < 65536) (len : UInt32) :
    len - 2 - value_len str = len - UInt32.ofNat
      (packet_write_string (str.getD []) (UInt16.ofNat (str.getD []).length)).length := by
  rw [packet_write_string_length h, value_len, sub_two_sub]

/-- A value is read exactly as it was written, and as much is taken from the length. The length is
counted in 32 bits, and nothing is assumed of it. -/
theorem property_read_value_iff (len len' : UInt32) (packet rest : mosquitto_packet)
    (type : mqtt5_property_type) (value : type.Value) :
    property_read_value len packet type = .ok (value, len', rest) ↔
      ValidValue type value ∧ packet = (property_write_value type value).1 ++ rest ∧
        len' = len - UInt32.ofNat (property_write_value type value).1.length := by
  cases type with
  | MQTT_PROP_TYPE_BYTE =>
    rw [property_read_value, read_value_iff _ fun _ => len - 1, packet_read_byte_iff]
    exact (true_and _).symm ▸ Iff.rfl
  | MQTT_PROP_TYPE_INT16 =>
    rw [property_read_value, read_value_iff _ fun _ => len - 2, packet_read_uint16_iff]
    exact (true_and _).symm ▸ Iff.rfl
  | MQTT_PROP_TYPE_INT32 =>
    rw [property_read_value, read_value_iff _ fun _ => len - 4, packet_read_uint32_iff]
    exact (true_and _).symm ▸ Iff.rfl
  | MQTT_PROP_TYPE_VARINT =>
    have hbytes : (packet_write_varint value).1.length = packet_varint_bytes value :=
      varint_digits_length value
    rw [property_read_value, bind_eq_ok_iff, ValidValue, property_write_value, hbytes]
    constructor
    · rintro ⟨⟨varint, byte_count, packet⟩, hread, h⟩
      obtain ⟨rfl, hleft⟩ := Prod.mk.inj (Except.ok.inj h)
      obtain ⟨rfl, rfl⟩ := Prod.mk.inj hleft
      obtain ⟨hwritten, hpacket, rfl⟩ := (packet_read_varint_iff _ _ _ _).mp hread
      exact ⟨hwritten, hpacket, rfl⟩
    · rintro ⟨hwritten, hpacket, rfl⟩
      exact ⟨_, (packet_read_varint_iff _ _ _ _).mpr ⟨hwritten, hpacket, rfl⟩, rfl⟩
  | MQTT_PROP_TYPE_BINARY =>
    rw [property_read_value, read_value_iff _ fun str => len - 2 - value_len str,
      packet_read_binary_iff, ValidValue, property_write_value]
    constructor
    · rintro ⟨⟨hne, hlt, hpacket⟩, rfl⟩
      exact ⟨⟨hne, hlt⟩, hpacket, string_length hlt len⟩
    · rintro ⟨⟨hne, hlt⟩, hpacket, rfl⟩
      exact ⟨⟨hne, hlt, hpacket⟩, (string_length hlt len).symm⟩
  | MQTT_PROP_TYPE_STRING =>
    rw [property_read_value, read_value_iff _ fun str => len - 2 - value_len str,
      packet_read_string_iff, ValidValue, property_write_value]
    constructor
    · rintro ⟨⟨hne, hlt, hpermitted, hpacket⟩, rfl⟩
      exact ⟨⟨hne, hlt, hpermitted⟩, hpacket, string_length hlt len⟩
    · rintro ⟨⟨hne, hlt, hpermitted⟩, hpacket, rfl⟩
      exact ⟨⟨hne, hlt, hpermitted, hpacket⟩, (string_length hlt len).symm⟩
  | MQTT_PROP_TYPE_STRING_PAIR =>
    obtain ⟨name, str⟩ := value
    have hlength (hname : (name.getD []).length < 65536) (hstr : (str.getD []).length < 65536) :
        len - 2 - value_len name - 2 - value_len str = len - UInt32.ofNat
          (packet_write_string (name.getD []) (UInt16.ofNat (name.getD []).length) ++
            packet_write_string (str.getD []) (UInt16.ofNat (str.getD []).length)).length := by
      rw [string_length hname, string_length hstr, List.length_append, UInt32.ofNat_add]
      grind
    rw [property_read_value, bind_eq_ok_iff, ValidValue, property_write_value]
    constructor
    · rintro ⟨⟨first, packet⟩, hfirst, h⟩
      rw [bind_eq_ok_iff] at h
      obtain ⟨⟨second, packet'⟩, hsecond, h⟩ := h
      obtain ⟨heq, hleft⟩ := Prod.mk.inj (Except.ok.inj h)
      obtain ⟨rfl, rfl⟩ := Prod.mk.inj heq
      obtain ⟨rfl, rfl⟩ := Prod.mk.inj hleft
      obtain ⟨hname, hnameLt, hnamePermitted, rfl⟩ := (packet_read_string_iff _ _ _).mp hfirst
      obtain ⟨hstr, hstrLt, hstrPermitted, hpacket⟩ := (packet_read_string_iff _ _ _).mp hsecond
      refine ⟨⟨⟨hname, hnameLt, hnamePermitted⟩, hstr, hstrLt, hstrPermitted⟩, ?_, hlength hnameLt hstrLt⟩
      rw [List.append_assoc, ← hpacket]
    · rintro ⟨⟨⟨hname, hnameLt, hnamePermitted⟩, hstr, hstrLt, hstrPermitted⟩, rfl, rfl⟩
      rw [List.append_assoc]
      refine ⟨_, (packet_read_string_iff _ _ _).mpr ⟨hname, hnameLt, hnamePermitted, rfl⟩, ?_⟩
      rw [bind_eq_ok_iff]
      refine ⟨_, (packet_read_string_iff _ _ _).mpr ⟨hstr, hstrLt, hstrPermitted, rfl⟩, ?_⟩
      rw [← hlength hnameLt hstrLt]

/-- A property is known by its number. -/
theorem of_number_eq_some_iff (identifier : Nat) (property : mqtt5_property) :
    of_number identifier = some property ↔ property.number = identifier := by
  constructor
  · intro h
    simpa using List.find?_some h
  · rintro rfl
    cases property <;> rfl

/-- The number of a property fits in one byte of a varint. -/
theorem number_lt (property : mqtt5_property) : property.number < 128 := by
  cases property <;> decide

/-- A property is read exactly as it was written, with its identifier, and as much is taken from
the length. Unknown identifiers are refused. -/
theorem property_read_iff (len len' : UInt32) (packet rest : mosquitto_packet)
    (property : mosquitto_property) :
    property_read len packet = .ok (property, len', rest) ↔
      property.Valid ∧ packet = (property_write property).1 ++ rest ∧
        len' = len - UInt32.ofNat (property_write property).1.length := by
  obtain ⟨identifier, value⟩ := property
  have hlt := number_lt identifier
  have hone : (packet_write_varint identifier.number).1.length = 1 := by
    rw [packet_write_varint, varint_digits_length, packet_varint_bytes, if_pos hlt]
  have hwritten : (packet_write_varint identifier.number).2 = .MOSQ_ERR_SUCCESS := by
    rw [packet_write_varint, varint_digits_length, packet_varint_bytes, if_pos hlt]
    rfl
  have hleft (n : Nat) : len - 1 - UInt32.ofNat n = len - UInt32.ofNat (1 + n) := by
    rw [UInt32.ofNat_add]
    exact (by grind : ∀ a : UInt32, len - 1 - a = len - (1 + a)) _
  rw [property_read, bind_eq_ok_iff, property_write]
  simp only [List.length_append, hone, ← hleft, List.append_assoc]
  constructor
  · rintro ⟨⟨number, bytes, tail⟩, hread, h⟩
    obtain ⟨-, hpacket, -⟩ := (packet_read_varint_iff _ _ _ _).mp hread
    simp only at h
    split at h
    · cases h
    · rename_i found hfound
      rw [of_number_eq_some_iff] at hfound
      rw [bind_eq_ok_iff] at h
      obtain ⟨⟨read, left, after⟩, hvalue, h⟩ := h
      obtain ⟨heq, hafter⟩ := Prod.mk.inj (Except.ok.inj h)
      obtain ⟨rfl, rfl⟩ := Prod.mk.inj hafter
      cases heq
      obtain ⟨hvalid, rfl, rfl⟩ := (property_read_value_iff _ _ _ _ _ _).mp hvalue
      exact ⟨hvalid, by rw [hpacket, hfound], rfl⟩
  · rintro ⟨hvalid, rfl, rfl⟩
    refine ⟨_, (packet_read_varint_iff _ _ _ _).mpr ⟨hwritten, rfl, rfl⟩, ?_⟩
    simp only [(of_number_eq_some_iff _ _).mpr rfl]
    rw [bind_eq_ok_iff]
    exact ⟨_, (property_read_value_iff _ _ _ _ _ _).mpr ⟨hvalid, rfl, rfl⟩, rfl⟩

/-- A property that can be read is written without an error, in the length that is reckoned for it.
Each type of value has its own length. -/
theorem mosquitto_property.Valid.written {property : mosquitto_property} (h : property.Valid) :
    (property_write property).2 = .MOSQ_ERR_SUCCESS ∧
      (property_write property).1.length = property_get_length property := by
  obtain ⟨identifier, value⟩ := property
  have hone : (packet_write_varint identifier.number).1.length = 1 := by
    rw [packet_write_varint, varint_digits_length, packet_varint_bytes, if_pos (number_lt identifier)]
  rw [property_write, property_get_length]
  simp only [List.length_append, hone]
  rw [mosquitto_property.Valid] at h
  simp only at h
  generalize identifier.type = type at value h
  cases type with
  | MQTT_PROP_TYPE_BYTE => exact ⟨rfl, rfl⟩
  | MQTT_PROP_TYPE_INT16 => exact ⟨rfl, rfl⟩
  | MQTT_PROP_TYPE_INT32 => exact ⟨rfl, rfl⟩
  | MQTT_PROP_TYPE_VARINT =>
    have hbytes : (packet_write_varint value).1.length = packet_varint_bytes value :=
      varint_digits_length value
    refine ⟨h, ?_⟩
    rw [property_write_value, hbytes, packet_varint_bytes]
    rw [ValidValue, packet_write_varint, varint_digits_length, packet_varint_bytes] at h
    grind
  | MQTT_PROP_TYPE_BINARY =>
    refine ⟨rfl, ?_⟩
    rw [property_write_value, packet_write_string_length h.2]
    change _ = 3 + (Option.getD value []).length
    omega
  | MQTT_PROP_TYPE_STRING =>
    refine ⟨rfl, ?_⟩
    rw [property_write_value, packet_write_string_length h.2.1]
    change _ = 3 + (Option.getD value []).length
    omega
  | MQTT_PROP_TYPE_STRING_PAIR =>
    refine ⟨rfl, ?_⟩
    rw [property_write_value, List.length_append, packet_write_string_length h.1.2.1,
      packet_write_string_length h.2.2.1]
    change _ = 5 + (value.2.getD []).length + (value.1.getD []).length
    omega

/-- Every valid property takes some room. -/
theorem property_get_length_pos {property : mosquitto_property} (h : property.Valid) :
    0 < property_get_length property := by
  rw [← h.written.2, property_write, packet_write_varint, List.length_append, varint_digits_length,
    packet_varint_bytes, if_pos (number_lt _)]
  omega

/-- Valid properties are written without an error, in as many bytes as are reckoned for them. -/
theorem property_write_loop_valid {properties : List mosquitto_property}
    (h : ∀ property ∈ properties, property.Valid) :
    (property_write_loop properties).2 = .MOSQ_ERR_SUCCESS ∧
      (property_write_loop properties).1.length = property_get_length_all properties := by
  induction properties with
  | nil => exact ⟨rfl, rfl⟩
  | cons property properties ih =>
    obtain ⟨hwritten, hlength⟩ := (h property List.mem_cons_self).written
    obtain ⟨hrest, hrestLength⟩ := ih fun other hmem => h other (List.mem_cons_of_mem _ hmem)
    rw [property_write_loop, if_neg (not_not_intro hwritten)]
    refine ⟨hrest, ?_⟩
    rw [List.length_append, hlength, hrestLength, property_get_length_all, property_get_length_all,
      List.map_cons, List.sum_cons]

/-- The properties that are read are those that were written, and the length that
is left comes to zero behind them. -/
theorem property_read_loop_spec {n : Nat} {proplen : UInt32} {packet rest : mosquitto_packet}
    {properties : List mosquitto_property}
    (h : property_read_loop n proplen packet = .ok (properties, rest)) :
    (∀ property ∈ properties, property.Valid) ∧
      packet = (property_write_loop properties).1 ++ rest ∧
      proplen = UInt32.ofNat (property_get_length_all properties) := by
  induction n generalizing proplen packet properties with
  | zero =>
    rw [property_read_loop] at h
    split at h
    · rename_i hzero
      obtain ⟨rfl, rfl⟩ := Prod.mk.inj (Except.ok.inj h)
      exact ⟨by simp, rfl, hzero⟩
    · cases h
  | succ n ih =>
    rw [property_read_loop] at h
    split at h
    · rename_i hzero
      obtain ⟨rfl, rfl⟩ := Prod.mk.inj (Except.ok.inj h)
      exact ⟨by simp, rfl, hzero⟩
    · rw [bind_eq_ok_iff] at h
      obtain ⟨⟨property, left, tail⟩, hproperty, h⟩ := h
      rw [bind_eq_ok_iff] at h
      obtain ⟨⟨others, after⟩, hothers, h⟩ := h
      obtain ⟨rfl, rfl⟩ := Prod.mk.inj (Except.ok.inj h)
      obtain ⟨hvalid, rfl, hleft⟩ := (property_read_iff _ _ _ _ _).mp hproperty
      obtain ⟨hall, rfl, hlength⟩ := ih hothers
      obtain ⟨hwritten, hwrittenLength⟩ := hvalid.written
      refine ⟨List.forall_mem_cons.mpr ⟨hvalid, hall⟩, ?_, ?_⟩
      · rw [property_write_loop, if_neg (not_not_intro hwritten), List.append_assoc]
      · have hsum : proplen = UInt32.ofNat (property_get_length property) + left := by
          rw [hleft, hwrittenLength]
          grind
        rw [hsum, hlength, ← UInt32.ofNat_add]
        rfl

/-- Properties that can be read are read as they were written, until nothing is left of the length.
They have less than 2 ^ 32 bytes together, so that the length reaches 0 without wrapping around. -/
theorem property_read_loop_written {n : Nat} {rest : mosquitto_packet}
    {properties : List mosquitto_property} (h : ∀ property ∈ properties, property.Valid)
    (hlength : property_get_length_all properties < 4294967296)
    (hn : property_get_length_all properties ≤ n) :
    property_read_loop n (UInt32.ofNat (property_get_length_all properties))
      ((property_write_loop properties).1 ++ rest) = .ok (properties, rest) := by
  induction n generalizing properties with
  | zero =>
    cases properties with
    | nil => rfl
    | cons property properties =>
      have hpos := property_get_length_pos (h property List.mem_cons_self)
      rw [property_get_length_all, List.map_cons, List.sum_cons] at hn
      omega
  | succ n ih =>
    cases properties with
    | nil => rfl
    | cons property properties =>
      have hvalid := h property List.mem_cons_self
      have hall := fun other hmem => h other (List.mem_cons_of_mem property hmem)
      have hpos := property_get_length_pos hvalid
      obtain ⟨hwritten, hwrittenLength⟩ := hvalid.written
      have hsum : property_get_length_all (property :: properties) =
          property_get_length property + property_get_length_all properties := rfl
      rw [hsum] at hlength hn ⊢
      have hnonzero : UInt32.ofNat (property_get_length property + property_get_length_all properties)
          ≠ 0 := by
        intro hzero
        have htoNat := congrArg UInt32.toNat hzero
        rw [UInt32.toNat_ofNat_of_lt' hlength] at htoNat
        change _ = 0 at htoNat
        omega
      have hleft : UInt32.ofNat (property_get_length_all properties) =
          UInt32.ofNat (property_get_length property + property_get_length_all properties) -
            UInt32.ofNat (property_write property).1.length := by
        rw [hwrittenLength, UInt32.ofNat_add]
        grind
      rw [property_read_loop, if_neg hnonzero, bind_eq_ok_iff, property_write_loop,
        if_neg (not_not_intro hwritten), List.append_assoc]
      refine ⟨_, (property_read_iff _ _ _ _ _).mpr ⟨hvalid, rfl, hleft⟩, ?_⟩
      rw [bind_eq_ok_iff]
      exact ⟨_, ih hall (by omega) (by omega), rfl⟩

/-- Of no identifier but that of a user's property there are two. -/
def Single (properties : List mosquitto_property) : Prop :=
  properties.Pairwise fun property other =>
    property.identifier = other.identifier → property.identifier = MQTT_PROP_USER_PROPERTY

/-- The check of a list asks that each property has an allowed value, is allowed for the command
and is not double unless it may be. -/
theorem mosquitto_property_check_all_iff (command : property_command)
    (properties : List mosquitto_property) :
    mosquitto_property_check_all command properties = .MOSQ_ERR_SUCCESS ↔
      (∀ property ∈ properties, property_value_refused property = false ∧
        mosquitto_property_check_command command property.identifier = .MOSQ_ERR_SUCCESS) ∧
      Single properties := by
  induction properties with
  | nil => simp [mosquitto_property_check_all, Single]
  | cons property properties ih =>
    rw [mosquitto_property_check_all, Single, List.pairwise_cons, List.forall_mem_cons]
    split
    · rename_i hrefused
      simp [hrefused]
    · rename_i haccepted
      split
      · rename_i hcommand
        simp [hcommand]
      · rename_i hcommand
        split
        · rename_i htwice
          obtain ⟨huser, hany⟩ := htwice
          obtain ⟨other, hmem, heq⟩ := List.any_eq_true.mp hany
          refine ⟨nofun, fun h => absurd (h.2.1 other hmem (of_decide_eq_true heq)) huser⟩
        · rename_i honce
          rw [ih, Single]
          have hfirst : ∀ other ∈ properties, property.identifier = other.identifier →
              property.identifier = MQTT_PROP_USER_PROPERTY := by
            intro other hmem heq
            by_contra huser
            exact honce ⟨huser, List.any_eq_true.mpr ⟨other, hmem, decide_eq_true heq⟩⟩
          exact ⟨fun h => ⟨⟨⟨Bool.not_eq_true _ ▸ haccepted, not_not.mp hcommand⟩, h.1⟩, hfirst, h.2⟩,
            fun h => ⟨h.1.2, h.2.2⟩⟩

/-- The properties of a packet are accepted exactly where they are written properties behind their
length, each one is allowed, and none is there twice that may not be. The packet is one that the
broker can hold, of less than 2 ^ 32 bytes, as the reader counts down in 32 bits; no other
assumption is made about its bytes. -/
theorem property_read_all_iff (command : property_command) {packet : mosquitto_packet}
    (hpacket : packet.length < 4294967296) (properties : List mosquitto_property)
    (rest : mosquitto_packet) :
    property_read_all command packet = .ok (properties, rest) ↔
      (∀ property ∈ properties, property.Valid) ∧
        mosquitto_property_check_all command properties = .MOSQ_ERR_SUCCESS ∧
        (property_write_all properties).2 = .MOSQ_ERR_SUCCESS ∧
        packet = (property_write_all properties).1 ++ rest := by
  rw [property_read_all, bind_eq_ok_iff, property_write_all]
  constructor
  · rintro ⟨⟨proplen, bytes, tail⟩, hproplen, h⟩
    rw [bind_eq_ok_iff] at h
    obtain ⟨⟨read, after⟩, hloop, h⟩ := h
    obtain ⟨hwritten, rfl, -⟩ := (packet_read_varint_iff _ _ _ _).mp hproplen
    simp only at hloop h
    split at h
    · cases h
    · rename_i hchecked
      obtain ⟨rfl, rfl⟩ := Prod.mk.inj (Except.ok.inj h)
      obtain ⟨hvalid, rfl, hlength⟩ := property_read_loop_spec hloop
      obtain ⟨hall, hallLength⟩ := property_write_loop_valid hvalid
      have hlt : proplen < 268435456 := by
        rw [packet_write_varint, varint_digits_length, packet_varint_bytes] at hwritten
        grind
      -- the length has come to zero without going round
      obtain rfl : proplen = property_get_length_all read := by
        have htoNat := congrArg UInt32.toNat hlength
        have htotal : property_get_length_all read < 4294967296 := by
          rw [List.length_append, List.length_append] at hpacket
          omega
        rw [UInt32.toNat_ofNat_of_lt' (show proplen < 4294967296 by omega),
          UInt32.toNat_ofNat_of_lt' htotal] at htoNat
        exact htoNat
      rw [if_neg (not_not_intro hwritten)]
      exact ⟨hvalid, not_not.mp hchecked, hall, (List.append_assoc _ _ _).symm⟩
  · rintro ⟨hvalid, hchecked, hwritten, rfl⟩
    obtain ⟨hall, hallLength⟩ := property_write_loop_valid hvalid
    have hproplen : (packet_write_varint (property_get_length_all properties)).2 =
        .MOSQ_ERR_SUCCESS := by
      by_contra hnot
      rw [if_pos hnot] at hwritten
      exact hnot hwritten
    rw [if_neg (not_not_intro hproplen), List.append_assoc] at hpacket ⊢
    refine ⟨_, (packet_read_varint_iff _ _ _ _).mpr ⟨hproplen, rfl, rfl⟩, ?_⟩
    rw [bind_eq_ok_iff]
    refine ⟨(properties, rest), ?_, ?_⟩
    · rw [List.length_append, List.length_append] at hpacket
      apply property_read_loop_written hvalid
      · omega
      · rw [List.length_append]
        omega
    · simp only
      rw [if_neg (not_not_intro hchecked)]

private def minute_expiry : mosquitto_property :=
  ⟨MQTT_PROP_MESSAGE_EXPIRY_INTERVAL, (60 : UInt32)⟩

theorem property_read_all_iff_minute_expiry :
    property_read_all (.command CMD_PUBLISH) [5, 2, 0, 0, 0, 60, 49] = .ok ([minute_expiry], [49]) ↔
      (∀ property ∈ [minute_expiry], property.Valid) ∧
        mosquitto_property_check_all (.command CMD_PUBLISH) [minute_expiry] = .MOSQ_ERR_SUCCESS ∧
        (property_write_all [minute_expiry]).2 = .MOSQ_ERR_SUCCESS ∧
        [5, 2, 0, 0, 0, 60, 49] = (property_write_all [minute_expiry]).1 ++ [49] :=
  property_read_all_iff (.command CMD_PUBLISH) (by decide) [minute_expiry] [49]

end communication_center.mosquitto
