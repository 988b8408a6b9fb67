import CommunicationCenter.Mosquitto.Properties

open libc encoding

namespace communication_center.mosquitto

/-- What the handling of a PUBLISH asks of its client. -/
structure mosquitto_context where
  protocol : mosquitto_protocol
  max_qos : UInt8
  max_topic_alias : UInt16
  aliases : List (UInt16 × Text)

/-- A PUBLISH as it was read. -/
structure publish_msg where
  dup : Bool
  qos : UInt8
  retain : Bool
  topic : Text
  mid : UInt16
  properties : List mosquitto_property
  message_expiry_interval : UInt32
  payload : List UInt8

/-- A topic takes the place of the one that had the alias before. -/
def alias_add (topic : Text) (topic_alias : UInt16) : List (UInt16 × Text) → List (UInt16 × Text)
  | [] => [(topic_alias, topic)]
  | entry :: aliases =>
    if entry.1 = topic_alias then (topic_alias, topic) :: aliases
    else entry :: alias_add topic topic_alias aliases

def alias_find (topic_alias : UInt16) (aliases : List (UInt16 × Text)) : Option Text :=
  (aliases.find? fun entry => entry.1 = topic_alias).map Prod.snd

open mqtt5_property

/-- The properties that stay with a message. -/
def keeps_property (property : mosquitto_property) : Bool :=
  property.identifier ∈ [MQTT_PROP_CONTENT_TYPE, MQTT_PROP_CORRELATION_DATA,
    MQTT_PROP_PAYLOAD_FORMAT_INDICATOR, MQTT_PROP_RESPONSE_TOPIC, MQTT_PROP_USER_PROPERTY]

/-- The last of the values that a property with this identifier gives. -/
def last_alias (properties : List mosquitto_property) : Option UInt16 :=
  properties.foldl (fun topic_alias property => match property with
    | ⟨MQTT_PROP_TOPIC_ALIAS, value⟩ => some value
    | _ => topic_alias) none

def last_expiry (properties : List mosquitto_property) : UInt32 :=
  properties.foldl (fun message_expiry_interval property => match property with
    | ⟨MQTT_PROP_MESSAGE_EXPIRY_INTERVAL, value⟩ => value
    | _ => message_expiry_interval) 0

/-- The topic that an alias stands for, and the aliases with the one of the packet. -/
def resolve_alias (context : mosquitto_context) (topic : Option Text) :
    Option UInt16 → Except mosq_err_t (Option Text × List (UInt16 × Text))
  | none => .ok (topic, context.aliases)
  | some topic_alias =>
    if topic_alias = 0 ∨ topic_alias > context.max_topic_alias then .error .MOSQ_ERR_TOPIC_ALIAS_INVALID
    else match topic with
      | some text => .ok (some text, alias_add text topic_alias context.aliases)
      | none =>
        match alias_find topic_alias context.aliases with
        | some text => .ok (some text, context.aliases)
        | none => .error .MOSQ_ERR_PROTOCOL

def read_publish_mid (qos : UInt8) (packet : mosquitto_packet) :
    Except mosq_err_t (UInt16 × mosquitto_packet) :=
  if qos > 0 then
    match packet_read_uint16 packet with
    | .error _ => .error .MOSQ_ERR_MALFORMED_PACKET
    | .ok (mid, packet) => if mid = 0 then .error .MOSQ_ERR_PROTOCOL else .ok (mid, packet)
  else .ok (0, packet)

def read_publish_properties (protocol : mosquitto_protocol) (packet : mosquitto_packet) :
    Except mosq_err_t (List mosquitto_property × mosquitto_packet) :=
  if protocol = .mosq_p_mqtt5 then property_read_all (.command CMD_PUBLISH) packet
  else .ok ([], packet)

/-- What is kept of a PUBLISH. -/
def publish_msg_of (header : UInt8) (topic : Text) (mid : UInt16)
    (properties : List mosquitto_property) (payload : List UInt8) : publish_msg where
  dup := (header &&& 0x08) >>> 3 = 1
  qos := (header &&& 0x06) >>> 1
  retain := header &&& 0x01 ≠ 0
  topic := topic
  mid := mid
  properties := properties.filter keeps_property
  message_expiry_interval := last_expiry properties
  payload := payload

/-- The part of the handling of a PUBLISH that reads the packet, with the aliases
that it leaves. -/
def read_publish (context : mosquitto_context) (header : UInt8) (packet : mosquitto_packet) :
    Except mosq_err_t (publish_msg × List (UInt16 × Text)) :=
  let dup := (header &&& 0x08) >>> 3
  let qos := (header &&& 0x06) >>> 1
  if dup = 1 ∧ qos = 0 then .error .MOSQ_ERR_MALFORMED_PACKET
  else if qos = 3 then .error .MOSQ_ERR_MALFORMED_PACKET
  else if qos > context.max_qos then .error .MOSQ_ERR_QOS_NOT_SUPPORTED
  else match packet_read_string packet with
    | .error _ => .error .MOSQ_ERR_MALFORMED_PACKET
    | .ok (topic, packet) =>
      if topic = none ∧ context.protocol ≠ .mosq_p_mqtt5 then .error .MOSQ_ERR_MALFORMED_PACKET
      else do
        let (mid, packet) ← read_publish_mid qos packet
        let (properties, packet) ← read_publish_properties context.protocol packet
        let (topic, aliases) ← resolve_alias context topic (last_alias properties)
        match topic with
        | none => .error .MOSQ_ERR_MALFORMED_PACKET
        | some topic =>
          if mosquitto_pub_topic_check topic ≠ .MOSQ_ERR_SUCCESS then .error .MOSQ_ERR_MALFORMED_PACKET
          else .ok (publish_msg_of header topic mid properties packet, aliases)

/-- The command of a packet and its length, before the length is checked. -/
def packet_alloc (command : UInt8) (remaining_length : Nat) : Except mosq_err_t (List UInt8) :=
  let remaining_bytes := varint_digits 5 remaining_length
  if remaining_bytes.length = 5 then .error .MOSQ_ERR_PAYLOAD_SIZE
  else .ok (command :: remaining_bytes)

/-- A limit of 0 stands for none. The first byte is not counted. -/
def packet_check_oversize (maximum_packet_size remaining_length : Nat) : mosq_err_t :=
  if maximum_packet_size = 0 then .MOSQ_ERR_SUCCESS
  else if remaining_length + packet_varint_bytes remaining_length > maximum_packet_size then
    .MOSQ_ERR_OVERSIZE_PACKET
  else .MOSQ_ERR_SUCCESS

def expiry_property (expiry_interval : UInt32) : List mosquitto_property :=
  if expiry_interval > 0 then [⟨MQTT_PROP_MESSAGE_EXPIRY_INTERVAL, expiry_interval⟩] else []

/-- The properties of an outgoing PUBLISH. Too long ones are not sent, but the length
that was reckoned for them is written all the same. -/
def publish_properties (protocol : mosquitto_protocol)
    (cmsg_props store_props : List mosquitto_property) (expiry_interval : UInt32) :
    Nat × List UInt8 :=
  if protocol = .mosq_p_mqtt5 then
    let proplen := property_get_length_all cmsg_props + property_get_length_all store_props +
      property_get_length_all (expiry_property expiry_interval)
    let varbytes := packet_varint_bytes proplen
    if varbytes > 4 then (0, (packet_write_varint proplen).1)
    else (proplen + varbytes, (packet_write_varint proplen).1 ++
      ((property_write_loop cmsg_props).1 ++ ((property_write_loop store_props).1 ++
        (property_write_loop (expiry_property expiry_interval)).1)))
  else (0, [])

def publish_command (qos : UInt8) (retain dup : Bool) : UInt8 :=
  CMD_PUBLISH ||| dup.toUInt8 <<< 3 ||| qos <<< 1 ||| retain.toUInt8

/-- The packet that is queued to be sent. -/
def send_real_publish (protocol : mosquitto_protocol) (maximum_packet_size : Nat) (mid : UInt16)
    (topic : Text) (payload : List UInt8) (qos : UInt8) (retain dup : Bool)
    (cmsg_props store_props : List mosquitto_property) (expiry_interval : UInt32) :
    Except mosq_err_t (List UInt8) :=
  let properties := publish_properties protocol cmsg_props store_props expiry_interval
  let packetlen := 2 + topic.length + payload.length + (if qos > 0 then 2 else 0) + properties.1
  if packet_check_oversize maximum_packet_size packetlen ≠ .MOSQ_ERR_SUCCESS then
    .error .MOSQ_ERR_OVERSIZE_PACKET
  else
    (packet_alloc (publish_command qos retain dup) packetlen).map fun packet =>
      packet ++ (packet_write_string topic (UInt16.ofNat topic.length) ++
        ((if qos > 0 then packet_write_uint16 mid else []) ++ (properties.2 ++ payload)))

/-- The properties that a subscription adds. -/
def subscription_properties (identifier : UInt32) : List mosquitto_property :=
  if identifier ≠ 0 then [⟨MQTT_PROP_SUBSCRIPTION_IDENTIFIER, identifier.toNat⟩] else []

/-- What `packet__alloc` reserves and the body make one frame, with the length of the body in front
of it. -/
theorem frame_packet_alloc {command : UInt8} {head body : List UInt8} (hcommand : command ≠ 0)
    (h : packet_alloc command body.length = .ok head) : Frame (head ++ body) command body := by
  have hbytes := varint_digits_length body.length
  rw [packet_alloc] at h
  split at h
  · cases h
  · rename_i hshort
    obtain rfl := Except.ok.inj h
    rw [hbytes] at hshort
    have hfour : packet_varint_bytes body.length ≤ 4 ∧ body.length < 268435456 := by
      rw [packet_varint_bytes] at hshort ⊢
      grind
    rw [List.cons_append]
    refine .intro hcommand (varint_varint_digits (Nat.lt_trans hfour.2 (by decide))) ?_
    rw [hbytes]
    exact hfour.1

/-- Two lists of properties are written one after the other. The properties of the first list are
valid, so that the writing does not stop there. -/
theorem property_write_loop_append {first second : List mosquitto_property}
    (h : ∀ property ∈ first, property.Valid) :
    (property_write_loop (first ++ second)).1 =
      (property_write_loop first).1 ++ (property_write_loop second).1 := by
  induction first with
  | nil => rfl
  | cons property first ih =>
    have hwritten := (h property List.mem_cons_self).written.1
    have hrest := ih fun other hmem => h other (List.mem_cons_of_mem _ hmem)
    rw [List.cons_append, property_write_loop, property_write_loop, if_neg (not_not_intro hwritten),
      if_neg (not_not_intro hwritten)]
    simp only
    rw [hrest, List.append_assoc]

/-- The length of two lists of properties is the sum of their lengths. -/
theorem property_get_length_all_append (first second : List mosquitto_property) :
    property_get_length_all (first ++ second) =
      property_get_length_all first + property_get_length_all second := by
  rw [property_get_length_all, List.map_append, List.sum_append]
  rfl

/-- Properties without an alias for the topic have none: the search for the last one finds nothing.
-/
theorem last_alias_of_none {properties : List mosquitto_property}
    (h : ∀ property ∈ properties, property.identifier ≠ MQTT_PROP_TOPIC_ALIAS) :
    last_alias properties = none := by
  rw [last_alias]
  generalize (none : Option UInt16) = start
  induction properties generalizing start with
  | nil => rfl
  | cons property properties ih =>
    rw [List.foldl_cons, ih fun other hmem => h other (List.mem_cons_of_mem _ hmem)]
    obtain ⟨identifier, value⟩ := property
    have hne := h _ List.mem_cons_self
    cases identifier with
    | MQTT_PROP_TOPIC_ALIAS => exact absurd rfl hne
    | _ => rfl

/-- The interval that is written behind properties without one is what the reader takes from them.
-/
theorem last_expiry_append {properties : List mosquitto_property} (expiry_interval : UInt32)
    (h : ∀ property ∈ properties, property.identifier ≠ MQTT_PROP_MESSAGE_EXPIRY_INTERVAL) :
    last_expiry (properties ++ expiry_property expiry_interval) = expiry_interval := by
  have hstart (start : UInt32) : properties.foldl (fun message_expiry_interval property =>
      match property with
      | ⟨MQTT_PROP_MESSAGE_EXPIRY_INTERVAL, value⟩ => value
      | _ => message_expiry_interval) start = start := by
    induction properties generalizing start with
    | nil => rfl
    | cons property properties ih =>
      rw [List.foldl_cons, ih fun other hmem => h other (List.mem_cons_of_mem _ hmem)]
      obtain ⟨identifier, value⟩ := property
      have hne := h _ List.mem_cons_self
      cases identifier with
      | MQTT_PROP_MESSAGE_EXPIRY_INTERVAL => exact absurd rfl hne
      | _ => rfl
  rw [last_expiry, List.foldl_append, hstart, expiry_property]
  split
  · rfl
  · rename_i hzero
    exact (UInt32.not_lt.mp hzero |> UInt32.le_zero_iff.mp).symm

/-- The properties that can be kept with a message. -/
structure KeptProperties (properties : List mosquitto_property) : Prop where
  valid : ∀ property ∈ properties, property.Valid
  kept : ∀ property ∈ properties, keeps_property property = true
  checked : mosquitto_property_check_all (.command CMD_PUBLISH) properties = .MOSQ_ERR_SUCCESS

/-- The properties that are kept of a checked list are valid, none is double that may not be, and
those that the broker answers itself are gone. -/
theorem kept_of_read {properties : List mosquitto_property}
    (hvalid : ∀ property ∈ properties, property.Valid)
    (hchecked : mosquitto_property_check_all (.command CMD_PUBLISH) properties = .MOSQ_ERR_SUCCESS) :
    KeptProperties (properties.filter keeps_property) where
  valid property hmem := hvalid property (List.mem_of_mem_filter hmem)
  kept _ hmem := (List.mem_filter.mp hmem).2
  checked := by
    rw [mosquitto_property_check_all_iff] at hchecked ⊢
    exact ⟨fun property hmem => hchecked.1 property (List.mem_of_mem_filter hmem),
      hchecked.2.filter _⟩

variable {properties : List mosquitto_property}

/-- None of the kept properties is one of the three that the broker adds or resolves itself. -/
theorem KeptProperties.identifier_ne (h : KeptProperties properties) {property : mosquitto_property}
    (hmem : property ∈ properties) : property.identifier ≠ MQTT_PROP_SUBSCRIPTION_IDENTIFIER ∧
      property.identifier ≠ MQTT_PROP_MESSAGE_EXPIRY_INTERVAL ∧
      property.identifier ≠ MQTT_PROP_TOPIC_ALIAS := by
  have hkept := h.kept property hmem
  rw [keeps_property, decide_eq_true_iff] at hkept
  refine ⟨?_, ?_, ?_⟩ <;> exact fun heq => absurd (heq ▸ hkept) (by decide)

/-- The only property for a subscription is its identifier. -/
theorem mem_subscription_properties {identifier : UInt32} {property : mosquitto_property}
    (h : property ∈ subscription_properties identifier) :
    property = ⟨MQTT_PROP_SUBSCRIPTION_IDENTIFIER, identifier.toNat⟩ := by
  rw [subscription_properties] at h
  split at h
  · exact List.mem_singleton.mp h
  · cases h

/-- The only property for the expiry is what is left of the interval. -/
theorem mem_expiry_property {expiry_interval : UInt32} {property : mosquitto_property}
    (h : property ∈ expiry_property expiry_interval) :
    property = ⟨MQTT_PROP_MESSAGE_EXPIRY_INTERVAL, expiry_interval⟩ := by
  rw [expiry_property] at h
  split at h
  · exact List.mem_singleton.mp h
  · cases h

/-- The identifier of a subscription is there at most once. -/
theorem single_subscription_properties (identifier : UInt32) :
    Single (subscription_properties identifier) := by
  rw [subscription_properties]
  split
  · exact List.pairwise_singleton _ _
  · exact List.Pairwise.nil

/-- So is the interval. -/
theorem single_expiry_property (expiry_interval : UInt32) : Single (expiry_property expiry_interval) := by
  rw [expiry_property]
  split
  · exact List.pairwise_singleton _ _
  · exact List.Pairwise.nil

/-- The properties of a message as they are sent to a client. -/
def sent_properties (identifier : UInt32) (properties : List mosquitto_property)
    (expiry_interval : UInt32) : List mosquitto_property :=
  subscription_properties identifier ++ properties ++ expiry_property expiry_interval

/-- What is sent with a message is the identifier of the subscription, the kept properties and the
interval. -/
theorem mem_sent_properties {identifier expiry_interval : UInt32} {property : mosquitto_property}
    (h : property ∈ sent_properties identifier properties expiry_interval) :
    property = ⟨MQTT_PROP_SUBSCRIPTION_IDENTIFIER, identifier.toNat⟩ ∨ property ∈ properties ∨
      property = ⟨MQTT_PROP_MESSAGE_EXPIRY_INTERVAL, expiry_interval⟩ := by
  rw [sent_properties, List.mem_append, List.mem_append, or_assoc] at h
  exact h.imp mem_subscription_properties (Or.imp_right mem_expiry_property)

/-- All properties that are sent can be read back. The identifier has to fit in four bytes of a
varint. -/
theorem KeptProperties.valid_sent (h : KeptProperties properties) {identifier : UInt32}
    (hidentifier : identifier.toNat < 268435456) (expiry_interval : UInt32) :
    ∀ property ∈ sent_properties identifier properties expiry_interval, property.Valid := by
  intro property hmem
  obtain rfl | hmem | rfl := mem_sent_properties hmem
  · change (packet_write_varint identifier.toNat).2 = .MOSQ_ERR_SUCCESS
    rw [packet_write_varint, varint_digits_length, packet_varint_bytes]
    grind
  · exact h.valid property hmem
  · trivial

/-- What is sent passes the check that a receiver makes for a PUBLISH, since the added properties
are not among the kept ones. -/
theorem KeptProperties.checked_sent (h : KeptProperties properties)
    (identifier expiry_interval : UInt32) :
    mosquitto_property_check_all (.command CMD_PUBLISH)
      (sent_properties identifier properties expiry_interval) = .MOSQ_ERR_SUCCESS := by
  have hchecked := h.checked
  rw [mosquitto_property_check_all_iff] at hchecked ⊢
  constructor
  · intro property hmem
    obtain rfl | hmem | rfl := mem_sent_properties hmem
    · exact ⟨rfl, rfl⟩
    · exact hchecked.1 property hmem
    · exact ⟨rfl, rfl⟩
  · rw [Single, sent_properties, List.pairwise_append, List.pairwise_append]
    refine ⟨⟨single_subscription_properties identifier, hchecked.2, ?_⟩,
      single_expiry_property expiry_interval, ?_⟩
    · intro property hproperty other hother heq
      rw [mem_subscription_properties hproperty] at heq
      exact absurd heq.symm (h.identifier_ne hother).1
    · intro property hproperty other hother heq
      rw [mem_expiry_property hother] at heq
      obtain hproperty | hproperty := List.mem_append.mp hproperty
      · rw [mem_subscription_properties hproperty] at heq
        cases heq
      · exact absurd heq (h.identifier_ne hproperty).2.1

/-- What a receiver makes of the properties that were sent: it keeps the kept ones, finds no alias,
and takes the interval from the end. -/
theorem KeptProperties.handled_sent (h : KeptProperties properties)
    (identifier expiry_interval : UInt32) :
    (sent_properties identifier properties expiry_interval).filter keeps_property = properties ∧
      last_alias (sent_properties identifier properties expiry_interval) = none ∧
      last_expiry (sent_properties identifier properties expiry_interval) = expiry_interval := by
  refine ⟨?_, ?_, ?_⟩
  · have hsubscription : (subscription_properties identifier).filter keeps_property = [] :=
      List.filter_eq_nil_iff.mpr fun property hmem => by
        rw [mem_subscription_properties hmem]
        exact Bool.false_ne_true
    have hexpiry : (expiry_property expiry_interval).filter keeps_property = [] :=
      List.filter_eq_nil_iff.mpr fun property hmem => by
        rw [mem_expiry_property hmem]
        exact Bool.false_ne_true
    rw [sent_properties, List.filter_append, List.filter_append, hsubscription, hexpiry,
      List.filter_eq_self.mpr h.kept, List.nil_append, List.append_nil]
  · apply last_alias_of_none
    intro property hmem
    obtain rfl | hmem | rfl := mem_sent_properties hmem
    · exact nofun
    · exact (h.identifier_ne hmem).2.2
    · exact nofun
  · apply last_expiry_append
    intro property hmem
    obtain hmem | hmem := List.mem_append.mp hmem
    · rw [mem_subscription_properties hmem]
      exact nofun
    · exact (h.identifier_ne hmem).2.1

/-- A PUBLISH is read part by part, and each part can be refused. It succeeds exactly when the
flags are possible, the QoS is allowed, all parts can be read, and the alias can be resolved.
Nothing is assumed of the packet. -/
theorem read_publish_iff (context : mosquitto_context) (header : UInt8) (packet : mosquitto_packet)
    (msg : publish_msg) (aliases : List (UInt16 × Text)) :
    read_publish context header packet = .ok (msg, aliases) ↔
      ¬ ((header &&& 0x08) >>> 3 = 1 ∧ (header &&& 0x06) >>> 1 = 0) ∧ (header &&& 0x06) >>> 1 ≠ 3 ∧
        ¬ (header &&& 0x06) >>> 1 > context.max_qos ∧
        ∃ topic named mid known properties payload,
          packet_read_string packet = .ok (topic, named) ∧
          ¬ (topic = none ∧ context.protocol ≠ .mosq_p_mqtt5) ∧
          read_publish_mid ((header &&& 0x06) >>> 1) named = .ok (mid, known) ∧
          read_publish_properties context.protocol known = .ok (properties, payload) ∧
          resolve_alias context topic (last_alias properties) = .ok (some msg.topic, aliases) ∧
          mosquitto_pub_topic_check msg.topic = .MOSQ_ERR_SUCCESS ∧
          msg = publish_msg_of header msg.topic mid properties payload := by
  rw [read_publish]
  constructor
  · intro h
    split at h
    · cases h
    · rename_i hdup
      split at h
      · cases h
      · rename_i hqos
        split at h
        · cases h
        · rename_i hmax
          refine ⟨hdup, hqos, hmax, ?_⟩
          split at h
          · cases h
          · rename_i topic named hstring
            split at h
            · cases h
            · rename_i hnamed
              rw [bind_eq_ok_iff] at h
              obtain ⟨⟨mid, known⟩, hmid, h⟩ := h
              rw [bind_eq_ok_iff] at h
              obtain ⟨⟨properties, payload⟩, hproperties, h⟩ := h
              rw [bind_eq_ok_iff] at h
              obtain ⟨⟨resolved, aliases⟩, hresolved, h⟩ := h
              cases resolved with
              | none => cases h
              | some resolved =>
                simp only at h
                split at h
                · cases h
                · rename_i hchecked
                  obtain ⟨rfl, rfl⟩ := Prod.mk.inj (Except.ok.inj h)
                  exact ⟨topic, named, mid, known, properties, payload, hstring, hnamed, hmid,
                    hproperties, hresolved, not_not.mp hchecked, rfl⟩
  · rintro ⟨hdup, hqos, hmax, topic, named, mid, known, properties, payload, hstring, hnamed, hmid,
      hproperties, hresolved, hchecked, hmsg⟩
    rw [if_neg hdup, if_neg hqos, if_neg hmax, hstring]
    simp only
    rw [if_neg hnamed, bind_eq_ok_iff]
    refine ⟨_, hmid, ?_⟩
    rw [bind_eq_ok_iff]
    refine ⟨_, hproperties, ?_⟩
    rw [bind_eq_ok_iff]
    refine ⟨_, hresolved, ?_⟩
    simp only
    rw [if_neg (not_not_intro hchecked), ← hmsg]

/-- The topics that aliases stand for can be read. -/
def ReadableTopics (aliases : List (UInt16 × Text)) : Prop :=
  ∀ entry ∈ aliases, Readable (some entry.2)

/-- Aliases for readable topics stay so when one is added for a readable topic. -/
theorem ReadableTopics.add {aliases : List (UInt16 × Text)} (h : ReadableTopics aliases) {topic : Text}
    (htopic : Readable (some topic)) (topic_alias : UInt16) :
    ReadableTopics (alias_add topic topic_alias aliases) := by
  induction aliases with
  | nil => exact List.forall_mem_singleton.mpr htopic
  | cons entry aliases ih =>
    obtain ⟨hentry, haliases⟩ := List.forall_mem_cons.mp h
    rw [alias_add]
    split
    · exact List.forall_mem_cons.mpr ⟨htopic, haliases⟩
    · exact List.forall_mem_cons.mpr ⟨hentry, ih haliases⟩

/-- The topic that is found for an alias is readable. -/
theorem ReadableTopics.find {aliases : List (UInt16 × Text)} (h : ReadableTopics aliases) {topic : Text}
    {topic_alias : UInt16} (hfind : alias_find topic_alias aliases = some topic) :
    Readable (some topic) := by
  rw [alias_find, Option.map_eq_some_iff] at hfind
  obtain ⟨entry, hentry, rfl⟩ := hfind
  exact h entry (List.mem_of_find?_eq_some hentry)

/-- The topic that a PUBLISH stands for, given or found by its alias, is readable, and so are the
topics of the aliases afterwards. -/
theorem ReadableTopics.resolve {context : mosquitto_context} (h : ReadableTopics context.aliases)
    {topic resolved : Option Text} {topic_alias : Option UInt16} {aliases : List (UInt16 × Text)}
    (htopic : Readable topic)
    (hresolve : resolve_alias context topic topic_alias = .ok (resolved, aliases)) :
    Readable resolved ∧ ReadableTopics aliases := by
  cases topic_alias with
  | none =>
    obtain ⟨rfl, rfl⟩ := Prod.mk.inj (Except.ok.inj hresolve)
    exact ⟨htopic, h⟩
  | some topic_alias =>
    rw [resolve_alias.eq_def] at hresolve
    simp only at hresolve
    split at hresolve
    · cases hresolve
    · cases topic with
      | some text =>
        obtain ⟨rfl, rfl⟩ := Prod.mk.inj (Except.ok.inj hresolve)
        exact ⟨htopic, h.add htopic topic_alias⟩
      | none =>
        simp only at hresolve
        split at hresolve
        · rename_i text hfind
          obtain ⟨rfl, rfl⟩ := Prod.mk.inj (Except.ok.inj hresolve)
          exact ⟨h.find hfind, h⟩
        · cases hresolve

/-- Some of the properties are not longer than all of them, whichever are kept. -/
theorem property_get_length_all_filter (properties : List mosquitto_property)
    (keep : mosquitto_property → Bool) :
    property_get_length_all (properties.filter keep) ≤ property_get_length_all properties := by
  induction properties with
  | nil => exact Nat.le_refl _
  | cons property properties ih =>
    have hsum : property_get_length_all (property :: properties) =
        property_get_length property + property_get_length_all properties := rfl
    rw [hsum, List.filter_cons]
    split
    · exact Nat.add_le_add_left ih _
    · exact Nat.le_trans ih (Nat.le_add_left _ _)

/-- What holds of every message that is received. -/
structure publish_msg.Received (msg : publish_msg) : Prop where
  topic : Readable (some msg.topic)
  checked : mosquitto_pub_topic_check msg.topic = .MOSQ_ERR_SUCCESS
  properties : KeptProperties msg.properties

variable {context publisher subscriber : mosquitto_context} {header : UInt8}
  {packet : mosquitto_packet} {msg : publish_msg} {aliases : List (UInt16 × Text)}

/-- Reading the identifier of a message makes no packet longer. With QoS 0 there is none to read.
-/
theorem length_read_publish_mid {qos : UInt8} {mid : UInt16} {known : mosquitto_packet}
    (h : read_publish_mid qos packet = .ok (mid, known)) : known.length ≤ packet.length := by
  rw [read_publish_mid] at h
  split at h
  · split at h
    · cases h
    · rename_i word rest hword
      split at h
      · cases h
      · obtain ⟨-, rfl⟩ := Prod.mk.inj (Except.ok.inj h)
        rw [(packet_read_uint16_iff _ _ _).mp hword, List.length_append]
        exact Nat.le_add_left _ _
  · obtain ⟨-, rfl⟩ := Prod.mk.inj (Except.ok.inj h)
    exact Nat.le_refl _

/-- The properties that were written are behind their length, so that all of it is at least as long
as they are. -/
theorem property_write_all_length (hwritten : (property_write_all properties).2 = .MOSQ_ERR_SUCCESS) :
    (property_write_loop properties).1.length ≤ (property_write_all properties).1.length := by
  have hlength : (packet_write_varint (property_get_length_all properties)).2 = .MOSQ_ERR_SUCCESS := by
    by_contra hnot
    rw [property_write_all, if_pos hnot] at hwritten
    exact hnot hwritten
  rw [property_write_all, if_neg (not_not_intro hlength), List.length_append]
  exact Nat.le_add_left _ _

/-- The properties that are kept of a packet are as they should be, and not longer than the packet.
-/
theorem received_properties {protocol : mosquitto_protocol} {payload : List UInt8}
    (hpacket : packet.length < 4294967296)
    (h : read_publish_properties protocol packet = .ok (properties, payload)) :
    KeptProperties (properties.filter keeps_property) ∧
      property_get_length_all (properties.filter keeps_property) ≤ packet.length := by
  by_cases hprotocol : protocol = .mosq_p_mqtt5
  · rw [read_publish_properties, if_pos hprotocol, property_read_all_iff _ hpacket] at h
    obtain ⟨hvalid, hchecked, hwritten, hsplit⟩ := h
    have hlength := (property_write_loop_valid hvalid).2
    have hbytes := property_write_all_length hwritten
    have hfilter := property_get_length_all_filter properties keeps_property
    refine ⟨kept_of_read hvalid hchecked, ?_⟩
    rw [hsplit, List.length_append]
    omega
  · rw [read_publish_properties, if_neg hprotocol] at h
    obtain ⟨rfl, rfl⟩ := Prod.mk.inj (Except.ok.inj h)
    exact ⟨⟨nofun, nofun, rfl⟩, Nat.zero_le _⟩

/-- What is received can be sent, and the topics that aliases stand for stay readable. -/
theorem received_of_read (haliases : ReadableTopics context.aliases)
    (hpacket : packet.length < 4294967296)
    (h : read_publish context header packet = .ok (msg, aliases)) :
    msg.Received ∧ property_get_length_all msg.properties ≤ packet.length ∧
      ReadableTopics aliases := by
  obtain ⟨-, -, -, topic, named, mid, known, properties, payload, hstring, -, hmid, hproperties,
    hresolved, hchecked, hmsg⟩ := (read_publish_iff _ _ _ _ _).mp h
  obtain ⟨hne, hlt, hpermitted, rfl⟩ := (packet_read_string_iff _ _ _).mp hstring
  obtain ⟨hreadable, haliases'⟩ := haliases.resolve ⟨hne, hlt, hpermitted⟩ hresolved
  have hlength := length_read_publish_mid hmid
  rw [List.length_append] at hpacket
  obtain ⟨hkept, htotal⟩ := received_properties (by omega) hproperties
  have hproperties : msg.properties = properties.filter keeps_property := by rw [hmsg]; rfl
  rw [← hproperties] at hkept htotal
  refine ⟨⟨hreadable, hchecked, hkept⟩, ?_, haliases'⟩
  rw [List.length_append]
  omega

/-- The first byte of a PUBLISH shows its three flags at their places, and is never 0. -/
theorem publish_command_bits {qos : UInt8} (hqos : qos ≤ 2) (retain dup : Bool) :
    publish_command qos retain dup ≠ 0 ∧
      (publish_command qos retain dup &&& 0x08) >>> 3 = dup.toUInt8 ∧
      (publish_command qos retain dup &&& 0x06) >>> 1 = qos ∧
      decide (publish_command qos retain dup &&& 0x01 ≠ 0) = retain := by
  have hcases : qos = 0 ∨ qos = 1 ∨ qos = 2 := by
    rw [UInt8.le_iff_toNat_le, show (2 : UInt8).toNat = 2 from rfl] at hqos
    simp only [← UInt8.toNat_inj]
    change qos.toNat = 0 ∨ qos.toNat = 1 ∨ qos.toNat = 2
    omega
  obtain rfl | rfl | rfl := hcases <;> cases retain <;> cases dup <;> decide

/-- The identifier of a subscription takes up to five bytes, the one of the property included.
Without an identifier there is no property. -/
theorem length_subscription_properties (identifier : UInt32) :
    property_get_length_all (subscription_properties identifier) ≤ 5 := by
  rw [subscription_properties]
  split
  · change (if identifier.toNat < 128 then 2 else if identifier.toNat < 16384 then 3
      else if identifier.toNat < 2097152 then 4 else if identifier.toNat < 268435456 then 5 else 0) ≤ 5
    grind
  · exact Nat.zero_le 5

/-- So does the interval. -/
theorem length_expiry_property (expiry_interval : UInt32) :
    property_get_length_all (expiry_property expiry_interval) ≤ 5 := by
  rw [expiry_property]
  split
  · exact Nat.le_refl 5
  · exact Nat.zero_le 5

/-- The properties of an outgoing PUBLISH are those that are sent, behind their length, and they
are written without an error. They leave room for the ones that the broker adds. -/
theorem publish_properties_sent (h : KeptProperties properties) {identifier : UInt32}
    (hidentifier : identifier.toNat < 268435456) (expiry_interval : UInt32)
    (hlength : property_get_length_all properties + 10 < 268435456)
    {sent : List mosquitto_property}
    (hsent : sent = sent_properties identifier properties expiry_interval) :
    (property_write_all sent).2 = .MOSQ_ERR_SUCCESS ∧
      publish_properties .mosq_p_mqtt5 (subscription_properties identifier) properties expiry_interval =
        ((property_write_all sent).1.length, (property_write_all sent).1) := by
  have hvalid := h.valid_sent hidentifier expiry_interval
  have hsubscription : ∀ property ∈ subscription_properties identifier, property.Valid :=
    fun property hmem => hvalid property (List.mem_append_left _ (List.mem_append_left _ hmem))
  have hfirst : ∀ property ∈ subscription_properties identifier ++ properties, property.Valid :=
    fun property hmem => hvalid property (List.mem_append_left _ hmem)
  have htotal : property_get_length_all sent =
      property_get_length_all (subscription_properties identifier) +
        property_get_length_all properties +
        property_get_length_all (expiry_property expiry_interval) := by
    rw [hsent, sent_properties, property_get_length_all_append, property_get_length_all_append]
  have hsubscriptionLength := length_subscription_properties identifier
  have hexpiryLength := length_expiry_property expiry_interval
  have hsmall : packet_varint_bytes (property_get_length_all sent) ≤ 4 := by
    rw [packet_varint_bytes]
    grind
  have hwritten : (packet_write_varint (property_get_length_all sent)).2 = .MOSQ_ERR_SUCCESS := by
    rw [packet_write_varint, varint_digits_length]
    exact if_neg (by omega)
  have hbytes : (packet_write_varint (property_get_length_all sent)).1.length =
      packet_varint_bytes (property_get_length_all sent) :=
    varint_digits_length _
  have hsplit : (property_write_loop sent).1 =
      (property_write_loop (subscription_properties identifier)).1 ++
        ((property_write_loop properties).1 ++
          (property_write_loop (expiry_property expiry_interval)).1) := by
    rw [hsent, sent_properties, property_write_loop_append hfirst,
      property_write_loop_append hsubscription, List.append_assoc]
  rw [← hsent] at hvalid
  obtain ⟨hloop, hloopLength⟩ := property_write_loop_valid hvalid
  rw [publish_properties, if_pos rfl, property_write_all, if_neg (not_not_intro hwritten), ← htotal]
  simp only
  rw [if_neg (Nat.not_lt.mpr hsmall), List.length_append, hbytes, hloopLength, hsplit, Nat.add_comm]
  exact ⟨hloop, rfl⟩

variable {maximum_packet_size : Nat} {mid : UInt16} {qos : UInt8} {retain dup : Bool}
  {identifier expiry_interval : UInt32} {topic payload bytes : List UInt8}
  {cmsg_props store_props : List mosquitto_property} {protocol : mosquitto_protocol}

/-- What is sent is a whole packet, with the parts of a PUBLISH in their order, if the properties
have the length that is reckoned for them. It is assumed that the sending succeeds, and so that the
packet is not too large. -/
theorem frame_send_real_publish (hqos : qos ≤ 2) (htopic : topic.length < 65536)
    (hproperties : (publish_properties protocol cmsg_props store_props expiry_interval).1 =
      (publish_properties protocol cmsg_props store_props expiry_interval).2.length)
    (h : send_real_publish protocol maximum_packet_size mid topic payload qos retain dup cmsg_props
      store_props expiry_interval = .ok bytes) :
    Frame bytes (publish_command qos retain dup)
      (packet_write_string topic (UInt16.ofNat topic.length) ++
        ((if qos > 0 then packet_write_uint16 mid else []) ++
          ((publish_properties protocol cmsg_props store_props expiry_interval).2 ++ payload))) := by
  have hmid : (if qos > 0 then packet_write_uint16 mid else []).length = if qos > 0 then 2 else 0 := by
    split <;> rfl
  rw [send_real_publish] at h
  generalize hbody : packet_write_string topic (UInt16.ofNat topic.length) ++
    ((if qos > 0 then packet_write_uint16 mid else []) ++
      ((publish_properties protocol cmsg_props store_props expiry_interval).2 ++ payload)) = body at h ⊢
  have hlength : 2 + topic.length + payload.length + (if qos > 0 then 2 else 0) +
      (publish_properties protocol cmsg_props store_props expiry_interval).1 = body.length := by
    rw [← hbody, hproperties, List.length_append, List.length_append, List.length_append, hmid,
      packet_write_string_length htopic]
    omega
  rw [hlength] at h
  split at h
  · cases h
  · cases halloc : packet_alloc (publish_command qos retain dup) body.length with
    | error rc =>
      rw [halloc] at h
      cases h
    | ok head =>
      rw [halloc] at h
      obtain rfl := Except.ok.inj h
      exact frame_packet_alloc (publish_command_bits hqos retain dup).1 halloc

/-- The identifier of a message is read as it is written, or not at all with QoS 0. -/
theorem read_publish_mid_written (hmid : qos > 0 → mid ≠ 0) (rest : mosquitto_packet) :
    read_publish_mid qos ((if qos > 0 then packet_write_uint16 mid else []) ++ rest) =
      .ok (if qos > 0 then mid else 0, rest) := by
  rw [read_publish_mid]
  split
  · rename_i hpos
    rw [(packet_read_uint16_iff _ _ _).mpr rfl]
    exact if_neg (hmid hpos)
  · rfl

/-- The body of a frame is shorter than the protocol's maximum. -/
theorem Frame.length_lt {frame payload : List UInt8} {command : UInt8}
    (h : Frame frame command payload) : payload.length < 268435456 := by
  obtain ⟨-, hvarint, hshort⟩ := h
  exact Nat.lt_of_lt_of_le hvarint.lt (Nat.pow_le_pow_right (by decide) hshort)

/-- A receiver of the same protocol reads the properties of the message and what the broker added
to them, and is left with the payload. Without MQTT 5 there are none to read. -/
theorem KeptProperties.read (h : KeptProperties properties) (protocol : mosquitto_protocol)
    (expiry_interval : UInt32) (payload : List UInt8) (hidentifier : identifier.toNat < 268435456)
    (hlength : property_get_length_all properties + 10 < 268435456)
    (hpayload : ((publish_properties protocol (subscription_properties identifier) properties
      expiry_interval).2 ++ payload).length < 4294967296) :
    ∃ sent, read_publish_properties protocol ((publish_properties protocol
        (subscription_properties identifier) properties expiry_interval).2 ++ payload) =
          .ok (sent, payload) ∧
      last_alias sent = none ∧
      sent.filter keeps_property = (if protocol = .mosq_p_mqtt5 then properties else []) ∧
      last_expiry sent = if protocol = .mosq_p_mqtt5 then expiry_interval else 0 := by
  by_cases hprotocol : protocol = .mosq_p_mqtt5
  · subst hprotocol
    obtain ⟨hwritten, hproperties⟩ := publish_properties_sent h hidentifier expiry_interval hlength rfl
    obtain ⟨hkept, halias, hexpiry⟩ := h.handled_sent identifier expiry_interval
    rw [hproperties] at hpayload ⊢
    refine ⟨_, ?_, halias, hkept, hexpiry⟩
    rw [read_publish_properties, if_pos rfl, property_read_all_iff _ hpayload]
    exact ⟨h.valid_sent hidentifier expiry_interval, h.checked_sent identifier expiry_interval,
      hwritten, rfl⟩
  · refine ⟨[], ?_, rfl, (if_neg hprotocol).symm, (if_neg hprotocol).symm⟩
    rw [read_publish_properties, if_neg hprotocol, publish_properties, if_neg hprotocol]
    rfl

/-- The length that is reckoned for the properties is the number of bytes that are written for
them, with the length in front. -/
theorem KeptProperties.length (h : KeptProperties properties)
    (hidentifier : identifier.toNat < 268435456)
    (hlength : property_get_length_all properties + 10 < 268435456) :
    (publish_properties protocol (subscription_properties identifier) properties expiry_interval).1 =
      (publish_properties protocol (subscription_properties identifier) properties
        expiry_interval).2.length := by
  by_cases hprotocol : protocol = .mosq_p_mqtt5
  · rw [hprotocol, (publish_properties_sent h hidentifier expiry_interval hlength rfl).2]
  · rw [publish_properties, if_neg hprotocol]
    rfl

/-- A message that was received is read from the packet in which it is sent, with the flags, the
identifier and the interval of the sending. Its topic and properties are those that came in. -/
theorem publish_msg.Received.read_sent (h : msg.Received)
    (hlength : property_get_length_all msg.properties + 10 < 268435456) (hqos : qos ≤ 2)
    (hmax : qos ≤ subscriber.max_qos) (hmid : qos > 0 → mid ≠ 0) (hdup : dup = true → qos > 0)
    (hidentifier : identifier.toNat < 268435456)
    (hsent : send_real_publish subscriber.protocol maximum_packet_size mid msg.topic msg.payload qos
      retain dup (subscription_properties identifier) msg.properties expiry_interval = .ok bytes) :
    ∃ command body, Frame bytes command body ∧
      read_publish subscriber command body = .ok ({ msg with
        dup := dup
        qos := qos
        retain := retain
        mid := if qos > 0 then mid else 0
        properties := if subscriber.protocol = .mosq_p_mqtt5 then msg.properties else []
        message_expiry_interval :=
          if subscriber.protocol = .mosq_p_mqtt5 then expiry_interval else 0 },
        subscriber.aliases) := by
  have hframe := frame_send_real_publish hqos h.topic.2.1
    (h.properties.length hidentifier hlength) hsent
  have hbody := hframe.length_lt
  simp only [List.length_append] at hbody
  obtain ⟨sent, hread, halias, hkept, hexpiry⟩ := h.properties.read subscriber.protocol
    expiry_interval msg.payload hidentifier hlength (by
      rw [List.length_append]
      omega)
  obtain ⟨-, hdupBits, hqosBits, hretainBits⟩ := publish_command_bits hqos retain dup
  refine ⟨_, _, hframe, (read_publish_iff _ _ _ _ _).mpr ?_⟩
  rw [hdupBits, hqosBits]
  refine ⟨?_, ?_, UInt8.not_lt.mpr hmax, some msg.topic, _, _, _, sent, msg.payload,
    (packet_read_string_iff _ _ _).mpr ⟨h.topic.1, h.topic.2.1, h.topic.2.2, rfl⟩, nofun,
    read_publish_mid_written hmid _, hread, ?_, h.checked, ?_⟩
  · rintro ⟨hone, rfl⟩
    cases dup with
    | false => cases hone
    | true => exact absurd (hdup rfl) (by decide)
  · rintro rfl
    exact absurd hqos (by decide)
  · rw [halias]
    rfl
  · have hflag : decide (dup.toUInt8 = 1) = dup := by cases dup <;> rfl
    rw [publish_msg_of, hdupBits, hqosBits, hretainBits, hkept, hexpiry, hflag]

/-- A message that was received is sent so that its receiver reads the same topic, payload and
properties, whatever subscription it is sent for. The packet it came in leaves room for what the
subscription and the expiry add, the identifier is not 0 where there is one, and the sending
succeeds. The maximum packet size of the receiver is arbitrary, as is the protocol of either side.
-/
theorem read_publish_send_real_publish (haliases : ReadableTopics publisher.aliases)
    (hpacket : packet.length + 10 < 268435456)
    (hread : read_publish publisher header packet = .ok (msg, aliases)) (hqos : qos ≤ 2)
    (hmax : qos ≤ subscriber.max_qos) (hmid : qos > 0 → mid ≠ 0) (hdup : dup = true → qos > 0)
    (hidentifier : identifier.toNat < 268435456)
    (hsent : send_real_publish subscriber.protocol maximum_packet_size mid msg.topic msg.payload qos
      retain dup (subscription_properties identifier) msg.properties expiry_interval = .ok bytes) :
    ReadableTopics aliases ∧ ∃ command body, Frame bytes command body ∧
      read_publish subscriber command body = .ok ({ msg with
        dup := dup
        qos := qos
        retain := retain
        mid := if qos > 0 then mid else 0
        properties := if subscriber.protocol = .mosq_p_mqtt5 then msg.properties else []
        message_expiry_interval :=
          if subscriber.protocol = .mosq_p_mqtt5 then expiry_interval else 0 },
        subscriber.aliases) := by
  obtain ⟨hreceived, hproperties, haliases'⟩ := received_of_read haliases (by omega) hread
  exact ⟨haliases', hreceived.read_sent (by omega) hqos hmax hmid hdup hidentifier hsent⟩

private def log_client : mosquitto_context where
  protocol := .mosq_p_mqtt5
  max_qos := 2
  max_topic_alias := 10
  aliases := []

private def text_msg : publish_msg where
  dup := false
  qos := 1
  retain := false
  topic := [0x74]
  mid := 7
  properties := [⟨MQTT_PROP_CONTENT_TYPE, some [0x61]⟩]
  message_expiry_interval := 0
  payload := [0x31]

theorem read_publish_send_real_publish_text :
    ReadableTopics [] ∧ ∃ command body,
      Frame [0x32, 18, 0, 1, 0x74, 0, 9, 11, 11, 3, 3, 0, 1, 0x61, 2, 0, 0, 0, 60, 0x31] command body ∧
      read_publish log_client command body =
        .ok ({ text_msg with mid := 9, message_expiry_interval := 60 }, []) := by
  have hread : read_publish log_client 0x32 [0, 1, 0x74, 0, 7, 4, 3, 0, 1, 0x61, 0x31] =
      .ok (text_msg, []) := rfl
  have hsent : send_real_publish log_client.protocol 0 9 text_msg.topic text_msg.payload 1 false false
      (subscription_properties 3) text_msg.properties 60 =
        .ok [0x32, 18, 0, 1, 0x74, 0, 9, 11, 11, 3, 3, 0, 1, 0x61, 2, 0, 0, 0, 60, 0x31] := rfl
  exact read_publish_send_real_publish (fun _ hmem => absurd hmem List.not_mem_nil) (by decide) hread (by decide) (by decide)
    (fun _ => by decide) nofun (by decide) hsent

end communication_center.mosquitto
