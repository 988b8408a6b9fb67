import CommunicationCenter.Libc.Decimal
import CommunicationCenter.Libc.DecimalLiteral
import CommunicationCenter.MqttBroker.AirQuality

open libc expiring communication_center.system_state

namespace communication_center.mqtt_broker

/-- A message of the documented form, with decimal literals for temperature and
humidity and an air quality of eight bits. -/
structure DocumentedMessage where
  tempBlanks : Nat
  temp : DecimalLiteral
  humidityBlanks : Nat
  humidity : DecimalLiteral
  aqBlanks : Nat
  aq : UInt8
  ip : Text
  ip_dottedQuad : IsDottedQuad ip

namespace DocumentedMessage

variable (m : DocumentedMessage)

def before_humidity : Text :=
  ascii "Temp:" ++ (blanks m.tempBlanks ++ (m.temp.text ++ ascii ", "))

def before_aq : Text :=
  m.before_humidity ++ (ascii "H=" ++ (blanks m.humidityBlanks ++ (m.humidity.text ++ ascii ", ")))

def before_ip : Text :=
  m.before_aq ++ (ascii "AQ:" ++ (blanks m.aqBlanks ++ (decimal m.aq.toNat ++ ascii ", ")))

def render : Text :=
  m.before_ip ++ (ascii "IP:" ++ m.ip)

def climate (F : Type) [CFloat F] : Climate F where
  temp := CFloat.ofNumeral m.temp.numeral
  humidity := CFloat.ofNumeral m.humidity.numeral
  aq := m.aq

end DocumentedMessage

/-- The address that belongs to a source. -/
def Source.address {F : Type} : Source → State F → Text
  | .indoor, s => s.indoor_ip_address
  | .outdoor, s => s.outdoor_ip_address

/-- The readings that are taken from a message. -/
def reading (F : Type) [CFloat F] (payload : Text) : Climate F where
  temp := float_field "Temp:" payload
  humidity := float_field "H=" payload
  aq := uint8_field "AQ:" payload

/-- What a message stores, whatever it contains: the readings of its text, with the data available,
and its address if there is one. An address that is missing keeps the old one. -/
theorem mqtt_message_cb_source {F : Type} [CFloat F] (source : Source) (data : List UInt8)
    (now_ms : Int) (s : State F) :
    source.cell (mqtt_message_cb source.topic data now_ms s) =
        { value := reading F (payload_text data), available := true, stamp := now_ms } ∧
      source.address (mqtt_message_cb source.topic data now_ms s) =
        match strstr (ascii "IP:") (payload_text data) with
        | some p => copy_node_ip_locked NODE_IP_ADDR_MAX_LEN (p.drop 3)
        | none => source.address s := by
  cases source with
  | indoor =>
    rw [Source.topic, mqtt_message_cb, if_pos rfl]
    cases strstr (ascii "IP:") (payload_text data) <;> exact ⟨rfl, rfl⟩
  | outdoor =>
    rw [Source.topic, mqtt_message_cb, if_neg (by decide), if_pos rfl]
    cases strstr (ascii "IP:") (payload_text data) <;> exact ⟨rfl, rfl⟩

theorem mqtt_message_cb_wind {F : Type} [CFloat F] (data : List UInt8) (now_ms : Int) (s : State F) :
    mqtt_message_cb (ascii "ESP32/wind") data now_ms s =
      { s with
        wind :=
          { value := CFloat.ofNumeral (strtod (payload_text data))
            available := true
            stamp := now_ms } } := by
  rw [mqtt_message_cb, if_neg (by decide), if_neg (by decide), if_pos rfl]
  rfl

/-- A text of at most 95 bytes is parsed as a whole. -/
theorem payload_text_eq_self {text : Text} (hlength : text.length ≤ 95) (hnul : (0 : UInt8) ∉ text) :
    payload_text text = text := by
  rw [payload_text, copy_len_of_le hlength, List.take_length, cstr_eq_self hnul]

/-- The bytes between the keys. -/
def between_keys (c : UInt8) : Bool :=
  isdigit c || c = 32 || c = 43 || c = 44 || c = 45 || c = 46

section

variable {c : UInt8} (h : between_keys c = false)
include h

theorem notMem_blanks (n : Nat) : c ∉ blanks n := by
  intro hc
  rw [mem_blanks hc] at h
  exact absurd h (by decide)

theorem notMem_decimal (n : Nat) : c ∉ decimal n := by
  intro hc
  simp [between_keys, isdigit_of_mem_decimal hc] at h

theorem notMem_literal (l : DecimalLiteral) : c ∉ l.text := by
  intro hc
  rcases List.mem_append.mp hc with hmark | hunsigned
  · rcases l.sign.bytes hmark with rfl | rfl <;> exact absurd h (by decide)
  · rcases l.unsigned_bytes hunsigned with hdigit | rfl
    · simp [between_keys, hdigit] at h
    · exact absurd h (by decide)

theorem notMem_comma : c ∉ ascii ", " := by
  intro hc
  have hbetween : ∀ d ∈ ascii ", ", between_keys d = true := List.all_eq_true.mp (by decide)
  rw [hbetween c hc] at h
  exact absurd h (by decide)

theorem IsDottedQuad.notMem {ip : Text} (hip : IsDottedQuad ip) : c ∉ ip := by
  intro hc
  rcases hip.bytes hc with rfl | hdigit
  · exact absurd h (by decide)
  · simp [between_keys, hdigit] at h

end

theorem IsDottedQuad.length_bounds {ip : Text} (h : IsDottedQuad ip) :
    0 < ip.length ∧ ip.length ≤ 15 := by
  obtain ⟨a, b, c, d, rfl⟩ := h
  have hlength (x : UInt8) : (decimal x.toNat).length ≤ 3 :=
    decimal_length_le (by decide) ((UInt8.toNat_lt x).trans (by decide))
  have ha := hlength a
  have hb := hlength b
  have hc := hlength c
  have hd := hlength d
  simp only [List.length_append, List.length_cons]
  omega

/-- An address fits, and so is stored as it was sent. -/
theorem copy_node_ip_locked_dottedQuad {ip : Text} (h : IsDottedQuad ip) :
    copy_node_ip_locked NODE_IP_ADDR_MAX_LEN ip = ip := by
  obtain ⟨hpositive, hshort⟩ := h.length_bounds
  rw [copy_node_ip_locked, if_neg (List.ne_nil_of_length_pos hpositive), snprintf]
  exact List.take_of_length_le hshort

/-- A field is found behind its key when nothing in front of the key begins with
the same byte. -/
theorem strstr_key {key : String} {first : UInt8} {needle before : Text}
    (hkey : ascii key = first :: needle) (hbefore : first ∉ before) (rest : Text) :
    strstr (ascii key) (before ++ (ascii key ++ rest)) = some (ascii key ++ rest) := by
  rw [hkey, strstr_append_of_notMem hbefore]
  exact strstr_of_prefix (List.prefix_append _ _)

theorem drop_key (key : String) (rest : Text) : (ascii key ++ rest).drop key.length = rest := by
  have hlength : (ascii key).length = key.length := by
    rw [ascii, List.length_map, String.length_toList]
  rw [← hlength, List.drop_left]

section

variable {F : Type} [CFloat F] {key : String} {first : UInt8} {needle before : Text}
  (hkey : ascii key = first :: needle) (hbefore : first ∉ before)
include hkey hbefore

theorem float_field_literal (n : Nat) (l : DecimalLiteral) {rest : Text} (hrest : EndsLiteral rest) :
    (float_field key (before ++ (ascii key ++ (blanks n ++ (l.text ++ rest)))) : F) =
      CFloat.ofNumeral l.numeral := by
  have hblanks : ∀ c ∈ blanks n, isspace c = true := by
    intro c hc
    rw [mem_blanks hc]
    decide
  rw [float_field, strstr_key hkey hbefore]
  dsimp only
  rw [drop_key, strtod_literal l hblanks hrest]

theorem uint8_field_decimal (n : Nat) (value : UInt8) {rest : Text} (hrest : EndsNumeral rest) :
    uint8_field key (before ++ (ascii key ++ (blanks n ++ (decimal value.toNat ++ rest)))) =
      value := by
  have hblanks : ∀ c ∈ blanks n, isspace c = true := by
    intro c hc
    rw [mem_blanks hc]
    decide
  have hatoi : atoi (blanks n ++ (decimal value.toNat ++ rest)) = value.toNat := by
    have hmax : (value.toNat : Int) ≤ INT_MAX := by
      have hlt := UInt8.toNat_lt value
      rw [INT_MAX]
      omega
    rw [atoi_digits hblanks (fun c hc => isdigit_of_mem_decimal hc)
      (fun hempty => absurd hempty (decimal_ne_nil _)) hrest, digits_value_decimal]
    rwa [digits_value_decimal]
  rw [uint8_field, strstr_key hkey hbefore]
  dsimp only
  have hvalue : (value.toNat : Int) % 2 ^ 8 = value.toNat := by
    have hlt := UInt8.toNat_lt value
    omega
  rw [drop_key, hatoi, UInt8.ofInt, hvalue, Int.toNat_natCast, UInt8.ofNat_toNat]

end

namespace DocumentedMessage

variable (m : DocumentedMessage)

theorem notMem_before_humidity {c : UInt8} (h : between_keys c = false)
    (hkey : c ∉ ascii "Temp:") : c ∉ m.before_humidity := by
  simp only [before_humidity, List.mem_append, not_or]
  exact ⟨hkey, notMem_blanks h _, notMem_literal h _, notMem_comma h⟩

theorem notMem_before_aq {c : UInt8} (h : between_keys c = false)
    (hkeys : c ∉ ascii "Temp:H=") : c ∉ m.before_aq := by
  have hsplit : ascii "Temp:H=" = ascii "Temp:" ++ ascii "H=" := rfl
  rw [hsplit, List.mem_append, not_or] at hkeys
  simp only [before_aq, List.mem_append, not_or]
  exact ⟨m.notMem_before_humidity h hkeys.1, hkeys.2, notMem_blanks h _, notMem_literal h _,
    notMem_comma h⟩

theorem notMem_before_ip {c : UInt8} (h : between_keys c = false)
    (hkeys : c ∉ ascii "Temp:H=AQ:") : c ∉ m.before_ip := by
  have hsplit : ascii "Temp:H=AQ:" = ascii "Temp:H=" ++ ascii "AQ:" := rfl
  rw [hsplit, List.mem_append, not_or] at hkeys
  simp only [before_ip, List.mem_append, not_or]
  exact ⟨m.notMem_before_aq h hkeys.1, hkeys.2, notMem_blanks h _, notMem_decimal h _,
    notMem_comma h⟩

theorem zero_notMem_render : (0 : UInt8) ∉ m.render := by
  rw [render, List.mem_append, List.mem_append, not_or, not_or]
  exact ⟨m.notMem_before_ip (by decide) (by decide), by decide,
    m.ip_dottedQuad.notMem (by decide)⟩

theorem comma_endsLiteral (rest : Text) : EndsLiteral (ascii ", " ++ rest) := by
  intro c hc
  obtain rfl : 44 = c := Option.some.inj hc
  decide

/-- What a documented message says is what its fields are read as, wherever its keys stand and
however many blanks follow them. The message is read as a whole here, as one of at most 95 bytes
is. -/
theorem fields_render (F : Type) [CFloat F] :
    (float_field "Temp:" m.render : F) = (m.climate F).temp ∧
      (float_field "H=" m.render : F) = (m.climate F).humidity ∧
      uint8_field "AQ:" m.render = (m.climate F).aq ∧
      (strstr (ascii "IP:") m.render).map (List.drop 3) = some m.ip := by
  have htemp := float_field_literal (F := F) (rfl : ascii "Temp:" = 84 :: ascii "emp:")
    List.not_mem_nil m.tempBlanks m.temp
    (comma_endsLiteral (ascii "H=" ++ (blanks m.humidityBlanks ++ (m.humidity.text ++ (ascii ", " ++
      (ascii "AQ:" ++ (blanks m.aqBlanks ++ (decimal m.aq.toNat ++
        (ascii ", " ++ (ascii "IP:" ++ m.ip))))))))))
  have hhumidity := float_field_literal (F := F) (rfl : ascii "H=" = 72 :: ascii "=")
    (m.notMem_before_humidity (by decide) (by decide)) m.humidityBlanks m.humidity
    (comma_endsLiteral (ascii "AQ:" ++ (blanks m.aqBlanks ++ (decimal m.aq.toNat ++
      (ascii ", " ++ (ascii "IP:" ++ m.ip))))))
  have haq := uint8_field_decimal (rfl : ascii "AQ:" = 65 :: ascii "Q:")
    (m.notMem_before_aq (by decide) (by decide)) m.aqBlanks m.aq
    (comma_endsLiteral (ascii "IP:" ++ m.ip)).endsNumeral
  have hip := strstr_key (rfl : ascii "IP:" = 73 :: ascii "P:")
    (m.notMem_before_ip (by decide) (by decide)) m.ip
  refine ⟨?_, ?_, ?_, ?_⟩
  · simpa [render, before_ip, before_aq, before_humidity, climate] using htemp
  · simpa [render, before_ip, before_aq, climate] using hhumidity
  · simpa [render, before_ip, climate] using haq
  · rw [render, hip, Option.map_some]
    exact congrArg some (drop_key "IP:" m.ip)

end DocumentedMessage

/-- Only the fields of the source that the topic names may have changed. -/
structure OnlyAddressed {F : Type} (topic : Text) (s t : State F) : Prop where
  indoor : topic = ascii "ESP32/indoor" →
    ∃ cell ip, t = { s with indoor := cell, indoor_ip_address := ip }
  outdoor : topic = ascii "ESP32/outdoor" →
    ∃ cell ip, t = { s with outdoor := cell, outdoor_ip_address := ip }
  wind : topic = ascii "ESP32/wind" → ∃ cell, t = { s with wind := cell }
  other : topic ≠ ascii "ESP32/indoor" → topic ≠ ascii "ESP32/outdoor" →
    topic ≠ ascii "ESP32/wind" → t = s

theorem onlyAddressed_mqtt_message_cb {F : Type} [CFloat F] (topic : Text) (data : List UInt8)
    (now_ms : Int) (s : State F) : OnlyAddressed topic s (mqtt_message_cb topic data now_ms s) where
  indoor := by
    rintro rfl
    obtain ⟨ip, h⟩ := mqtt_message_cb_indoor data now_ms s
    exact ⟨_, ip, h⟩
  outdoor := by
    rintro rfl
    obtain ⟨ip, h⟩ := mqtt_message_cb_outdoor data now_ms s
    exact ⟨_, ip, h⟩
  wind := by
    rintro rfl
    exact ⟨_, mqtt_message_cb_wind data now_ms s⟩
  other := by
    intro hindoor houtdoor hwind
    rw [mqtt_message_cb, if_neg hindoor, if_neg houtdoor, if_neg hwind]

/-- A documented message is stored as what it says, and nothing else is changed by any message. A
message from a sensor and a wind speed are read whole if they have at most 95 bytes, with any
number of blanks behind the keys and literals of any length and precision. The last part is about
all topics and payloads. -/
theorem mqtt_message_cb_decodes (F : Type) [CFloat F] :
    (∀ (source : Source) (m : DocumentedMessage), m.render.length ≤ 95 →
      ∀ (now_ms : Int) (s : State F),
        source.cell (mqtt_message_cb source.topic m.render now_ms s) =
            { value := m.climate F, available := true, stamp := now_ms } ∧
          source.address (mqtt_message_cb source.topic m.render now_ms s) = m.ip) ∧
    (∀ (l : DecimalLiteral) (now_ms : Int) (s : State F),
      ∃ speed, mqtt_message_cb (ascii "ESP32/wind") l.text now_ms s =
          { s with wind := { value := speed, available := true, stamp := now_ms } } ∧
        (l.text.length ≤ 95 → speed = CFloat.ofNumeral l.numeral)) ∧
    ∀ (topic : Text) (data : List UInt8) (now_ms : Int) (s : State F),
      OnlyAddressed topic s (mqtt_message_cb topic data now_ms s) := by
  refine ⟨fun source m hlength now_ms s => ?_, fun l now_ms s => ?_, onlyAddressed_mqtt_message_cb⟩
  · obtain ⟨htemp, hhumidity, haq, hip⟩ := m.fields_render F
    obtain ⟨hcell, haddress⟩ := mqtt_message_cb_source source m.render now_ms s
    rw [payload_text_eq_self hlength m.zero_notMem_render] at hcell haddress
    obtain ⟨p, hfound, hdrop⟩ := Option.map_eq_some_iff.mp hip
    constructor
    · rw [hcell, reading, htemp, hhumidity, haq]
    · rw [haddress, hfound]
      dsimp only
      rw [hdrop, copy_node_ip_locked_dottedQuad m.ip_dottedQuad]
  · refine ⟨_, mqtt_message_cb_wind l.text now_ms s, fun hlength => ?_⟩
    have hread : strtod ([] ++ (l.text ++ [])) = l.numeral :=
      strtod_literal l (by simp) (by simp [EndsLiteral])
    rw [List.nil_append, List.append_nil] at hread
    rw [payload_text_eq_self hlength (notMem_literal (by decide) l), hread]

private def literal (whole fraction : String) (hwhole : (ascii whole).all isdigit = true)
    (hfraction : (ascii fraction).all isdigit = true) (h : ascii whole ≠ []) : DecimalLiteral where
  mark := []
  negative := false
  whole := ascii whole
  fraction := some (ascii fraction)
  sign := .none
  whole_digits := List.all_eq_true.mp hwhole
  fraction_digits := List.all_eq_true.mp hfraction
  nonempty := List.append_ne_nil_of_left_ne_nil h _

private def indoor_message : DocumentedMessage where
  tempBlanks := 1
  temp := literal "21" "5" rfl rfl (by decide)
  humidityBlanks := 1
  humidity := literal "45" "25" rfl rfl (by decide)
  aqBlanks := 1
  aq := 37
  ip := ascii "192.168.0.20"
  ip_dottedQuad := ⟨192, 168, 0, 20, by decide⟩

private def breeze : DecimalLiteral :=
  literal "3" "75" rfl rfl (by decide)

private def reported : State Binary32 :=
  mqtt_message_cb Source.indoor.topic (ascii "Temp: 21.5, H= 45.25, AQ: 37, IP:192.168.0.20") 1000
    .initial

theorem mqtt_message_cb_decodes_indoor_and_wind :
    Source.indoor.cell reported =
        { value := ⟨.finite false (43 / 2), .finite false (181 / 4), 37⟩
          available := true
          stamp := 1000 } ∧
      Source.indoor.address reported = ascii "192.168.0.20" ∧
      mqtt_message_cb (ascii "ESP32/wind") (ascii "3.75") 1000 reported = { reported with
        wind := { value := .finite false (15 / 4), available := true, stamp := 1000 } } ∧
      mqtt_message_cb (ascii "ESP32/window") (ascii "1") 1000 reported = reported := by
  obtain ⟨hsource, hwind, hframe⟩ := mqtt_message_cb_decodes Binary32
  have hrender : indoor_message.render =
      ascii "Temp: 21.5, H= 45.25, AQ: 37, IP:192.168.0.20" := by decide +kernel
  have hclimate : indoor_message.climate Binary32 =
      ⟨.finite false (43 / 2), .finite false (181 / 4), 37⟩ := by decide +kernel
  have hmessage := hsource .indoor indoor_message (by decide +kernel) 1000 .initial
  rw [hrender, hclimate] at hmessage
  obtain ⟨speed, hstored, hspeed⟩ := hwind breeze 1000 reported
  have hvalue : (CFloat.ofNumeral breeze.numeral : Binary32) = .finite false (15 / 4) := by
    decide +kernel
  have htext : breeze.text = ascii "3.75" := by decide
  rw [hspeed (by decide), hvalue, htext] at hstored
  have hsame := hframe (ascii "ESP32/window") (ascii "1") 1000 reported
  exact ⟨hmessage.1, hmessage.2, hstored, hsame.other (by decide) (by decide) (by decide)⟩

end communication_center.mqtt_broker
