import CommunicationCenter.Libc.Search
import CommunicationCenter.SystemState.Sensors

open libc communication_center.system_state

namespace communication_center.mqtt_broker

/-- The length is compared as a `uint8_t`, with room for the NUL in 96 bytes. -/
def copy_len (len : Nat) : Nat :=
  if len % 256 < 95 then len % 256 else 95

theorem copy_len_of_le {len : Nat} (h : len ≤ 95) : copy_len len = len := by
  unfold copy_len
  split <;> omega

/-- The text that is parsed. -/
def payload_text (data : List UInt8) : Text :=
  cstr (data.take (copy_len data.length))

variable {F : Type} [CFloat F]

/-- The number behind a key, converted on assignment, and zero without the key. -/
def float_field (key : String) (payload : Text) : F :=
  match strstr (ascii key) payload with
  | some p => CFloat.ofNumeral (strtod (p.drop key.length))
  | none => CFloat.lit 0

/-- The integer behind a key, narrowed to eight bits on assignment. -/
def uint8_field (key : String) (payload : Text) : UInt8 :=
  match strstr (ascii key) payload with
  | some p => UInt8.ofInt (atoi (p.drop key.length))
  | none => 0

/-- A published message, with the clock value that its sensor update reads. -/
def mqtt_message_cb (topic : Text) (data : List UInt8) (now_ms : Int) (s : State F) : State F :=
  let payload := payload_text data
  if topic = ascii "ESP32/indoor" then
    let in_t := float_field "Temp:" payload
    let in_h := float_field "H=" payload
    let in_aq := uint8_field "AQ:" payload
    let s := match strstr (ascii "IP:") payload with
      | some p => system_state_update_indoor_ip (p.drop 3) s
      | none => s
    system_state_update_indoor_sensor in_t in_h in_aq now_ms s
  else if topic = ascii "ESP32/outdoor" then
    let out_t := float_field "Temp:" payload
    let out_h := float_field "H=" payload
    let out_aq := uint8_field "AQ:" payload
    let s := match strstr (ascii "IP:") payload with
      | some p => system_state_update_outdoor_ip (p.drop 3) s
      | none => s
    system_state_update_outdoor_sensor out_t out_h out_aq now_ms s
  else if topic = ascii "ESP32/wind" then
    system_state_update_wind_speed (CFloat.ofNumeral (strtod payload)) now_ms s
  else s

/-- An indoor message writes the indoor cell and the indoor address only, whatever it contains. The
address may stay as it was. -/
theorem mqtt_message_cb_indoor (data : List UInt8) (now_ms : Int) (s : State F) :
    ∃ ip, mqtt_message_cb (ascii "ESP32/indoor") data now_ms s =
      { s with
        indoor := s.indoor.write
          { temp := float_field "Temp:" (payload_text data)
            humidity := float_field "H=" (payload_text data)
            aq := uint8_field "AQ:" (payload_text data) } now_ms
        indoor_ip_address := ip } := by
  unfold mqtt_message_cb
  rw [if_pos rfl]
  dsimp only
  split <;> exact ⟨_, rfl⟩

theorem mqtt_message_cb_outdoor (data : List UInt8) (now_ms : Int) (s : State F) :
    ∃ ip, mqtt_message_cb (ascii "ESP32/outdoor") data now_ms s =
      { s with
        outdoor := s.outdoor.write
          { temp := float_field "Temp:" (payload_text data)
            humidity := float_field "H=" (payload_text data)
            aq := uint8_field "AQ:" (payload_text data) } now_ms
        outdoor_ip_address := ip } := by
  unfold mqtt_message_cb
  rw [if_neg (by decide), if_pos rfl]
  dsimp only
  split <;> exact ⟨_, rfl⟩

end communication_center.mqtt_broker
