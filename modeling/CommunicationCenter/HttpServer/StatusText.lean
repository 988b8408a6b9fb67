import CommunicationCenter.HttpServer.SensorsText
import CommunicationCenter.Libc.Decimal

open libc communication_center.system_state

namespace communication_center.http_server

/-- A flag that is printed as a number. -/
def flag_text (flag : Bool) : Text :=
  int_text (if flag then 1 else 0)

/-- The text that `status_get_handler` formats for its first chunk. -/
def status_text (mode : system_mode_t) (actuators : Actuators) (flags : ControlFlags) : Text :=
  ascii "\x7b\"mode\":" ++ (int_text mode ++
  (ascii ",\"window\":" ++ (flag_text actuators.window ++
  (ascii ",\"fan\":" ++ (flag_text actuators.fan ++
  (ascii ",\"door\":" ++ (flag_text actuators.door ++
  (ascii ",\"absorber\":" ++ (flag_text actuators.absorber_used ++
  (ascii ",\"scheduleConfigured\":" ++ (bool_text flags.schedule_configured ++
  (ascii ",\"scheduleActive\":" ++ (bool_text flags.schedule_active ++
  (ascii ",\"scheduleHoldingState\":" ++ (bool_text flags.schedule_holding_state ++
  (ascii ",\"manualControlAllowed\":" ++ (bool_text flags.manual_control_allowed ++
  ascii ",\"whyHeadline\":\"")))))))))))))))))

def JSON_CHUNK_SIZE : Nat := 256

/-- What `snprintf` leaves in `json_chunk`, and the length that it returns. -/
structure JsonChunk where
  json_chunk : Text
  len : Nat

/-- The first chunk, sent with the returned length. -/
def status_chunk (mode : system_mode_t) (actuators : Actuators) (flags : ControlFlags) : JsonChunk where
  json_chunk := snprintf JSON_CHUNK_SIZE (status_text mode actuators flags)
  len := (status_text mode actuators flags).length

theorem flag_text_length (flag : Bool) : (flag_text flag).length = 1 := by
  cases flag with
  | true => rfl
  | false => rfl

theorem status_text_length_le {mode : system_mode_t} (hmin : INT_MIN ≤ mode) (hmax : mode ≤ INT_MAX)
    (actuators : Actuators) (flags : ControlFlags) :
    (status_text mode actuators flags).length ≤ 184 := by
  have hmode := int_text_length_le hmin hmax
  have hconfigured := bool_text_length_le flags.schedule_configured
  have hactive := bool_text_length_le flags.schedule_active
  have hholding := bool_text_length_le flags.schedule_holding_state
  have hallowed := bool_text_length_le flags.manual_control_allowed
  simp [status_text, flag_text_length, ascii]
  omega

/-- The length that is sent is that of the text in the buffer, inside of it. -/
structure ChunkFits (chunk : JsonChunk) : Prop where
  len_lt : chunk.len < JSON_CHUNK_SIZE
  whole : chunk.json_chunk.length = chunk.len

theorem chunkFits_status_chunk {mode : system_mode_t} (hmin : INT_MIN ≤ mode) (hmax : mode ≤ INT_MAX)
    (actuators : Actuators) (flags : ControlFlags) : ChunkFits (status_chunk mode actuators flags) := by
  have hlength := status_text_length_le hmin hmax actuators flags
  have hsize : JSON_CHUNK_SIZE = 256 := rfl
  constructor
  · rw [status_chunk]
    dsimp only
    omega
  · rw [status_chunk, snprintf, List.length_take]
    exact Nat.min_eq_right (by omega)

end communication_center.http_server
