import CommunicationCenter.SystemState.State

open libc expiring

namespace communication_center.system_state

variable {F : Type}

/-- An absent or empty address is shown as dashes, a long one is cut. -/
def copy_node_ip_locked (dest_size : Nat) (ip : Text) : Text :=
  snprintf dest_size (if ip = [] then ascii "--" else ip)

def system_state_update_indoor_sensor (temp humidity : F) (aq : UInt8) (now_ms : Int)
    (s : State F) : State F :=
  { s with indoor := s.indoor.write { temp, humidity, aq } now_ms }

def system_state_update_outdoor_sensor (temp humidity : F) (aq : UInt8) (now_ms : Int)
    (s : State F) : State F :=
  { s with outdoor := s.outdoor.write { temp, humidity, aq } now_ms }

def system_state_update_wind_speed (speed : F) (now_ms : Int) (s : State F) : State F :=
  { s with wind := s.wind.write speed now_ms }

def system_state_update_indoor_ip (ip : Text) (s : State F) : State F :=
  { s with indoor_ip_address := copy_node_ip_locked NODE_IP_ADDR_MAX_LEN ip }

def system_state_update_outdoor_ip (ip : Text) (s : State F) : State F :=
  { s with outdoor_ip_address := copy_node_ip_locked NODE_IP_ADDR_MAX_LEN ip }

variable [CFloat F]

def reset_indoor_sensor_state_locked (s : State F) : State F :=
  { s with indoor := s.indoor.reset .zero }

def reset_outdoor_sensor_state_locked (s : State F) : State F :=
  { s with outdoor := s.outdoor.reset .zero }

def reset_wind_sensor_state_locked (s : State F) : State F :=
  { s with wind := s.wind.reset (CFloat.lit 0) }

/-- The critical section of a refresh that read the clock value `now` before it
took the mutex. -/
def system_state_refresh_sensor_timeouts (now : Int) (s : State F) : State F :=
  let s := if s.indoor.available && now - s.indoor.stamp > INDOOR_SENSOR_TIMEOUT_MS then
    reset_indoor_sensor_state_locked s else s
  let s := if s.outdoor.available && now - s.outdoor.stamp > OUTDOOR_SENSOR_TIMEOUT_MS then
    reset_outdoor_sensor_state_locked s else s
  if s.wind.available && now - s.wind.stamp > WIND_SENSOR_TIMEOUT_MS then
    reset_wind_sensor_state_locked s else s

/-- Each source expires on its own timeout, independently of the other two, and nothing else is
changed by a refresh. The clock may have any value. -/
theorem system_state_refresh_sensor_timeouts_eq (now : Int) (s : State F) :
    system_state_refresh_sensor_timeouts now s =
      { s with
        indoor := s.indoor.expire .zero INDOOR_SENSOR_TIMEOUT_MS now
        outdoor := s.outdoor.expire .zero OUTDOOR_SENSOR_TIMEOUT_MS now
        wind := s.wind.expire (CFloat.lit 0) WIND_SENSOR_TIMEOUT_MS now } := by
  have hindoor (t : State F) :
      (if t.indoor.available && now - t.indoor.stamp > INDOOR_SENSOR_TIMEOUT_MS then
        reset_indoor_sensor_state_locked t else t) =
        { t with indoor := t.indoor.expire .zero INDOOR_SENSOR_TIMEOUT_MS now } := by
    unfold Cell.expire
    split <;> rfl
  have houtdoor (t : State F) :
      (if t.outdoor.available && now - t.outdoor.stamp > OUTDOOR_SENSOR_TIMEOUT_MS then
        reset_outdoor_sensor_state_locked t else t) =
        { t with outdoor := t.outdoor.expire .zero OUTDOOR_SENSOR_TIMEOUT_MS now } := by
    unfold Cell.expire
    split <;> rfl
  have hwind (t : State F) :
      (if t.wind.available && now - t.wind.stamp > WIND_SENSOR_TIMEOUT_MS then
        reset_wind_sensor_state_locked t else t) =
        { t with wind := t.wind.expire (CFloat.lit 0) WIND_SENSOR_TIMEOUT_MS now } := by
    unfold Cell.expire
    split <;> rfl
  unfold system_state_refresh_sensor_timeouts
  dsimp only
  rw [hindoor, houtdoor, hwind]

end communication_center.system_state
