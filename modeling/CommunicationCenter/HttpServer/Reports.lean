import CommunicationCenter.SystemState.Schedule

open libc communication_center.system_state

namespace communication_center.http_server

variable {F : Type}

/-- A value of the sensor report: the dashes, or a number with its format. -/
inductive JsonField (F : Type) where
  | dashes
  | float (value : F) (decimals : Nat)
  | uint (value : Nat)
  deriving DecidableEq

def format_json_float (available : Bool) (value : F) (decimals : Nat) : JsonField F :=
  if available then .float value decimals else .dashes

def format_json_uint (available : Bool) (value : UInt8) : JsonField F :=
  if available then .uint value.toNat else .dashes

structure SensorsReport (F : Type) where
  indoor_connected : Bool
  outdoor_connected : Bool
  indoor_temp : JsonField F
  indoor_humidity : JsonField F
  indoor_aq : JsonField F
  outdoor_temp : JsonField F
  outdoor_humidity : JsonField F
  outdoor_aq : JsonField F
  wind_speed : JsonField F
  deriving DecidableEq

/-- The snapshot that `sensors_get_handler` takes after its refresh, formatted. -/
def sensors_snapshot (s : State F) : SensorsReport F where
  indoor_connected := s.indoor.available
  outdoor_connected := s.outdoor.available || s.wind.available
  indoor_temp := format_json_float s.indoor.available s.indoor.value.temp 2
  indoor_humidity := format_json_float s.indoor.available s.indoor.value.humidity 2
  indoor_aq := format_json_uint s.indoor.available s.indoor.value.aq
  outdoor_temp := format_json_float s.outdoor.available s.outdoor.value.temp 2
  outdoor_humidity := format_json_float s.outdoor.available s.outdoor.value.humidity 2
  outdoor_aq := format_json_uint s.outdoor.available s.outdoor.value.aq
  wind_speed := format_json_float s.wind.available s.wind.value 1

/-- What `status_get_handler` collects in its three critical sections. -/
structure StatusReport where
  mode : system_mode_t
  actuators : Actuators
  flags : ControlFlags
  why_headline : Text
  why : Text
  deriving DecidableEq

def status_snapshot (now : tm) (s : State F) : system_mode_t × Actuators × ControlFlags :=
  (s.current_mode, s.actuators, system_state_get_control_flags_locked now s)

/-- The fields of one source. -/
def SensorsReport.indoor (report : SensorsReport F) : List (JsonField F) :=
  [report.indoor_temp, report.indoor_humidity, report.indoor_aq]

def SensorsReport.outdoor (report : SensorsReport F) : List (JsonField F) :=
  [report.outdoor_temp, report.outdoor_humidity, report.outdoor_aq]

def SensorsReport.wind (report : SensorsReport F) : List (JsonField F) :=
  [report.wind_speed]

/-- The numbers that a report shows for a reading. -/
def climate_numbers (climate : Climate F) : List (JsonField F) :=
  [.float climate.temp 2, .float climate.humidity 2, .uint climate.aq.toNat]

def wind_numbers (speed : F) : List (JsonField F) :=
  [.float speed 1]

/-- All fields of a source are numbers, or all of them are dashes, as the availability of the
source says. The three sources are independent of each other. -/
theorem sensors_snapshot_fields (s : State F) :
    (sensors_snapshot s).indoor =
        (if s.indoor.available then climate_numbers s.indoor.value else List.replicate 3 .dashes) ∧
      (sensors_snapshot s).outdoor =
        (if s.outdoor.available then climate_numbers s.outdoor.value
          else List.replicate 3 .dashes) ∧
      (sensors_snapshot s).wind =
        (if s.wind.available then wind_numbers s.wind.value else [.dashes]) := by
  refine ⟨?_, ?_, ?_⟩
  · cases h : s.indoor.available <;> simp [sensors_snapshot, SensorsReport.indoor,
      format_json_float, format_json_uint, climate_numbers, h]
  · cases h : s.outdoor.available <;> simp [sensors_snapshot, SensorsReport.outdoor,
      format_json_float, format_json_uint, climate_numbers, h]
  · cases h : s.wind.available <;> simp [sensors_snapshot, SensorsReport.wind,
      format_json_float, wind_numbers, h]

end communication_center.http_server
