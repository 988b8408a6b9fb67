import CommunicationCenter.Expiring.Cell
import CommunicationCenter.SystemStatus

open libc expiring

namespace communication_center.system_state

open system_status

def GOOD_AQ : UInt8 := 70
def MAX_PERIODS : Nat := 8
def NODE_IP_ADDR_MAX_LEN : Nat := 16
def INDOOR_SENSOR_TIMEOUT_MS : Int := 1000
def OUTDOOR_SENSOR_TIMEOUT_MS : Int := 1000
def WIND_SENSOR_TIMEOUT_MS : Int := 5000

/-- The enumeration is stored as the integer it was converted from, since the
scanned modes are not checked against its values. -/
abbrev system_mode_t := Int

def MODE_AUTO_BEST : system_mode_t := 0
def MODE_AUTO_ECO : system_mode_t := 1
def MODE_MANUAL : system_mode_t := 2

/-- Times are the C strings in the seven byte arrays. -/
structure schedule_period_t where
  start : Text
  end_ : Text
  mode : system_mode_t
  deriving DecidableEq

/-- The four actuator flags, in the order in which they are published. -/
structure Actuators where
  window : Bool
  fan : Bool
  door : Bool
  absorber_used : Bool
  deriving DecidableEq

def Actuators.off : Actuators where
  window := false
  fan := false
  door := false
  absorber_used := false

/-- The readings of one BME680 board. -/
structure Climate (F : Type) where
  temp : F
  humidity : F
  aq : UInt8
  deriving DecidableEq

/-- The shared variables. The list of periods is the array up to
`schedule_count`, and `last` holds the `last_*` variables of `publish_state`. -/
structure State (F : Type) where
  schedule : List schedule_period_t
  actuators : Actuators
  last : Actuators
  current_mode : system_mode_t
  indoor : Cell (Climate F)
  outdoor : Cell (Climate F)
  wind : Cell F
  indoor_ip_address : Text
  outdoor_ip_address : Text
  status : Status
  deriving DecidableEq

variable {F : Type} [CFloat F]

def HUMIDITY_DIFF_THRESHOLD : F := CFloat.lit 10
def HIGH_HUMIDITY : F := CFloat.lit 55
def WIND_HIGH : F := CFloat.lit 5
def AUTO_ECO_FAN_ON_TEMP_C : F := CFloat.lit 25
def AUTO_ECO_FAN_OFF_TEMP_C : F := CFloat.lit 24
def AUTO_ECO_FAN_HUMIDITY_RELEASE_MARGIN : F := CFloat.lit 3

def Climate.zero : Climate F where
  temp := CFloat.lit 0
  humidity := CFloat.lit 0
  aq := 0

/-- The state after `system_state_init`. -/
def State.initial : State F where
  schedule := []
  actuators := .off
  last := .off
  current_mode := MODE_MANUAL
  indoor := .empty .zero
  outdoor := .empty .zero
  wind := .empty (CFloat.lit 0)
  indoor_ip_address := ascii "--"
  outdoor_ip_address := ascii "--"
  status := .initial

end communication_center.system_state
