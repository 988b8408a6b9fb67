import CommunicationCenter.HttpServer.Control
import CommunicationCenter.HttpServer.Reports
import CommunicationCenter.HttpServer.SchedulePost
import CommunicationCenter.SystemState.AutoUpdate
import CommunicationCenter.SystemState.Sensors
import CommunicationCenter.Transition.Run

open libc communication_center.system_status communication_center.system_state
  communication_center.http_server

namespace communication_center.system

/-- The position of `system_task` in its loop, with the clock value it read or
the values it captured. -/
inductive SystemTask where
  | idle
  | refresh (now : Int)
  | auto_update
  | publish (captured : Actuators)
  deriving DecidableEq

/-- The next critical section of the request handler that is running. -/
inductive HttpTask where
  | idle
  | mode_status (new_mode : Int) (has_schedule : Bool)
  | actuators_status (captured : Actuators) (schedule_holding_state : Bool)
  | actuators_publish (captured : Actuators)
  | schedule_status (local_count : Nat) (is_manual_mode : Bool)
  | sensors_refresh (now : Int)
  | sensors_snapshot
  | status_headline (snapshot : system_mode_t × Actuators × ControlFlags)
  | status_explanation (snapshot : system_mode_t × Actuators × ControlFlags) (why_headline : Text)
  deriving DecidableEq

structure System (F : Type) where
  shared : State F
  system_task : SystemTask
  http_task : HttpTask
  deriving DecidableEq

/-- The updates that the broker's task makes, in a section each. -/
inductive SensorUpdate (F : Type) where
  | indoor_sensor (temp humidity : F) (aq : UInt8) (now_ms : Int)
  | outdoor_sensor (temp humidity : F) (aq : UInt8) (now_ms : Int)
  | wind_speed (speed : F) (now_ms : Int)
  | indoor_ip (ip : Text)
  | outdoor_ip (ip : Text)
  deriving DecidableEq

inductive TaskLabel where
  | read_clock (now : Int)
  | refresh
  | auto_update (now : tm)
  | publish
  deriving DecidableEq

/-- A request, with the clock value or the local time that its handler reads
before or in its first critical section. -/
inductive Request where
  | post_mode (req : httpd_req_t)
  | post_actuators (req : httpd_req_t) (now : tm)
  | post_schedule (req : httpd_req_t)
  | get_sensors (now : Int)
  | get_status (now : tm)
  | get_schedule
  deriving DecidableEq

/-- One atomic step: a critical section or a call of `publish_state`. A request
comes with its parsing, which touches nothing shared, and `handler` is the next
section of the handler that is running. -/
inductive Label (F : Type) where
  | update (u : SensorUpdate F)
  | task (l : TaskLabel)
  | request (r : Request)
  | handler
  deriving DecidableEq

inductive Response (F : Type) where
  | ok
  | error (e : HttpError)
  | sensors (report : SensorsReport F)
  | status (report : StatusReport)
  | schedule (periods : List schedule_period_t)
  deriving DecidableEq

/-- What can be observed of a step: the mode whose rules a tick evaluated, a call
of `publish_state`, a message handed to the MQTT client, or a response. -/
inductive Event (F : Type) where
  | evaluated (mode : system_mode_t)
  | publish_call (q : Actuators)
  | sent (message : Message)
  | response (r : Response F)
  deriving DecidableEq

variable {F : Type}

/-- Everything that a call of `publish_state` emits while the client is there. -/
def publish_events (q : Actuators) (s : State F) : List (Event F) :=
  .publish_call q :: (publish_state true q s).2.map .sent

def system_state_update (u : SensorUpdate F) (s : State F) : State F :=
  match u with
  | .indoor_sensor temp humidity aq now_ms =>
    system_state_update_indoor_sensor temp humidity aq now_ms s
  | .outdoor_sensor temp humidity aq now_ms =>
    system_state_update_outdoor_sensor temp humidity aq now_ms s
  | .wind_speed speed now_ms => system_state_update_wind_speed speed now_ms s
  | .indoor_ip ip => system_state_update_indoor_ip ip s
  | .outdoor_ip ip => system_state_update_outdoor_ip ip s

variable [CFloat F]

/-- The next critical section of the running handler. -/
def handler_step (sys : System F) : Option (System F × List (Event F)) :=
  match sys.http_task with
  | .idle => none
  | .mode_status new_mode has_schedule =>
    some ({ sys with
        shared := mode_post_status new_mode has_schedule sys.shared
        http_task := .idle }, [.response .ok])
  | .actuators_status captured schedule_holding_state =>
    some ({ sys with
        shared := actuators_post_status schedule_holding_state sys.shared
        http_task := .actuators_publish captured }, [])
  | .actuators_publish captured =>
    some ({ sys with
        shared := (publish_state true captured sys.shared).1
        http_task := .idle }, publish_events captured sys.shared ++ [.response .ok])
  | .schedule_status local_count is_manual_mode =>
    some ({ sys with
        shared := schedule_post_status local_count is_manual_mode sys.shared
        http_task := .idle }, [.response .ok])
  | .sensors_refresh now =>
    some ({ sys with
        shared := system_state_refresh_sensor_timeouts now sys.shared
        http_task := .sensors_snapshot }, [])
  | .sensors_snapshot =>
    some ({ sys with http_task := .idle },
      [.response (.sensors (http_server.sensors_snapshot sys.shared))])
  | .status_headline snapshot =>
    some ({ sys with
        http_task := .status_explanation snapshot sys.shared.status.status_headline }, [])
  | .status_explanation (mode, actuators, flags) why_headline =>
    let why := sys.shared.status.status_explanation
    some ({ sys with http_task := .idle },
      [.response (.status { mode, actuators, flags, why_headline, why })])

/-- A step of the system task. Its loop refreshes, ticks, publishes unless the
tick returned early, and waits. -/
def task_step (sys : System F) (l : TaskLabel) : Option (System F × List (Event F)) :=
  match sys.system_task, l with
  | .idle, .read_clock now => some ({ sys with system_task := .refresh now }, [])
  | .refresh now, .refresh =>
    some ({ sys with
        shared := system_state_refresh_sensor_timeouts now sys.shared
        system_task := .auto_update }, [])
  | .auto_update, .auto_update now =>
    match system_auto_update_section now sys.shared with
    | (shared, none) => some ({ sys with shared, system_task := .idle }, [])
    | (shared, some evaluation) =>
      some ({ sys with shared, system_task := .publish evaluation.captured },
        [.evaluated evaluation.mode])
  | .publish captured, .publish =>
    some ({ sys with
        shared := (publish_state true captured sys.shared).1
        system_task := .idle }, publish_events captured sys.shared)
  | _, _ => none

/-- The arrival of a request. A body that makes the parsing loop fault has no
successor, since the device is gone. -/
def request_step (sys : System F) (r : Request) : Option (System F × List (Event F)) :=
  match r with
  | .post_mode req => match mode_post_parse req with
    | .error e => some (sys, [.response (.error e)])
    | .ok new_mode =>
      let (shared, has_schedule) := mode_post_section new_mode sys.shared
      some ({ sys with shared, http_task := .mode_status new_mode has_schedule }, [])
  | .post_actuators req now => match actuators_post_parse req with
    | .error e => some (sys, [.response (.error e)])
    | .ok r => match actuators_post_section now r sys.shared with
      | .error e => some (sys, [.response (.error e)])
      | .ok (shared, captured, schedule_holding_state) =>
        some ({ sys with
            shared, http_task := .actuators_status captured schedule_holding_state }, [])
  | .post_schedule req => match schedule_post_parse req with
    | .error e => some (sys, [.response (.error e)])
    | .ok (some (.ok periods)) =>
      let (shared, is_manual_mode) := schedule_post_section periods sys.shared
      some ({ sys with
          shared, http_task := .schedule_status periods.length is_manual_mode }, [])
    | .ok _ => none
  | .get_sensors now => some ({ sys with http_task := .sensors_refresh now }, [])
  | .get_status now =>
    some ({ sys with http_task := .status_headline (status_snapshot now sys.shared) }, [])
  | .get_schedule => some (sys, [.response (.schedule sys.shared.schedule)])

/-- The step function of the whole system. Sensor updates come in at any time,
and a request only while no handler is running. -/
def step (sys : System F) (label : Label F) : Option (System F × List (Event F)) :=
  match label with
  | .update u => some ({ sys with shared := system_state_update u sys.shared }, [])
  | .task l => task_step sys l
  | .request r => if sys.http_task = .idle then request_step sys r else none
  | .handler => handler_step sys

/-- The system after `system_state_init`, with both tasks at their start. -/
def System.initial : System F where
  shared := .initial
  system_task := .idle
  http_task := .idle

end communication_center.system
