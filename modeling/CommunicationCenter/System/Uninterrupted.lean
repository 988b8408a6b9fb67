import CommunicationCenter.HttpServer.Handlers
import CommunicationCenter.MqttBroker.Message
import CommunicationCenter.System.Trace

open libc transition communication_center.system_state communication_center.http_server
  communication_center.mqtt_broker

namespace communication_center.system

variable {F : Type} [CFloat F]

/-- The updates that the callback makes for one published message: the address
first when the message carries one, then the readings. -/
def message_updates (topic : Text) (data : List UInt8) (now_ms : Int) : List (SensorUpdate F) :=
  let payload := payload_text data
  let address (update : Text → SensorUpdate F) : List (SensorUpdate F) :=
    match strstr (ascii "IP:") payload with
    | some p => [update (p.drop 3)]
    | none => []
  if topic = ascii "ESP32/indoor" then
    address .indoor_ip ++ [.indoor_sensor (float_field "Temp:" payload) (float_field "H=" payload)
      (uint8_field "AQ:" payload) now_ms]
  else if topic = ascii "ESP32/outdoor" then
    address .outdoor_ip ++ [.outdoor_sensor (float_field "Temp:" payload) (float_field "H=" payload)
      (uint8_field "AQ:" payload) now_ms]
  else if topic = ascii "ESP32/wind" then
    [.wind_speed (CFloat.ofNumeral (strtod payload)) now_ms]
  else []

/-- The callback is the composition of its critical sections, in their order. Between them other
tasks may run, which the system has as steps. -/
theorem mqtt_message_cb_eq_updates (topic : Text) (data : List UInt8) (now_ms : Int) (s : State F) :
    mqtt_message_cb topic data now_ms s =
      (message_updates topic data now_ms).foldl (fun t u => system_state_update u t) s := by
  unfold mqtt_message_cb message_updates
  dsimp only
  split
  · cases strstr (ascii "IP:") (payload_text data) <;> rfl
  · split
    · cases strstr (ascii "IP:") (payload_text data) <;> rfl
    · split <;> rfl

/-- Sensor updates are enabled in every state and change nothing but the shared
variables. -/
theorem run_updates (updates : List (SensorUpdate F)) (sys : System F) :
    Run step sys (updates.map .update)
      { sys with shared := updates.foldl (fun s u => system_state_update u s) sys.shared } [] := by
  induction updates generalizing sys with
  | nil => exact Run.nil
  | cons u updates ih =>
    have hfirst : Run step sys [.update u]
        { sys with shared := system_state_update u sys.shared } [] := Run.snoc .nil rfl
    exact hfirst.append (ih { sys with shared := system_state_update u sys.shared })

/-- A message that is handled without interruption is a run of its updates. -/
theorem run_mqtt_message_cb (topic : Text) (data : List UInt8) (now_ms : Int) (sys : System F) :
    Run step sys ((message_updates topic data now_ms).map .update)
      { sys with shared := mqtt_message_cb topic data now_ms sys.shared } [] := by
  rw [mqtt_message_cb_eq_updates]
  exact run_updates _ sys

/-- A tick without interruption is a run of the system task, and its messages are
the published ones. -/
theorem run_system_auto_update (now : tm) {sys : System F} (htask : sys.system_task = .auto_update) :
    ∃ labels events, Run step sys labels
        { sys with shared := (system_auto_update true now sys.shared).1, system_task := .idle } events ∧
      messages events = (system_auto_update true now sys.shared).2 := by
  obtain ⟨shared, outcome, hsection⟩ :
      ∃ shared outcome, system_auto_update_section now sys.shared = (shared, outcome) :=
    ⟨_, _, rfl⟩
  rw [system_auto_update, hsection]
  cases outcome with
  | none =>
    have htick : step sys (.task (.auto_update now)) =
        some ({ sys with shared, system_task := .idle }, []) := by
      simp only [step, task_step, htask, hsection]
    exact ⟨[.task (.auto_update now)], [], Run.snoc .nil htick, rfl⟩
  | some evaluation =>
    have htick : step sys (.task (.auto_update now)) =
        some ({ sys with shared, system_task := .publish evaluation.captured },
          [.evaluated evaluation.mode]) := by
      simp only [step, task_step, htask, hsection]
    have hpublish : step { sys with shared, system_task := .publish evaluation.captured }
        (.task .publish) = some ({ sys with
          shared := (publish_state true evaluation.captured shared).1
          system_task := .idle }, publish_events evaluation.captured shared) := rfl
    refine ⟨[.task (.auto_update now), .task .publish], _,
      Run.snoc (Run.snoc .nil htick) hpublish, ?_⟩
    rw [messages_append, messages_publish_events]
    rfl

/-- An accepted request for actuators without interruption stores its values, sets
the status texts, publishes and answers. -/
theorem run_actuators_post_handler {sys : System F} {req : httpd_req_t} {now : tm}
    {r : ActuatorsRequest} {shared : State F} {captured : Actuators} {holding : Bool}
    (hidle : sys.http_task = .idle) (hparse : actuators_post_parse req = .ok r)
    (hsection : actuators_post_section now r sys.shared = .ok (shared, captured, holding)) :
    Run step sys [.request (.post_actuators req now), .handler, .handler]
      { sys with
        shared := (publish_state true captured (actuators_post_status holding shared)).1
        http_task := .idle }
      (publish_events captured (actuators_post_status holding shared) ++ [.response .ok]) := by
  have hrequest : step sys (.request (.post_actuators req now)) =
      some ({ sys with shared, http_task := .actuators_status captured holding }, []) := by
    simp only [step, hidle, if_true, request_step, hparse, hsection]
  have hstatus : step { sys with shared, http_task := .actuators_status captured holding } .handler =
      some ({ sys with
        shared := actuators_post_status holding shared
        http_task := .actuators_publish captured }, []) := rfl
  exact Run.snoc (Run.snoc (Run.snoc .nil hrequest) hstatus) rfl

/-- The answer of a POST handler as the system sends it. -/
def post_response : Except HttpError Unit → Response F
  | .ok _ => .ok
  | .error e => .error e

/-- A handler that is not interrupted is a run that ends with its outcome. -/
def RunsTo (sys : System F) (outcome : PostOutcome F) : Prop :=
  ∃ labels events, Run step sys labels { sys with shared := outcome.state } events ∧
    messages events = outcome.messages ∧ .response (post_response outcome.answer) ∈ events

theorem runsTo_of_error {sys : System F} {r : Request} {e : HttpError}
    (hrequest : step sys (.request r) = some (sys, [.response (.error e)])) :
    RunsTo sys { answer := .error e, state := sys.shared, messages := [] } :=
  ⟨[.request r], _, Run.snoc .nil hrequest, rfl, by simp [post_response]⟩

theorem run_mode_post_handler {sys : System F} (hidle : sys.http_task = .idle) (req : httpd_req_t) :
    RunsTo sys (mode_post_handler req sys.shared) := by
  unfold mode_post_handler
  cases hparse : mode_post_parse req with
  | error e =>
    apply runsTo_of_error (r := .post_mode req)
    simp only [step, hidle, if_true, request_step, hparse]
  | ok new_mode =>
    obtain ⟨shared, has_schedule, hsection⟩ :
        ∃ shared has_schedule, mode_post_section new_mode sys.shared = (shared, has_schedule) :=
      ⟨_, _, rfl⟩
    have hrequest : step sys (.request (.post_mode req)) =
        some ({ sys with shared, http_task := .mode_status new_mode has_schedule }, []) := by
      simp only [step, hidle, if_true, request_step, hparse, hsection]
    have hstatus : step { sys with shared, http_task := .mode_status new_mode has_schedule } .handler =
        some ({ sys with shared := mode_post_status new_mode has_schedule shared },
          [.response .ok]) := by
      simp only [step, handler_step, hidle]
    simp only [hsection]
    exact ⟨_, _, Run.snoc (Run.snoc .nil hrequest) hstatus, rfl, by simp [post_response]⟩

theorem run_actuators_post_handler_outcome {sys : System F} (hidle : sys.http_task = .idle)
    (now : tm) (req : httpd_req_t) : RunsTo sys (actuators_post_handler true now req sys.shared) := by
  unfold actuators_post_handler
  cases hparse : actuators_post_parse req with
  | error e =>
    apply runsTo_of_error (r := .post_actuators req now)
    simp only [step, hidle, if_true, request_step, hparse]
  | ok r =>
    dsimp only
    cases hsection : actuators_post_section now r sys.shared with
    | error e =>
      apply runsTo_of_error (r := .post_actuators req now)
      simp only [step, hidle, if_true, request_step, hparse, hsection]
    | ok result =>
      obtain ⟨shared, captured, holding⟩ := result
      have hrun := run_actuators_post_handler hidle hparse hsection
      rw [← hidle] at hrun
      exact ⟨_, _, hrun, by simp, by simp [post_response]⟩

/-- A POST of the schedule whose sections are not interrupted has the outcome of the whole handler.
A body that makes the parsing loop fault has neither an outcome nor a run. -/
theorem run_schedule_post_handler {sys : System F} (hidle : sys.http_task = .idle)
    {req : httpd_req_t} {outcome : PostOutcome F}
    (houtcome : schedule_post_handler req sys.shared = some outcome) : RunsTo sys outcome := by
  unfold schedule_post_handler at houtcome
  split at houtcome
  · next e hparse =>
    cases houtcome
    apply runsTo_of_error (r := .post_schedule req)
    simp only [step, hidle, if_true, request_step, hparse]
  · next periods hparse =>
    obtain ⟨shared, manual, hsection⟩ :
        ∃ shared manual, schedule_post_section periods sys.shared = (shared, manual) := ⟨_, _, rfl⟩
    have hrequest : step sys (.request (.post_schedule req)) =
        some ({ sys with shared, http_task := .schedule_status periods.length manual }, []) := by
      simp only [step, hidle, if_true, request_step, hparse, hsection]
    have hstatus : step { sys with shared, http_task := .schedule_status periods.length manual }
        .handler = some ({ sys with shared := schedule_post_status periods.length manual shared },
          [.response .ok]) := by
      simp only [step, handler_step, hidle]
    rw [hsection] at houtcome
    cases houtcome
    exact ⟨_, _, Run.snoc (Run.snoc .nil hrequest) hstatus, rfl, by simp [post_response]⟩
  · cases houtcome

end communication_center.system
