import CommunicationCenter.HttpServer.Reports
import CommunicationCenter.Json.Object

open libc communication_center.system_state

namespace communication_center.http_server

variable {F : Type} [CFloat F]

/-- What a field's buffer of 16 bytes holds. -/
def JsonField.text : JsonField F → Text
  | .dashes => snprintf 16 (ascii "\"--\"")
  | .float value decimals => snprintf 16 (CFloat.fixed decimals value)
  | .uint value => snprintf 16 (decimal value)

def bool_text (truth : Bool) : Text :=
  ascii (if truth then "true" else "false")

/-- The text that `sensors_get_handler` prints into its buffer. -/
def SensorsReport.json_text (report : SensorsReport F) : Text :=
  ascii "\x7b\"connections\": \x7b\"indoor\": " ++ (bool_text report.indoor_connected ++
  (ascii ", \"outdoor\": " ++ (bool_text report.outdoor_connected ++
  (ascii "\x7d,\"indoor\": \x7b\"Temp\": " ++ (report.indoor_temp.text ++
  (ascii ", \"H\": " ++ (report.indoor_humidity.text ++
  (ascii ", \"AQ\": " ++ (report.indoor_aq.text ++
  (ascii "\x7d,\"outdoor\": \x7b\"Temp\": " ++ (report.outdoor_temp.text ++
  (ascii ", \"H\": " ++ (report.outdoor_humidity.text ++
  (ascii ", \"AQ\": " ++ (report.outdoor_aq.text ++
  (ascii "\x7d,\"wind_speed\": " ++ (report.wind_speed.text ++ ascii "\x7d")))))))))))))))))

/-- The text that it sends. -/
def SensorsReport.json_resp (report : SensorsReport F) : Text :=
  snprintf 256 report.json_text

/-- The members of the objects in the text. -/
def connections_members (report : SensorsReport F) : List json.Member :=
  [⟨[], ascii "indoor", [32] ++ bool_text report.indoor_connected⟩,
    ⟨[32], ascii "outdoor", [32] ++ bool_text report.outdoor_connected⟩]

def climate_members (temp humidity aq : JsonField F) : List json.Member :=
  [⟨[], ascii "Temp", [32] ++ temp.text⟩, ⟨[32], ascii "H", [32] ++ humidity.text⟩,
    ⟨[32], ascii "AQ", [32] ++ aq.text⟩]

def report_members (report : SensorsReport F) : List json.Member :=
  [⟨[], ascii "connections", [32] ++ json.object_text (connections_members report)⟩,
    ⟨[], ascii "indoor", [32] ++ json.object_text
      (climate_members report.indoor_temp report.indoor_humidity report.indoor_aq)⟩,
    ⟨[], ascii "outdoor", [32] ++ json.object_text
      (climate_members report.outdoor_temp report.outdoor_humidity report.outdoor_aq)⟩,
    ⟨[], ascii "wind_speed", [32] ++ report.wind_speed.text⟩]

theorem text_length_le (field : JsonField F) : field.text.length ≤ 15 := by
  cases field with
  | dashes => exact List.length_take_le _ _
  | float value decimals => exact List.length_take_le _ _
  | uint value => exact List.length_take_le _ _

theorem bool_text_length_le (truth : Bool) : (bool_text truth).length ≤ 5 := by
  cases truth with
  | true => decide
  | false => decide

theorem json_text_eq (report : SensorsReport F) :
    report.json_text = json.object_text (report_members report) := by
  simp only [report_members, connections_members, climate_members, json.object_text,
    json.members_text, json.Member.text, List.cons_append, List.nil_append, List.append_assoc]
  rfl

theorem json_text_length_le (report : SensorsReport F) : report.json_text.length ≤ 255 := by
  have hindoor := bool_text_length_le report.indoor_connected
  have houtdoor := bool_text_length_le report.outdoor_connected
  have hindoor_temp := text_length_le report.indoor_temp
  have hindoor_humidity := text_length_le report.indoor_humidity
  have hindoor_aq := text_length_le report.indoor_aq
  have houtdoor_temp := text_length_le report.outdoor_temp
  have houtdoor_humidity := text_length_le report.outdoor_humidity
  have houtdoor_aq := text_length_le report.outdoor_aq
  have hwind := text_length_le report.wind_speed
  simp [SensorsReport.json_text, ascii]
  omega

/-- The buffer of 256 bytes is never too short. -/
theorem json_resp_eq (report : SensorsReport F) :
    report.json_resp = json.object_text (report_members report) := by
  rw [SensorsReport.json_resp, snprintf, List.take_of_length_le (json_text_length_le report),
    json_text_eq]

end communication_center.http_server
