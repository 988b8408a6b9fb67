import CommunicationCenter.HttpServer.SensorsText

open libc communication_center.system_state

namespace communication_center.http_server

/-- The JSON values of a report's fields. -/
structure Readings where
  indoor_temp : json.Json
  indoor_humidity : json.Json
  indoor_aq : json.Json
  outdoor_temp : json.Json
  outdoor_humidity : json.Json
  outdoor_aq : json.Json
  wind_speed : json.Json

def climate_object (temp humidity aq : json.Json) : json.Json :=
  .object [(ascii "Temp", temp), (ascii "H", humidity), (ascii "AQ", aq)]

/-- The document with these values. -/
def Readings.document (readings : Readings) (indoor outdoor : Bool) : json.Json :=
  .object [
    (ascii "connections", .object [(ascii "indoor", .bool indoor), (ascii "outdoor", .bool outdoor)]),
    (ascii "indoor",
      climate_object readings.indoor_temp readings.indoor_humidity readings.indoor_aq),
    (ascii "outdoor",
      climate_object readings.outdoor_temp readings.outdoor_humidity readings.outdoor_aq),
    (ascii "wind_speed", readings.wind_speed)]

variable {F : Type} [CFloat F]

/-- The text of each field is a JSON text for the value. -/
structure FieldsRead (report : SensorsReport F) (readings : Readings) : Prop where
  indoor_temp : json.parse report.indoor_temp.text = some readings.indoor_temp
  indoor_humidity : json.parse report.indoor_humidity.text = some readings.indoor_humidity
  indoor_aq : json.parse report.indoor_aq.text = some readings.indoor_aq
  outdoor_temp : json.parse report.outdoor_temp.text = some readings.outdoor_temp
  outdoor_humidity : json.parse report.outdoor_humidity.text = some readings.outdoor_humidity
  outdoor_aq : json.parse report.outdoor_aq.text = some readings.outdoor_aq
  wind_speed : json.parse report.wind_speed.text = some readings.wind_speed

theorem wellFormed_blank_member {key : Text} (hkey : key.all json.plain = true) {gap : Text}
    (hgap : gap = [] ∨ gap = [32]) {text : Text} (h : json.Readable text) :
    json.Member.WellFormed ⟨gap, key, [32] ++ text⟩ ∧ json.Readable ([32] ++ text) := by
  have hblank : ∀ c ∈ ([32] : Text), json.whitespace c = true := by simp [json.whitespace]
  refine ⟨⟨?_, List.all_eq_true.mp hkey⟩, (json.Reads.blanks hblank h).readable⟩
  rcases hgap with rfl | rfl
  · exact List.forall_mem_nil _
  · exact hblank

theorem parse_blank {text : Text} (h : json.Readable text) :
    json.parse ([32] ++ text) = json.parse text :=
  (json.Reads.blanks (by simp [json.whitespace]) h).parse

omit [CFloat F] in
theorem connections_readable (report : SensorsReport F) :
    json.Readable (json.object_text (connections_members report)) ∧
      json.parse (json.object_text (connections_members report)) = some (.object
        [(ascii "indoor", .bool report.indoor_connected),
          (ascii "outdoor", .bool report.outdoor_connected)]) := by
  have hindoor := json.reads_bool report.indoor_connected
  have houtdoor := json.reads_bool report.outdoor_connected
  have hmembers : ∀ member ∈ connections_members report,
      member.WellFormed ∧ json.Readable member.written := by
    simp only [connections_members, List.forall_mem_cons]
    exact ⟨wellFormed_blank_member (by decide) (Or.inl rfl) hindoor.readable,
      wellFormed_blank_member (by decide) (Or.inr rfl) houtdoor.readable, List.forall_mem_nil _⟩
  obtain ⟨hreadable, hparse⟩ :=
    json.readable_object (connections_members report) (List.cons_ne_nil _ _) hmembers
  refine ⟨hreadable, ?_⟩
  rw [hparse]
  simp only [json.members_parse, connections_members, json.members_read, bool_text,
    parse_blank hindoor.readable, hindoor.parse, parse_blank houtdoor.readable, houtdoor.parse]
  rfl

/-- The object of one sensor can be read inside the answer if its three numbers can, and is read
number by number. It does not matter what the numbers are. -/
theorem climate_readable {temp humidity aq : JsonField F} (htemp : json.Readable temp.text)
    (hhumidity : json.Readable humidity.text) (haq : json.Readable aq.text) :
    json.Readable (json.object_text (climate_members temp humidity aq)) ∧
      json.parse (json.object_text (climate_members temp humidity aq)) =
        (json.parse temp.text).bind fun t => (json.parse humidity.text).bind fun h =>
          (json.parse aq.text).map fun a => climate_object t h a := by
  have hmembers : ∀ member ∈ climate_members temp humidity aq,
      member.WellFormed ∧ json.Readable member.written := by
    simp only [climate_members, List.forall_mem_cons]
    exact ⟨wellFormed_blank_member (by decide) (Or.inl rfl) htemp,
      wellFormed_blank_member (by decide) (Or.inr rfl) hhumidity,
      wellFormed_blank_member (by decide) (Or.inr rfl) haq, List.forall_mem_nil _⟩
  obtain ⟨hreadable, hparse⟩ :=
    json.readable_object (climate_members temp humidity aq) (List.cons_ne_nil _ _) hmembers
  refine ⟨hreadable, ?_⟩
  rw [hparse]
  simp only [json.members_parse, climate_members, json.members_read, parse_blank htemp,
    parse_blank hhumidity, parse_blank haq]
  cases json.parse temp.text with
  | none => rfl
  | some t =>
    cases json.parse humidity.text with
    | none => rfl
    | some h =>
      cases json.parse aq.text with
      | none => rfl
      | some a => rfl

/-- The fields of a report can be read inside an object. -/
structure FieldsReadable (report : SensorsReport F) : Prop where
  indoor_temp : json.Readable report.indoor_temp.text
  indoor_humidity : json.Readable report.indoor_humidity.text
  indoor_aq : json.Readable report.indoor_aq.text
  outdoor_temp : json.Readable report.outdoor_temp.text
  outdoor_humidity : json.Readable report.outdoor_humidity.text
  outdoor_aq : json.Readable report.outdoor_aq.text
  wind_speed : json.Readable report.wind_speed.text

/-- The whole answer is JSON exactly if all its fields are, and it is then the
document with their values. -/
theorem parse_json_resp_iff {report : SensorsReport F} (h : FieldsReadable report)
    {document : json.Json} : json.parse report.json_resp = some document ↔
      ∃ readings : Readings, FieldsRead report readings ∧
        document = readings.document report.indoor_connected report.outdoor_connected := by
  obtain ⟨hconnections, hconnections_parse⟩ := connections_readable report
  obtain ⟨hindoor, hindoor_parse⟩ := climate_readable h.indoor_temp h.indoor_humidity h.indoor_aq
  obtain ⟨houtdoor, houtdoor_parse⟩ := climate_readable h.outdoor_temp h.outdoor_humidity h.outdoor_aq
  have hmembers : ∀ member ∈ report_members report,
      member.WellFormed ∧ json.Readable member.written := by
    simp only [report_members, List.forall_mem_cons]
    exact ⟨wellFormed_blank_member (by decide) (Or.inl rfl) hconnections,
      wellFormed_blank_member (by decide) (Or.inl rfl) hindoor,
      wellFormed_blank_member (by decide) (Or.inl rfl) houtdoor,
      wellFormed_blank_member (by decide) (Or.inl rfl) h.wind_speed, List.forall_mem_nil _⟩
  obtain ⟨_, hparse⟩ := json.readable_object (report_members report) (List.cons_ne_nil _ _) hmembers
  rw [json_resp_eq, hparse]
  simp only [json.members_parse, report_members, json.members_read, parse_blank hconnections,
    parse_blank hindoor, parse_blank houtdoor, parse_blank h.wind_speed, hconnections_parse,
    hindoor_parse, houtdoor_parse, Option.bind_some, Option.map_some, Option.map_eq_some_iff,
    Option.bind_eq_some_iff, Option.some.injEq]
  constructor
  · rintro ⟨members, ⟨others, ⟨indoor, ⟨t, ht, u, hu, v, hv, rfl⟩, behind,
      ⟨outdoor, ⟨x, hx, y, hy, z, hz, rfl⟩, last, ⟨w, hw, rfl⟩, rfl⟩, rfl⟩, rfl⟩, rfl⟩
    exact ⟨⟨t, u, v, x, y, z, w⟩, ⟨ht, hu, hv, hx, hy, hz, hw⟩, rfl⟩
  · rintro ⟨readings, hread, rfl⟩
    exact ⟨_, ⟨_, ⟨_, ⟨_, hread.indoor_temp, _, hread.indoor_humidity, _, hread.indoor_aq, rfl⟩, _,
      ⟨_, ⟨_, hread.outdoor_temp, _, hread.outdoor_humidity, _, hread.outdoor_aq, rfl⟩, _,
        ⟨_, hread.wind_speed, rfl⟩, rfl⟩, rfl⟩, rfl⟩, rfl⟩

end communication_center.http_server
