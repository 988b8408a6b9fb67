import CommunicationCenter.HttpServer.SensorsAnswer
import CommunicationCenter.System.SensorReport
import CommunicationCenter.System.Uninterrupted

open libc transition communication_center.system_state communication_center.http_server

namespace communication_center.system

/-- A handler that has refreshed answers with a report, and every report is sent as
JSON that shows what is cached. -/
structure AnswersInJson (sys : System Binary32) (label : Label Binary32) : Prop where
  answered : label = .handler → sys.http_task = .sensors_snapshot →
    ∃ next report, step sys label = some (next, [.response (.sensors report)])
  json : ∀ next emitted report, step sys label = some (next, emitted) →
    .response (.sensors report) ∈ emitted → AnswersCached sys.shared report.json_resp

theorem sensors_snapshot_step {sys : System Binary32} (htask : sys.http_task = .sensors_snapshot) :
    step sys .handler = some ({ sys with http_task := .idle },
      [.response (.sensors (http_server.sensors_snapshot sys.shared))]) := by
  rw [step, handler_step, htask]

theorem answersInJson_iff (sys : System Binary32) (label : Label Binary32) :
    AnswersInJson sys label ↔
      (label = .handler → sys.http_task = .sensors_snapshot → AllPrintable sys.shared) := by
  constructor
  · rintro h rfl htask
    exact (answers_cached_iff sys.shared).mp
      (h.json _ _ _ (sensors_snapshot_step htask) (List.mem_singleton_self _))
  · intro h
    constructor
    · rintro rfl htask
      exact ⟨_, _, sensors_snapshot_step htask⟩
    · intro next emitted report hstep hreport
      cases answer_step hstep hreport with
      | sensors htask => exact (answers_cached_iff sys.shared).mpr (h rfl htask)

/-- In every run, all requests for the sensors are answered in JSON with the cached values exactly
if the available ones can be printed at each snapshot. The numbers are those of the device, among
them the infinities and those without a value, and the answer is read by a parser of its own. -/
theorem sensors_json_iff (labels : List (Label Binary32)) :
    EveryStep step System.initial labels (fun _ sys label => AnswersInJson sys label) ↔
      EveryStep step System.initial labels fun _ sys label =>
        label = .handler → sys.http_task = .sensors_snapshot → AllPrintable sys.shared := by
  simp only [answersInJson_iff]

private def nan_message : List (Label Binary32) :=
  (message_updates (ascii "ESP32/wind") (ascii "nan") 100).map .update ++
    [.request (.get_sensors 150), .handler]

/-- The message `nan` makes the answer invalid: the reading is printed as a word that is no value
of JSON. -/
theorem sensors_json_nan : ¬ ∀ labels : List (Label Binary32),
    EveryStep step System.initial labels fun _ sys label => AnswersInJson sys label := by
  intro h
  have hrun : (exec step System.initial nan_message).map (fun r => (r.1.http_task,
      (json.parse (http_server.sensors_snapshot r.1.shared).json_resp).isSome)) =
      some (.sensors_snapshot, false) := by
    decide +kernel
  obtain ⟨⟨sys, events⟩, hexec, hstate⟩ := Option.map_eq_some_iff.mp hrun
  obtain ⟨htask, hinvalid⟩ := Prod.mk.inj hstate
  have hstep := sensors_snapshot_step htask
  obtain ⟨readings, _, hparse⟩ := (h (nan_message ++ [.handler]) nan_message sys events .handler _ _
    List.prefix_rfl (.of_exec hexec) hstep).json _ _ _ hstep (List.mem_singleton_self _)
  rw [hparse] at hinvalid
  cases hinvalid

end communication_center.system
