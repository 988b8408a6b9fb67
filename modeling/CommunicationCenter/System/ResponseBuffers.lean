import CommunicationCenter.HttpServer.StatusText
import CommunicationCenter.System.Bounds

open libc transition communication_center.system_state communication_center.http_server

namespace communication_center.system

variable {F : Type}

/-- The answers to the three requests, with the local time of the one for the
status, stay inside their buffers and are sent whole. -/
structure AnswersFit [CFloat F] (s : State F) : Prop where
  listing : ListingFits s
  status : ∀ now, ChunkFits (status_chunk (status_snapshot now s).1 (status_snapshot now s).2.1
    (status_snapshot now s).2.2)
  sensors : (http_server.sensors_snapshot s).json_text.length + 1 ≤ 256 ∧
    (http_server.sensors_snapshot s).json_resp = (http_server.sensors_snapshot s).json_text

theorem answersFit_of_bounded [CFloat F] {s : State F} (hs : Bounded s) : AnswersFit s where
  listing := listingFits hs.count hs.periods
  status := fun now => chunkFits_status_chunk hs.mode_min hs.mode_max _ _
  sensors := by
    have hlength := json_text_length_le (http_server.sensors_snapshot s)
    refine ⟨by omega, ?_⟩
    rw [SensorsReport.json_resp, snprintf, List.take_of_length_le hlength]

/-- In every state of every run, no response overruns or cuts its buffer. This holds whatever was
received before, for schedules from any bodies and for any numbers from the sensors. -/
theorem response_buffers_fit [CFloat F] (labels : List (Label F)) :
    EveryState step System.initial labels fun _ sys _ => AnswersFit sys.shared :=
  fun past sys events hpast hrun => answersFit_of_bounded (bounded_everyState labels past sys events hpast hrun)

end communication_center.system
