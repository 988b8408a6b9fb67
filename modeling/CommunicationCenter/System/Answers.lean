import CommunicationCenter.System.Trace

open libc communication_center.system_state communication_center.http_server

namespace communication_center.system

variable {F : Type} [CFloat F]

/-- Where the answer to a request comes from. A request is answered at once only
with an error or with the schedule. -/
inductive Answer (sys : System F) : Label F → Response F → Prop where
  | error (r : Request) (e : HttpError) : Answer sys (.request r) (.error e)
  | schedule : Answer sys (.request .get_schedule) (.schedule sys.shared.schedule)
  | ok : Answer sys .handler .ok
  | sensors (htask : sys.http_task = .sensors_snapshot) :
      Answer sys .handler (.sensors (http_server.sensors_snapshot sys.shared))
  | status (mode : system_mode_t) (actuators : Actuators) (flags : ControlFlags)
      (why_headline : Text)
      (htask : sys.http_task = .status_explanation (mode, actuators, flags) why_headline) :
      Answer sys .handler (.status
        { mode, actuators, flags, why_headline, why := sys.shared.status.status_explanation })

omit [CFloat F] in
theorem response_notMem_publish_events (r : Response F) (q : Actuators) (s : State F) :
    Event.response r ∉ publish_events q s := by
  simp [publish_events]

theorem answer_task_step {sys next : System F} {l : TaskLabel} {emitted : List (Event F)}
    (h : task_step sys l = some (next, emitted)) (r : Response F) : .response r ∉ emitted := by
  unfold task_step at h
  split at h
  · cases h
    exact List.not_mem_nil
  · cases h
    exact List.not_mem_nil
  · split at h
    · cases h
      exact List.not_mem_nil
    · cases h
      simp
  · cases h
    exact response_notMem_publish_events r _ _
  · cases h

omit [CFloat F] in
/-- The first section of a request answers it with an error or with the schedule. No other answer
is given there. -/
theorem answer_request_step {sys next : System F} {request : Request} {emitted : List (Event F)}
    {r : Response F} (h : request_step sys request = some (next, emitted))
    (hanswer : .response r ∈ emitted) : Answer sys (.request request) r := by
  have herror {e : HttpError}
      (heq : some (sys, [Event.response (.error e)]) = some (next, emitted)) :
      Answer sys (.request request) r := by
    obtain ⟨rfl, rfl⟩ := Prod.mk.inj (Option.some.inj heq)
    obtain rfl := Event.response.inj (List.mem_singleton.mp hanswer)
    exact .error request e
  unfold request_step at h
  split at h
  · split at h
    · exact herror h
    · cases h
      cases hanswer
  · split at h
    · exact herror h
    · split at h
      · exact herror h
      · cases h
        cases hanswer
  · split at h
    · exact herror h
    · cases h
      cases hanswer
    · cases h
  · cases h
    cases hanswer
  · cases h
    cases hanswer
  · cases h
    obtain rfl := Event.response.inj (List.mem_singleton.mp hanswer)
    exact .schedule

/-- A later section gives the other answers: OK, the readings that were copied before, or the
status. -/
theorem answer_handler_step {sys next : System F} {emitted : List (Event F)} {r : Response F}
    (h : handler_step sys = some (next, emitted)) (hanswer : .response r ∈ emitted) :
    Answer sys .handler r := by
  have hok (heq : emitted = [.response .ok]) : Answer sys .handler r := by
    rw [heq] at hanswer
    obtain rfl := Event.response.inj (List.mem_singleton.mp hanswer)
    exact .ok
  unfold handler_step at h
  split at h
  · cases h
  · cases h
    exact hok rfl
  · cases h
    cases hanswer
  · next captured _ =>
    cases h
    rcases List.mem_append.mp hanswer with hpublish | hlast
    · exact absurd hpublish (response_notMem_publish_events r _ _)
    · obtain rfl := Event.response.inj (List.mem_singleton.mp hlast)
      exact .ok
  · cases h
    exact hok rfl
  · cases h
    cases hanswer
  · next htask =>
    cases h
    obtain rfl := Event.response.inj (List.mem_singleton.mp hanswer)
    exact .sensors htask
  · cases h
    cases hanswer
  · next mode actuators flags why_headline htask =>
    cases h
    obtain rfl := Event.response.inj (List.mem_singleton.mp hanswer)
    exact .status mode actuators flags why_headline htask

/-- The inversion of the step function for the responses: which step gives which response, and from
what it is put together. Every response comes from a request or a handler's section. -/
theorem answer_step {sys next : System F} {label : Label F} {emitted : List (Event F)}
    {r : Response F} (h : step sys label = some (next, emitted)) (hanswer : .response r ∈ emitted) :
    Answer sys label r := by
  cases label with
  | update u =>
    cases h
    cases hanswer
  | task l => exact absurd hanswer (answer_task_step h r)
  | request request =>
    rw [step] at h
    split at h
    · exact answer_request_step h hanswer
    · cases h
  | handler => exact answer_handler_step h hanswer

end communication_center.system
