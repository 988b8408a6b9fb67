import CommunicationCenter.HttpServer.BodyTexts
import CommunicationCenter.HttpServer.SchedulePost
import CommunicationCenter.SystemState.Topics

open libc communication_center.system_status communication_center.system_state

namespace communication_center.http_server

/-- What a POST handler leaves behind when no other task runs in between. -/
structure PostOutcome (F : Type) where
  answer : Except HttpError Unit
  state : State F
  messages : List Message

variable {F : Type}

def mode_post_handler (req : httpd_req_t) (s : State F) : PostOutcome F :=
  match mode_post_parse req with
  | .error e => { answer := .error e, state := s, messages := [] }
  | .ok new_mode =>
    let (s, has_schedule) := mode_post_section new_mode s
    { answer := .ok (), state := mode_post_status new_mode has_schedule s, messages := [] }

def actuators_post_handler (global_client : Bool) (now : tm) (req : httpd_req_t) (s : State F) :
    PostOutcome F :=
  match actuators_post_parse req with
  | .error e => { answer := .error e, state := s, messages := [] }
  | .ok r =>
    match actuators_post_section now r s with
    | .error e => { answer := .error e, state := s, messages := [] }
    | .ok (s, captured, schedule_holding_state) =>
      let s := actuators_post_status schedule_holding_state s
      let (s, messages) := publish_state global_client captured s
      { answer := .ok (), state := s, messages }

/-- A body that makes the parsing loop fault has no outcome. -/
def schedule_post_handler (req : httpd_req_t) (s : State F) : Option (PostOutcome F) :=
  match schedule_post_parse req with
  | .error e => some { answer := .error e, state := s, messages := [] }
  | .ok (some (.ok periods)) =>
    let (s, is_manual_mode) := schedule_post_section periods s
    some { answer := .ok (), state := schedule_post_status periods.length is_manual_mode s, messages := [] }
  | .ok _ => none

/-- An error leaves nothing behind but the answer. -/
def PostOutcome.Rejected (s : State F) (outcome : PostOutcome F) : Prop :=
  ∀ e, outcome.answer = .error e → outcome.state = s ∧ outcome.messages = []

/-- The topics whose value differs from the last published one, each with its
message. -/
def changed_messages (global_client : Bool) (q last : Actuators) : List Message :=
  (Topic.all.filter fun topic => topic.value q ≠ topic.value last).flatMap fun topic =>
    mqtt_publish global_client topic.name (if topic.value q then "1" else "0") 1

theorem publish_state_changed (global_client : Bool) (q : Actuators) (s : State F) :
    (publish_state global_client q s).2 = changed_messages global_client q s.last := by
  rw [publish_state_snd, changed_messages]
  induction Topic.all with
  | nil => rfl
  | cons topic topics ih =>
    rw [List.flatMap_cons, ih, publish_change, List.filter_cons]
    by_cases hchange : topic.value q ≠ topic.value s.last
    · simp [hchange]
    · simp [hchange]

/-- An accepted mode is read at a key of the body, by the text of a mode that is there. Nothing is
said about what else the body holds. -/
theorem mode_post_parse_ok {req : httpd_req_t} {new_mode : Int}
    (h : mode_post_parse req = .ok new_mode) :
    ∃ body found, read_body 32 req = .ok body ∧ found <:+ body ∧ ModeText found new_mode := by
  unfold mode_post_parse at h
  cases hbody : read_body 32 req with
  | error e =>
    rw [hbody] at h
    cases h
  | ok body =>
    rw [hbody] at h
    simp only [bind, Except.bind] at h
    split at h
    · next mode hscan =>
      split at h
      · cases h
      · cases h
        obtain ⟨found, hfound, hmode⟩ := Option.map_eq_some_iff.mp hscan
        exact ⟨body, found, rfl, strstr_suffix hfound, scan_mode_iff.mp hmode⟩
    · cases h

/-- The accepted values are read at a key of the body, by the texts of the four values that are
there in their order. -/
theorem actuators_post_parse_ok {req : httpd_req_t} {r : ActuatorsRequest}
    (h : actuators_post_parse req = .ok r) :
    ∃ body found, read_body 128 req = .ok body ∧ found <:+ body ∧ ActuatorsText found r := by
  unfold actuators_post_parse at h
  cases hbody : read_body 128 req with
  | error e =>
    rw [hbody] at h
    cases h
  | ok body =>
    rw [hbody] at h
    simp only [bind, Except.bind] at h
    split at h
    · next hscan =>
      cases h
      obtain ⟨found, hfound, hvalues⟩ := Option.map_eq_some_iff.mp hscan
      exact ⟨body, found, rfl, strstr_suffix hfound, scan_actuators_iff.mp hvalues⟩
    · cases h

/-- What an accepted request for a mode did. -/
structure ModeAccepted (req : httpd_req_t) (s : State F) (outcome : PostOutcome F) : Prop where
  applied : ∃ new_mode status, outcome.state = { s with current_mode := new_mode, status } ∧
    0 ≤ new_mode ∧ new_mode ≤ 2 ∧
    ∃ body found, read_body 32 req = .ok body ∧ found <:+ body ∧ ModeText found new_mode
  silent : outcome.messages = []

/-- What an accepted request for the actuators did. -/
structure ActuatorsAccepted (global_client : Bool) (req : httpd_req_t) (s : State F)
    (outcome : PostOutcome F) : Prop where
  applied : ∃ r status, outcome.state = { s with actuators := r.values, last := r.values, status } ∧
    outcome.messages = changed_messages global_client r.values s.last ∧
    ∃ body found, read_body 128 req = .ok body ∧ found <:+ body ∧ ActuatorsText found r
  interlocked : outcome.state.actuators.fan = true → outcome.state.actuators.window = true

theorem mode_post_handler_rejected (req : httpd_req_t) (s : State F) :
    (mode_post_handler req s).Rejected s := by
  intro e
  unfold mode_post_handler
  split
  · exact fun _ => ⟨rfl, rfl⟩
  · intro h
    cases h

theorem actuators_post_handler_rejected (global_client : Bool) (now : tm) (req : httpd_req_t)
    (s : State F) : (actuators_post_handler global_client now req s).Rejected s := by
  intro e
  unfold actuators_post_handler
  split
  · exact fun _ => ⟨rfl, rfl⟩
  · split
    · exact fun _ => ⟨rfl, rfl⟩
    · intro h
      cases h

theorem mode_post_handler_accepted {req : httpd_req_t} {s : State F}
    (h : (mode_post_handler req s).answer = .ok ()) :
    ModeAccepted req s (mode_post_handler req s) := by
  cases hparse : mode_post_parse req with
  | error e =>
    rw [mode_post_handler, hparse] at h
    cases h
  | ok new_mode =>
    obtain ⟨hmin, hmax⟩ := mode_post_parse_range hparse
    obtain ⟨status, hstatus⟩ := mode_post_status_frame new_mode (decide (s.schedule.length > 0))
      { s with current_mode := new_mode }
    rw [mode_post_handler, hparse]
    exact ⟨⟨new_mode, status, hstatus, hmin, hmax, mode_post_parse_ok hparse⟩, rfl⟩

theorem actuators_post_handler_accepted {global_client : Bool} {now : tm} {req : httpd_req_t}
    {s : State F} (h : (actuators_post_handler global_client now req s).answer = .ok ()) :
    ActuatorsAccepted global_client req s (actuators_post_handler global_client now req s) := by
  cases hparse : actuators_post_parse req with
  | error e =>
    rw [actuators_post_handler, hparse] at h
    cases h
  | ok r =>
    cases hsection : actuators_post_section now r s with
    | error e =>
      simp only [actuators_post_handler, hparse, hsection] at h
      cases h
    | ok result =>
      obtain ⟨t, captured, holding⟩ := result
      obtain ⟨_, rfl, rfl, hrule⟩ := actuators_post_section_ok hsection
      obtain ⟨status, hstatus⟩ := actuators_post_status_frame holding { s with actuators := r.values }
      simp only [actuators_post_handler, hparse, hsection, hstatus]
      exact ⟨⟨r, status, rfl, publish_state_changed _ _ _, actuators_post_parse_ok hparse⟩, hrule⟩

/-- For every state and every request: a handler that answers with an error has changed and
published nothing. A handler that answers OK has changed the mode, or all actuators together, to
what it read in the body, and nothing else but the status texts and the record of what was
published. The request may fail to be received in any way, and the client may be there or not. -/
theorem post_handlers_atomic (global_client : Bool) (now : tm) (req : httpd_req_t) (s : State F) :
    (mode_post_handler req s).Rejected s ∧
      (actuators_post_handler global_client now req s).Rejected s ∧
      ((mode_post_handler req s).answer = .ok () →
        ModeAccepted req s (mode_post_handler req s)) ∧
      ((actuators_post_handler global_client now req s).answer = .ok () →
        ActuatorsAccepted global_client req s (actuators_post_handler global_client now req s)) :=
  ⟨mode_post_handler_rejected req s, actuators_post_handler_rejected global_client now req s,
    mode_post_handler_accepted, actuators_post_handler_accepted⟩

end communication_center.http_server
