import CommunicationCenter.HttpServer.Request
import CommunicationCenter.Libc.Scanf
import CommunicationCenter.Libc.Search
import CommunicationCenter.SystemState.Schedule

open libc communication_center.system_status communication_center.system_state

namespace communication_center.http_server

/-- `mode_post_handler` up to its critical section. -/
def mode_post_parse (req : httpd_req_t) : Except HttpError Int := do
  let buf ← read_body 32 req
  match (strstr (ascii "\"mode\"") buf).map fun p => sscanf p "\"mode\" : %d" with
  | some [.int new_mode] =>
    if new_mode < 0 ∨ new_mode > 2 then .error ⟨.HTTPD_400_BAD_REQUEST, "invalid mode"⟩
    else .ok new_mode
  | _ => .error ⟨.HTTPD_400_BAD_REQUEST, "invalid json"⟩

theorem mode_post_parse_range {req : httpd_req_t} {new_mode : Int}
    (h : mode_post_parse req = .ok new_mode) : 0 ≤ new_mode ∧ new_mode ≤ 2 := by
  unfold mode_post_parse at h
  cases hbody : read_body 32 req with
  | error e =>
    rw [hbody] at h
    cases h
  | ok buf =>
    rw [hbody] at h
    simp only [bind, Except.bind] at h
    split at h
    · split at h
      · cases h
      · next hrange =>
        cases h
        omega
    · cases h

structure ActuatorsRequest where
  new_window : Int
  new_fan : Int
  new_door : Int
  new_absorber : Int
  deriving DecidableEq

/-- `actuators_post_handler` up to its critical section. -/
def actuators_post_parse (req : httpd_req_t) : Except HttpError ActuatorsRequest := do
  let buf ← read_body 128 req
  match (strstr (ascii "\"window\"") buf).map fun p =>
      sscanf p "\"window\" : %d , \"fan\" : %d , \"door\" : %d , \"absorber\" : %d" with
  | some [.int new_window, .int new_fan, .int new_door, .int new_absorber] =>
    .ok { new_window, new_fan, new_door, new_absorber }
  | _ => .error ⟨.HTTPD_400_BAD_REQUEST, "invalid body"⟩

variable {F : Type}

/-- The critical section of `mode_post_handler`, with `has_schedule`. -/
def mode_post_section (new_mode : Int) (s : State F) : State F × Bool :=
  ({ s with current_mode := new_mode }, s.schedule.length > 0)

/-- The status message of `mode_post_handler`, a critical section of its own. -/
def mode_post_status (new_mode : Int) (has_schedule : Bool) (s : State F) : State F :=
  let set (headline message : String) : State F :=
    { s with status := system_status_set_message (ascii headline) (ascii message) s.status }
  if new_mode = MODE_MANUAL then
    set "You are in control" "Manual Mode, no Status explanation!"
  else if has_schedule then
    set "Plan remembered" "Stored schedule restored. Waiting for the next schedule period."
  else
    set "Automatic mode active" "Automatic mode active. Waiting for rule evaluation."

/-- The integers become flags only after the rule about the fan was checked. -/
def ActuatorsRequest.values (r : ActuatorsRequest) : Actuators where
  window := r.new_window ≠ 0
  fan := r.new_fan ≠ 0
  door := r.new_door ≠ 0
  absorber_used := r.new_absorber ≠ 0

/-- The critical section of `actuators_post_handler`: an error, or the new state
with the captured values and `schedule_holding_state`. -/
def actuators_post_section (now : tm) (r : ActuatorsRequest) (s : State F) :
    Except HttpError (State F × Actuators × Bool) :=
  let flags := system_state_get_control_flags_locked now s
  if !flags.manual_control_allowed then
    .error ⟨.HTTPD_403_FORBIDDEN,
      "manual control is only allowed in MANUAL mode or while the schedule is inactive"⟩
  else if r.new_fan ≠ 0 ∧ r.new_window = 0 then
    .error ⟨.HTTPD_400_BAD_REQUEST, "fan requires window open"⟩
  else
    .ok ({ s with actuators := r.values }, r.values, flags.schedule_holding_state)

/-- The status message of `actuators_post_handler`, a critical section of its own. -/
def actuators_post_status (schedule_holding_state : Bool) (s : State F) : State F :=
  let set (headline message : String) : State F :=
    { s with status := system_status_set_message (ascii headline) (ascii message) s.status }
  if schedule_holding_state then
    set "Take over for now"
      "Schedule inactive: manual override is active until the next schedule period starts."
  else
    set "You are in control" "Manual Mode, no Status explanation!"

/-- The status messages of the POST handlers write the status texts only. -/
theorem mode_post_status_frame (new_mode : Int) (has_schedule : Bool) (s : State F) :
    ∃ status, mode_post_status new_mode has_schedule s = { s with status } := by
  unfold mode_post_status
  split
  · exact ⟨_, rfl⟩
  · split <;> exact ⟨_, rfl⟩

theorem actuators_post_status_frame (schedule_holding_state : Bool) (s : State F) :
    ∃ status, actuators_post_status schedule_holding_state s = { s with status } := by
  unfold actuators_post_status
  split <;> exact ⟨_, rfl⟩

/-- An accepted request was allowed, respects the rule about the fan, and stores
and captures exactly its own values. -/
theorem actuators_post_section_ok {now : tm} {r : ActuatorsRequest} {s t : State F}
    {captured : Actuators} {holding : Bool}
    (h : actuators_post_section now r s = .ok (t, captured, holding)) :
    (system_state_get_control_flags_locked now s).manual_control_allowed = true ∧
      t = { s with actuators := r.values } ∧ captured = r.values ∧
      (captured.fan = true → captured.window = true) := by
  unfold actuators_post_section at h
  dsimp only at h
  split at h
  · cases h
  · next hallowed =>
    split at h
    · cases h
    · next hrule =>
      simp only [Except.ok.injEq, Prod.mk.injEq] at h
      obtain ⟨rfl, rfl, _⟩ := h
      refine ⟨by simpa using hallowed, rfl, rfl, fun hfan => ?_⟩
      simp only [ActuatorsRequest.values, decide_eq_true_eq] at hfan ⊢
      exact fun hwindow => hrule ⟨hfan, hwindow⟩

theorem actuators_post_section_isOk_iff (now : tm) (r : ActuatorsRequest) (s : State F) :
    (∃ result, actuators_post_section now r s = .ok result) ↔
      (system_state_get_control_flags_locked now s).manual_control_allowed = true ∧
        (r.values.fan = true → r.values.window = true) := by
  constructor
  · rintro ⟨⟨t, captured, holding⟩, h⟩
    obtain ⟨hallowed, _, rfl, hrule⟩ := actuators_post_section_ok h
    exact ⟨hallowed, hrule⟩
  · rintro ⟨hallowed, hrule⟩
    simp only [ActuatorsRequest.values, decide_eq_true_eq] at hrule
    unfold actuators_post_section
    dsimp only
    rw [hallowed, Bool.not_true, if_neg Bool.false_ne_true, if_neg fun hbad => hrule hbad.1 hbad.2]
    exact ⟨_, rfl⟩

end communication_center.http_server
