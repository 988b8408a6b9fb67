import CommunicationCenter.HttpServer.ScheduleSafety

open libc communication_center.system_status communication_center.system_state

namespace communication_center.http_server

/-- `schedule_post_handler` up to its critical section: an error, or the outcome
of the parsing loop on the received text. -/
def schedule_post_parse (req : httpd_req_t) :
    Except HttpError (Option (Except Fault (List schedule_period_t))) := do
  let buf ← read_body 512 req
  .ok (schedule_loop (start_count buf) (some buf) [])

variable {F : Type}

/-- The critical section of `schedule_post_handler`, with `is_manual_mode`. -/
def schedule_post_section (periods : List schedule_period_t) (s : State F) : State F × Bool :=
  ({ s with schedule := periods }, s.current_mode = MODE_MANUAL)

/-- The status message of `schedule_post_handler`, a critical section of its own. -/
def schedule_post_status (local_count : Nat) (is_manual_mode : Bool) (s : State F) : State F :=
  let set (headline message : String) : State F :=
    { s with status := system_status_set_message (ascii headline) (ascii message) s.status }
  if local_count = 0 then
    set "Fresh start" "Schedule cleared. Automatic mode will use the selected AUTO behavior."
  else if is_manual_mode then
    set "Plan saved" "Stored schedule updated. Switch back to AUTO to use it again."
  else
    set "Plan updated" "Stored schedule updated. Waiting for the next schedule evaluation."

theorem schedule_post_status_frame (local_count : Nat) (is_manual_mode : Bool) (s : State F) :
    ∃ status, schedule_post_status local_count is_manual_mode s = { s with status } := by
  unfold schedule_post_status
  split
  · exact ⟨_, rfl⟩
  · split <;> exact ⟨_, rfl⟩

/-- A received body either crashes the loop on a NULL cursor or yields at most
`MAX_PERIODS` periods. -/
theorem schedule_post_parse_ok {req : httpd_req_t}
    {outcome : Option (Except Fault (List schedule_period_t))}
    (h : schedule_post_parse req = .ok outcome) :
    (∃ periods, outcome = some (.ok periods) ∧ periods.length ≤ MAX_PERIODS) ∨
      outcome = some (.error .nullPointer) := by
  unfold schedule_post_parse at h
  cases hbody : read_body 512 req with
  | error e =>
    rw [hbody] at h
    cases h
  | ok buf =>
    rw [hbody] at h
    cases h
    exact schedule_loop_outcome buf

end communication_center.http_server
