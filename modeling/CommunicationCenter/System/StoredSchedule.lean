import CommunicationCenter.HttpServer.StoredPeriods
import CommunicationCenter.System.Control

open libc transition communication_center.system_state communication_center.http_server

namespace communication_center.system

/-- Times as documented, and a mode of the enumeration. -/
structure WellFormed (period : schedule_period_t) : Prop where
  times : period.ValidTimes
  mode : period.mode = MODE_AUTO_BEST ∨ period.mode = MODE_AUTO_ECO ∨ period.mode = MODE_MANUAL

/-- The count stays within the array, and behind it are well-formed periods,
whose times convert to minutes of the day. -/
structure WellFormedSchedule (schedule : List schedule_period_t) : Prop where
  count : schedule.length ≤ MAX_PERIODS
  periods : ∀ period ∈ schedule, WellFormed period
  minutes : ∀ period ∈ schedule,
    time_to_minutes period.start < 1440 ∧ time_to_minutes period.end_ < 1440

variable {F : Type}

/-- An accepted body writes every object that is collected from it with valid
times and a mode of the enumeration. -/
def WellFormedPost : Label F → Prop
  | .request (.post_schedule req) => ∀ text, read_body 512 req = .ok text →
    ∀ period, Collected text period → WellFormed period
  | _ => True

theorem wellFormedSchedule_iff (schedule : List schedule_period_t) :
    WellFormedSchedule schedule ↔
      schedule.length ≤ MAX_PERIODS ∧ ∀ period ∈ schedule, WellFormed period := by
  constructor
  · intro h
    exact ⟨h.count, h.periods⟩
  · rintro ⟨hcount, hperiods⟩
    refine ⟨hcount, hperiods, fun period hperiod => ?_⟩
    obtain ⟨⟨first, hfirst⟩, last, hlast⟩ := (hperiods period hperiod).times
    rw [time_to_minutes_of_isTime hfirst, time_to_minutes_of_isTime hlast]
    exact ⟨hfirst.lt, hlast.lt⟩

/-- Every object that is collected from an accepted body writes such a period. -/
def CollectsOnly (P : schedule_period_t → Prop) : Label F → Prop
  | .request (.post_schedule req) => ∀ text, read_body 512 req = .ok text →
    ∀ period, Collected text period → P period
  | _ => True

theorem collectsOnly_of_posted {P : schedule_period_t → Prop} {req : httpd_req_t}
    {periods : List schedule_period_t} (hparse : schedule_post_parse req = .ok (some (.ok periods))) :
    CollectsOnly (F := F) P (.request (.post_schedule req)) ↔ ∀ period ∈ periods, P period := by
  obtain ⟨_, text, hbody, hmem⟩ := schedule_post_parse_collected hparse
  constructor
  · intro h period hperiod
    exact h text hbody period ((hmem period).mp hperiod)
  · intro h text' hbody' period hcollected
    obtain rfl : text = text' := Except.ok.inj (hbody.symm.trans hbody')
    exact h period ((hmem period).mpr hcollected)

variable [CFloat F]

/-- A property that depends on the schedule only, and asks the same of every
stored period, holds in every state of a run exactly when accepted bodies write
such periods only. -/
theorem every_schedule_iff {P : schedule_period_t → Prop} {Q : State F → Prop}
    (hinitial : Q State.initial) (hschedule : ∀ s t, t.schedule = s.schedule → Q s → Q t)
    (hstored : ∀ req periods, schedule_post_parse req = .ok (some (.ok periods)) →
      ∀ s, s.schedule = periods → (Q s ↔ ∀ period ∈ periods, P period))
    (labels : List (Label F)) :
    EveryState step System.initial labels (fun _ sys _ => Q sys.shared) ↔
      EveryStep step System.initial labels fun _ _ label => CollectsOnly P label := by
  constructor
  · intro h
    refine h.everyStep fun past sys events label next emitted _ hstep _ hnext => ?_
    unfold CollectsOnly
    split
    · next req =>
      cases hparse : schedule_post_parse req with
      | error e =>
        intro text hbody
        rw [schedule_post_parse, hbody] at hparse
        cases hparse
      | ok outcome =>
        rcases schedule_post_parse_ok hparse with ⟨periods, rfl, _⟩ | rfl
        · rw [post_schedule_step hparse hstep] at hnext
          exact (collectsOnly_of_posted (F := F) hparse).mpr ((hstored req periods hparse _ rfl).mp hnext)
        · -- a body that crashes the loop has no successor state
          rw [step] at hstep
          split at hstep
          · simp [request_step, hparse] at hstep
          · cases hstep
    · trivial
  · intro h
    refine h.everyState hinitial fun past sys events label next emitted hmid hlabel hstep => ?_
    rcases schedule_step hstep with hkept | ⟨req, periods, rfl, hparse, hnext⟩
    · exact hschedule _ _ hkept hmid
    · exact (hstored req periods hparse _ hnext).mpr ((collectsOnly_of_posted hparse).mp hlabel)

/-- In every run, all stored schedules are well formed exactly when all objects that are collected
from accepted bodies are. The bodies may be any bytes; what is collected from one is what its text
shows. -/
theorem stored_schedule_iff (labels : List (Label F)) :
    EveryState step System.initial labels (fun _ sys _ => WellFormedSchedule sys.shared.schedule) ↔
      EveryStep step System.initial labels fun _ _ label => WellFormedPost label := by
  have hcollects : (WellFormedPost : Label F → Prop) = CollectsOnly WellFormed := by
    funext label
    unfold WellFormedPost CollectsOnly
    split <;> rfl
  rw [hcollects]
  refine every_schedule_iff (Q := fun s => WellFormedSchedule s.schedule) ?_ ?_ ?_ labels
  · exact (wellFormedSchedule_iff _).mpr ⟨Nat.zero_le _, by simp [State.initial]⟩
  · intro s t hkept h
    rwa [hkept]
  · intro req periods hparse s hs
    obtain ⟨hcount, _⟩ := schedule_post_parse_collected hparse
    rw [hs, wellFormedSchedule_iff, and_iff_right hcount]

private def short_time_schedule : List (Label Binary32) :=
  [.request (.post_schedule (.delivered
    (ascii "\x7b\"start\":\"8:00\",\"end\":\"18:00\",\"mode\":0\x7d")))]

/-- A time without its leading zero is stored as it is, and is read as a minute far behind the end
of the day. -/
theorem stored_schedule_short_time :
    ¬ ∀ labels : List (Label Binary32), EveryState step System.initial labels fun _ sys _ =>
      WellFormedSchedule sys.shared.schedule := by
  intro h
  have hrun : (exec step System.initial short_time_schedule).map (fun r =>
      r.1.shared.schedule.map fun period => time_to_minutes period.start) = some [5608] := by
    decide +kernel
  obtain ⟨⟨sys, events⟩, hexec, hminutes⟩ := Option.map_eq_some_iff.mp hrun
  have hstored : WellFormedSchedule sys.shared.schedule :=
    h _ _ sys events List.prefix_rfl (.of_exec hexec)
  have hlate : ∃ period ∈ sys.shared.schedule, time_to_minutes period.start = 5608 :=
    List.mem_map.mp (hminutes ▸ List.mem_singleton_self 5608)
  obtain ⟨period, hperiod, hminute⟩ := hlate
  have hlt := (hstored.minutes period hperiod).1
  omega

end communication_center.system
