import CommunicationCenter.HttpServer.ScheduleDocument
import CommunicationCenter.System.Bounds

open libc transition communication_center.system_state communication_center.http_server

namespace communication_center.system

variable {F : Type}

/-- Posting the body stores the schedule that was there. -/
def PostedBack (body : Text) (s : State F) : Prop :=
  ∃ outcome, schedule_post_handler (.delivered body) s = some outcome ∧
    outcome.answer = .ok () ∧ outcome.state.schedule = s.schedule

/-- The listing is the whole array, and it is posted back once its modes are
written as numbers. Without periods there is no mode to rewrite. -/
structure RoundTrip (s : State F) : Prop where
  listed : schedule_get_handler s = .ok (schedule_json listed_mode s.schedule)
  posted : PostedBack (schedule_json int_text s.schedule) s
  exact_empty : s.schedule = [] → PostedBack (schedule_json listed_mode s.schedule) s

theorem timeText_of_isTime {text : Text} {minutes : Nat} (h : IsTime text minutes) :
    TimeText text := by
  obtain ⟨hour, hhour, minute, hminute, rfl, _⟩ := h
  have hdigit (n : Nat) (hn : n < 10) : isdigit (48 + n).toUInt8 = true := by
    revert hn
    revert n
    decide
  exact ⟨_, _, _, _, rfl, hdigit _ (by omega), hdigit _ (by omega), hdigit _ (by omega),
    hdigit _ (by omega)⟩

theorem sendable_of_wellFormed {period : schedule_period_t} (h : WellFormed period) :
    Sendable period := by
  obtain ⟨⟨⟨first, hfirst⟩, last, hlast⟩, hmode⟩ := h
  have hrange : INT_MIN ≤ period.mode ∧ period.mode ≤ INT_MAX := by
    rcases hmode with hmode | hmode | hmode <;> rw [hmode] <;> decide
  exact ⟨timeText_of_isTime hfirst, timeText_of_isTime hlast, hrange.1, hrange.2⟩

theorem postedBack_of_document {text : Text} {s : State F} (h : IsDocument text s.schedule)
    (hlength : text.length < 512) : PostedBack text s :=
  schedule_post_handler_of_parse (schedule_post_parse_document h hlength) s

theorem int_text_length_of_wellFormed {period : schedule_period_t} (h : WellFormed period) :
    (int_text period.mode).length ≤ 13 := by
  have hsendable := sendable_of_wellFormed h
  have hlength := int_text_length_le hsendable.mode_min hsendable.mode_max
  omega

theorem roundTrip_of_wellFormed {s : State F} (hcount : s.schedule.length ≤ MAX_PERIODS)
    (hperiods : ∀ period ∈ s.schedule, WellFormed period) : RoundTrip s := by
  have hsendable : ∀ period ∈ s.schedule, Sendable period := fun period hperiod =>
    sendable_of_wellFormed (hperiods period hperiod)
  have hlistable : ∀ period ∈ s.schedule, Listable period := fun period hperiod =>
    (hsendable period hperiod).listable
  have hposted : PostedBack (schedule_json int_text s.schedule) s := by
    apply postedBack_of_document (isDocument_schedule_json hcount hsendable)
    apply schedule_json_length_lt hcount hlistable
    exact fun period hperiod => int_text_length_of_wellFormed (hperiods period hperiod)
  refine ⟨schedule_get_handler_eq hcount hlistable, hposted, fun hempty => ?_⟩
  rw [hempty] at hposted ⊢
  exact hposted

variable [CFloat F]

/-- In every state of every run, a stored schedule of well-formed periods is listed whole, and the
listing with its modes as numbers is posted back unchanged. That the periods are well formed is all
that is assumed: how they were stored, and what the mode is, does not matter. -/
theorem schedule_round_trip (labels : List (Label F)) :
    EveryState step System.initial labels fun _ sys _ =>
      (∀ period ∈ sys.shared.schedule, WellFormed period) → RoundTrip sys.shared := by
  intro past sys events hpast hrun hperiods
  exact roundTrip_of_wellFormed (bounded_everyState labels past sys events hpast hrun).count hperiods

private def posted_hours : List schedule_period_t :=
  [⟨ascii "08:00", ascii "12:00", 1⟩, ⟨ascii "13:00", ascii "18:00", 0⟩]

private def stored_office_hours : List (Label Binary32) :=
  [.request (.post_schedule (.delivered
      [ascii "\x7b \"periods\": [\n",
        ascii "  \x7b \"start\": \"08:00\", \"end\": \"12:00\", \"mode\": 1 \x7d,\n",
        ascii "  \x7b \"start\": \"13:00\", \"end\": \"18:00\", \"mode\": 0 \x7d ] \x7d"].flatten)),
    .handler]

private theorem stored_office_hours_run : ∃ (sys : System Binary32) (events : List (Event Binary32)),
    Run step System.initial stored_office_hours sys events ∧ sys.shared.schedule = posted_hours ∧
      ∀ period ∈ sys.shared.schedule, WellFormed period := by
  have hrun : (exec step System.initial stored_office_hours).map (fun r => r.1.shared.schedule) =
      some posted_hours := by
    decide +kernel
  obtain ⟨⟨sys, events⟩, hexec, hstored⟩ := Option.map_eq_some_iff.mp hrun
  refine ⟨sys, events, .of_exec hexec, hstored, ?_⟩
  have hmorning : WellFormed ⟨ascii "08:00", ascii "12:00", 1⟩ :=
    ⟨⟨⟨480, 8, by decide, 0, by decide, by decide, rfl⟩,
      720, 12, by decide, 0, by decide, by decide, rfl⟩, Or.inr (Or.inl rfl)⟩
  have hafternoon : WellFormed ⟨ascii "13:00", ascii "18:00", 0⟩ :=
    ⟨⟨⟨780, 13, by decide, 0, by decide, by decide, rfl⟩,
      1080, 18, by decide, 0, by decide, by decide, rfl⟩, Or.inl rfl⟩
  have hposted : ∀ period ∈ posted_hours, WellFormed period := by
    simp [posted_hours, hmorning, hafternoon]
  exact hstored ▸ hposted

theorem schedule_round_trip_office_hours :
    ∃ (sys : System Binary32) (events : List (Event Binary32)),
      Run step System.initial stored_office_hours sys events ∧ RoundTrip sys.shared := by
  obtain ⟨sys, events, hrun, _, hperiods⟩ := stored_office_hours_run
  exact ⟨sys, events, hrun,
    schedule_round_trip stored_office_hours _ sys events List.prefix_rfl hrun hperiods⟩

/-- The exact listing of a stored period is posted back as an empty schedule. -/
theorem schedule_round_trip_quoted_mode :
    ¬ ∀ labels : List (Label Binary32), EveryState step System.initial labels fun _ sys _ =>
      (∀ period ∈ sys.shared.schedule, WellFormed period) →
        ∃ listing, schedule_get_handler sys.shared = .ok listing ∧ PostedBack listing sys.shared := by
  intro h
  obtain ⟨sys, events, hrun, hstored, hperiods⟩ := stored_office_hours_run
  obtain ⟨listing, hlisting, outcome, houtcome, _, hback⟩ :=
    h _ _ sys events List.prefix_rfl hrun hperiods
  have hexact : schedule_get_handler sys.shared =
      .ok (schedule_json listed_mode posted_hours) := by
    rw [schedule_get_handler, hstored]
    decide +kernel
  obtain rfl := Except.ok.inj (hlisting.symm.trans hexact)
  have hparse : schedule_post_parse (.delivered (schedule_json listed_mode posted_hours)) =
      .ok (some (.ok [])) := by
    decide +kernel
  obtain ⟨cleared, hcleared, _, hempty⟩ := schedule_post_handler_of_parse hparse sys.shared
  obtain rfl := Option.some.inj (houtcome.symm.trans hcleared)
  rw [hempty, hstored] at hback
  cases hback

end communication_center.system
