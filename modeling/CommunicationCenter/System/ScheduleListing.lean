import CommunicationCenter.HttpServer.ListedJson
import CommunicationCenter.System.StoredSchedule

open libc transition communication_center.system_state communication_center.http_server

namespace communication_center.system

variable {F : Type}

/-- The answer to a request for the schedule is a document of its periods. -/
def WellFormedListing (s : State F) : Prop :=
  ∃ text, schedule_get_handler s = .ok text ∧ ListsAsJson text s.schedule

theorem intText_bounds {numeral : Text} {value : Int} (h : IntText numeral value) :
    INT_MIN ≤ value ∧ value ≤ INT_MAX := by
  obtain ⟨_, _, _, _, _, _, _, rfl⟩ := h
  have hle : INT_MIN ≤ INT_MAX := by decide
  exact ⟨le_max_left _ _, max_le hle (min_le_left _ _)⟩

/-- What is known of a period that was collected from any body. -/
theorem collected_period {text : Text} {period : schedule_period_t} (h : Collected text period) :
    StoredTimes period ∧ Listable period := by
  obtain ⟨_, found, _, _, _, _, _, _, _, _, hstart, hend, hmode, _, _⟩ := h
  obtain ⟨hmin, hmax⟩ := intText_bounds hmode
  exact ⟨⟨hstart, hend⟩, hstart.bounded, hend.bounded, hmin, hmax⟩

theorem wellFormedListing_iff {s : State F} (hcount : s.schedule.length ≤ MAX_PERIODS)
    (hperiods : ∀ period ∈ s.schedule, StoredTimes period ∧ Listable period) :
    WellFormedListing s ↔ ∀ period ∈ s.schedule, SpliceableTimes period := by
  have hlisting := schedule_get_handler_eq hcount fun period hperiod => (hperiods period hperiod).2
  rw [← listsAsJson_iff fun period hperiod => (hperiods period hperiod).1, WellFormedListing, hlisting]
  constructor
  · rintro ⟨listing, heq, hlists⟩
    rwa [Except.ok.inj heq]
  · exact fun h => ⟨_, rfl, h⟩

variable [CFloat F]

/-- In every run, every listing is a document of the stored periods exactly when accepted bodies
write times only that can stand between quotes as they are. Nothing is assumed of the other
requests, nor of what the times mean. -/
theorem schedule_listing_iff (labels : List (Label F)) :
    EveryState step System.initial labels (fun _ sys _ => WellFormedListing sys.shared) ↔
      EveryStep step System.initial labels fun _ _ label => CollectsOnly SpliceableTimes label := by
  apply every_schedule_iff
  · have hempty : (State.initial : State F).schedule = [] := rfl
    exact (wellFormedListing_iff (Nat.zero_le _) (by simp [hempty])).mpr (by simp [hempty])
  · rintro s t hkept ⟨text, hlisting, hlists⟩
    refine ⟨text, ?_, hkept ▸ hlists⟩
    rw [schedule_get_handler, hkept]
    exact hlisting
  · intro req periods hparse s hs
    obtain ⟨hcount, text, _, hmem⟩ := schedule_post_parse_collected hparse
    rw [← hs] at hcount hmem ⊢
    apply wellFormedListing_iff hcount
    exact fun period hperiod => collected_period ((hmem period).mp hperiod)

private def backslash_schedule : List (Label Binary32) :=
  [.request (.post_schedule (.delivered
    (ascii "\x7b\"start\":\"8:00\\\",\"end\":\"18:00\",\"mode\":0\x7d")))]

/-- A time that ends in a backslash takes the quote behind it out of the listing. -/
theorem schedule_listing_backslash :
    ¬ ∀ labels : List (Label Binary32), EveryState step System.initial labels fun _ sys _ =>
      WellFormedListing sys.shared := by
  intro h
  have hrun : (exec step System.initial backslash_schedule).map (fun r => r.1.shared.schedule) =
      some [⟨ascii "8:00\\", ascii "18:00", 0⟩] := by
    decide +kernel
  obtain ⟨⟨sys, events⟩, hexec, hstored⟩ := Option.map_eq_some_iff.mp hrun
  have hlisted : WellFormedListing sys.shared := h _ _ sys events List.prefix_rfl (.of_exec hexec)
  have hperiods : ∀ period ∈ sys.shared.schedule, StoredTimes period ∧ Listable period := by
    intro period hperiod
    obtain rfl := List.mem_singleton.mp (hstored ▸ hperiod)
    exact ⟨⟨⟨by decide, by decide, by decide⟩, by decide, by decide, by decide⟩, by decide, by decide,
      by decide, by decide⟩
  have hcount : sys.shared.schedule.length ≤ MAX_PERIODS := by
    rw [hstored]
    decide
  have hsplice := (wellFormedListing_iff hcount hperiods).mp hlisted _ (hstored ▸ List.mem_singleton_self _)
  exact hsplice.start.backslash (by decide)

end communication_center.system
