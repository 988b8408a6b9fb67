import CommunicationCenter.System.Sensors

open libc expiring communication_center.system_state

namespace communication_center.system

variable {F : Type}

/-- The clock values that refreshes have read. -/
def refresh_reads (past : List (Label F)) : List Int :=
  past.filterMap Label.refresh_clock

/-- The clock value that the latest report has read for its refresh. -/
def own_clock (past : List (Label F)) : Option Int :=
  (past.filterMap Label.report_clock).getLast?

theorem filterMap_snoc {α β : Type} (f : α → Option β) (past : List α) (label : α) :
    (past ++ [label]).filterMap f = past.filterMap f ++ (f label).toList := by
  rw [List.filterMap_append]
  cases h : f label <;> simp [h]

theorem refresh_reads_subset (past : List (Label F)) (label : Label F) :
    refresh_reads past ⊆ refresh_reads (past ++ [label]) := by
  rw [refresh_reads, refresh_reads, filterMap_snoc]
  exact List.subset_append_left _ _

theorem own_clock_snoc_of_none {label : Label F} (h : label.report_clock = none)
    (past : List (Label F)) : own_clock (past ++ [label]) = own_clock past := by
  rw [own_clock, filterMap_snoc, h, Option.toList_none, List.append_nil, own_clock]

/-- A report's clock value was read for a refresh, and is a clock value. -/
theorem own_clock_mem {past : List (Label F)} {now : Int} (h : own_clock past = some now) :
    now ∈ refresh_reads past ∧ now ∈ past.filterMap Label.clock := by
  obtain ⟨label, hmem, hlabel⟩ := List.mem_filterMap.mp (List.mem_of_getLast? h)
  unfold Label.report_clock at hlabel
  split at hlabel
  · obtain rfl := Option.some.inj hlabel
    exact ⟨List.mem_filterMap.mpr ⟨_, hmem, rfl⟩, List.mem_filterMap.mpr ⟨_, hmem, rfl⟩⟩
  · cases hlabel

/-- No source has a value older than its timeout at the clock value. -/
structure FreshSources (now : Int) (s : State F) : Prop where
  indoor : s.indoor.FreshAt INDOOR_SENSOR_TIMEOUT_MS now
  outdoor : s.outdoor.FreshAt OUTDOOR_SENSOR_TIMEOUT_MS now
  wind : s.wind.FreshAt WIND_SENSOR_TIMEOUT_MS now

/-- The clock values held by pending refreshes come from the history, and between
a report's refresh and its snapshot all sources are fresh for its clock value. -/
structure PendingReads (past : List (Label F)) (sys : System F) : Prop where
  task : ∀ now, sys.system_task = .refresh now → now ∈ refresh_reads past
  refresh : ∀ now, sys.http_task = .sensors_refresh now → own_clock past = some now
  snapshot : sys.http_task = .sensors_snapshot →
    ∃ now, own_clock past = some now ∧ FreshSources now sys.shared

variable [CFloat F]

/-- Each source reflects its own updates and its own expiry. -/
structure SourcesTracked (past : List (Label F)) (s : State F) : Prop where
  indoor : s.indoor.Tracks .zero INDOOR_SENSOR_TIMEOUT_MS
    (past.filterMap Label.indoor_update) (refresh_reads past)
  outdoor : s.outdoor.Tracks .zero OUTDOOR_SENSOR_TIMEOUT_MS
    (past.filterMap Label.outdoor_update) (refresh_reads past)
  wind : s.wind.Tracks (CFloat.lit 0) WIND_SENSOR_TIMEOUT_MS
    (past.filterMap Label.wind_update) (refresh_reads past)

/-- Each source changes by its own update or by its own expiry only. -/
structure SourcesMove (reads : List Int) (label : Label F) (s t : State F) : Prop where
  indoor : s.indoor.Moves .zero INDOOR_SENSOR_TIMEOUT_MS reads label.indoor_update t.indoor
  outdoor : s.outdoor.Moves .zero OUTDOOR_SENSOR_TIMEOUT_MS reads label.outdoor_update t.outdoor
  wind : s.wind.Moves (CFloat.lit 0) WIND_SENSOR_TIMEOUT_MS reads label.wind_update t.wind

theorem sourcesMove_refresh {reads : List Int} {now : Int} (hnow : now ∈ reads) {label : Label F}
    (hlabel : ∀ u, label ≠ .update u) (s : State F) :
    SourcesMove reads label s (system_state_refresh_sensor_timeouts now s) := by
  obtain ⟨hindoor, houtdoor, hwind⟩ := no_updates hlabel
  rw [system_state_refresh_sensor_timeouts_eq]
  constructor
  · rw [hindoor]
    exact s.indoor.moves_expire hnow
  · rw [houtdoor]
    exact s.outdoor.moves_expire hnow
  · rw [hwind]
    exact s.wind.moves_expire hnow

theorem sourcesMove_of_sameSensors {reads : List Int} {label : Label F}
    (hlabel : ∀ u, label ≠ .update u) {s t : State F} (h : SameSensors s t) :
    SourcesMove reads label s t := by
  obtain ⟨hindoor, houtdoor, hwind⟩ := no_updates hlabel
  constructor
  · rw [hindoor, h.indoor]
    exact .kept
  · rw [houtdoor, h.outdoor]
    exact .kept
  · rw [hwind, h.wind]
    exact .kept

theorem sourcesMove_update {reads : List Int} (u : SensorUpdate F) (s : State F) :
    SourcesMove reads (.update u) s (system_state_update u s) := by
  cases u with
  | indoor_sensor temp humidity aq now_ms => exact ⟨.written _ _, .kept, .kept⟩
  | outdoor_sensor temp humidity aq now_ms => exact ⟨.kept, .written _ _, .kept⟩
  | wind_speed speed now_ms => exact ⟨.kept, .kept, .written _ _⟩
  | indoor_ip ip => exact ⟨.kept, .kept, .kept⟩
  | outdoor_ip ip => exact ⟨.kept, .kept, .kept⟩

/-- Whatever the step, the sources change only by their updates and expiries, each on its own. The
clock values are those that the step refreshes with. -/
theorem sources_move {sys next : System F} {label : Label F} {emitted : List (Event F)}
    (hstep : step sys label = some (next, emitted)) :
    ∃ reads, SourcesMove reads label sys.shared next.shared := by
  cases sensor_step hstep with
  | updated u hshared _ _ => exact ⟨[], hshared ▸ sourcesMove_update u sys.shared⟩
  | task_refreshed now _ hshared _ _ =>
    exact ⟨[now], hshared ▸ sourcesMove_refresh (by simp) (by simp) sys.shared⟩
  | handler_refreshed now _ hshared _ _ =>
    exact ⟨[now], hshared ▸ sourcesMove_refresh (by simp) (by simp) sys.shared⟩
  | quiet hlabel hsensors _ _ _ => exact ⟨[], sourcesMove_of_sameSensors hlabel hsensors⟩

theorem PendingReads.sourcesMove {past : List (Label F)} {sys next : System F} {label : Label F}
    {emitted : List (Event F)} (h : PendingReads past sys)
    (hstep : step sys label = some (next, emitted)) :
    SourcesMove (refresh_reads past) label sys.shared next.shared := by
  cases sensor_step hstep with
  | updated u hshared _ _ =>
    rw [hshared]
    exact sourcesMove_update u sys.shared
  | task_refreshed now hnow hshared _ _ =>
    rw [hshared]
    exact sourcesMove_refresh (h.task now hnow) (by simp) sys.shared
  | handler_refreshed now hnow hshared _ _ =>
    rw [hshared]
    exact sourcesMove_refresh (own_clock_mem (h.refresh now hnow)).1 (by simp) sys.shared
  | quiet hlabel hsensors _ _ _ => exact sourcesMove_of_sameSensors hlabel hsensors

theorem SourcesTracked.step {past : List (Label F)} {label : Label F} {s t : State F}
    (h : SourcesTracked past s) (hmove : SourcesMove (refresh_reads past) label s t) :
    SourcesTracked (past ++ [label]) t := by
  have hmore := refresh_reads_subset past label
  constructor
  · rw [filterMap_snoc]
    exact (h.indoor.moves hmove.indoor).more_reads hmore
  · rw [filterMap_snoc]
    exact (h.outdoor.moves hmove.outdoor).more_reads hmore
  · rw [filterMap_snoc]
    exact (h.wind.moves hmove.wind).more_reads hmore

/-- Sources that are fresh for an earlier clock value stay fresh for it, whatever the step does,
since later updates have later time stamps. -/
theorem FreshSources.step {past : List (Label F)} {now : Int} {label : Label F} {s t : State F}
    (h : FreshSources now s) (hnow : now ∈ past.filterMap Label.clock)
    (hclock : ∀ read ∈ label.clock, ∀ earlier ∈ past.filterMap Label.clock, earlier ≤ read)
    {reads : List Int} (hmove : SourcesMove reads label s t) : FreshSources now t where
  indoor := h.indoor.moves (by decide)
    (fun value stamp hwrite => hclock stamp (clock_of_update.1 value hwrite) now hnow) hmove.indoor
  outdoor := h.outdoor.moves (by decide)
    (fun value stamp hwrite => hclock stamp (clock_of_update.2.1 value hwrite) now hnow) hmove.outdoor
  wind := h.wind.moves (by decide)
    (fun value stamp hwrite => hclock stamp (clock_of_update.2.2 value hwrite) now hnow) hmove.wind

/-- A step keeps where pending clock readings come from, and that the sources are fresh between the
refresh and the copies of a report. The clock may stand still, but not run back. -/
theorem PendingReads.step {past : List (Label F)} {sys next : System F} {label : Label F}
    {emitted : List (Event F)} (h : PendingReads past sys)
    (hclock : ∀ read ∈ label.clock, ∀ earlier ∈ past.filterMap Label.clock, earlier ≤ read)
    (hstep : step sys label = some (next, emitted)) : PendingReads (past ++ [label]) next := by
  have hmove := h.sourcesMove hstep
  have hmore := refresh_reads_subset past label
  have hkept (hreport : label.report_clock = none) (hsnapshot : sys.http_task = .sensors_snapshot) :
      ∃ now, own_clock (past ++ [label]) = some now ∧ FreshSources now next.shared := by
    obtain ⟨now, hown, hfresh⟩ := h.snapshot hsnapshot
    rw [own_clock_snoc_of_none hreport]
    exact ⟨now, hown, hfresh.step (own_clock_mem hown).2 hclock hmove⟩
  cases sensor_step hstep with
  | updated u hshared htask hhttp =>
    refine ⟨fun now hnow => hmore (h.task now (htask ▸ hnow)), fun now hnow => ?_, fun hnow => ?_⟩
    · rw [own_clock_snoc_of_none rfl]
      exact h.refresh now (hhttp ▸ hnow)
    · exact hkept rfl (hhttp ▸ hnow)
  | task_refreshed now hnow hshared htask hhttp =>
    refine ⟨by simp [htask], fun now hnow => ?_, fun hnow => ?_⟩
    · rw [own_clock_snoc_of_none rfl]
      exact h.refresh now (hhttp ▸ hnow)
    · exact hkept rfl (hhttp ▸ hnow)
  | handler_refreshed now hnow hshared htask hhttp =>
    refine ⟨fun now hnow => hmore (h.task now (htask ▸ hnow)), by simp [hhttp], fun _ => ?_⟩
    rw [own_clock_snoc_of_none rfl]
    refine ⟨now, h.refresh now hnow, ?_⟩
    rw [hshared, system_state_refresh_sensor_timeouts_eq]
    exact ⟨Cell.freshAt_expire _ now, Cell.freshAt_expire _ now, Cell.freshAt_expire _ now⟩
  | quiet hlabel hsensors htask hrefresh hsnapshot =>
    refine ⟨fun now hnow => ?_, fun now hnow => ?_, fun hnow => ?_⟩
    · rcases htask now hnow with rfl | hearlier
      · simp [refresh_reads, Label.refresh_clock]
      · exact hmore (h.task now hearlier)
    · rcases hrefresh now hnow with rfl | ⟨hreport, hearlier⟩
      · simp [own_clock, Label.report_clock]
      · rw [own_clock_snoc_of_none hreport]
        exact h.refresh now hearlier
    · exact hkept (hsnapshot hnow).1 (hsnapshot hnow).2

end communication_center.system
