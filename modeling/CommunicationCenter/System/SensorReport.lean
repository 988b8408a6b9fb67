import CommunicationCenter.System.Answers
import CommunicationCenter.System.Freshness

open libc transition expiring communication_center.system_state communication_center.http_server

namespace communication_center.system

variable {F : Type}

/-- What a report shows for a source with the given updates: the numbers of the
latest one, not older than the timeout for the report's own clock value, or
dashes for a source that was never updated or that some refresh found stale. -/
def ReportedFrom {V : Type} (numbers : V → List (JsonField F)) (dashes : List (JsonField F))
    (timeout : Int) (writes : List (V × Int)) (reads : List Int) (now : Int)
    (fields : List (JsonField F)) : Prop :=
  (∃ value stamp, writes.getLast? = some (value, stamp) ∧ now - stamp ≤ timeout ∧
    fields = numbers value) ∨
  (fields = dashes ∧ (writes = [] ∨ ∃ value stamp, writes.getLast? = some (value, stamp) ∧
    ∃ read ∈ reads, read - stamp > timeout))

theorem reportedFrom_of_tracks {V : Type} {numbers : V → List (JsonField F)}
    {dashes fields : List (JsonField F)} {zero : V} {timeout now : Int} {writes : List (V × Int)}
    {reads : List Int} {cell : Cell V} (htracks : cell.Tracks zero timeout writes reads)
    (hfresh : cell.FreshAt timeout now)
    (hfields : fields = if cell.available then numbers cell.value else dashes) :
    ReportedFrom numbers dashes timeout writes reads now fields := by
  cases havailable : cell.available with
  | true =>
    rw [havailable, if_pos rfl] at hfields
    exact Or.inl ⟨cell.value, cell.stamp, htracks.available havailable, hfresh havailable, hfields⟩
  | false =>
    rw [havailable, if_neg Bool.false_ne_true] at hfields
    exact Or.inr ⟨hfields, htracks.stale havailable⟩

variable [CFloat F]

/-- A report says of each source what follows from its updates. -/
structure Reported (past : List (Label F)) (now : Int) (report : SensorsReport F) : Prop where
  indoor : ReportedFrom climate_numbers (List.replicate 3 .dashes) INDOOR_SENSOR_TIMEOUT_MS
    (past.filterMap Label.indoor_update) (refresh_reads past) now report.indoor
  outdoor : ReportedFrom climate_numbers (List.replicate 3 .dashes) OUTDOOR_SENSOR_TIMEOUT_MS
    (past.filterMap Label.outdoor_update) (refresh_reads past) now report.outdoor
  wind : ReportedFrom wind_numbers [.dashes] WIND_SENSOR_TIMEOUT_MS
    (past.filterMap Label.wind_update) (refresh_reads past) now report.wind

/-- Only the handler's snapshot answers with a report. -/
theorem sensors_response {sys next : System F} {label : Label F} {emitted : List (Event F)}
    {report : SensorsReport F} (h : step sys label = some (next, emitted))
    (hreport : .response (.sensors report) ∈ emitted) :
    sys.http_task = .sensors_snapshot ∧ report = http_server.sensors_snapshot sys.shared := by
  cases answer_step h hreport with
  | sensors htask => exact ⟨htask, rfl⟩

/-- The clock values of the history do not run back. -/
def ClockOrdered (labels : List (Label F)) : Prop :=
  (labels.filterMap Label.clock).Pairwise (· ≤ ·)

omit [CFloat F] in
theorem ClockOrdered.step {labels past : List (Label F)} {label : Label F}
    (h : ClockOrdered labels) (hpast : past ++ [label] <+: labels) :
    ∀ read ∈ label.clock, ∀ earlier ∈ past.filterMap Label.clock, earlier ≤ read := by
  have hprefix : ((past ++ [label]).filterMap Label.clock).Pairwise (· ≤ ·) :=
    List.Pairwise.sublist (hpast.sublist.filterMap _) h
  rw [filterMap_snoc, List.pairwise_append] at hprefix
  exact fun read hread earlier hearlier =>
    hprefix.2.2 earlier hearlier read (Option.mem_toList.mpr hread)

/-- In every run with a clock that does not run back, each source reflects the latest of its own
updates or is cleared, changes by its own updates and timeouts only, and a report shows numbers
that are fresh for its own refresh, or dashes for a source that was never updated or was found
stale. Other tasks may read the clock before and store their refresh later. -/
theorem sensor_freshness {labels : List (Label F)} {sys : System F} {events : List (Event F)}
    (hclock : ClockOrdered labels) (hrun : Run step System.initial labels sys events) :
    SourcesTracked labels sys.shared ∧
      ∀ label next emitted, step sys label = some (next, emitted) →
        SourcesMove (refresh_reads labels) label sys.shared next.shared ∧
          ∀ report, .response (.sensors report) ∈ emitted →
            ∃ now, own_clock labels = some now ∧ Reported labels now report := by
  have hsteps : EveryStep step (System.initial : System F) labels fun past _ label =>
      ∀ read ∈ label.clock, ∀ earlier ∈ past.filterMap Label.clock, earlier ≤ read :=
    fun past _ _ label _ _ hpast _ _ => hclock.step hpast
  have hinitial : SourcesTracked [] (System.initial : System F).shared ∧
      PendingReads [] (System.initial : System F) :=
    ⟨⟨Cell.tracks_empty, Cell.tracks_empty, Cell.tracks_empty⟩,
      by simp [System.initial], by simp [System.initial], by simp [System.initial]⟩
  have hstates : EveryState step (System.initial : System F) labels fun past sys _ =>
      SourcesTracked past sys.shared ∧ PendingReads past sys :=
    hsteps.everyState hinitial fun _ _ _ _ _ _ hmid hread hstep =>
      ⟨hmid.1.step (hmid.2.sourcesMove hstep), hmid.2.step hread hstep⟩
  obtain ⟨htracked, hpending⟩ := hstates.last hrun
  refine ⟨htracked, fun label next emitted hstep => ⟨hpending.sourcesMove hstep, ?_⟩⟩
  intro report hreport
  obtain ⟨hsnapshot, rfl⟩ := sensors_response hstep hreport
  obtain ⟨now, hown, hfresh⟩ := hpending.snapshot hsnapshot
  obtain ⟨hindoor, houtdoor, hwind⟩ := sensors_snapshot_fields sys.shared
  exact ⟨now, hown, reportedFrom_of_tracks htracked.indoor hfresh.indoor hindoor,
    reportedFrom_of_tracks htracked.outdoor hfresh.outdoor houtdoor,
    reportedFrom_of_tracks htracked.wind hfresh.wind hwind⟩

private def one_report : List (Label Binary32) :=
  [.update (.indoor_sensor (CFloat.lit 21) (CFloat.lit 54) 42 100), .request (.get_sensors 1050),
    .handler]

theorem sensor_freshness_one_report : ∃ (sys : System Binary32) (events : List (Event Binary32)),
    Run step System.initial one_report sys events ∧ SourcesTracked one_report sys.shared ∧
      ∀ label next emitted, step sys label = some (next, emitted) →
        SourcesMove (refresh_reads one_report) label sys.shared next.shared ∧
          ∀ report, .response (.sensors report) ∈ emitted →
            ∃ now, own_clock one_report = some now ∧ Reported one_report now report := by
  have hrun : (exec step (System.initial : System Binary32) one_report).isSome = true := by
    decide +kernel
  obtain ⟨⟨sys, events⟩, hexec⟩ := Option.isSome_iff_exists.mp hrun
  have hclock : ClockOrdered one_report := by
    change ([100, 1050] : List Int).Pairwise (· ≤ ·)
    decide
  exact ⟨sys, events, .of_exec hexec, sensor_freshness hclock (.of_exec hexec)⟩

end communication_center.system
