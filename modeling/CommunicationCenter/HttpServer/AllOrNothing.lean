import CommunicationCenter.HttpServer.ScheduleDocument
import CommunicationCenter.Json.Consumption
import CommunicationCenter.Json.Utf8

open libc json communication_center.system_state

namespace communication_center.http_server

/-- The value of a member, found by its name with all escapes resolved. Where a name
occurs twice, the last value counts. -/
def value_of (name : Text) (members : List (Text × Json)) : Option Json :=
  (members.filter fun member => unescape member.1 = some name).getLast?.map Prod.snd

/-- A string that fits a time field, of five bytes and the terminator. -/
def time_of (name : Text) (members : List (Text × Json)) : Option Text :=
  match value_of name members with
  | some (.string written) => (unescape written).filter fun time => time.length ≤ 5
  | _ => none

/-- A number without a fractional part. -/
def mode_of (members : List (Text × Json)) : Option Int :=
  match value_of (ascii "mode") members with
  | some (.number magnitude) => if magnitude.den = 1 then some magnitude.num else none
  | _ => none

/-- The period that an object stands for: each of the three fields is there, has its type
and is not too long. Any further members are ignored, in any order. -/
def period_of : Json → Option schedule_period_t
  | .object members =>
    (time_of (ascii "start") members).bind fun start =>
      (time_of (ascii "end") members).bind fun end_ =>
        (mode_of members).map fun mode => { start, end_, mode }
  | _ => none

/-- What a document gives as its period objects: the items of its member `periods`, the
items of the document itself where it is a list, or the document alone. -/
def period_objects : Json → Option (List Json)
  | .object members =>
    match value_of (ascii "periods") members with
    | none => some [.object members]
    | some (.array items) => some items
    | some _ => none
  | .array (item :: items) => some (item :: items)
  | _ => none

/-- A JSON text of at most `MAX_PERIODS` periods. Nothing is asked of the order of members,
the form of the times or how the text is written. -/
structure ScheduleDocument (text : Text) (periods : List schedule_period_t) : Prop where
  utf8 : Utf8 text
  count : periods.length ≤ MAX_PERIODS
  periods : ∃ document objects, parse text = some document ∧
    period_objects document = some objects ∧
    List.Forall₂ (fun object period => period_of object = some period) objects periods

/-- The keys in a text, of which some show a period: the members `start`, `end` and `mode`
follow each other there, with nothing but white space between their tokens. -/
inductive Shows : List Text → List schedule_period_t → Prop where
  | nil : Shows [] []
  | period {found : Text} {starts : List Text} {period : schedule_period_t}
      {periods : List schedule_period_t} (hperiod : PeriodText found period)
      (hrest : Shows starts periods) : Shows (found :: starts) (period :: periods)
  | other {found : Text} {starts : List Text} {periods : List schedule_period_t}
      (hother : ∀ period, ¬ PeriodText found period)
      (hrest : Shows starts periods) : Shows (found :: starts) periods

/-- The periods are those that the text shows at its keys `"start"`, one key for each
stretch up to a closing brace. Behind `MAX_PERIODS` of them the text may go on. -/
def Shown (text : Text) (periods : List schedule_period_t) : Prop :=
  ∃ further, Shows (object_starts false text) (periods ++ further) ∧
    (further = [] ∨ periods.length = MAX_PERIODS)

example : (["\x7b\"start\":\"08:00\",\"end\":\"18:00\",\"mode\":0,\"label\":\"day\"\x7d",
    "[\x7b\"mode\": 1, \"end\":\"9:00\", \"start\":\"8:00\"\x7d]",
    "\x7b\"start\":\"08:00:00\",\"end\":\"18:00\",\"mode\":0\x7d"].map fun text =>
      ((parse (ascii text)).bind period_objects).bind fun objects => objects.head?.bind period_of) =
    [some ⟨ascii "08:00", ascii "18:00", 0⟩, some ⟨ascii "8:00", ascii "9:00", 1⟩, none] := by
  decide +kernel

/-- What the keys of a text show is what the scanner reads at them, one after the other, with the
keys left out at which it reads nothing. -/
theorem shows_iff {starts : List Text} {periods : List schedule_period_t} :
    Shows starts periods ↔ periods = starts.filterMap scan_period := by
  induction starts generalizing periods with
  | nil =>
    constructor
    · intro h
      cases h
      rfl
    · rintro rfl
      exact .nil
  | cons found starts ih =>
    cases hscan : scan_period found with
    | none =>
      have hother : ∀ period, ¬ PeriodText found period := fun period hperiod => by
        rw [scan_period_eq_some_iff.mpr hperiod] at hscan
        cases hscan
      rw [List.filterMap_cons_none hscan, ← ih]
      constructor
      · intro h
        cases h with
        | period hperiod hrest => exact absurd hperiod (hother _)
        | other _ hrest => exact hrest
      · exact .other hother
    | some period =>
      have hperiod := scan_period_eq_some_iff.mp hscan
      rw [List.filterMap_cons_some hscan]
      constructor
      · intro h
        cases h with
        | @period _ _ other _ hother hrest =>
          have hsame := scan_period_eq_some_iff.mpr hother
          rw [hscan] at hsame
          rw [Option.some.inj hsame, ih.mp hrest]
        | other hother hrest => exact absurd hperiod (hother _)
      · rintro rfl
        exact .period hperiod (ih.mpr rfl)

/-- Where a brace closes every stretch, the shown periods are those the loop stores. -/
theorem shown_iff {text : Text} {periods : List schedule_period_t}
    (hclosed : ∀ found ∈ object_starts false text, brace ∈ found)
    (hcount : periods.length ≤ MAX_PERIODS) :
    Shown text periods ↔
      (closed_periods (object_starts false text)).take MAX_PERIODS = periods := by
  have hscan : closed_periods (object_starts false text) =
      (object_starts false text).filterMap scan_period :=
    List.filterMap_congr fun found hfound => if_pos (hclosed found hfound)
  rw [hscan]
  constructor
  · rintro ⟨further, hshows, hend⟩
    rw [← shows_iff.mp hshows]
    rcases hend with rfl | hfull
    · rw [List.append_nil, List.take_of_length_le hcount]
    · rw [← hfull, List.take_left]
  · intro htake
    refine ⟨((object_starts false text).filterMap scan_period).drop MAX_PERIODS,
      shows_iff.mpr (by rw [← htake, List.take_append_drop]), ?_⟩
    rw [List.drop_eq_nil_iff, ← htake, List.length_take]
    omega

theorem isObject_of_period_of {object : Json} {period : schedule_period_t}
    (h : period_of object = some period) : ∃ members, object = .object members := by
  cases object with
  | object members => exact ⟨members, rfl⟩
  | _ => cases h

theorem isObject_of_forall₂ {objects : List Json} {periods : List schedule_period_t}
    (h : List.Forall₂ (fun object period => period_of object = some period) objects periods) :
    ∀ object ∈ objects, ∃ members, object = .object members := by
  induction h with
  | nil => simp
  | cons hfirst _ ih => exact List.forall_mem_cons.mpr ⟨isObject_of_period_of hfirst, ih⟩

/-- A document has no NUL, and a brace closes each of its stretches, since it ends with the brace
of an object or with the bracket of a list of objects. So the loop neither stops early nor faults
on one. -/
theorem ScheduleDocument.closed {text : Text} {periods : List schedule_period_t}
    (h : ScheduleDocument text periods) :
    (0 : UInt8) ∉ text ∧ ∀ found ∈ object_starts false text, brace ∈ found := by
  obtain ⟨document, objects, hparse, hobjects, hperiods⟩ := h.periods
  have hall := isObject_of_forall₂ hperiods
  obtain ⟨last, hlast, hconsumes⟩ := parse_closed hparse <| by
    unfold period_objects at hobjects
    split at hobjects
    · exact .inl ⟨_, rfl⟩
    · next item items =>
      obtain rfl := Option.some.inj hobjects
      exact .inr ⟨item :: items, List.cons_ne_nil _ _, rfl, hall⟩
    · cases hobjects
  have hbyte : ∀ c ∈ last, c ≠ 0 ∧ c ≠ 34 := fun c hc => by
    rcases hlast c hc with hblank | rfl
    · exact ⟨(plain_of_json_space hblank).1, (plain_of_json_space hblank).2.1⟩
    · exact ⟨by decide, by decide⟩
  refine ⟨hconsumes.zero_notMem ?_, fun found hfound => ?_⟩
  · intro hzero
    rcases List.mem_cons.mp hzero with hbrace | hmem
    · exact absurd hbrace (by decide)
    · exact (hbyte 0 hmem).1 rfl
  · have hkey := (object_starts_sublist false text).subset hfound
    rw [List.mem_filter, List.mem_tails] at hkey
    obtain ⟨rest, hrest⟩ := List.isPrefixOf_iff_prefix.mp hkey.2
    have hquote : (34 : UInt8) ∈ found := hrest ▸ (by simp [start_key, ascii])
    obtain ⟨front, rfl, -⟩ := hconsumes
    -- the key does not start behind the last brace, where there is no quote
    rcases List.suffix_or_suffix_of_suffix hkey.1 (List.suffix_append front _) with
      hbehind | hbefore
    · rcases List.suffix_cons_iff.mp hbehind with rfl | hlate
      · exact List.mem_cons_self
      · exact absurd rfl (hbyte 34 (hlate.subset hquote)).2
    · exact hbefore.subset List.mem_cons_self

variable {F : Type}

/-- The answer OK means that the body is a schedule document and that exactly its periods
are stored, in order. Any other body is answered with an error and leaves the schedule and
the status texts as they were. -/
structure AllOrNothing (body : List UInt8) (s : State F) : Prop where
  stored : ∀ outcome, schedule_post_handler (.delivered body) s = some outcome →
    outcome.answer = .ok () →
    ∃ periods, ScheduleDocument body periods ∧ outcome.state.schedule = periods
  refused : (¬ ∃ periods, ScheduleDocument body periods) →
    ∃ outcome e, schedule_post_handler (.delivered body) s = some outcome ∧
      outcome.answer = .error e ∧ outcome.state.schedule = s.schedule ∧
      outcome.state.status = s.status

/-- A document that fits the buffer is answered OK, whatever is stored for it. -/
theorem schedule_post_handler_document {body : List UInt8} {periods : List schedule_period_t}
    (h : ScheduleDocument body periods) (hpositive : 0 < body.length) (hfits : body.length < 512)
    (s : State F) : ∃ outcome, schedule_post_handler (.delivered body) s = some outcome ∧
      outcome.answer = .ok () ∧
      outcome.state.schedule = (closed_periods (object_starts false body)).take MAX_PERIODS :=
  schedule_post_handler_of_parse
    (schedule_post_parse_of_closed hpositive hfits h.closed.1 h.closed.2) s

/-- For every body and every state the request is all or nothing exactly when the length of the
body is refused, or the body is a schedule document whose text shows its periods. No other body is
answered with an error, so that one without periods, with a bad period or with too many of them is
never all or nothing. Nothing is assumed of the body, which may be any bytes, nor of the state. -/
theorem all_or_nothing_iff (body : List UInt8) (s : State F) :
    AllOrNothing body s ↔
      (body.length = 0 ∨ 512 ≤ body.length) ∨
        ∃ periods, ScheduleDocument body periods ∧ Shown body periods := by
  by_cases hlength : body.length = 0 ∨ 512 ≤ body.length
  · have hrefused := schedule_post_handler_refused hlength s
    refine ⟨fun _ => .inl hlength, fun _ => ⟨fun outcome houtcome hanswer => ?_,
      fun _ => ⟨_, _, hrefused, rfl, rfl, rfl⟩⟩⟩
    rw [hrefused] at houtcome
    obtain rfl := Option.some.inj houtcome
    cases hanswer
  · have hstored {periods : List schedule_period_t} (h : ScheduleDocument body periods) :=
      schedule_post_handler_document h (by omega) (by omega) s
    constructor
    · intro h
      have hdocument : ∃ periods, ScheduleDocument body periods := by
        by_contra hnone
        obtain ⟨outcome, e, houtcome, hanswer, _, _⟩ := h.refused hnone
        exact schedule_post_handler_received (by omega) (by omega) houtcome e hanswer
      obtain ⟨_, hread⟩ := hdocument
      obtain ⟨outcome, houtcome, hanswer, hschedule⟩ := hstored hread
      obtain ⟨periods, hperiods, hkept⟩ := h.stored outcome houtcome hanswer
      exact .inr ⟨periods, hperiods,
        (shown_iff hperiods.closed.2 hperiods.count).mpr (hschedule.symm.trans hkept)⟩
    · intro h
      obtain ⟨periods, hdocument, hshown⟩ := h.resolve_left hlength
      obtain ⟨outcome, houtcome, _, hschedule⟩ := hstored hdocument
      refine ⟨fun other hother _ => ⟨periods, hdocument, ?_⟩,
        fun hnone => absurd ⟨periods, hdocument⟩ hnone⟩
      obtain rfl := Option.some.inj (houtcome.symm.trans hother)
      exact hschedule.trans ((shown_iff hdocument.closed.2 hdocument.count).mp hshown)

/-- A body without any period clears the stored schedule, with the answer OK. The body is neither a
document nor too long. -/
theorem all_or_nothing_garbage :
    ¬ ∀ (body : List UInt8) (s : State Binary32), AllOrNothing body s := by
  intro h
  let stored : State Binary32 :=
    { State.initial with schedule := [⟨ascii "08:00", ascii "18:00", MODE_AUTO_ECO⟩] }
  have hgarbage := h (ascii "garbage") stored
  have hempty : schedule_post_parse (.delivered (ascii "garbage")) = .ok (some (.ok [])) := by
    decide
  obtain ⟨outcome, houtcome, hanswer, _⟩ := schedule_post_handler_of_parse hempty stored
  obtain ⟨periods, hdocument, _⟩ := hgarbage.stored outcome houtcome hanswer
  obtain ⟨document, _, hparse, _⟩ := hdocument.periods
  have hnone : (parse (ascii "garbage")).isSome = false := by decide +kernel
  rw [hparse] at hnone
  cases hnone

end communication_center.http_server
