import CommunicationCenter.HttpServer.MemberSearch
import CommunicationCenter.HttpServer.ScheduleDocument

open libc communication_center.system_state

namespace communication_center.http_server

/-- The keys of a period object in the order in which the loop scans them. -/
def period_keys : List Text :=
  [ascii "start", ascii "end", ascii "mode"]

/-- An object that describes a period. -/
structure PeriodObject where
  period : schedule_period_t
  front : Text
  start : BodyMember
  end_ : BodyMember
  mode : BodyMember
  back : Text
  blanks : ∀ c ∈ front ++ back, json_space c = true
  keys : [start, end_, mode].map BodyMember.key = period_keys
  start_value : start.value = quoted period.start
  end_value : end_.value = quoted period.end_
  times : TimeText period.start ∧ TimeText period.end_
  mode_value : IntText mode.value period.mode

def PeriodObject.members (o : PeriodObject) : List BodyMember :=
  [o.start, o.end_, o.mode]

/-- A period object with its members written in some order. -/
structure WrittenPeriod where
  object : PeriodObject
  order : List BodyMember
  permuted : order.Perm object.members

def WrittenPeriod.text (w : WrittenPeriod) (rest : Text) : Text :=
  object_text w.object.front w.order (w.object.back ++ rest)

def WrittenPeriod.InScannedOrder (w : WrittenPeriod) : Prop :=
  w.order.map BodyMember.key = period_keys

instance : DecidablePred WrittenPeriod.InScannedOrder := fun w =>
  inferInstanceAs (Decidable (w.order.map BodyMember.key = period_keys))

/-- Period objects separated by commas, as the elements of an array. -/
def written_text : List WrittenPeriod → Text → Text
  | [], rest => rest
  | [w], rest => w.text rest
  | w :: next :: others, rest => w.text (comma ++ written_text (next :: others) rest)

/-- What surrounds the given number of period objects in a body: nothing but white
space around a single one, or the object with the array. -/
inductive Envelope : Nat → Text → Text → Prop where
  | single {closing : Text} (hclosing : ∀ c ∈ closing, json_space c = true) : Envelope 1 [] closing
  | wrapped {count : Nat} {opening closing blanks : Text}
      (hopening : Tokens json_space [open_brace, periods_key, colon, open_bracket] [] opening)
      (hclosing : Tokens json_space [close_bracket, close_brace] blanks closing)
      (hblanks : ∀ c ∈ blanks, json_space c = true) : Envelope count opening closing

/-- The periods of the objects that are written in the scanned order. -/
def scanned_periods (written : List WrittenPeriod) : List schedule_period_t :=
  (written.filter fun w => w.InScannedOrder).map fun w => w.object.period

namespace PeriodObject

variable (o : PeriodObject)

theorem blank_front : ∀ c ∈ o.front, json_space c = true :=
  fun c hc => o.blanks c (List.mem_append_left _ hc)

theorem blank_back : ∀ c ∈ o.back, json_space c = true :=
  fun c hc => o.blanks c (List.mem_append_right _ hc)

/-- The value of a member is a time or an integer. -/
theorem value_of_mem {m : BodyMember} (h : m ∈ o.members) :
    (∃ time, TimeText time ∧ m.value = quoted time) ∨ ∃ number, IntText m.value number := by
  simp only [members, List.mem_cons, List.not_mem_nil, or_false] at h
  rcases h with rfl | rfl | rfl
  · exact Or.inl ⟨_, o.times.1, o.start_value⟩
  · exact Or.inl ⟨_, o.times.2, o.end_value⟩
  · exact Or.inr ⟨_, o.mode_value⟩

/-- No member of a period object has a closing brace or a NUL in it. -/
theorem inside_of_mem {m : BodyMember} (h : m ∈ o.members) : m.IsInside := by
  have hkeys : ∀ key ∈ period_keys, Inside key := by
    simp [period_keys, ascii, Inside, brace]
  refine ⟨key_of_mem hkeys o.keys h, ?_⟩
  rcases o.value_of_mem h with ⟨time, htime, heq⟩ | ⟨number, hnumber⟩
  · rw [heq]
    exact inside_quoted (inside_of_plain (plain_of_timeText htime))
  · exact inside_of_plain (plain_of_intText hnumber)

/-- No value is taken for the key of the start time. -/
theorem value_ne_of_mem {m : BodyMember} (h : m ∈ o.members) : m.value ≠ quoted (ascii "start") := by
  intro heq
  rcases o.value_of_mem h with ⟨time, htime, hvalue⟩ | ⟨number, hnumber⟩
  · obtain ⟨h1, h2, m1, m2, heq', _⟩ := htime
    rw [heq, heq'] at hvalue
    exact absurd (congrArg (·[3]?) hvalue) (by simp [quoted, ascii])
  · exact (plain_of_intText hnumber 34 (by simp [heq, quoted])).2.1 rfl

end PeriodObject

/-- In whatever order they are written. -/
theorem WrittenPeriod.isInside (w : WrittenPeriod) : ∀ m ∈ w.order, m.IsInside :=
  fun _ hm => w.object.inside_of_mem (w.permuted.mem_iff.mp hm)

theorem keyWord_start : KeyWord (ascii "start") :=
  ⟨by decide, 115, rfl, by decide⟩

/-- Behind the first key, the members in the scanned order are the text that is read. -/
theorem PeriodObject.periodText (o : PeriodObject) {rest text : Text} (hrest : EndsNumeral rest)
    (h : Tokens isspace (colon :: o.start.value ::
      follow_tokens ([o.end_, o.mode].map fun m => (m.key, m.value))) rest text) :
    PeriodText (quoted (ascii "start") ++ text) o.period := by
  have hkeys : o.end_.key = ascii "end" ∧ o.mode.key = ascii "mode" := by
    simpa [period_keys] using (List.cons.inj o.keys).2
  obtain ⟨hend, hmode⟩ := hkeys
  refine ⟨o.mode.value, text, rest, rfl, quotedField_of_timeText o.times.1,
    quotedField_of_timeText o.times.2, o.mode_value, hrest, ?_⟩
  simp only [List.map_cons, List.map_nil, hend, hmode, o.start_value, o.end_value] at h
  exact h

/-- The text at the first key of an object scans exactly when its members are in the
scanned order. -/
theorem WrittenPeriod.scan_found (w : WrittenPeriod) {m : BodyMember} {after : List BodyMember}
    (hordered : w.InScannedOrder → w.order = m :: after)
    (hscanned : [ascii "end", ascii "mode"] <+: after.map BodyMember.key → w.InScannedOrder)
    (rest : Text) :
    scan_period (quoted (ascii "start") ++ m.behind_key (members_behind after rest)) =
      if w.InScannedOrder then some w.object.period else none := by
  split
  · next horder =>
    have hmembers : w.order = w.object.members :=
      eq_of_perm_of_keys w.permuted (by rw [PeriodObject.members, w.object.keys]; decide)
        (horder.trans w.object.keys.symm)
    obtain ⟨rfl, rfl⟩ := List.cons.inj (hmembers.symm.trans (hordered horder))
    obtain ⟨behind, hbehind, htokens⟩ :=
      tokens_of_members w.object.start [w.object.end_, w.object.mode] rest
    exact scan_period_eq_some_iff.mpr (w.object.periodText hbehind htokens)
  · next horder =>
    refine Option.eq_none_iff_forall_not_mem.mpr fun period hperiod => horder (hscanned ?_)
    obtain ⟨numeral, text, behind, heq, hstart, hend, hmode, _, htokens⟩ :=
      scan_period_eq_some_iff.mp hperiod
    obtain rfl : m.behind_key (members_behind after rest) = text := List.append_cancel_left heq
    have hexpected : ∀ member ∈ [(ascii "end", quoted period.end_), (ascii "mode", numeral)],
        (34 : UInt8) ∉ member.1 ∧ IsValue member.2 := by
      simp only [List.forall_mem_cons]
      exact ⟨⟨by decide, .inl ⟨_, hend.unquoted, rfl⟩⟩, ⟨by decide, .inr ⟨_, hmode⟩⟩, by simp⟩
    exact keys_of_tokens (.inl ⟨_, hstart.unquoted, rfl⟩) hexpected htokens

/-- An object is one closed stretch of the text, which scans exactly when its members
are in the scanned order. -/
theorem object_starts_written (w : WrittenPeriod) (rest : Text) :
    ∃ found, object_starts false (w.text rest) = found :: object_starts false rest ∧
      brace ∈ found ∧
      scan_period found = if w.InScannedOrder then some w.object.period else none := by
  have hkeys : (w.order.map BodyMember.key).Perm period_keys := by
    rw [← w.object.keys]
    exact w.permuted.map BodyMember.key
  have hvalues : ∀ m ∈ w.order, m.value ≠ quoted (ascii "start") := fun m hm =>
    w.object.value_ne_of_mem (w.permuted.mem_iff.mp hm)
  obtain ⟨m, after, hsuffix, hfound, hordered, hscanned⟩ := member_found keyWord_start hkeys hvalues
    w.object.blank_front (w.object.back ++ rest)
  obtain ⟨inner, hclosed, hinner⟩ := behind_key_closed
    (fun n hn => w.isInside n (hsuffix.subset hn)) (w.object.back ++ rest)
  refine ⟨quoted (ascii "start") ++ m.behind_key (members_behind after (w.object.back ++ rest)),
    ?_, ?_, ?_⟩
  · have hstarts := object_starts_of_strstr hfound
    rw [WrittenPeriod.text, hstarts, hclosed,
      object_starts_seen_append fun hmem => (hinner brace hmem).2 rfl]
    exact congrArg _ ((object_starts_close _).trans
      (object_starts_unquoted (quote_notMem_blanks w.object.blank_back) rest))
  · rw [hclosed]
    simp [close_brace]
  · exact w.scan_found hordered hscanned _

/-- The periods that are collected from a closed key and later ones are that of the key, if it has
one, and the later ones. -/
theorem closed_periods_cons {found : Text} (hclosed : brace ∈ found) {period : Option schedule_period_t}
    (hscan : scan_period found = period) (starts : List Text) :
    closed_periods (found :: starts) = period.toList ++ closed_periods starts := by
  cases period with
  | none => exact List.filterMap_cons_none (by rw [if_pos hclosed, hscan])
  | some period => exact List.filterMap_cons_some (by rw [if_pos hclosed, hscan])

/-- The periods of written objects are that of the first one, if its order is the scanned one, and
those of the others. -/
theorem scanned_periods_cons (w : WrittenPeriod) (written : List WrittenPeriod) :
    scanned_periods (w :: written) =
      (if w.InScannedOrder then some w.object.period else none).toList ++ scanned_periods written := by
  by_cases horder : w.InScannedOrder <;> simp [scanned_periods, horder]

/-- The objects are closed stretches of the text, and the periods read from them are
those written in the scanned order. -/
theorem object_starts_written_text (written : List WrittenPeriod) (rest : Text) :
    ∃ starts, object_starts false (written_text written rest) = starts ++ object_starts false rest ∧
      (∀ found ∈ starts, brace ∈ found) ∧ closed_periods starts = scanned_periods written := by
  induction written with
  | nil => exact ⟨[], rfl, by simp, rfl⟩
  | cons w written ih =>
    obtain ⟨starts, hstarts, hclosed, hperiods⟩ := ih
    obtain ⟨behind, htext, hbehind⟩ : ∃ behind, written_text (w :: written) rest = w.text behind ∧
        object_starts false behind = object_starts false (written_text written rest) := by
      cases written with
      | nil => exact ⟨rest, rfl, rfl⟩
      | cons next others => exact ⟨_, rfl, object_starts_unquoted (by decide) _⟩
    obtain ⟨found, hfound, hbrace, hscan⟩ := object_starts_written w behind
    refine ⟨found :: starts, ?_, List.forall_mem_cons.mpr ⟨hbrace, hclosed⟩, ?_⟩
    · rw [htext, hfound, hbehind, hstarts]
      rfl
    · rw [closed_periods_cons hbrace hscan, hperiods, scanned_periods_cons]

/-- What follows a written object can be taken apart from it. -/
theorem WrittenPeriod.text_append (w : WrittenPeriod) (rest : Text) :
    w.text rest = w.text [] ++ rest := by
  rw [text, text, object_text_append, object_text_append _ _ (w.object.back ++ [])]
  simp

/-- The order of the members does not matter for the length of a body, so that either all of its
orders are admitted or none. -/
theorem length_written_text {first second : List WrittenPeriod}
    (h : first.map WrittenPeriod.object = second.map WrittenPeriod.object) (rest : Text) :
    (written_text first rest).length = (written_text second rest).length := by
  induction first generalizing second with
  | nil =>
    obtain rfl := List.map_eq_nil_iff.mp h.symm
    rfl
  | cons w first ih =>
    cases second with
    | nil => cases h
    | cons v second =>
      obtain ⟨hobject, hothers⟩ := List.cons.inj h
      have htext : (w.text []).length = (v.text []).length := by
        rw [WrittenPeriod.text, WrittenPeriod.text, ← hobject]
        exact length_object_text (w.permuted.trans (hobject ▸ v.permuted.symm)) _ _
      have hrest := ih hothers
      cases first with
      | nil =>
        obtain rfl := List.map_eq_nil_iff.mp hothers.symm
        rw [written_text, written_text, w.text_append, v.text_append]
        simp [htext]
      | cons next first =>
        cases second with
        | nil => cases hothers
        | cons next second =>
          rw [written_text, written_text, w.text_append, v.text_append]
          simp [htext, hrest]

/-- Written objects have no NUL, if what follows them has none. So a body of them is not cut short
by the C string functions. -/
theorem zero_notMem_written_text {written : List WrittenPeriod} {rest : Text}
    (h : (0 : UInt8) ∉ rest) : (0 : UInt8) ∉ written_text written rest := by
  have hobject (w : WrittenPeriod) {rest : Text} (h : (0 : UInt8) ∉ rest) : (0 : UInt8) ∉ w.text rest :=
    zero_notMem_object_text w.object.blank_front w.isInside
      (List.mem_append.not.mpr (not_or.mpr ⟨zero_notMem_blanks w.object.blank_back, h⟩))
  induction written with
  | nil => exact h
  | cons w written ih =>
    cases written with
    | nil => exact hobject w h
    | cons next others => exact hobject w (by simp [comma, ih])

namespace Envelope

variable {count : Nat} {opening closing : Text}

/-- What surrounds the objects has none. -/
theorem zero_notMem (h : Envelope count opening closing) :
    (0 : UInt8) ∉ opening ∧ (0 : UInt8) ∉ closing := by
  cases h with
  | single hclosing => exact ⟨by simp, zero_notMem_blanks hclosing⟩
  | wrapped hopening hclosing hblanks =>
    exact ⟨nonzero_of_tokens hopening (by decide) (by simp),
      nonzero_of_tokens hclosing (by decide) (zero_notMem_blanks hblanks)⟩

/-- Only the objects themselves have stretches with a key. What stands around them, for each form
of a body, brings none. -/
theorem object_starts (h : Envelope count opening closing) (text : Text) :
    http_server.object_starts false (opening ++ text) = http_server.object_starts false text ∧
      http_server.object_starts false closing = [] := by
  cases h with
  | single hclosing => exact ⟨rfl, object_starts_blanks hclosing⟩
  | wrapped hopening hclosing hblanks =>
    refine ⟨object_starts_periods_key (hopening.rest_append text), ?_⟩
    rw [object_starts_tokens hclosing (by decide), object_starts_blanks hblanks]

/-- A body is never empty, even without a period: the objects or the array around them have at
least one byte. -/
theorem length_pos (h : Envelope count opening closing) {written : List WrittenPeriod}
    (hcount : written.length = count) : 0 < (opening ++ written_text written closing).length := by
  cases h with
  | single hclosing =>
    obtain ⟨w, rfl⟩ := List.length_eq_one_iff.mp hcount
    simp [written_text, WrittenPeriod.text, object_text, open_brace]
  | wrapped hopening hclosing hblanks =>
    cases hopening
    simp [open_brace]

end Envelope

end communication_center.http_server
