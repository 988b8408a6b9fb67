import CommunicationCenter.HttpServer.Document
import CommunicationCenter.Libc.Decimal

open libc communication_center.system_state

namespace communication_center.http_server

def RESP_SIZE : Nat := 512

/-- The buffer `resp` with the text in it, and `offset`, which counts the bytes
that the calls of `snprintf` wanted to write. -/
structure Resp where
  text : Text
  offset : Nat

/-- A call of `snprintf` behind the text. The remaining size is unsigned, so past
the end of the buffer it no longer limits the call. -/
def Resp.append (resp : Resp) (piece : Text) : Except Fault Resp :=
  if resp.offset ≤ RESP_SIZE then
    .ok { text := resp.text ++ snprintf (RESP_SIZE - resp.offset) piece
          offset := resp.offset + piece.length }
  else .error .localOverflow

/-- One period as it is listed, with its mode written by the given function. -/
def period_entry (mode_text : system_mode_t → Text) (first : Bool) (period : schedule_period_t) : Text :=
  (if first then [] else comma) ++ (ascii "\x7b\"start\":\"" ++ (period.start ++
    (ascii "\",\"end\":\"" ++ (period.end_ ++ (ascii "\",\"mode\":" ++ (mode_text period.mode ++
      close_brace))))))

/-- The listing writes modes as strings. -/
def listed_mode (mode : system_mode_t) : Text :=
  quoted (int_text mode)

/-- The loop of `schedule_get_handler`. -/
def append_entries (first : Bool) : List schedule_period_t → Resp → Except Fault Resp
  | [], resp => .ok resp
  | period :: periods, resp => do
    let resp ← resp.append (period_entry listed_mode first period)
    append_entries false periods resp

variable {F : Type}

def schedule_get_handler (s : State F) : Except Fault Text := do
  let resp ← Resp.append ⟨[], 0⟩ (ascii "\x7b \"periods\":[")
  let resp ← append_entries true s.schedule resp
  let resp ← resp.append (ascii "]\x7d")
  .ok resp.text

/-- The entries one after the other. -/
def entries_json (mode_text : system_mode_t → Text) (first : Bool) : List schedule_period_t → Text
  | [] => []
  | period :: periods =>
    period_entry mode_text first period ++ entries_json mode_text false periods

/-- The whole listing without any buffer. -/
def schedule_json (mode_text : system_mode_t → Text) (periods : List schedule_period_t) : Text :=
  ascii "\x7b \"periods\":[" ++ (entries_json mode_text true periods ++ ascii "]\x7d")

example : schedule_json listed_mode [⟨ascii "08:00", ascii "18:00", 0⟩] =
    ascii "\x7b \"periods\":[\x7b\"start\":\"08:00\",\"end\":\"18:00\",\"mode\":\"0\"\x7d]\x7d" := by
  decide

/-- Nothing is cut off while the text stays in the buffer. -/
theorem append_fits {resp : Resp} {piece : Text} (hfits : resp.offset + piece.length < RESP_SIZE) :
    resp.append piece = .ok ⟨resp.text ++ piece, resp.offset + piece.length⟩ := by
  rw [Resp.append, if_pos (by omega), snprintf, List.take_of_length_le (by omega)]

/-- A period whose entry has at most 53 bytes. -/
structure Listable (period : schedule_period_t) : Prop where
  start : period.start.length ≤ 5
  end_ : period.end_.length ≤ 5
  mode_min : INT_MIN ≤ period.mode
  mode_max : period.mode ≤ INT_MAX

theorem Sendable.listable {period : schedule_period_t} (h : Sendable period) : Listable period where
  start := (quotedField_of_timeText h.start).bounded
  end_ := (quotedField_of_timeText h.end_).bounded
  mode_min := h.mode_min
  mode_max := h.mode_max

theorem period_entry_length_le {period : schedule_period_t} (h : Listable period)
    {mode_text : system_mode_t → Text} (hmode : (mode_text period.mode).length ≤ 13) (first : Bool) :
    (period_entry mode_text first period).length ≤ 53 := by
  have hcomma : ((if first then [] else comma) : Text).length ≤ 1 := by cases first <;> decide
  have hstart := h.start
  have hend := h.end_
  have hpieces : (ascii "\x7b\"start\":\"").length = 10 ∧ (ascii "\",\"end\":\"").length = 9 ∧
      (ascii "\",\"mode\":").length = 9 ∧ close_brace.length = 1 := by decide
  obtain ⟨h1, h2, h3, h4⟩ := hpieces
  simp only [period_entry, List.length_append, h1, h2, h3, h4]
  omega

theorem listed_mode_length_le {period : schedule_period_t} (h : Listable period) :
    (listed_mode period.mode).length ≤ 13 := by
  have hdigits := int_text_length_le h.mode_min h.mode_max
  simp only [listed_mode, quoted, List.length_cons, List.length_append, List.length_nil]
  omega

theorem entries_json_length_le {periods : List schedule_period_t}
    (hlistable : ∀ period ∈ periods, Listable period) {mode_text : system_mode_t → Text}
    (hmode : ∀ period ∈ periods, (mode_text period.mode).length ≤ 13) (first : Bool) :
    (entries_json mode_text first periods).length ≤ 53 * periods.length := by
  induction periods generalizing first with
  | nil => exact Nat.zero_le _
  | cons period periods ih =>
    have hfirst := period_entry_length_le (hlistable period (by simp)) (hmode period (by simp)) first
    have hrest := ih (fun p hp => hlistable p (List.mem_cons_of_mem _ hp))
      (fun p hp => hmode p (List.mem_cons_of_mem _ hp)) false
    rw [entries_json, List.length_append, List.length_cons]
    omega

/-- The whole listing leaves room for its NUL: at most MAX_PERIODS periods with times of at most
five bytes, each with the text of a mode, are shorter than the buffer. -/
theorem schedule_json_length_lt {periods : List schedule_period_t}
    (hcount : periods.length ≤ MAX_PERIODS) (hlistable : ∀ period ∈ periods, Listable period)
    {mode_text : system_mode_t → Text}
    (hmode : ∀ period ∈ periods, (mode_text period.mode).length ≤ 13) :
    (schedule_json mode_text periods).length < 512 := by
  have hentries := entries_json_length_le hlistable hmode true
  have hcount' : periods.length ≤ 8 := hcount
  have hopen : (ascii "\x7b \"periods\":[").length = 13 := by decide
  have hclose : (ascii "]\x7d").length = 2 := by decide
  rw [schedule_json, List.length_append, List.length_append, hopen, hclose]
  omega

end communication_center.http_server
