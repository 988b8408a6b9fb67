import CommunicationCenter.HttpServer.StoredPeriods
import CommunicationCenter.Libc.Float

open libc communication_center.system_state

namespace communication_center.http_server

/-- The white space of JSON. -/
def json_space (c : UInt8) : Bool :=
  c = 32 || c = 9 || c = 10 || c = 13

def open_brace : Text := [123]
def close_brace : Text := [brace]
def open_bracket : Text := [91]
def close_bracket : Text := [93]
def periods_key : Text := ascii "\"periods\""

/-- An integer literal of JSON. -/
def JsonInt (numeral : Text) (value : Int) : Prop :=
  ∃ negative digits, digits ≠ [] ∧ (∀ c ∈ digits, isdigit c = true) ∧
    (digits.head? = some 48 → digits = [48]) ∧ numeral = minus negative ++ digits ∧
    value = if negative then -(digits_value digits : Int) else digits_value digits

/-- The form `HH:MM`, five characters. -/
def TimeText (text : Text) : Prop :=
  ∃ h1 h2 m1 m2, text = [h1, h2, 58, m1, m2] ∧ isdigit h1 = true ∧ isdigit h2 = true ∧
    isdigit m1 = true ∧ isdigit m2 = true

/-- A period that a document can carry: times `HH:MM`, and a mode that is an `int`. -/
structure Sendable (period : schedule_period_t) : Prop where
  start : TimeText period.start
  end_ : TimeText period.end_
  mode_min : INT_MIN ≤ period.mode
  mode_max : period.mode ≤ INT_MAX

/-- The members behind the key of the start time. -/
def member_tokens (period : schedule_period_t) (numeral : Text) : List Text :=
  [colon, quoted period.start, comma, ascii "\"end\"", colon, quoted period.end_,
    comma, ascii "\"mode\"", colon, numeral]

/-- A period object with its mode written as the given numeral. -/
def period_tokens (period : schedule_period_t) (numeral : Text) : List Text :=
  open_brace :: start_key :: (member_tokens period numeral ++ [close_brace])

/-- Period objects separated by commas. -/
def objects_tokens : List (schedule_period_t × Text) → List Text
  | [] => []
  | [item] => period_tokens item.1 item.2
  | item :: next :: items => period_tokens item.1 item.2 ++ comma :: objects_tokens (next :: items)

/-- The two documented forms: a single period object, or an array of them. -/
inductive DocumentTokens : List schedule_period_t → List Text → Prop where
  | single {period : schedule_period_t} {numeral : Text} (hmode : JsonInt numeral period.mode) :
      DocumentTokens [period] (period_tokens period numeral)
  | wrapped {items : List (schedule_period_t × Text)}
      (hmodes : ∀ item ∈ items, JsonInt item.2 item.1.mode) :
      DocumentTokens (items.map Prod.fst) ([open_brace, periods_key, colon, open_bracket] ++
        (objects_tokens items ++ [close_bracket, close_brace]))

/-- A well-formed schedule document, with any white space between its tokens. -/
structure IsDocument (text : Text) (periods : List schedule_period_t) : Prop where
  count : periods.length ≤ MAX_PERIODS
  sendable : ∀ period ∈ periods, Sendable period
  rendered : ∃ tokens blanks, DocumentTokens periods tokens ∧ Tokens json_space tokens blanks text ∧
    ∀ c ∈ blanks, json_space c = true

/-- A byte that neither ends a C string nor is a quote or a closing brace. -/
def Plain (c : UInt8) : Prop :=
  c ≠ 0 ∧ c ≠ 34 ∧ c ≠ brace

/-- The white space of JSON is white space for the scanner. -/
theorem isspace_of_json_space {c : UInt8} (h : json_space c = true) : isspace c = true := by
  simp only [json_space, Bool.or_eq_true, decide_eq_true_eq] at h
  rcases h with ((rfl | rfl) | rfl) | rfl <;> decide

/-- It is none of the characters that matter in a search. -/
theorem plain_of_json_space {c : UInt8} (h : json_space c = true) : Plain c := by
  simp only [json_space, Bool.or_eq_true, decide_eq_true_eq] at h
  rcases h with ((rfl | rfl) | rfl) | rfl <;> exact ⟨by decide, by decide, by decide⟩

/-- So it has no NUL. -/
theorem zero_notMem_blanks {blanks : Text} (h : ∀ c ∈ blanks, json_space c = true) :
    (0 : UInt8) ∉ blanks :=
  fun hmem => (plain_of_json_space (h 0 hmem)).1 rfl

/-- Nor is a digit one of them. -/
theorem plain_of_isdigit {c : UInt8} (h : isdigit c = true) : Plain c := by
  refine ⟨?_, ?_, ?_⟩ <;> rintro rfl <;> exact absurd h (by decide)

/-- Nor any character of a time. -/
theorem plain_of_timeText {text : Text} (h : TimeText text) : ∀ c ∈ text, Plain c := by
  obtain ⟨h1, h2, m1, m2, rfl, hh1, hh2, hm1, hm2⟩ := h
  have hcolon : Plain 58 := ⟨by decide, by decide, by decide⟩
  simp [plain_of_isdigit hh1, plain_of_isdigit hh2, plain_of_isdigit hm1, plain_of_isdigit hm2, hcolon]

/-- Nor one of an integer. -/
theorem plain_of_intText {numeral : Text} {number : Int} (h : IntText numeral number) :
    ∀ c ∈ numeral, Plain c := by
  obtain ⟨mark, negative, digits, hmark, _, hdigits, rfl, _⟩ := h
  intro c hc
  rcases List.mem_append.mp hc with hsign | hdigit
  · rcases hmark.bytes hsign with rfl | rfl <;> exact ⟨by decide, by decide, by decide⟩
  · exact plain_of_isdigit (hdigits c hdigit)

theorem signText_minus (negative : Bool) : SignText (minus negative) negative := by
  cases negative with
  | false => exact .none
  | true => exact .minus

/-- A literal that is too large for an `int` is read as a saturated one. -/
theorem saturated_intText_of_jsonInt {numeral : Text} {value : Int} (h : JsonInt numeral value) :
    IntText numeral (max INT_MIN (min INT_MAX value)) := by
  obtain ⟨negative, digits, hne, hdigits, _, rfl, rfl⟩ := h
  exact ⟨minus negative, negative, digits, signText_minus negative, hne, hdigits, rfl, rfl⟩

/-- Nor one of a literal. -/
theorem plain_of_jsonInt {numeral : Text} {value : Int} (h : JsonInt numeral value) :
    ∀ c ∈ numeral, Plain c :=
  plain_of_intText (saturated_intText_of_jsonInt h)

/-- A time fits the field that the scanner reads. -/
theorem quotedField_of_timeText {text : Text} (h : TimeText text) : QuotedField 5 text := by
  have hplain := plain_of_timeText h
  obtain ⟨h1, h2, m1, m2, rfl, _⟩ := h
  exact ⟨by simp, by simp, fun hquote => (hplain 34 hquote).2.1 rfl⟩

/-- A literal that is an `int` is read as it is. -/
theorem intText_of_jsonInt {numeral : Text} {value : Int} (h : JsonInt numeral value)
    (hmin : INT_MIN ≤ value) (hmax : value ≤ INT_MAX) : IntText numeral value := by
  have hsaturated := saturated_intText_of_jsonInt h
  rwa [min_eq_right hmax, max_eq_right hmin] at hsaturated

/-- A text in front of its rest has the bytes of its tokens and white space. -/
theorem tokens_before {blank : UInt8 → Bool} {tokens : List Text} {rest text : Text}
    (h : Tokens blank tokens rest text) : ∃ before, text = before ++ rest ∧
      ∀ c ∈ before, blank c = true ∨ ∃ token ∈ tokens, c ∈ token := by
  induction h with
  | nil => exact ⟨[], rfl, by simp⟩
  | @cons blanks token rest text tokens hblanks _ ih =>
    obtain ⟨before, rfl, hbefore⟩ := ih
    refine ⟨blanks ++ (token ++ before), by simp, fun c hc => ?_⟩
    rcases List.mem_append.mp hc with hc | hc
    · exact Or.inl (hblanks c hc)
    · rcases List.mem_append.mp hc with hc | hc
      · exact Or.inr ⟨token, by simp, hc⟩
      · exact (hbefore c hc).imp_right fun ⟨t, ht, hct⟩ => ⟨t, List.mem_cons_of_mem _ ht, hct⟩

end communication_center.http_server
