import CommunicationCenter.HttpServer.ListingBuffer

open libc communication_center.system_state

namespace communication_center.http_server

/-- The tokens of an array of periods, with the modes written by the given function. -/
def array_tokens (mode_text : system_mode_t → Text) (periods : List schedule_period_t) : List Text :=
  [open_brace, periods_key, colon, open_bracket] ++
    (objects_tokens (periods.map fun period => (period, mode_text period.mode)) ++
      [close_bracket, close_brace])

theorem tokens_flatten (blank : UInt8 → Bool) (tokens : List Text) (rest : Text) :
    Tokens blank tokens rest (tokens.flatten ++ rest) := by
  induction tokens with
  | nil => exact .nil
  | cons token tokens ih =>
    have hcons : Tokens blank (token :: tokens) rest ([] ++ (token ++ (tokens.flatten ++ rest))) :=
      .cons (by simp) ih
    simpa using hcons

theorem period_entry_eq (mode_text : system_mode_t → Text) (first : Bool)
    (period : schedule_period_t) : period_entry mode_text first period =
      (if first then [] else comma) ++ (period_tokens period (mode_text period.mode)).flatten := by
  have hopen : ascii "\x7b\"start\":\"" = open_brace ++ (start_key ++ (colon ++ [34])) := by decide
  have hend : ascii "\",\"end\":\"" = 34 :: (comma ++ (ascii "\"end\"" ++ (colon ++ [34]))) := by decide
  have hmode : ascii "\",\"mode\":" = 34 :: (comma ++ (ascii "\"mode\"" ++ colon)) := by decide
  rw [period_entry, hopen, hend, hmode]
  simp [period_tokens, member_tokens, quoted]

theorem entries_json_eq (mode_text : system_mode_t → Text) (periods : List schedule_period_t) :
    entries_json mode_text true periods =
        (objects_tokens (periods.map fun period => (period, mode_text period.mode))).flatten ∧
      (periods ≠ [] → entries_json mode_text false periods = comma ++
        (objects_tokens (periods.map fun period => (period, mode_text period.mode))).flatten) := by
  induction periods with
  | nil => exact ⟨rfl, fun h => absurd rfl h⟩
  | cons period periods ih =>
    have hobjects : (objects_tokens
        ((period :: periods).map fun period => (period, mode_text period.mode))).flatten =
        (period_tokens period (mode_text period.mode)).flatten ++
          entries_json mode_text false periods := by
      cases periods with
      | nil => simp [objects_tokens, entries_json]
      | cons =>
        rw [ih.2 (by simp)]
        simp [objects_tokens]
    rw [hobjects, entries_json, entries_json, period_entry_eq, period_entry_eq]
    exact ⟨rfl, fun _ => by simp⟩

/-- The listing is the array of the periods, in order and without others. Nothing is assumed of the
periods here; their times are in it as they are stored. -/
theorem schedule_json_tokens (mode_text : system_mode_t → Text) (periods : List schedule_period_t) :
    Tokens json_space (array_tokens mode_text periods) [] (schedule_json mode_text periods) := by
  have hinside : Tokens json_space (colon :: open_bracket ::
      (objects_tokens (periods.map fun period => (period, mode_text period.mode)) ++
        [close_bracket, close_brace])) []
      (colon ++ (open_bracket ++ (entries_json mode_text true periods ++ ascii "]\x7d"))) := by
    have hflatten := tokens_flatten json_space (colon :: open_bracket ::
      (objects_tokens (periods.map fun period => (period, mode_text period.mode)) ++
        [close_bracket, close_brace])) []
    rw [(entries_json_eq mode_text periods).1]
    simpa [close_bracket, close_brace, ascii, brace] using hflatten
  have hkey : Tokens json_space (periods_key :: _) [] ([32] ++ (periods_key ++ _)) :=
    .cons (by simp [json_space]) hinside
  have hopen : Tokens json_space (open_brace :: _) [] ([] ++ (open_brace ++ _)) :=
    .cons (by simp) hkey
  exact hopen

theorem jsonInt_int_text (value : Int) : JsonInt (int_text value) value := by
  refine ⟨decide (value < 0), decimal value.natAbs, decimal_ne_nil _,
    fun c hc => isdigit_of_mem_decimal hc, decimal_of_leading_zero, rfl, ?_⟩
  rw [digits_value_decimal]
  by_cases hnegative : value < 0
  · simp only [hnegative, decide_true, if_true]
    omega
  · simp only [hnegative, decide_false, Bool.false_eq_true, if_false]
    omega

/-- An array with its modes written as numbers is a document, whatever white space is in it. -/
theorem isDocument_of_tokens {periods : List schedule_period_t}
    (hcount : periods.length ≤ MAX_PERIODS) (hsendable : ∀ period ∈ periods, Sendable period)
    {text blanks : Text} (htokens : Tokens json_space (array_tokens int_text periods) blanks text)
    (hblanks : ∀ c ∈ blanks, json_space c = true) : IsDocument text periods where
  count := hcount
  sendable := hsendable
  rendered := by
    have hmodes : ∀ item ∈ periods.map fun period => (period, int_text period.mode),
        JsonInt item.2 item.1.mode := by
      intro item hitem
      obtain ⟨period, _, rfl⟩ := List.mem_map.mp hitem
      exact jsonInt_int_text period.mode
    have hdocument := DocumentTokens.wrapped hmodes
    rw [List.map_map, show Prod.fst ∘ (fun period : schedule_period_t =>
      (period, int_text period.mode)) = id from rfl, List.map_id] at hdocument
    exact ⟨_, blanks, hdocument, htokens, hblanks⟩

/-- With the modes written as numbers, the listing is a document. -/
theorem isDocument_schedule_json {periods : List schedule_period_t}
    (hcount : periods.length ≤ MAX_PERIODS) (hsendable : ∀ period ∈ periods, Sendable period) :
    IsDocument (schedule_json int_text periods) periods :=
  isDocument_of_tokens hcount hsendable (schedule_json_tokens int_text periods) (by simp)

end communication_center.http_server
