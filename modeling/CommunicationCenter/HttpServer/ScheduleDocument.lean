import CommunicationCenter.HttpServer.DocumentScan
import CommunicationCenter.HttpServer.Handlers
import CommunicationCenter.HttpServer.Listing

open libc communication_center.system_state

namespace communication_center.http_server

/-- A text of tokens has no NUL if the tokens have none, and what follows them has none. White
space never is one. -/
theorem nonzero_of_tokens {tokens : List Text} {rest text : Text}
    (h : Tokens json_space tokens rest text) (htokens : ∀ token ∈ tokens, (0 : UInt8) ∉ token)
    (hrest : (0 : UInt8) ∉ rest) : (0 : UInt8) ∉ text := by
  obtain ⟨before, rfl, hbefore⟩ := tokens_before h
  intro hzero
  rcases List.mem_append.mp hzero with hmem | hmem
  · rcases hbefore 0 hmem with hblank | ⟨token, htoken, hin⟩
    · exact absurd hblank (by decide)
    · exact htokens token htoken hin
  · exact hrest hmem

/-- The tokens of a period have none, since its times can be sent and its mode is a numeral. -/
theorem nonzero_period_tokens {period : schedule_period_t} {numeral : Text}
    (hperiod : Sendable period) (hmode : JsonInt numeral period.mode) :
    ∀ token ∈ period_tokens period numeral, (0 : UInt8) ∉ token := by
  have hstart : (0 : UInt8) ∉ quoted period.start := by
    have hplain : (0 : UInt8) ∉ period.start := fun h =>
      (plain_of_timeText hperiod.start 0 h).1 rfl
    simpa [quoted] using hplain
  have hend : (0 : UInt8) ∉ quoted period.end_ := by
    have hplain : (0 : UInt8) ∉ period.end_ := fun h => (plain_of_timeText hperiod.end_ 0 h).1 rfl
    simpa [quoted] using hplain
  have hnumeral : (0 : UInt8) ∉ numeral := fun h => (plain_of_jsonInt hmode 0 h).1 rfl
  have hpunctuation : (0 : UInt8) ∉ open_brace ∧ (0 : UInt8) ∉ start_key ∧ (0 : UInt8) ∉ colon ∧
      (0 : UInt8) ∉ comma ∧ (0 : UInt8) ∉ ascii "\"end\"" ∧ (0 : UInt8) ∉ ascii "\"mode\"" ∧
      (0 : UInt8) ∉ close_brace := by decide
  simp [period_tokens, member_tokens, hstart, hend, hnumeral, hpunctuation]

/-- Nor have those of several periods, with the braces and commas between them. -/
theorem nonzero_objects_tokens {items : List (schedule_period_t × Text)}
    (hsendable : ∀ item ∈ items, Sendable item.1)
    (hmodes : ∀ item ∈ items, JsonInt item.2 item.1.mode) :
    ∀ token ∈ objects_tokens items, (0 : UInt8) ∉ token := by
  induction items with
  | nil => simp [objects_tokens]
  | cons item items ih =>
    have hfirst := nonzero_period_tokens (hsendable item (by simp)) (hmodes item (by simp))
    have hrest := ih (fun i hi => hsendable i (List.mem_cons_of_mem _ hi))
      (fun i hi => hmodes i (List.mem_cons_of_mem _ hi))
    cases items with
    | nil => exact hfirst
    | cons next items =>
      intro token htoken
      rcases List.mem_append.mp htoken with hmem | hmem
      · exact hfirst token hmem
      · rcases List.mem_cons.mp hmem with rfl | hmem
        · decide
        · exact hrest token hmem

/-- A document is a C string: none of its bytes is the NUL, so that the length that was received is
the one that the handler sees. -/
theorem nonzero_of_document {text : Text} {periods : List schedule_period_t}
    (h : IsDocument text periods) : (0 : UInt8) ∉ text := by
  obtain ⟨_, hsendable, tokens, blanks, hdocument, htokens, hblanks⟩ := h
  refine nonzero_of_tokens htokens ?_ (zero_notMem_blanks hblanks)
  cases hdocument with
  | @single period numeral hmode => exact nonzero_period_tokens (hsendable period (by simp)) hmode
  | @wrapped items hmodes =>
    have hobjects := nonzero_objects_tokens
      (fun item hitem => hsendable item.1 (List.mem_map_of_mem hitem)) hmodes
    intro token htoken
    rcases List.mem_append.mp htoken with hmem | hmem
    · have hopen : ∀ token ∈ [open_brace, periods_key, colon, open_bracket],
          (0 : UInt8) ∉ token := by decide
      exact hopen token hmem
    · rcases List.mem_append.mp hmem with hmem | hmem
      · exact hobjects token hmem
      · have hclose : ∀ token ∈ [close_bracket, close_brace], (0 : UInt8) ∉ token := by decide
        exact hclose token hmem

/-- A document has an opening brace, in whichever of its forms it is, so that it is not empty. -/
theorem open_brace_mem_of_document {text : Text} {periods : List schedule_period_t}
    (h : IsDocument text periods) : (123 : UInt8) ∈ text := by
  obtain ⟨_, _, tokens, blanks, hdocument, htokens, _⟩ := h
  have hbrace : ∃ others, tokens = open_brace :: others := by
    cases hdocument with
    | single => exact ⟨_, rfl⟩
    | wrapped => exact ⟨_, rfl⟩
  obtain ⟨others, rfl⟩ := hbrace
  cases htokens
  simp [open_brace]

/-- A received text whose objects are all closed is parsed into their periods, at most MAX_PERIODS
of them. The loop makes no fault here. -/
theorem schedule_post_parse_of_closed {text : Text} (hpositive : 0 < text.length)
    (hlength : text.length < 512) (hzero : (0 : UInt8) ∉ text)
    (hclosed : ∀ found ∈ object_starts false text, brace ∈ found) :
    schedule_post_parse (.delivered text) =
      .ok (some (.ok ((closed_periods (object_starts false text)).take MAX_PERIODS))) := by
  rw [schedule_post_parse, read_body_delivered hpositive hlength, cstr_eq_self hzero]
  simp only [bind, Except.bind]
  rw [schedule_loop_eq (object_starts_length_le text), loop_result_of_closed hclosed (Nat.zero_le _),
    List.nil_append]

/-- The body of a document is parsed into exactly its periods. -/
theorem schedule_post_parse_document {text : Text} {periods : List schedule_period_t}
    (h : IsDocument text periods) (hlength : text.length < 512) :
    schedule_post_parse (.delivered text) = .ok (some (.ok periods)) := by
  have hpositive := List.length_pos_of_mem (open_brace_mem_of_document h)
  obtain ⟨hperiods, hclosed⟩ := closed_periods_of_holds (object_starts_of_document h)
  rw [schedule_post_parse_of_closed hpositive hlength (nonzero_of_document h) hclosed, hperiods,
    List.take_of_length_le h.count]

/-- An accepted body of the given periods stores exactly them, in any state, and is answered OK. -/
theorem schedule_post_handler_of_parse {F : Type} {req : httpd_req_t}
    {periods : List schedule_period_t} (h : schedule_post_parse req = .ok (some (.ok periods)))
    (s : State F) : ∃ outcome, schedule_post_handler req s = some outcome ∧
      outcome.answer = .ok () ∧ outcome.state.schedule = periods := by
  obtain ⟨status, hstatus⟩ := schedule_post_status_frame periods.length
    (decide (s.current_mode = MODE_MANUAL)) { s with schedule := periods }
  refine ⟨{ answer := .ok (), state := { s with schedule := periods, status }, messages := [] },
    ?_, rfl, rfl⟩
  simp only [schedule_post_handler, h, schedule_post_section, hstatus]

/-- Every rendering of at most `MAX_PERIODS` periods that fits the buffer is stored as exactly
these periods, and the next listing is the array of exactly these periods, in order. Nothing is
assumed of the state, whose former schedule is gone, nor of the white space. The hours and minutes
of a time may be any two digits each. -/
theorem document_stored_and_listed {F : Type} {text : Text} {periods : List schedule_period_t}
    (h : IsDocument text periods) (hlength : text.length < 512) (s : State F) :
    ∃ outcome listing, schedule_post_handler (.delivered text) s = some outcome ∧
      outcome.answer = .ok () ∧ outcome.state.schedule = periods ∧
      schedule_get_handler outcome.state = .ok listing ∧
      Tokens json_space (array_tokens listed_mode periods) [] listing := by
  obtain ⟨outcome, houtcome, hanswer, hstored⟩ :=
    schedule_post_handler_of_parse (schedule_post_parse_document h hlength) s
  have hlisting := schedule_get_handler_eq (s := outcome.state) (hstored ▸ h.count)
    (fun period hperiod => (h.sendable period (hstored ▸ hperiod)).listable)
  rw [hstored] at hlisting
  exact ⟨outcome, _, houtcome, hanswer, hstored, hlisting, schedule_json_tokens _ _⟩

private def office_hours : List schedule_period_t :=
  [⟨ascii "08:00", ascii "12:00", MODE_AUTO_ECO⟩, ⟨ascii "13:00", ascii "18:00", MODE_AUTO_BEST⟩,
    ⟨ascii "22:00", ascii "06:00", MODE_MANUAL⟩]

private def office_hours_body : Text :=
  [ascii "\x7b \"periods\": [\n",
    ascii "  \x7b \"start\": \"08:00\", \"end\": \"12:00\", \"mode\": 1 \x7d,\n",
    ascii "  \x7b\"start\" : \"13:00\",\"end\" : \"18:00\",\"mode\" : 0\x7d ,\n",
    ascii "  \x7b \"start\":\"22:00\", \"end\":\"06:00\", \"mode\":2 \x7d ] \x7d\n"].flatten

private theorem isDocument_office_hours : IsDocument office_hours_body office_hours := by
  have hsendable : ∀ period ∈ office_hours, Sendable period := by
    have hmorning : Sendable ⟨ascii "08:00", ascii "12:00", MODE_AUTO_ECO⟩ :=
      ⟨⟨48, 56, 48, 48, by decide⟩, ⟨49, 50, 48, 48, by decide⟩, by decide, by decide⟩
    have hafternoon : Sendable ⟨ascii "13:00", ascii "18:00", MODE_AUTO_BEST⟩ :=
      ⟨⟨49, 51, 48, 48, by decide⟩, ⟨49, 56, 48, 48, by decide⟩, by decide, by decide⟩
    have hnight : Sendable ⟨ascii "22:00", ascii "06:00", MODE_MANUAL⟩ :=
      ⟨⟨50, 50, 48, 48, by decide⟩, ⟨48, 54, 48, 48, by decide⟩, by decide, by decide⟩
    simp [office_hours, hmorning, hafternoon, hnight]
  have hstrip : strip_tokens json_space (array_tokens int_text office_hours) office_hours_body =
      some [10] := by
    decide +kernel
  exact isDocument_of_tokens (by decide) hsendable (.of_strip hstrip)
    (List.forall_mem_singleton.mpr rfl)

theorem document_stored_and_listed_office_hours :
    ∃ outcome listing, schedule_post_handler (.delivered office_hours_body)
        (State.initial : State Binary32) = some outcome ∧
      outcome.answer = .ok () ∧ outcome.state.schedule = office_hours ∧
      schedule_get_handler outcome.state = .ok listing ∧
      Tokens json_space (array_tokens listed_mode office_hours) [] listing :=
  document_stored_and_listed isDocument_office_hours (by decide +kernel) State.initial

variable {F : Type}

/-- A body whose length is not admitted is answered with an error before it is read, and nothing is
changed. -/
theorem schedule_post_handler_refused {body : List UInt8}
    (hlength : body.length = 0 ∨ 512 ≤ body.length) (s : State F) :
    schedule_post_handler (.delivered body) s =
      some { answer := .error ⟨.HTTPD_400_BAD_REQUEST, "len"⟩, state := s, messages := [] } := by
  have hparse : schedule_post_parse (.delivered body) = .error ⟨.HTTPD_400_BAD_REQUEST, "len"⟩ := by
    rw [schedule_post_parse, read_body_refused hlength]
    rfl
  rw [schedule_post_handler, hparse]

/-- A body that was received is never answered with an error, whatever it holds. Only the length of
the body can lead to one. -/
theorem schedule_post_handler_received {body : List UInt8} (hpositive : body.length ≠ 0)
    (hfits : body.length < 512) {s : State F} {outcome : PostOutcome F}
    (h : schedule_post_handler (.delivered body) s = some outcome) (e : HttpError) :
    outcome.answer ≠ .error e := by
  have hparse : schedule_post_parse (.delivered body) =
      .ok (schedule_loop (start_count (cstr body)) (some (cstr body)) []) := by
    rw [schedule_post_parse, read_body_delivered (Nat.pos_of_ne_zero hpositive) hfits]
    rfl
  simp only [schedule_post_handler, hparse] at h
  split at h
  · next heq => cases heq
  · cases h
    simp
  · cases h

end communication_center.http_server
