import CommunicationCenter.HttpServer.Document

open libc communication_center.system_state

namespace communication_center.http_server

/-- Text without quotes has no key, so that it can be skipped. It may hold closing braces, since no
object has been begun. -/
theorem object_starts_unquoted {before : Text} (h : (34 : UInt8) ∉ before) (text : Text) :
    object_starts false (before ++ text) = object_starts false text := by
  induction before with
  | nil => rfl
  | cons c before ih =>
    obtain ⟨hne, htail⟩ := not_or.mp (List.mem_cons.not.mp h)
    have hkey : ¬ start_key <+: c :: (before ++ text) := fun hpre =>
      hne (List.cons_prefix_cons.mp hpre).1
    rw [List.cons_append, object_starts, ih htail]
    simp [List.isPrefixOf_iff_prefix, hkey]

/-- A quote that the letter of the key does not follow starts no key. -/
theorem object_starts_quote {text : Text} (h : text.head? ≠ some 115) :
    object_starts false (34 :: text) = object_starts false text := by
  have hkey : ¬ start_key <+: 34 :: text := by
    intro hpre
    obtain ⟨rest, hrest⟩ := (List.cons_prefix_cons.mp hpre).2
    rw [← hrest] at h
    exact h rfl
  rw [object_starts, if_neg (by decide)]
  simp [List.isPrefixOf_iff_prefix, hkey]

/-- Once the object has had its key, only its closing brace matters. Everything before it can be
skipped, further keys included. -/
theorem object_starts_seen_append {before : Text} (h : brace ∉ before) (text : Text) :
    object_starts true (before ++ text) = object_starts true text := by
  induction before with
  | nil => rfl
  | cons c before ih =>
    obtain ⟨hne, htail⟩ := not_or.mp (List.mem_cons.not.mp h)
    rw [List.cons_append, object_starts, if_neg (Ne.symm hne)]
    simpa using ih htail

/-- A key at the front of a text is a start of an object, and behind it the object has to be closed
first. -/
theorem object_starts_key (text : Text) :
    object_starts false (start_key ++ text) = (start_key ++ text) :: object_starts true text := by
  have hsplit : start_key ++ text = 34 :: (start_key.tail ++ text) := rfl
  have hkey : start_key.isPrefixOf (34 :: (start_key.tail ++ text)) = true :=
    List.isPrefixOf_iff_prefix.mpr (List.prefix_append _ _)
  rw [hsplit, object_starts, if_neg (by decide), if_pos (by simp [hkey]),
    object_starts_seen_append (by decide)]

/-- So is the first key that is found. -/
theorem object_starts_of_strstr {text behind : Text}
    (h : strstr start_key text = some (start_key ++ behind)) :
    object_starts false text = (start_key ++ behind) :: object_starts true behind := by
  rw [object_starts_eq, h, ← object_starts_key, object_starts_eq (start_key ++ behind),
    strstr_of_prefix (List.prefix_append _ _)]

/-- Behind a closing brace the next key counts again. -/
theorem object_starts_close (text : Text) :
    object_starts true (brace :: text) = object_starts false text := by
  rw [object_starts, if_pos rfl]

/-- Tokens without a quote, with white space between them, bring no key. This is how the
punctuation of a document is passed over. -/
theorem object_starts_tokens {tokens : List Text} {rest text : Text}
    (h : Tokens json_space tokens rest text) (htokens : ∀ token ∈ tokens, (34 : UInt8) ∉ token) :
    object_starts false text = object_starts false rest := by
  obtain ⟨before, rfl, hbefore⟩ := tokens_before h
  apply object_starts_unquoted
  intro hquote
  rcases hbefore 34 hquote with hblank | ⟨token, htoken, hmem⟩
  · exact absurd hblank (by decide)
  · exact htokens token htoken hmem

/-- The members of a period have no closing brace in them, since neither times that can be sent nor
numerals have one. So the object ends where its own brace is. -/
theorem brace_notMem_members {period : schedule_period_t} {numeral : Text}
    (hperiod : Sendable period) (hmode : JsonInt numeral period.mode) :
    ∀ token ∈ member_tokens period numeral, brace ∉ token := by
  have hstart : brace ∉ quoted period.start := by
    have hplain : brace ∉ period.start := fun h => (plain_of_timeText hperiod.start brace h).2.2 rfl
    simpa [quoted, brace] using hplain
  have hend : brace ∉ quoted period.end_ := by
    have hplain : brace ∉ period.end_ := fun h => (plain_of_timeText hperiod.end_ brace h).2.2 rfl
    simpa [quoted, brace] using hplain
  have hnumeral : brace ∉ numeral := fun h => (plain_of_jsonInt hmode brace h).2.2 rfl
  have hpunctuation : brace ∉ colon ∧ brace ∉ comma ∧ brace ∉ ascii "\"end\"" ∧
      brace ∉ ascii "\"mode\"" := by decide
  simp [member_tokens, hstart, hend, hnumeral, hpunctuation]

/-- White space has no quote. -/
theorem quote_notMem_blanks {blanks : Text} (h : ∀ c ∈ blanks, json_space c = true) :
    (34 : UInt8) ∉ blanks :=
  fun hmem => (plain_of_json_space (h 34 hmem)).2.1 rfl

/-- In front of a closing brace a numeral is over. -/
theorem endsNumeral_close {blanks : Text} (h : ∀ c ∈ blanks, json_space c = true) (rest : Text) :
    EndsNumeral (blanks ++ (close_brace ++ rest)) := by
  refine .blanks (fun c hc => isspace_of_json_space (h c hc)) fun c hc => ?_
  obtain rfl : brace = c := Option.some.inj hc
  decide

/-- A rendered period object is one closed stretch of the text, which scans as its period, and the
search goes on behind it. It may be rendered with any white space. -/
theorem object_starts_period {period : schedule_period_t} {numeral rest text : Text}
    (hperiod : Sendable period) (hmode : JsonInt numeral period.mode)
    (h : Tokens json_space (period_tokens period numeral) rest text) :
    ∃ found, object_starts false text = found :: object_starts false rest ∧ brace ∈ found ∧
      PeriodText found period := by
  obtain ⟨afterOpen, hopen, htokens⟩ := Tokens.split [open_brace] h
  cases htokens with
  | @cons blanks _ _ afterKey _ hblanks htokens =>
    obtain ⟨mid, hmembers, hclose⟩ := Tokens.split (member_tokens period numeral) htokens
    have hspace : Tokens isspace (member_tokens period numeral) mid afterKey :=
      hmembers.mono fun c => isspace_of_json_space
    obtain ⟨before, rfl, hbefore⟩ := tokens_before hmembers
    cases hclose with
    | @cons lastBlanks _ _ _ _ hlast hnil =>
      cases hnil
      have hbraceFree : brace ∉ before ++ lastBlanks := by
        intro hmem
        rcases List.mem_append.mp hmem with hmem | hmem
        · rcases hbefore brace hmem with hblank | ⟨token, htoken, hin⟩
          · exact absurd hblank (by decide)
          · exact brace_notMem_members hperiod hmode token htoken hin
        · exact (plain_of_json_space (hlast brace hmem)).2.2 rfl
      refine ⟨start_key ++ (before ++ (lastBlanks ++ (close_brace ++ rest))), ?_, ?_, ?_⟩
      · rw [object_starts_tokens hopen (by decide),
          object_starts_unquoted (quote_notMem_blanks hblanks), object_starts_key, ← List.append_assoc before, object_starts_seen_append hbraceFree]
        exact congrArg _ (object_starts_close rest)
      · simp [close_brace]
      · exact ⟨numeral, _, _, rfl, quotedField_of_timeText hperiod.start,
          quotedField_of_timeText hperiod.end_,
          intText_of_jsonInt hmode hperiod.mode_min hperiod.mode_max, endsNumeral_close hlast rest,
          hspace⟩

/-- The stretch belongs to the period. -/
def Holds (found : Text) (period : schedule_period_t) : Prop :=
  brace ∈ found ∧ PeriodText found period

/-- Every object of the array is one stretch that scans as its period, in order, and the search
goes on behind the last one. -/
theorem object_starts_objects {items : List (schedule_period_t × Text)} {rest text : Text}
    (hsendable : ∀ item ∈ items, Sendable item.1)
    (hmodes : ∀ item ∈ items, JsonInt item.2 item.1.mode)
    (h : Tokens json_space (objects_tokens items) rest text) :
    ∃ starts, object_starts false text = starts ++ object_starts false rest ∧
      List.Forall₂ Holds starts (items.map Prod.fst) := by
  induction items generalizing text with
  | nil =>
    cases h
    exact ⟨[], rfl, .nil⟩
  | cons item items ih =>
    have hfirst (mid : Text) (hobject : Tokens json_space (period_tokens item.1 item.2) mid text) :=
      object_starts_period (hsendable item (by simp)) (hmodes item (by simp)) hobject
    cases items with
    | nil =>
      obtain ⟨found, hstarts, hclosed, hperiod⟩ := hfirst rest h
      exact ⟨[found], hstarts, .cons ⟨hclosed, hperiod⟩ .nil⟩
    | cons next items =>
      obtain ⟨mid, hobject, htail⟩ := Tokens.split (period_tokens item.1 item.2) h
      obtain ⟨afterComma, hcomma, hobjects⟩ := Tokens.split [comma] htail
      obtain ⟨found, hstarts, hclosed, hperiod⟩ := hfirst mid hobject
      obtain ⟨starts, hrest, hall⟩ := ih (fun i hi => hsendable i (List.mem_cons_of_mem _ hi))
        (fun i hi => hmodes i (List.mem_cons_of_mem _ hi)) hobjects
      refine ⟨found :: starts, ?_, .cons ⟨hclosed, hperiod⟩ hall⟩
      rw [hstarts, object_starts_tokens hcomma (by decide), hrest]
      rfl

/-- The key of the array is passed over: it is quoted, but it is not the one that begins an object.
-/
theorem object_starts_periods_key {rest text : Text}
    (h : Tokens json_space [open_brace, periods_key, colon, open_bracket] rest text) :
    object_starts false text = object_starts false rest := by
  obtain ⟨afterOpen, hopen, htokens⟩ := Tokens.split [open_brace] h
  rw [object_starts_tokens hopen (by decide)]
  cases htokens with
  | @cons blanks _ _ afterKey _ hblanks htokens =>
    have hkey : periods_key ++ afterKey = 34 :: (ascii "periods" ++ 34 :: afterKey) := rfl
    have hnext : afterKey.head? ≠ some 115 := by
      cases htokens with
      | @cons blanks _ _ _ _ hblanks _ =>
        cases blanks with
        | nil => simp [colon]
        | cons blank blanks =>
          intro heq
          have hspace := hblanks blank (by simp)
          rw [Option.some.inj heq] at hspace
          exact absurd hspace (by decide)
    rw [object_starts_unquoted (quote_notMem_blanks hblanks), hkey, object_starts_quote (by simp [ascii]),
      object_starts_unquoted (by decide), object_starts_quote hnext]
    exact object_starts_tokens htokens (by decide)

/-- There is no key in white space. -/
theorem object_starts_blanks {blanks : Text} (h : ∀ c ∈ blanks, json_space c = true) :
    object_starts false blanks = [] := by
  have hskip := object_starts_unquoted (quote_notMem_blanks h) []
  rwa [List.append_nil] at hskip

/-- The stretches of a document that begin with a key are its periods, in order, for each of the
three forms that a document can have. -/
theorem object_starts_of_document {text : Text} {periods : List schedule_period_t}
    (h : IsDocument text periods) : List.Forall₂ Holds (object_starts false text) periods := by
  obtain ⟨_, hsendable, tokens, blanks, hdocument, htokens, hblanks⟩ := h
  cases hdocument with
  | @single period numeral hmode =>
    obtain ⟨found, hstarts, hclosed, hperiod⟩ :=
      object_starts_period (hsendable period (by simp)) hmode htokens
    rw [hstarts, object_starts_blanks hblanks]
    exact .cons ⟨hclosed, hperiod⟩ .nil
  | @wrapped items hmodes =>
    obtain ⟨inside, hopen, htokens⟩ := Tokens.split _ htokens
    obtain ⟨behind, hobjects, hclose⟩ := Tokens.split (objects_tokens items) htokens
    obtain ⟨starts, hstarts, hall⟩ := object_starts_objects
      (fun item hitem => hsendable item.1 (List.mem_map_of_mem hitem)) hmodes hobjects
    rw [object_starts_periods_key hopen, hstarts, object_starts_tokens hclose (by decide),
      object_starts_blanks hblanks, List.append_nil]
    exact hall

/-- Where each key shows its period in a closed object, all periods are collected, in order. -/
theorem closed_periods_of_holds {starts : List Text} {periods : List schedule_period_t}
    (h : List.Forall₂ Holds starts periods) :
    closed_periods starts = periods ∧ ∀ found ∈ starts, brace ∈ found := by
  induction h with
  | nil => exact ⟨rfl, by simp⟩
  | @cons found period starts periods hfirst _ ih =>
    obtain ⟨hclosed, hperiod⟩ := hfirst
    have hscan := scan_period_eq_some_iff.mpr hperiod
    refine ⟨?_, by simpa [hclosed] using ih.2⟩
    rw [closed_periods, List.filterMap_cons_some (by rw [if_pos hclosed, hscan])]
    exact congrArg _ ih.1

end communication_center.http_server
