import CommunicationCenter.HttpServer.ListingBuffer
import CommunicationCenter.Json.Strings
import CommunicationCenter.Json.Utf8

open libc json communication_center.system_state

namespace communication_center.http_server

/-- The value stands for the period: the times as they are stored, and the mode
as a decimal text. -/
def EntryOf (item : Json) (period : schedule_period_t) : Prop :=
  ∃ start end_ mode,
    item = .object [(ascii "start", .string start), (ascii "end", .string end_),
      (ascii "mode", .string mode)] ∧
    unescape start = some period.start ∧ unescape end_ = some period.end_ ∧
    unescape mode = some (int_text period.mode)

/-- The text is a document of the periods, in their order. -/
def ListsAsJson (text : Text) (periods : List schedule_period_t) : Prop :=
  Utf8 text ∧ ∃ items, parse text = some (.object [(ascii "periods", .array items)]) ∧
    List.Forall₂ EntryOf items periods

/-- The text can stand between quotes as it is. -/
structure Spliceable (text : Text) : Prop where
  utf8 : Utf8 text
  shown : ∀ c ∈ text, ¬ c < 0x20
  backslash : (92 : UInt8) ∉ text

structure SpliceableTimes (period : schedule_period_t) : Prop where
  start : Spliceable period.start
  end_ : Spliceable period.end_

/-- What is read for a period whose texts are plain. -/
def listed_item (period : schedule_period_t) : Json :=
  .object [(ascii "start", .string period.start), (ascii "end", .string period.end_),
    (ascii "mode", .string (int_text period.mode))]

/-- The members of an entry. -/
def entry_text (period : schedule_period_t) (rest : Text) : Text :=
  123 :: string_member (ascii "start") period.start (44 ::
    string_member (ascii "end") period.end_ (44 ::
      string_member (ascii "mode") (int_text period.mode) (125 :: rest)))

/-- An entry of the listing with what follows it, as the text that is parsed. -/
theorem period_entry_append (period : schedule_period_t) (rest : Text) :
    period_entry listed_mode true period ++ rest = entry_text period rest := by
  have hstart : ascii "\x7b\"start\":\"" = 123 :: 34 :: (ascii "start" ++ [34, 58, 34]) := rfl
  have hend : ascii "\",\"end\":\"" = 34 :: 44 :: 34 :: (ascii "end" ++ [34, 58, 34]) := rfl
  have hmode : ascii "\",\"mode\":" = 34 :: 44 :: 34 :: (ascii "mode" ++ [34, 58]) := rfl
  simp [period_entry, listed_mode, quoted, entry_text, string_member, hstart, hend, hmode,
    close_brace, brace]

/-- The names of the members are plain characters. -/
theorem plain_keys : (∀ c ∈ ascii "start", plain c = true) ∧ (∀ c ∈ ascii "end", plain c = true) ∧
    (∀ c ∈ ascii "mode", plain c = true) ∧ ∀ c ∈ ascii "periods", plain c = true := by
  refine ⟨?_, ?_, ?_, ?_⟩ <;> exact List.all_eq_true.mp (by decide)

/-- So are the digits and the sign of a mode, for any value, also for one that no mode has. -/
theorem plain_int_text (value : Int) : ∀ c ∈ int_text value, plain c = true := by
  intro c hc
  have hdigit : ∀ d : UInt8, isdigit d = true → plain d = true := byte_cases (by decide +kernel)
  rcases List.mem_append.mp hc with hminus | hmem
  · have hsign : (minus (decide (value < 0))).all plain = true := by
      cases decide (value < 0) <;> rfl
    exact List.all_eq_true.mp hsign c hminus
  · exact hdigit c (isdigit_of_mem_decimal hmem)

/-- The entry of plain times is read as an object of these times, with the mode as a string. What
follows the entry is left alone. -/
theorem value_entry {period : schedule_period_t} (hstart : ∀ c ∈ period.start, plain c = true)
    (hend : ∀ c ∈ period.end_, plain c = true) (fuel : Nat) (rest : Text) :
    value (fuel + 5) (entry_text period rest) = some (listed_item period, rest) := by
  obtain ⟨hkey_start, hkey_end, hkey_mode, -⟩ := plain_keys
  rw [entry_text, value_object, member_list_plain hkey_start (fuel + 2) hstart, entries_from_comma,
    member_list_plain hkey_end (fuel + 1) hend, entries_from_comma,
    member_list_plain hkey_mode fuel (plain_int_text _), entries_from_close (by rfl) (by decide)]
  rfl

/-- An entry that is read as its period has plain times, and nothing of what follows it is read
with it. Its times are assumed to be read back only as they are. -/
theorem plain_of_value_entry {period : schedule_period_t} (hstart : ReadBack period.start)
    (hend : ReadBack period.end_) {fuel : Nat} {rest behind : Text} {item : Json}
    (h : value fuel (entry_text period rest) = some (item, behind)) (hitem : EntryOf item period) :
    (∀ c ∈ period.start, plain c = true) ∧ (∀ c ∈ period.end_, plain c = true) ∧
      item = listed_item period ∧ behind = rest := by
  obtain ⟨hkey_start, hkey_end, hkey_mode, -⟩ := plain_keys
  obtain ⟨start, end_, mode, rfl, hshown_start, hshown_end, hshown_mode⟩ := hitem
  cases fuel with
  | zero => simp [value] at h
  | succ fuel =>
    rw [entry_text, value_object] at h
    obtain ⟨⟨members, left⟩, hmembers, hpair⟩ := Option.map_eq_some_iff.mp h
    obtain ⟨hobject, rfl⟩ := Prod.mk.inj hpair
    obtain rfl := Json.object.inj hobject
    obtain ⟨hplain_start, -, rfl, _, hmembers⟩ :=
      plain_of_member_list hkey_start hstart hmembers hshown_start
    obtain ⟨hplain_end, -, rfl, _, hmembers⟩ :=
      plain_of_member_list hkey_end hend (more_of_entries_from hmembers) hshown_end
    obtain ⟨-, -, rfl, _, hmembers⟩ := plain_of_member_list hkey_mode
      (readBack_of_plain (plain_int_text _)) (more_of_entries_from hmembers) hshown_mode
    rw [entries_from_close (by rfl) (by decide)] at hmembers
    obtain ⟨-, rfl⟩ := Prod.mk.inj (Option.some.inj hmembers)
    exact ⟨hplain_start, hplain_end, rfl, rfl⟩

/-- The entries with commas between them, up to the closing bracket. -/
def entries_text (period : schedule_period_t) : List schedule_period_t → Text → Text
  | [], rest => entry_text period (93 :: rest)
  | next :: periods, rest => entry_text period (44 :: entries_text next periods rest)

/-- The entries of the listing with the bracket behind them, as the text that is parsed. -/
theorem entries_json_append (period : schedule_period_t) (periods : List schedule_period_t)
    (rest : Text) : entries_json listed_mode true (period :: periods) ++ 93 :: rest =
      entries_text period periods rest := by
  induction periods generalizing period with
  | nil =>
    rw [entries_json, entries_json, List.append_nil, period_entry_append, entries_text]
  | cons next periods ih =>
    have hcomma : entries_json listed_mode false (next :: periods) =
        44 :: entries_json listed_mode true (next :: periods) := by
      simp [entries_json, period_entry, comma]
    rw [entries_json, hcomma, List.append_assoc, List.cons_append, ih, period_entry_append,
      entries_text]

/-- Entries with plain times are read as the items that stand for their periods, up to the bracket.
-/
theorem item_list_entries {period : schedule_period_t} {periods : List schedule_period_t}
    (h : ∀ p ∈ period :: periods, (∀ c ∈ p.start, plain c = true) ∧ ∀ c ∈ p.end_, plain c = true)
    (fuel : Nat) (rest : Text) :
    item_list (fuel + periods.length + 6) (entries_text period periods rest) =
      some ((period :: periods).map listed_item, rest) := by
  induction periods generalizing period with
  | nil =>
    obtain ⟨hstart, hend⟩ := h period (by simp)
    rw [entries_text, item_list, List.length_nil, Nat.add_zero, value_entry hstart hend,
      Option.bind_some]
    exact entries_from_close (by rfl) (by decide) _ _ _
  | cons next periods ih =>
    obtain ⟨hstart, hend⟩ := h period (by simp)
    have hrest := ih fun p hp => h p (List.mem_cons_of_mem _ hp)
    rw [entries_text, item_list, value_entry hstart hend, Option.bind_some]
    dsimp only
    rw [entries_from_comma, List.length_cons, show fuel + (periods.length + 1) + 5 =
      fuel + periods.length + 6 by omega, hrest]
    rfl

/-- If a list is read as its periods, the first entry was written with plain times, and the other
entries are read with less fuel from what is behind it. -/
theorem first_of_item_list {period : schedule_period_t} {periods : List schedule_period_t}
    (hstart : ReadBack period.start) (hend : ReadBack period.end_) {fuel : Nat} {rest behind : Text}
    {items : List Json} (h : item_list fuel (entry_text period rest) = some (items, behind))
    (hitems : List.Forall₂ EntryOf items (period :: periods)) :
    ((∀ c ∈ period.start, plain c = true) ∧ ∀ c ∈ period.end_, plain c = true) ∧
      ∃ less others, entries_from 93 (listed_item period) (item_list less) rest =
          some (listed_item period :: others, behind) ∧
        List.Forall₂ EntryOf others periods := by
  cases hitems with
  | @cons item _ others _ hitem hothers =>
    cases fuel with
    | zero => simp [item_list] at h
    | succ fuel =>
      rw [item_list] at h
      obtain ⟨⟨read, left⟩, hread, hentries⟩ := Option.bind_eq_some_iff.mp h
      obtain rfl : item = read := head_of_entries_from hentries
      obtain ⟨hplain_start, hplain_end, rfl, rfl⟩ := plain_of_value_entry hstart hend hread hitem
      exact ⟨⟨hplain_start, hplain_end⟩, fuel, others, hentries, hothers⟩

/-- If the entries are read as items for their periods, and times are read back only as they are,
then all times are plain. -/
theorem plain_of_item_list {period : schedule_period_t} {periods : List schedule_period_t}
    (hback : ∀ p ∈ period :: periods, ReadBack p.start ∧ ReadBack p.end_) {fuel : Nat}
    {rest behind : Text} {items : List Json}
    (h : item_list fuel (entries_text period periods rest) = some (items, behind))
    (hitems : List.Forall₂ EntryOf items (period :: periods)) :
    ∀ p ∈ period :: periods, (∀ c ∈ p.start, plain c = true) ∧ ∀ c ∈ p.end_, plain c = true := by
  obtain ⟨hstart, hend⟩ := hback period (by simp)
  induction periods generalizing period fuel items with
  | nil =>
    obtain ⟨hplain, -⟩ := first_of_item_list hstart hend h hitems
    exact List.forall_mem_singleton.mpr hplain
  | cons next periods ih =>
    obtain ⟨hplain, less, others, hentries, hothers⟩ := first_of_item_list hstart hend h hitems
    obtain ⟨hnext_start, hnext_end⟩ := hback next (by simp)
    exact List.forall_mem_cons.mpr ⟨hplain, ih (fun p hp => hback p (List.mem_cons_of_mem _ hp))
      (more_of_entries_from hentries) hothers hnext_start hnext_end⟩

/-- An object with one member, behind a blank. -/
def listing_text (array : Text) : Text :=
  123 :: 32 :: 34 :: (ascii "periods" ++ 34 :: 58 :: array)

theorem schedule_json_empty : schedule_json listed_mode [] = listing_text [91, 93, 125] :=
  rfl

theorem schedule_json_cons (period : schedule_period_t) (periods : List schedule_period_t) :
    schedule_json listed_mode (period :: periods) =
      listing_text (91 :: entries_text period periods [125]) := by
  have hopen : ascii "\x7b \"periods\":[" = 123 :: 32 :: 34 :: (ascii "periods" ++ [34, 58, 91]) := rfl
  have hclose : ascii "]\x7d" = [93, 125] := rfl
  rw [schedule_json, hopen, hclose, entries_json_append, listing_text]
  simp

/-- The listing is read as its array is, as the value of the one member `periods`. Nothing is
assumed of the array, which may be any text. -/
theorem parse_listing (array : Text) :
    ∃ fuel, array.length + 10 ≤ fuel ∧ parse (listing_text array) =
      ((value fuel array).bind fun read =>
        entries_from 125 (ascii "periods", read.1) (member_list fuel) read.2).bind
          fun read => if json.skip read.2 = [] then some (.object read.1) else none := by
  obtain ⟨-, -, -, hkey⟩ := plain_keys
  have hmember : (Member.mk [] (ascii "periods") []).WellFormed := ⟨by simp, hkey⟩
  have htext : 34 :: (ascii "periods" ++ 34 :: 58 :: array) =
      (Member.mk [] (ascii "periods") []).text ++ array := by
    simp [Member.text]
  have hlength : (listing_text array).length = array.length + 11 + 1 := by
    have hperiods : (ascii "periods").length = 7 := rfl
    simp only [listing_text, List.length_cons, List.length_append, hperiods]
    omega
  refine ⟨array.length + 11, by omega, ?_⟩
  rw [json.parse, hlength, listing_text, value, skip_cons (by rfl)]
  dsimp only
  rw [if_pos rfl, ← List.singleton_append, skip_append (List.all_eq_true.mp (by rfl)), skip_cons (by rfl)]
  dsimp only
  rw [if_neg (by decide), htext, member_list, member_key_text hmember, Option.bind_some]
  dsimp only
  rw [List.nil_append]
  generalize value (array.length + 11) array = read
  cases read with
  | none => rfl
  | some read =>
    rw [Option.bind_some]
    generalize entries_from 125 (ascii "periods", read.1) _ read.2 = entries
    cases entries <;> rfl

theorem value_empty_array (fuel : Nat) (rest : Text) :
    value (fuel + 1) (91 :: 93 :: rest) = some (.array [], rest) := by
  rw [value, skip_cons (by rfl)]
  dsimp only
  rw [if_neg (by decide), if_pos rfl, skip_cons (by rfl)]
  rfl

theorem value_entries (fuel : Nat) (period : schedule_period_t) (periods : List schedule_period_t)
    (rest : Text) : value (fuel + 1) (91 :: entries_text period periods rest) =
      (item_list fuel (entries_text period periods rest)).map
        fun read => (.array read.1, read.2) := by
  obtain ⟨behind, hbehind⟩ : ∃ behind, entries_text period periods rest = 123 :: behind := by
    cases periods <;> exact ⟨_, rfl⟩
  rw [hbehind]
  exact value_array (by rfl) (by decide) _ _

theorem entries_text_length (period : schedule_period_t) (periods : List schedule_period_t)
    (rest : Text) : periods.length + 8 ≤ (entries_text period periods rest).length := by
  have hentry (p : schedule_period_t) (text : Text) :
      text.length + 8 ≤ (entry_text p text).length := by
    simp only [entry_text, string_member, List.length_cons, List.length_append]
    omega
  induction periods generalizing period with
  | nil =>
    have h := hentry period (93 :: rest)
    rw [List.length_cons] at h
    rw [entries_text, List.length_nil]
    omega
  | cons next periods ih =>
    have h := hentry period (44 :: entries_text next periods rest)
    have hnext := ih next
    rw [List.length_cons] at h
    rw [entries_text, List.length_cons]
    omega

theorem parse_empty_listing : parse (schedule_json listed_mode []) =
    some (.object [(ascii "periods", .array [])]) := by
  obtain ⟨fuel, hfuel, hparse⟩ := parse_listing [91, 93, 125]
  obtain ⟨fuel, rfl⟩ := Nat.exists_eq_add_one_of_ne_zero (show fuel ≠ 0 by omega)
  rw [schedule_json_empty, hparse, value_empty_array, Option.bind_some]
  dsimp only
  rw [entries_from_close (by rfl) (by decide), Option.bind_some]
  rfl

/-- The listing is read as its periods exactly when their times are plain. The times are ones that
can be read back as themselves only, as all times of at most five characters without a quote can.
-/
theorem parse_schedule_json_iff {periods : List schedule_period_t}
    (hback : ∀ p ∈ periods, ReadBack p.start ∧ ReadBack p.end_) :
    (∃ items, parse (schedule_json listed_mode periods) =
        some (.object [(ascii "periods", .array items)]) ∧ List.Forall₂ EntryOf items periods) ↔
      ∀ p ∈ periods, (∀ c ∈ p.start, plain c = true) ∧ ∀ c ∈ p.end_, plain c = true := by
  cases periods with
  | nil => exact iff_of_true ⟨[], parse_empty_listing, .nil⟩ (by simp)
  | cons period periods =>
    obtain ⟨fuel, hfuel, hparse⟩ := parse_listing (91 :: entries_text period periods [125])
    obtain ⟨fuel, rfl⟩ := Nat.exists_eq_add_one_of_ne_zero (show fuel ≠ 0 by omega)
    rw [value_entries] at hparse
    rw [schedule_json_cons, hparse]
    constructor
    · rintro ⟨items, hread, hitems⟩
      obtain ⟨⟨members, left⟩, hmembers, hread⟩ := Option.bind_eq_some_iff.mp hread
      obtain ⟨⟨array, behind⟩, harray, hentries⟩ := Option.bind_eq_some_iff.mp hmembers
      obtain ⟨⟨read, after⟩, hitem, hpair⟩ := Option.map_eq_some_iff.mp harray
      obtain ⟨rfl, rfl⟩ := Prod.mk.inj hpair
      dsimp only at hread
      split at hread
      · obtain rfl := Json.object.inj (Option.some.inj hread)
        have hhead := head_of_entries_from hentries
        obtain rfl := Json.array.inj (Prod.mk.inj hhead).2
        exact plain_of_item_list hback hitem hitems
      · cases hread
    · intro hplain
      have hroom := entries_text_length period periods [125]
      rw [List.length_cons] at hfuel
      obtain ⟨more, rfl⟩ : ∃ more, fuel = more + periods.length + 6 :=
        ⟨fuel - periods.length - 6, by omega⟩
      refine ⟨(period :: periods).map listed_item, ?_, ?_⟩
      · rw [item_list_entries hplain, Option.map_some, Option.bind_some]
        dsimp only
        rw [entries_from_close (by rfl) (by decide), Option.bind_some]
        rfl
      · rw [List.forall₂_map_left_iff, List.forall₂_same]
        intro p hp
        obtain ⟨hstart, hend⟩ := hplain p hp
        exact ⟨_, _, _, rfl, unescape_of_plain hstart, unescape_of_plain hend,
          unescape_of_plain (plain_int_text _)⟩

theorem utf8_string_member {key : Text} (hkey : all_ascii key = true) (text rest : Text) :
    Utf8 (string_member key text rest) ↔ Utf8 text ∧ Utf8 rest := by
  rw [string_member, utf8_cons_iff (by decide), utf8_append_iff_of_ascii hkey,
    utf8_cons_iff (by decide), utf8_cons_iff (by decide), utf8_cons_iff (by decide),
    utf8_append_cons_iff (by decide)]

theorem ascii_int_text (value : Int) : all_ascii (int_text value) = true := by
  have hsign : all_ascii (minus (decide (value < 0))) = true := by
    cases decide (value < 0) <;> rfl
  have hdigits : all_ascii (decimal value.natAbs) = true := by
    refine List.all_eq_true.mpr fun c hc => decide_eq_true ?_
    have hdigit := isdigit_of_mem_decimal hc
    simp only [isdigit, Bool.and_eq_true, decide_eq_true_eq] at hdigit
    exact UInt8.lt_of_le_of_lt hdigit.2 (by decide)
  rw [all_ascii, int_text, List.all_append, ← all_ascii, ← all_ascii, hsign, hdigits]
  rfl

theorem utf8_entry_text (period : schedule_period_t) (rest : Text) :
    Utf8 (entry_text period rest) ↔ (Utf8 period.start ∧ Utf8 period.end_) ∧ Utf8 rest := by
  rw [entry_text, utf8_cons_iff (by decide), utf8_string_member (by rfl), utf8_cons_iff (by decide),
    utf8_string_member (by rfl), utf8_cons_iff (by decide), utf8_string_member (by rfl),
    utf8_cons_iff (by decide), and_iff_right (utf8_of_ascii (ascii_int_text _)), and_assoc]

theorem utf8_entries_text (period : schedule_period_t) (periods : List schedule_period_t)
    (rest : Text) : Utf8 (entries_text period periods rest) ↔
      (∀ p ∈ period :: periods, Utf8 p.start ∧ Utf8 p.end_) ∧ Utf8 rest := by
  induction periods generalizing period with
  | nil => rw [entries_text, utf8_entry_text, utf8_cons_iff (by decide), List.forall_mem_singleton]
  | cons next periods ih =>
    have hsplit : (∀ p ∈ period :: next :: periods, Utf8 p.start ∧ Utf8 p.end_) ↔
        (Utf8 period.start ∧ Utf8 period.end_) ∧ ∀ p ∈ next :: periods, Utf8 p.start ∧ Utf8 p.end_ :=
      List.forall_mem_cons
    rw [entries_text, utf8_entry_text, utf8_cons_iff (by decide), ih, hsplit]
    exact and_assoc.symm

theorem utf8_schedule_json (periods : List schedule_period_t) :
    Utf8 (schedule_json listed_mode periods) ↔ ∀ p ∈ periods, Utf8 p.start ∧ Utf8 p.end_ := by
  have hlisting (array : Text) : Utf8 (listing_text array) ↔ Utf8 array := by
    rw [listing_text, utf8_cons_iff (by decide), utf8_cons_iff (by decide), utf8_cons_iff (by decide),
      utf8_append_iff_of_ascii (by rfl), utf8_cons_iff (by decide), utf8_cons_iff (by decide)]
  cases periods with
  | nil =>
    rw [schedule_json_empty, hlisting]
    exact ⟨fun _ => by simp, fun _ => utf8_of_ascii (by rfl)⟩
  | cons period periods =>
    rw [schedule_json_cons, hlisting, utf8_cons_iff (by decide), utf8_entries_text]
    exact and_iff_left (utf8_of_ascii (by rfl))

/-- Times as the request handler stores them. -/
structure StoredTimes (period : schedule_period_t) : Prop where
  start : QuotedField 5 period.start
  end_ : QuotedField 5 period.end_

theorem spliceable_iff {text : Text} (hquote : (34 : UInt8) ∉ text) :
    Spliceable text ↔ Utf8 text ∧ ∀ c ∈ text, plain c = true := by
  constructor
  · intro h
    refine ⟨h.utf8, fun c hc => ?_⟩
    have hne : c ≠ 34 ∧ c ≠ 92 :=
      ⟨fun heq => hquote (heq ▸ hc), fun heq => h.backslash (heq ▸ hc)⟩
    have hshown := h.shown c hc
    simp [plain, hne, hshown]
  · rintro ⟨hutf8, hplain⟩
    refine ⟨hutf8, fun c hc => ?_, fun hmem => absurd (hplain 92 hmem) (by decide)⟩
    have hc := hplain c hc
    simp only [plain, Bool.and_eq_true, Bool.not_eq_true', decide_eq_false_iff_not] at hc
    exact hc.2

/-- A listing of stored periods is a document of them exactly when all times can
stand between quotes as they are. -/
theorem listsAsJson_iff {periods : List schedule_period_t}
    (hstored : ∀ period ∈ periods, StoredTimes period) :
    ListsAsJson (schedule_json listed_mode periods) periods ↔
      ∀ period ∈ periods, SpliceableTimes period := by
  have hback : ∀ p ∈ periods, ReadBack p.start ∧ ReadBack p.end_ := by
    intro p hp
    obtain ⟨hstart, hend⟩ := hstored p hp
    exact ⟨readBack_of_short hstart.bounded hstart.unquoted,
      readBack_of_short hend.bounded hend.unquoted⟩
  rw [ListsAsJson, utf8_schedule_json, parse_schedule_json_iff hback, ← forall₂_and]
  refine forall₂_congr fun p hp => ?_
  have hstart := spliceable_iff (hstored p hp).start.unquoted
  have hend := spliceable_iff (hstored p hp).end_.unquoted
  constructor
  · rintro ⟨⟨hutf8_start, hutf8_end⟩, hplain_start, hplain_end⟩
    exact ⟨hstart.mpr ⟨hutf8_start, hplain_start⟩, hend.mpr ⟨hutf8_end, hplain_end⟩⟩
  · rintro ⟨hsplice_start, hsplice_end⟩
    obtain ⟨hutf8_start, hplain_start⟩ := hstart.mp hsplice_start
    obtain ⟨hutf8_end, hplain_end⟩ := hend.mp hsplice_end
    exact ⟨⟨hutf8_start, hutf8_end⟩, hplain_start, hplain_end⟩

end communication_center.http_server
