import CommunicationCenter.Json.Number

open libc

namespace json

/-- A value inside an object is followed by a comma or by the closing brace. -/
def EndsMember (rest : Text) : Prop :=
  ∀ c ∈ rest.head?, c = 44 ∨ c = 125

/-- The parser makes this of the text, whatever comes behind it, and reads nothing
of that. -/
def Reads (text : Text) (result : Option Json) : Prop :=
  ∀ fuel rest, text.length < fuel → EndsMember rest →
    value fuel (text ++ rest) = result.map fun read => (read, rest)

/-- A member of an object as it is written: white space, the key in quotes, and
the text of the value behind a colon. -/
structure Member where
  gap : Text
  key : Text
  written : Text

def Member.text (member : Member) : Text :=
  member.gap ++ 34 :: (member.key ++ 34 :: 58 :: member.written)

/-- Characters that a string shows as they are. -/
def plain (c : UInt8) : Bool :=
  c ≠ 34 && c ≠ 92 && !(c < 32)

structure Member.WellFormed (member : Member) : Prop where
  gap : ∀ c ∈ member.gap, whitespace c = true
  key : ∀ c ∈ member.key, plain c = true

def members_text : List Member → Text
  | [] => []
  | [member] => member.text
  | member :: next :: members => member.text ++ 44 :: members_text (next :: members)

def object_text (members : List Member) : Text :=
  123 :: (members_text members ++ [125])

/-- The members of an object, if all their values can be read. -/
def members_read (result : Member → Option Json) : List Member → Option (List (Text × Json))
  | [] => some []
  | member :: members => (result member).bind fun read =>
      (members_read result members).map fun others => (member.key, read) :: others

theorem endsMember_nil : EndsMember [] := by
  simp [EndsMember]

theorem endsMember_cons {c : UInt8} (h : c = 44 ∨ c = 125) (rest : Text) : EndsMember (c :: rest) := by
  simpa [EndsMember] using h

/-- What ends a member ends a number, as neither a digit nor a point follows. -/
theorem EndsMember.endsNumber {rest : Text} (h : EndsMember rest) : EndsNumber rest := by
  intro c hc
  rcases h c hc with rfl | rfl
  · decide
  · decide

/-- White space in front of a text is skipped with what the text begins with of it. -/
theorem skip_append {blanks : Text} (h : ∀ c ∈ blanks, whitespace c = true) (text : Text) :
    skip (blanks ++ text) = skip text :=
  List.dropWhile_append_of_pos h

/-- In front of any other character nothing is skipped. -/
theorem skip_cons {c : UInt8} (h : whitespace c = false) (text : Text) :
    skip (c :: text) = c :: text := by
  simp [skip, h]

/-- There is no white space in front of what ends a member, so that nothing is skipped there. -/
theorem EndsMember.skip {rest : Text} (h : EndsMember rest) : skip rest = rest := by
  cases rest with
  | nil => rfl
  | cons c rest =>
    apply skip_cons
    rcases h c rfl with rfl | rfl
    · rfl
    · rfl

/-- A value is read behind any white space. -/
theorem value_skip {blanks : Text} (h : ∀ c ∈ blanks, whitespace c = true) (fuel : Nat) (text : Text) :
    value fuel (blanks ++ text) = value fuel text := by
  cases fuel with
  | zero => simp only [value]
  | succ fuel => rw [value, value, skip_append h]

/-- A string of plain characters ends at its closing quote, and stands for itself. The fuel has to
be more than its length. -/
theorem string_body_plain {written : Text} (h : ∀ c ∈ written, plain c = true) {fuel : Nat}
    (hfuel : written.length < fuel) (rest : Text) :
    string_body fuel (written ++ 34 :: rest) = some (written, rest) := by
  induction written generalizing fuel with
  | nil =>
    obtain ⟨fuel, rfl⟩ := Nat.exists_eq_add_one_of_ne_zero (Nat.ne_zero_of_lt hfuel)
    simp [string_body]
  | cons c written ih =>
    obtain ⟨fuel, rfl⟩ := Nat.exists_eq_add_one_of_ne_zero (Nat.ne_zero_of_lt hfuel)
    have hc := h c (by simp)
    simp only [plain, Bool.and_eq_true, decide_eq_true_eq, Bool.not_eq_true',
      decide_eq_false_iff_not] at hc
    have hlength : written.length < fuel := by simpa using hfuel
    have hrest := ih (fun d hd => h d (List.mem_cons_of_mem _ hd)) hlength
    simp [string_body, hc, hrest]

/-- So white space can be put in front of what is read. -/
theorem Reads.blanks {text blanks : Text} {result : Option Json}
    (hblanks : ∀ c ∈ blanks, whitespace c = true) (h : Reads text result) :
    Reads (blanks ++ text) result := by
  intro fuel rest hfuel hrest
  rw [List.length_append] at hfuel
  rw [List.append_assoc, value_skip hblanks]
  exact h fuel rest (by omega) hrest

/-- As a document of its own, the text is read in the same way. -/
theorem Reads.parse {text : Text} {result : Option Json} (h : Reads text result) :
    parse text = result := by
  have hvalue := h (text.length + 1) [] (Nat.lt_succ_self _) endsMember_nil
  rw [List.append_nil] at hvalue
  rw [json.parse, hvalue]
  cases result with
  | none => rfl
  | some read => simp [json.skip]

/-- Inside an object the text is read as on its own. -/
def Readable (text : Text) : Prop :=
  Reads text (parse text)

theorem Reads.readable {text : Text} {result : Option Json} (h : Reads text result) :
    Readable text := by
  rw [Readable, h.parse]
  exact h

/-- Plain characters between quotes are read as a string of them. The empty string is one as well.
-/
theorem reads_string {written : Text} (h : ∀ c ∈ written, plain c = true) :
    Reads (34 :: (written ++ [34])) (some (.string written)) := by
  intro fuel rest hfuel _
  obtain ⟨fuel, rfl⟩ := Nat.exists_eq_add_one_of_ne_zero (Nat.ne_zero_of_lt hfuel)
  have hlength : written.length < (written ++ 34 :: rest).length := by simp
  have hbody := string_body_plain h hlength rest
  have htext : 34 :: (written ++ [34]) ++ rest = 34 :: (written ++ 34 :: rest) := by simp
  rw [htext, value, skip_cons (by rfl)]
  dsimp only
  rw [if_neg (by decide), if_neg (by decide), if_pos rfl, hbody]
  rfl

/-- The two words are read as truth values. -/
theorem reads_bool (truth : Bool) :
    Reads (ascii (if truth then "true" else "false")) (some (.bool truth)) := by
  intro fuel rest hfuel _
  obtain ⟨fuel, rfl⟩ := Nat.exists_eq_add_one_of_ne_zero (Nat.ne_zero_of_lt hfuel)
  cases truth with
  | true => rfl
  | false => rfl

/-- The characters that begin neither a number nor white space. -/
def opens_other (c : UInt8) : Bool :=
  whitespace c || c = 123 || c = 91 || c = 34 || c = 116 || c = 102 || c = 110

/-- What begins neither with white space nor like another value is read as a number. -/
theorem value_number {c : UInt8} (h : opens_other c = false) (fuel : Nat) (rest : Text) :
    value (fuel + 1) (c :: rest) =
      (number (c :: rest)).map fun read => (.number read.1, read.2) := by
  simp only [opens_other, Bool.or_eq_false_iff, decide_eq_false_iff_not] at h
  obtain ⟨⟨⟨⟨⟨⟨hblank, hbrace⟩, hbracket⟩, hquote⟩, ht⟩, hf⟩, hn⟩ := h
  rw [value, skip_cons hblank]
  simp only [hbrace, hbracket, hquote, ht, hf, hn, if_false]

/-- Members are read behind any white space. -/
theorem member_list_skip {blanks : Text} (h : ∀ c ∈ blanks, whitespace c = true) (fuel : Nat)
    (text : Text) : member_list fuel (blanks ++ text) = member_list fuel text := by
  cases fuel with
  | zero => simp only [member_list]
  | succ fuel => rw [member_list, member_list, member_key, member_key, expect, expect, skip_append h]

/-- An expected byte is found behind any white space, if it is none itself. -/
theorem expect_append {blanks : Text} (hblanks : ∀ c ∈ blanks, whitespace c = true) {expected : UInt8}
    (h : whitespace expected = false) (rest : Text) :
    expect expected (blanks ++ expected :: rest) = some rest := by
  simp [expect, skip_append hblanks, skip_cons h]

/-- The key of a well-formed member is read, and what is left is its value and the rest. -/
theorem member_key_text {member : Member} (h : member.WellFormed) (rest : Text) :
    member_key (member.text ++ rest) = some (member.key, member.written ++ rest) := by
  have htext : member.text ++ rest =
      member.gap ++ 34 :: (member.key ++ 34 :: 58 :: (member.written ++ rest)) := by
    simp [Member.text]
  have hquote : expect 34 (member.text ++ rest) =
      some (member.key ++ 34 :: 58 :: (member.written ++ rest)) := by
    rw [htext]
    exact expect_append h.gap (by rfl) _
  have hcolon : expect 58 (58 :: (member.written ++ rest)) = some (member.written ++ rest) :=
    expect_append (List.forall_mem_nil _) (by rfl) _
  rw [member_key, hquote, Option.bind_some, string_body_plain h.key (by simp), Option.bind_some]
  dsimp only
  rw [hcolon, Option.map_some]

variable {result : Member → Option Json}

/-- A member is read, and then what comes behind it, if its value can be read as it stands. -/
theorem member_list_member {member : Member} (h : member.WellFormed)
    (hread : Reads member.written (result member)) {fuel : Nat} (hfuel : member.written.length < fuel)
    {rest : Text} (hrest : EndsMember rest) :
    member_list (fuel + 1) (member.text ++ rest) = (result member).bind fun read =>
      entries_from 125 (member.key, read) (member_list fuel) rest := by
  rw [member_list, member_key_text h, Option.bind_some]
  dsimp only
  rw [hread fuel rest hfuel hrest]
  cases result member with
  | none => rfl
  | some read => rfl

theorem Member.written_lt_text (member : Member) : member.written.length < member.text.length := by
  simp only [Member.text, List.length_append, List.length_cons]
  omega

/-- A list of members is read up to the closing brace, if all values can be read where they stand.
There must be at least one member, and enough fuel for the text. -/
theorem member_list_members {members : List Member} (hne : members ≠ [])
    (hmembers : ∀ member ∈ members, member.WellFormed ∧ Reads member.written (result member))
    {fuel : Nat} (hfuel : (members_text members).length < fuel) (rest : Text) :
    member_list fuel (members_text members ++ 125 :: rest) =
      (members_read result members).map fun read => (read, rest) := by
  induction members generalizing fuel with
  | nil => exact absurd rfl hne
  | cons member members ih =>
    obtain ⟨hformed, hread⟩ := hmembers member (by simp)
    have hwritten := member.written_lt_text
    obtain ⟨fuel, rfl⟩ := Nat.exists_eq_add_one_of_ne_zero (Nat.ne_zero_of_lt hfuel)
    cases members with
    | nil =>
      rw [members_text] at hfuel
      rw [members_text, member_list_member hformed hread (by omega) (endsMember_cons (Or.inr rfl) _)]
      cases h : result member with
      | none => simp [members_read, h]
      | some read => simp [members_read, h, entries_from, skip, whitespace]
    | cons next members =>
      rw [members_text, List.length_append, List.length_cons] at hfuel
      have htail := ih (by simp) (fun other hother => hmembers other (List.mem_cons_of_mem _ hother))
        (show (members_text (next :: members)).length < fuel by omega)
      rw [members_text, List.append_assoc, List.cons_append,
        member_list_member hformed hread (by omega) (endsMember_cons (Or.inl rfl) _), members_read]
      cases h : result member with
      | none => rfl
      | some read =>
        simp only [Option.bind_some, entries_from, skip_cons (show whitespace 44 = false from rfl),
          if_true, htail, Option.map_map]
        rfl

/-- An object is read if all its members are, and otherwise it is not. It must have a member, whose
text is read in the same way wherever it stands. -/
theorem reads_object {members : List Member} (hne : members ≠ [])
    (hmembers : ∀ member ∈ members, member.WellFormed ∧ Reads member.written (result member)) :
    Reads (object_text members) ((members_read result members).map .object) := by
  intro fuel rest hfuel _
  obtain ⟨fuel, rfl⟩ := Nat.exists_eq_add_one_of_ne_zero (Nat.ne_zero_of_lt hfuel)
  have henough : (members_text members).length < fuel := by
    simp only [object_text, List.length_append, List.length_cons, List.length_nil] at hfuel
    omega
  have hlist := member_list_members hne hmembers henough rest
  obtain ⟨first, others, rfl⟩ := List.exists_cons_of_ne_nil hne
  obtain ⟨behind, hbehind⟩ : ∃ behind, members_text (first :: others) ++ 125 :: rest =
      first.gap ++ 34 :: behind := by
    cases others with
    | nil => exact ⟨_, List.append_assoc _ _ _⟩
    | cons next others => exact ⟨_, by simp [members_text, Member.text]; rfl⟩
  have hgap := (hmembers first (by simp)).1.gap
  have htext : object_text (first :: others) ++ rest = 123 :: (first.gap ++ 34 :: behind) := by
    rw [← hbehind]
    simp [object_text]
  rw [hbehind, member_list_skip hgap] at hlist
  rw [htext, value, skip_cons (by rfl)]
  dsimp only
  rw [if_pos rfl, skip_append hgap, skip_cons (by rfl)]
  dsimp only
  rw [if_neg (by decide), hlist, Option.map_map, Option.map_map]
  rfl

/-- The members of an object as they are read on their own. -/
def members_parse : List Member → Option (List (Text × Json)) :=
  members_read fun member => parse member.written

/-- An object is readable if its members are, and then it is read member by member. -/
theorem readable_object (members : List Member) (hne : members ≠ [])
    (hmembers : ∀ member ∈ members, member.WellFormed ∧ Readable member.written) :
    Readable (object_text members) ∧
      parse (object_text members) = (members_parse members).map .object :=
  have hreads := reads_object hne hmembers
  ⟨hreads.readable, hreads.parse⟩

end json
