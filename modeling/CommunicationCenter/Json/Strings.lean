import CommunicationCenter.Json.Object
import CommunicationCenter.Json.Unescape

open libc

namespace json

/-- What is written stands for nothing without a quote in it. -/
def ShowsQuote (written : Text) : Prop :=
  ∀ fuel characters, unescape_from fuel written = some characters → (34 : UInt8) ∈ characters

/-- A character in front does not hide a quote, unless it is a backslash. -/
theorem showsQuote_cons {c : UInt8} (hc : c ≠ 92) {written : Text} (h : ShowsQuote written) :
    ShowsQuote (c :: written) := by
  intro fuel characters hread
  cases fuel with
  | zero => cases hread
  | succ fuel =>
    rw [unescape_from, if_neg hc] at hread
    obtain ⟨others, hothers, rfl⟩ := Option.map_eq_some_iff.mp hread
    exact List.mem_cons_of_mem _ (h fuel others hothers)

/-- The characters that can be escaped are neither the `u` nor control characters. -/
theorem escapable_ne {d : UInt8} (h : escapable d = true) : d ≠ 117 ∧ ¬ d < 32 := by
  have hall : ∀ c : UInt8, escapable c = true → c ≠ 117 ∧ ¬ c < 32 :=
    byte_cases (by decide +kernel)
  exact hall d h

/-- An escape in front does not hide a quote either, and may be one itself. -/
theorem showsQuote_escape {d : UInt8} (hd : escapable d = true) {written : Text}
    (h : d = 34 ∨ ShowsQuote written) : ShowsQuote (92 :: d :: written) := by
  intro fuel characters hread
  cases fuel with
  | zero => cases hread
  | succ fuel =>
    rw [unescape_from, if_pos rfl, escaped_character, if_neg (escapable_ne hd).1] at hread
    obtain ⟨⟨character, rest⟩, hcharacter, hread⟩ := Option.bind_eq_some_iff.mp hread
    obtain ⟨shown, hshown, hpair⟩ := Option.map_eq_some_iff.mp hcharacter
    obtain ⟨rfl, rfl⟩ := Prod.mk.inj hpair
    obtain ⟨others, hothers, rfl⟩ := Option.map_eq_some_iff.mp hread
    rcases h with rfl | h
    · obtain rfl : 34 = shown := Option.some.inj hshown
      simp
    · exact List.mem_append_right _ (h fuel others hothers)

/-- An escape sequence that begins inside a short text stays inside it, or takes the quote behind
it. It cannot be one with four digits, for which there is no room. -/
theorem escape_inside {text rest behind : Text} (hshort : text.length ≤ 4)
    (h : escape (text ++ 34 :: rest) = some behind) :
    (text = [] ∧ behind = rest) ∨
      ∃ d inside, text = d :: inside ∧ escapable d = true ∧ behind = inside ++ 34 :: rest := by
  cases text with
  | nil => exact Or.inl ⟨rfl, (Option.some.inj h).symm⟩
  | cons d inside =>
    right
    rw [List.cons_append, escape] at h
    split at h
    · next hd => exact ⟨d, inside, rfl, hd, (Option.some.inj h).symm⟩
    · split at h
      · split at h
        · next hdigits =>
          -- four digits reach beyond the end of the text, but the quote is none
          exfalso
          have hmem : (34 : UInt8) ∈ (inside ++ 34 :: rest).take 4 := by
            rw [List.length_cons] at hshort
            rw [List.take_append, List.mem_append]
            right
            obtain ⟨k, hk⟩ : ∃ k, 4 - inside.length = k + 1 := ⟨3 - inside.length, by omega⟩
            rw [hk]
            simp
          exact absurd (List.all_eq_true.mp hdigits.2 34 hmem) (by decide)
        · cases h
      · cases h

/-- A string that is written as a short text without quotes is this text, or it
runs beyond the quote behind it and stands for something with a quote. -/
theorem string_body_quoted {text rest written behind : Text} (hshort : text.length ≤ 5)
    (hquote : (34 : UInt8) ∉ text) {fuel : Nat}
    (h : string_body fuel (text ++ 34 :: rest) = some (written, behind)) :
    (written = text ∧ behind = rest ∧ ∀ c ∈ text, ¬ c < 32) ∨ ShowsQuote written := by
  induction fuel generalizing text written with
  | zero => cases h
  | succ fuel ih =>
    cases text with
    | nil =>
      obtain ⟨rfl, rfl⟩ := Prod.mk.inj (Option.some.inj h)
      simp
    | cons c text =>
      rw [List.mem_cons, not_or] at hquote
      rw [List.length_cons] at hshort
      rw [List.cons_append, string_body, if_neg (Ne.symm hquote.1)] at h
      split at h
      · next hbackslash =>
        obtain ⟨left, hescape, h⟩ := Option.bind_eq_some_iff.mp h
        obtain ⟨⟨others, last⟩, hothers, hpair⟩ := Option.map_eq_some_iff.mp h
        obtain ⟨rfl, rfl⟩ := Prod.mk.inj hpair
        rcases escape_inside (by omega) hescape with ⟨rfl, rfl⟩ | ⟨d, inside, rfl, hd, rfl⟩
        · right
          rw [hbackslash]
          have hshows : ShowsQuote (92 :: 34 :: others) := showsQuote_escape (by rfl) (Or.inl rfl)
          simpa using hshows
        · rw [List.mem_cons, not_or] at hquote
          rw [List.length_cons] at hshort
          rcases ih (by omega) hquote.2.2 hothers with ⟨rfl, rfl, hall⟩ | hshows
          · left
            refine ⟨by simp, rfl, List.forall_mem_cons.mpr ⟨by rw [hbackslash]; decide, ?_⟩⟩
            exact List.forall_mem_cons.mpr ⟨(escapable_ne hd).2, hall⟩
          · right
            rw [hbackslash]
            simpa using showsQuote_escape hd (Or.inr hshows)
      · next hbackslash =>
        split at h
        · cases h
        · next hshown =>
          obtain ⟨⟨others, last⟩, hothers, hpair⟩ := Option.map_eq_some_iff.mp h
          obtain ⟨rfl, rfl⟩ := Prod.mk.inj hpair
          rcases ih (by omega) hquote.2 hothers with ⟨rfl, rfl, hall⟩ | hshows
          · exact Or.inl ⟨rfl, rfl, List.forall_mem_cons.mpr ⟨hshown, hall⟩⟩
          · exact Or.inr (showsQuote_cons hbackslash hshows)

/-- A text that, in quotes, is read as a string for itself only if it is plain. -/
def ReadBack (text : Text) : Prop :=
  ∀ rest written behind,
    string_body (text ++ 34 :: rest).length (text ++ 34 :: rest) = some (written, behind) →
    unescape written = some text →
    (∀ c ∈ text, plain c = true) ∧ written = text ∧ behind = rest

/-- Plain characters stand for themselves. -/
theorem unescape_of_plain {text : Text} (h : ∀ c ∈ text, plain c = true) :
    unescape text = some text := by
  apply unescape_eq_self_iff.mpr
  intro hmem
  exact absurd (h 92 hmem) (by decide)

/-- So a text of plain characters is read back as it is. -/
theorem readBack_of_plain {text : Text} (h : ∀ c ∈ text, plain c = true) : ReadBack text := by
  intro rest written behind hread _
  rw [string_body_plain h (by simp)] at hread
  obtain ⟨rfl, rfl⟩ := Prod.mk.inj (Option.some.inj hread)
  exact ⟨h, rfl, rfl⟩

/-- A text of at most five characters without quotes is read back only as it is, since no escape in
it can be closed in another way. -/
theorem readBack_of_short {text : Text} (hshort : text.length ≤ 5) (hquote : (34 : UInt8) ∉ text) :
    ReadBack text := by
  intro rest written behind hread hshown
  rcases string_body_quoted hshort hquote hread with ⟨rfl, rfl, hall⟩ | hshows
  · have hbackslash := unescape_eq_self_iff.mp hshown
    refine ⟨fun c hc => ?_, rfl, rfl⟩
    have hne : c ≠ 34 ∧ c ≠ 92 :=
      ⟨fun heq => hquote (heq ▸ hc), fun heq => hbackslash (heq ▸ hc)⟩
    simp [plain, hne, hall c hc]
  · exact absurd (hshows _ _ hshown) hquote

/-- A member whose value is a string. -/
def string_member (key text rest : Text) : Text :=
  34 :: (key ++ 34 :: 58 :: 34 :: (text ++ 34 :: rest))

/-- A member with a string is read up to the next quote that is not escaped. -/
theorem member_list_string {key : Text} (hkey : ∀ c ∈ key, plain c = true) (fuel : Nat)
    (text rest : Text) :
    member_list (fuel + 2) (string_member key text rest) =
      (string_body (text ++ 34 :: rest).length (text ++ 34 :: rest)).bind fun read =>
        entries_from 125 (key, .string read.1) (member_list (fuel + 1)) read.2 := by
  have hmember : (Member.mk [] key []).WellFormed := ⟨by simp, hkey⟩
  have htext : string_member key text rest =
      (Member.mk [] key []).text ++ 34 :: (text ++ 34 :: rest) := by
    simp [string_member, Member.text]
  rw [member_list, htext, member_key_text hmember, Option.bind_some]
  dsimp only
  rw [List.nil_append, value, skip_cons (by rfl)]
  dsimp only
  rw [if_neg (by decide), if_neg (by decide), if_pos rfl]
  cases string_body (text ++ 34 :: rest).length (text ++ 34 :: rest) <;> rfl

/-- If its characters are plain, that is the one behind them. -/
theorem member_list_plain {key : Text} (hkey : ∀ c ∈ key, plain c = true) (fuel : Nat) {text : Text}
    (htext : ∀ c ∈ text, plain c = true) (rest : Text) :
    member_list (fuel + 2) (string_member key text rest) =
      entries_from 125 (key, .string text) (member_list (fuel + 1)) rest := by
  rw [member_list_string hkey, string_body_plain htext (by simp), Option.bind_some]

/-- An object that begins with such a member is read as its members. -/
theorem value_object (fuel : Nat) (key text rest : Text) :
    value (fuel + 1) (123 :: string_member key text rest) =
      (member_list fuel (string_member key text rest)).map fun read => (.object read.1, read.2) := by
  rw [value, skip_cons (by rfl)]
  dsimp only
  rw [if_pos rfl, string_member, skip_cons (by rfl)]
  rfl

/-- An array is read as its items, if it has any. The byte behind the bracket is the first of an
item, since there is no white space in front of it. -/
theorem value_array {c : UInt8} (hblank : whitespace c = false) (hclose : c ≠ 93) (fuel : Nat)
    (rest : Text) :
    value (fuel + 1) (91 :: c :: rest) =
      (item_list fuel (c :: rest)).map fun read => (.array read.1, read.2) := by
  rw [value, skip_cons (by rfl)]
  dsimp only
  rw [if_neg (by decide), if_pos rfl, skip_cons hblank]
  dsimp only
  rw [if_neg hclose]

/-- Behind a comma come more entries. -/
theorem entries_from_comma {α : Type} (close : UInt8) (entry : α)
    (more : Text → Option (List α × Text)) (rest : Text) :
    entries_from close entry more (44 :: rest) =
      (more rest).map fun read => (entry :: read.1, read.2) := by
  rw [entries_from, skip_cons (by rfl)]
  rfl

/-- The closing byte ends the list. -/
theorem entries_from_close {α : Type} {close : UInt8} (hblank : whitespace close = false)
    (hcomma : close ≠ 44) (entry : α) (more : Text → Option (List α × Text)) (rest : Text) :
    entries_from close entry more (close :: rest) = some ([entry], rest) := by
  rw [entries_from, skip_cons hblank]
  dsimp only
  rw [if_neg hcomma, if_pos rfl]

/-- If a list goes on behind a comma, what is behind the comma can be read. -/
theorem more_of_entries_from {α : Type} {close : UInt8} {entry : α}
    {more : Text → Option (List α × Text)} {rest behind : Text} {others : List α}
    (h : entries_from close entry more (44 :: rest) = some (entry :: others, behind)) :
    more rest = some (others, behind) := by
  rw [entries_from_comma] at h
  obtain ⟨⟨read, left⟩, hread, hpair⟩ := Option.map_eq_some_iff.mp h
  obtain ⟨hlist, rfl⟩ := Prod.mk.inj hpair
  obtain ⟨-, rfl⟩ := List.cons.inj hlist
  exact hread

/-- The first entry of a list is the one that was read before the loop over the others, whatever
they are. -/
theorem head_of_entries_from {α : Type} {close : UInt8} {entry first : α}
    {more : Text → Option (List α × Text)} {text behind : Text} {others : List α}
    (h : entries_from close entry more text = some (first :: others, behind)) : first = entry := by
  unfold entries_from at h
  split at h
  · cases h
  · split at h
    · obtain ⟨read, _, hpair⟩ := Option.map_eq_some_iff.mp h
      exact (List.cons.inj (Prod.mk.inj hpair).1).1.symm
    · split at h
      · obtain ⟨hlist, _⟩ := Prod.mk.inj (Option.some.inj h)
        exact (List.cons.inj hlist).1.symm
      · cases h

/-- If a member with a text between quotes is read as a string that stands for this text, then the
text is plain, and the rest of the list is read behind it. -/
theorem plain_of_member_list {key text rest written behind : Text} {others : List (Text × Json)}
    {first : Text} {fuel : Nat} (hkey : ∀ c ∈ key, plain c = true) (hback : ReadBack text)
    (h : member_list fuel (string_member key text rest) =
      some ((first, .string written) :: others, behind))
    (hshown : unescape written = some text) :
    (∀ c ∈ text, plain c = true) ∧ first = key ∧ written = text ∧ ∃ less,
      entries_from 125 (key, .string text) (member_list less) rest =
        some ((key, .string text) :: others, behind) := by
  cases fuel with
  | zero => simp [member_list] at h
  | succ fuel =>
    cases fuel with
    | zero =>
      rw [member_list] at h
      obtain ⟨_, _, hnested⟩ := Option.bind_eq_some_iff.mp h
      obtain ⟨_, hvalue, _⟩ := Option.bind_eq_some_iff.mp hnested
      simp [value] at hvalue
    | succ fuel =>
      rw [member_list_string hkey] at h
      obtain ⟨⟨read, left⟩, hread, hentries⟩ := Option.bind_eq_some_iff.mp h
      obtain ⟨rfl, hvalue⟩ := Prod.mk.inj (head_of_entries_from hentries)
      obtain rfl := Json.string.inj hvalue
      obtain ⟨hplain, rfl, rfl⟩ := hback rest _ left hread hshown
      exact ⟨hplain, rfl, rfl, fuel + 1, hentries⟩

end json
