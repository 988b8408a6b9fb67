import CommunicationCenter.Json.Strings

open libc

namespace json

/-- A reader that leaves the rest has passed over a front part of the text without the
byte that ends a C string. -/
def Consumes (text rest : Text) : Prop :=
  ∃ front, text = front ++ rest ∧ (0 : UInt8) ∉ front

theorem Consumes.refl (text : Text) : Consumes text text :=
  ⟨[], rfl, by simp⟩

/-- What two readers pass over one after the other, they pass over together. -/
theorem Consumes.trans {text middle rest : Text} (hfirst : Consumes text middle)
    (hsecond : Consumes middle rest) : Consumes text rest := by
  obtain ⟨front, rfl, hfront⟩ := hfirst
  obtain ⟨next, rfl, hnext⟩ := hsecond
  exact ⟨front ++ next, by simp, by simp [hfront, hnext]⟩

/-- A byte in front can be passed over too, unless it is the one that ends a string. -/
theorem Consumes.cons {c : UInt8} (hc : c ≠ 0) {text rest : Text} (h : Consumes text rest) :
    Consumes (c :: text) rest := by
  obtain ⟨front, rfl, hfront⟩ := h
  exact ⟨c :: front, rfl, by simp [hc.symm, hfront]⟩

/-- A text that is consumed up to a rest without the byte has none of it. -/
theorem Consumes.zero_notMem {text rest : Text} (h : Consumes text rest)
    (hrest : (0 : UInt8) ∉ rest) : (0 : UInt8) ∉ text := by
  obtain ⟨front, rfl, hfront⟩ := h
  simp [hfront, hrest]

/-- Skipping bytes of some kind passes over them, if the byte that ends a string is not of that
kind. -/
theorem consumes_dropWhile {p : UInt8 → Bool} (hp : p 0 = false) (text : Text) :
    Consumes text (text.dropWhile p) := by
  refine ⟨text.takeWhile p, List.takeWhile_append_dropWhile.symm, fun hmem => ?_⟩
  have hzero := List.mem_takeWhile_imp hmem
  rw [hp] at hzero
  cases hzero

/-- White space is passed over. -/
theorem consumes_skip (text : Text) : Consumes text (skip text) :=
  consumes_dropWhile rfl text

/-- The first byte behind the white space is passed over too. -/
theorem consumes_of_skip {text rest : Text} {c : UInt8} (h : skip text = c :: rest) (hc : c ≠ 0) :
    Consumes text rest :=
  (consumes_skip text).trans (h ▸ (Consumes.refl rest).cons hc)

/-- So is a word that has no such byte in it. The three words of JSON are of this kind. -/
theorem consumes_word {expected text rest : Text} (hexpected : (0 : UInt8) ∉ expected)
    (h : word expected text = some rest) : Consumes text rest := by
  unfold word at h
  split at h
  · next hprefix =>
    obtain ⟨behind, rfl⟩ := List.isPrefixOf_iff_prefix.mp hprefix
    obtain rfl := Option.some.inj h
    exact ⟨expected, by simp, hexpected⟩
  · cases h

/-- An escape is passed over as a letter, or as `u` and four digits. None of them is a NUL. -/
theorem consumes_escape {text rest : Text} (h : escape text = some rest) : Consumes text rest := by
  cases text with
  | nil => cases h
  | cons c text =>
    rw [escape] at h
    split at h
    · next hletter =>
      obtain rfl := Option.some.inj h
      refine (Consumes.refl text).cons fun hzero => ?_
      rw [hzero] at hletter
      exact absurd hletter (by decide)
    · split at h
      · next hunit =>
        split at h
        · next hdigits =>
          obtain rfl := Option.some.inj h
          refine Consumes.cons (by simp [hunit]) ⟨text.take 4, (List.take_append_drop 4 text).symm, ?_⟩
          intro hzero
          exact absurd (List.all_eq_true.mp hdigits.2 0 hzero) (by decide)
        · cases h
      · cases h

/-- A string is read up to its closing quote. Control characters are refused in it, and with them
the byte that ends a string in C. -/
theorem consumes_string_body {fuel : Nat} {text written rest : Text}
    (h : string_body fuel text = some (written, rest)) : Consumes text rest := by
  induction fuel generalizing text written with
  | zero => cases h
  | succ fuel ih =>
    cases text with
    | nil => cases h
    | cons c text =>
      rw [string_body] at h
      split at h
      · next hquote =>
        obtain ⟨-, rfl⟩ := Prod.mk.inj (Option.some.inj h)
        exact (Consumes.refl text).cons (by simp [hquote])
      · split at h
        · next hbackslash =>
          obtain ⟨behind, hescape, hbody⟩ := Option.bind_eq_some_iff.mp h
          obtain ⟨read, hread, hpair⟩ := Option.map_eq_some_iff.mp hbody
          obtain ⟨-, rfl⟩ := Prod.mk.inj hpair
          exact ((consumes_escape hescape).trans (ih hread)).cons (by simp [hbackslash])
        · split at h
          · cases h
          · next hshown =>
            obtain ⟨read, hread, hpair⟩ := Option.map_eq_some_iff.mp h
            obtain ⟨-, rfl⟩ := Prod.mk.inj hpair
            refine (ih hread).cons fun hzero => ?_
            rw [hzero] at hshown
            exact hshown (by decide)

/-- The fraction of a number is a point and digits, or nothing. In both cases what is passed over
has no NUL. -/
theorem consumes_fraction_part {text digits rest : Text}
    (h : fraction_part text = some (digits, rest)) : Consumes text rest := by
  unfold fraction_part at h
  split at h
  · split at h
    · cases h
    · obtain ⟨-, rfl⟩ := Prod.mk.inj (Option.some.inj h)
      exact (consumes_dropWhile rfl _).cons (by decide)
  · obtain ⟨-, rfl⟩ := Prod.mk.inj (Option.some.inj h)
    exact Consumes.refl _

theorem consumes_sign (text : Text) : Consumes text (sign text).2 := by
  unfold sign
  split
  · exact (Consumes.refl _).cons (by decide)
  · exact (Consumes.refl _).cons (by decide)
  · exact Consumes.refl _

/-- The exponent is a letter, a sign or none and digits, or nothing, and has no NUL in it either.
-/
theorem consumes_exponent_part {text rest : Text} {factor : ℚ}
    (h : exponent_part text = some (factor, rest)) : Consumes text rest := by
  cases text with
  | nil =>
    obtain ⟨-, rfl⟩ := Prod.mk.inj (Option.some.inj h)
    exact Consumes.refl _
  | cons c text =>
    rw [exponent_part] at h
    split at h
    · next hletter =>
      split at h
      next negative behind hsign =>
        split at h
        · cases h
        · obtain ⟨-, rfl⟩ := Prod.mk.inj (Option.some.inj h)
          have hbehind : Consumes text behind := by
            have hconsumes := consumes_sign text
            rwa [hsign] at hconsumes
          refine (hbehind.trans (consumes_dropWhile rfl _)).cons fun hzero => ?_
          rw [hzero] at hletter
          exact absurd hletter (by decide)
    · obtain ⟨-, rfl⟩ := Prod.mk.inj (Option.some.inj h)
      exact Consumes.refl _

theorem consumes_minus_sign (text : Text) : Consumes text (minus_sign text).2 := by
  unfold minus_sign
  split
  · exact (Consumes.refl _).cons (by decide)
  · exact Consumes.refl _

/-- A number is passed over part by part: the sign, the integer, the fraction and the exponent. -/
theorem consumes_number {text rest : Text} {magnitude : ℚ}
    (h : number text = some (magnitude, rest)) : Consumes text rest := by
  unfold number at h
  dsimp only at h
  split at h
  · cases h
  · obtain ⟨⟨fraction, behind⟩, hfraction, hfactor⟩ := Option.bind_eq_some_iff.mp h
    obtain ⟨⟨factor, last⟩, hexponent, hpair⟩ := Option.map_eq_some_iff.mp hfactor
    obtain ⟨-, rfl⟩ := Prod.mk.inj hpair
    exact (((consumes_minus_sign text).trans (consumes_dropWhile rfl _)).trans
      (consumes_fraction_part hfraction)).trans (consumes_exponent_part hexponent)

/-- The expected byte is passed over, with the white space in front of it. -/
theorem consumes_expect {expected : UInt8} (hexpected : expected ≠ 0) {text rest : Text}
    (h : expect expected text = some rest) : Consumes text rest := by
  unfold expect at h
  split at h
  · cases h
  · next c behind hskip =>
    split at h
    · next heq =>
      obtain rfl := Option.some.inj h
      exact consumes_of_skip hskip (heq ▸ hexpected)
    · cases h

/-- The key of a member is passed over with the white space around it and its colon. -/
theorem consumes_member_key {text key rest : Text} (h : member_key text = some (key, rest)) :
    Consumes text rest := by
  obtain ⟨behind, hquote, hnext⟩ := Option.bind_eq_some_iff.mp h
  obtain ⟨⟨written, after⟩, hbody, hcolon⟩ := Option.bind_eq_some_iff.mp hnext
  obtain ⟨last, hexpect, hpair⟩ := Option.map_eq_some_iff.mp hcolon
  obtain ⟨-, rfl⟩ := Prod.mk.inj hpair
  exact ((consumes_expect (by decide) hquote).trans (consumes_string_body hbody)).trans
    (consumes_expect (by decide) hexpect)

/-- Behind an entry come a comma and more entries, or white space and the end of the list. Nothing
else is accepted there. -/
theorem entries_from_cases {α : Type} {close : UInt8} {entry : α}
    {more : Text → Option (List α × Text)} {text rest : Text} {entries : List α}
    (h : entries_from close entry more text = some (entries, rest)) :
    (∃ behind others, Consumes text behind ∧ more behind = some (others, rest) ∧
      entries = entry :: others) ∨
      entries = [entry] ∧ ∃ blanks, (∀ c ∈ blanks, whitespace c = true) ∧
        text = blanks ++ close :: rest := by
  unfold entries_from at h
  split at h
  · cases h
  · next c behind hskip =>
    split at h
    · next hcomma =>
      obtain ⟨⟨others, last⟩, hmore, hpair⟩ := Option.map_eq_some_iff.mp h
      obtain ⟨hentries, rfl⟩ := Prod.mk.inj hpair
      exact .inl ⟨behind, others, consumes_of_skip hskip (by simp [hcomma]), hmore, hentries.symm⟩
    · split at h
      · next hclose =>
        obtain ⟨hentries, rfl⟩ := Prod.mk.inj (Option.some.inj h)
        refine .inr ⟨hentries.symm, text.takeWhile whitespace, fun c hc => ?_, ?_⟩
        · exact List.mem_takeWhile_imp hc
        · rw [← hclose, ← hskip]
          exact List.takeWhile_append_dropWhile.symm
      · cases h

theorem consumes_blanks {blanks : Text} (h : ∀ c ∈ blanks, whitespace c = true) (rest : Text) :
    Consumes (blanks ++ rest) rest :=
  ⟨blanks, rfl, fun hzero => absurd (h 0 hzero) (by decide)⟩

/-- Behind an entry the rest of the list is passed over up to its closing byte. -/
theorem consumes_entries_from {α : Type} {close : UInt8} {entry : α}
    {more : Text → Option (List α × Text)} {text rest : Text} {entries : List α}
    (hmore : ∀ behind others, more behind = some (others, rest) → Consumes behind (close :: rest))
    (h : entries_from close entry more text = some (entries, rest)) :
    Consumes text (close :: rest) := by
  obtain ⟨behind, others, hbehind, hothers, -⟩ | ⟨-, blanks, hblanks, rfl⟩ := entries_from_cases h
  · exact hbehind.trans (hmore behind others hothers)
  · exact consumes_blanks hblanks _

/-- What each of the mutually recursive readers passes over, for one amount of fuel. -/
structure ConsumesAll (fuel : Nat) : Prop where
  value : ∀ text result rest, json.value fuel text = some (result, rest) → Consumes text rest
  member_list : ∀ text members rest,
    json.member_list fuel text = some (members, rest) → Consumes text (125 :: rest)
  item_list : ∀ text items rest,
    json.item_list fuel text = some (items, rest) → Consumes text (93 :: rest)

/-- What follows an opening byte: the closing one behind white space, or a list up to it. -/
theorem consumes_list {α : Type} {close : UInt8} {empty result : Json} {build : List α → Json}
    {read : Text → Option (List α × Text)} {text rest : Text}
    (hread : ∀ behind entries, read behind = some (entries, rest) → Consumes behind (close :: rest))
    (h : (match skip text with
      | [] => none
      | d :: behind =>
        if d = close then some (empty, behind)
        else (read (d :: behind)).map fun (entries, rest) => (build entries, rest)) =
      some (result, rest)) : Consumes text (close :: rest) := by
  have hskip := consumes_skip text
  split at h
  · cases h
  · next d behind heq =>
    rw [heq] at hskip
    split at h
    · next hclose =>
      obtain ⟨-, rfl⟩ := Prod.mk.inj (Option.some.inj h)
      exact hclose ▸ hskip
    · obtain ⟨⟨entries, last⟩, hentries, hpair⟩ := Option.map_eq_some_iff.mp h
      obtain ⟨-, rfl⟩ := Prod.mk.inj hpair
      exact hskip.trans (hread _ _ hentries)

/-- A value that is built of what a reader reads is passed over if the reader passes over it. -/
theorem consumes_text {α : Type} {read : Option (α × Text)} {build : α → Json} {result : Json}
    {text rest : Text}
    (hread : ∀ value, read = some (value, rest) → Consumes text rest)
    (h : (read.map fun (value, rest) => (build value, rest)) = some (result, rest)) :
    Consumes text rest := by
  obtain ⟨⟨value, last⟩, hvalue, hpair⟩ := Option.map_eq_some_iff.mp h
  obtain ⟨-, rfl⟩ := Prod.mk.inj hpair
  exact hread value hvalue

/-- The same for the words that stand for values. -/
theorem consumes_literal {expected text rest : Text} {literal result : Json}
    (hexpected : (0 : UInt8) ∉ expected)
    (h : ((word expected text).map fun rest => (literal, rest)) = some (result, rest)) :
    Consumes text rest := by
  obtain ⟨last, hword, hpair⟩ := Option.map_eq_some_iff.mp h
  obtain ⟨-, rfl⟩ := Prod.mk.inj hpair
  exact consumes_word hexpected hword

/-- One value, by its first byte, with the three readers known for less fuel. An object ends with a
closing brace, which no other value is asked for. -/
theorem consumes_value {fuel : Nat} (ih : ConsumesAll fuel) {text rest : Text} {result : Json}
    (h : value (fuel + 1) text = some (result, rest)) :
    Consumes text rest ∧ ∀ members, result = .object members → Consumes text (125 :: rest) := by
  rw [value] at h
  split at h
  · cases h
  · next c behind hskip =>
    have hfirst {last : Text} (hc : c ≠ 0) (hlast : Consumes behind last) : Consumes text last :=
      (consumes_of_skip hskip hc).trans hlast
    have hend {close : UInt8} (hclose : close ≠ 0) (hlast : Consumes behind (close :: rest)) :
        Consumes behind rest := hlast.trans ((Consumes.refl rest).cons hclose)
    split at h
    · next hopen =>
      have hmembers := consumes_list (fun inside members => ih.member_list inside members rest) h
      have hc : c ≠ 0 := by simp [hopen]
      exact ⟨hfirst hc (hend (by decide) hmembers), fun _ _ => hfirst hc hmembers⟩
    · -- no other value is an object
      refine ⟨?_, ?_⟩
      · split at h
        · next hopen =>
          exact hfirst (by simp [hopen]) (hend (by decide)
            (consumes_list (fun inside items => ih.item_list inside items rest) h))
        · split at h
          · next hquote =>
            exact hfirst (by simp [hquote]) (consumes_text (fun _ => consumes_string_body) h)
          · split at h
            · next hletter => exact hfirst (by simp [hletter]) (consumes_literal (by decide) h)
            · split at h
              · next hletter => exact hfirst (by simp [hletter]) (consumes_literal (by decide) h)
              · split at h
                · next hletter => exact hfirst (by simp [hletter]) (consumes_literal (by decide) h)
                · exact (hskip ▸ consumes_skip text).trans (consumes_text (fun _ => consumes_number) h)
      · rintro members rfl
        repeat' split at h
        all_goals simp at h

/-- The induction over the fuel, for the three readers that call each other. Where the fuel runs
out, nothing is read. -/
theorem consumesAll (fuel : Nat) : ConsumesAll fuel := by
  induction fuel with
  | zero =>
    refine ⟨fun _ _ _ h => ?_, fun _ _ _ h => ?_, fun _ _ _ h => ?_⟩
    · simp [value] at h
    · simp [member_list] at h
    · simp [item_list] at h
  | succ fuel ih =>
    refine ⟨fun _ _ _ h => (consumes_value ih h).1, fun text members rest h => ?_,
      fun text items rest h => ?_⟩
    · rw [member_list] at h
      obtain ⟨⟨key, behind⟩, hkey, hnext⟩ := Option.bind_eq_some_iff.mp h
      obtain ⟨⟨member, last⟩, hmember, hentries⟩ := Option.bind_eq_some_iff.mp hnext
      exact ((consumes_member_key hkey).trans (ih.value _ _ _ hmember)).trans
        (consumes_entries_from (fun _ _ => ih.member_list _ _ _) hentries)
    · rw [item_list] at h
      obtain ⟨⟨item, behind⟩, hitem, hentries⟩ := Option.bind_eq_some_iff.mp h
      exact (ih.value _ _ _ hitem).trans
        (consumes_entries_from (fun _ _ => ih.item_list _ _ _) hentries)

/-- An object is passed over up to its closing brace, which is still ahead. -/
theorem consumes_object {fuel : Nat} {text rest : Text} {members : List (Text × Json)}
    (h : value fuel text = some (.object members, rest)) : Consumes text (125 :: rest) := by
  cases fuel with
  | zero => simp [value] at h
  | succ fuel => exact (consumes_value (consumesAll fuel) h).2 members rfl

/-- The items of an array that has some are read behind its opening bracket, with one unit of fuel
less. -/
theorem item_list_of_array {fuel : Nat} {text rest : Text} {items : List Json} (hne : items ≠ [])
    (h : value fuel text = some (.array items, rest)) :
    ∃ less behind, Consumes text behind ∧ item_list less behind = some (items, rest) := by
  cases fuel with
  | zero => simp [value] at h
  | succ fuel =>
    rw [value] at h
    split at h
    · cases h
    · next c behind hskip =>
      split at h
      · -- what begins with a brace is an object
        split at h
        · cases h
        · split at h
          · simp at h
          · simp at h
      · split at h
        · next hopen =>
          have hbehind := consumes_of_skip hskip (by simp [hopen])
          split at h
          · cases h
          · next d inside hinside =>
            split at h
            · obtain ⟨hitems, -⟩ := Prod.mk.inj (Option.some.inj h)
              exact absurd (Json.array.inj hitems).symm hne
            · obtain ⟨⟨read, last⟩, hread, hpair⟩ := Option.map_eq_some_iff.mp h
              obtain ⟨hitems, rfl⟩ := Prod.mk.inj hpair
              obtain rfl := Json.array.inj hitems
              exact ⟨fuel, d :: inside, hbehind.trans (hinside ▸ consumes_skip behind), hread⟩
        · repeat' split at h
          all_goals simp at h

/-- A list of objects ends with a closing brace, white space and its bracket. -/
theorem consumes_objects {fuel : Nat} {text rest : Text} {items : List Json}
    (hitems : ∀ item ∈ items, ∃ members, item = .object members)
    (h : item_list fuel text = some (items, rest)) :
    ∃ blanks, (∀ c ∈ blanks, whitespace c = true) ∧
      Consumes text (125 :: (blanks ++ 93 :: rest)) := by
  induction fuel generalizing text items with
  | zero => simp [item_list] at h
  | succ fuel ih =>
    rw [item_list] at h
    obtain ⟨⟨item, behind⟩, hitem, hentries⟩ := Option.bind_eq_some_iff.mp h
    obtain ⟨next, others, hnext, hothers, rfl⟩ | ⟨rfl, blanks, hblanks, hbehind⟩ :=
      entries_from_cases hentries
    · obtain ⟨blanks, hblanks, hlast⟩ :=
        ih (fun other hother => hitems other (List.mem_cons_of_mem _ hother)) hothers
      exact ⟨blanks, hblanks,
        (((consumesAll fuel).value _ _ _ hitem).trans hnext).trans hlast⟩
    · obtain ⟨members, rfl⟩ := hitems item List.mem_cons_self
      exact ⟨blanks, hblanks, hbehind ▸ consumes_object hitem⟩

/-- A document that is an object, or a list of objects that is not empty, has a closing brace
with nothing but white space and possibly a bracket behind it. -/
theorem parse_closed {text : Text} {document : Json} (hparse : parse text = some document)
    (hobject : (∃ members, document = .object members) ∨
      ∃ items, items ≠ [] ∧ document = .array items ∧
        ∀ item ∈ items, ∃ members, item = .object members) :
    ∃ last, (∀ c ∈ last, whitespace c = true ∨ c = 93) ∧ Consumes text (125 :: last) := by
  obtain ⟨⟨read, rest⟩, hvalue, hend⟩ := Option.bind_eq_some_iff.mp hparse
  dsimp only at hend
  split at hend
  · next hskip =>
    obtain rfl := Option.some.inj hend
    have hrest : ∀ c ∈ rest, whitespace c = true := List.dropWhile_eq_nil_iff.mp hskip
    rcases hobject with ⟨members, rfl⟩ | ⟨items, hne, rfl, hitems⟩
    · exact ⟨rest, fun c hc => .inl (hrest c hc), consumes_object hvalue⟩
    · obtain ⟨less, behind, hbehind, hlist⟩ := item_list_of_array hne hvalue
      obtain ⟨blanks, hblanks, hclosed⟩ := consumes_objects hitems hlist
      refine ⟨blanks ++ 93 :: rest, fun c hc => ?_, hbehind.trans hclosed⟩
      rcases List.mem_append.mp hc with hblank | hlast
      · exact .inl (hblanks c hblank)
      · rcases List.mem_cons.mp hlast with rfl | hmem
        · exact .inr rfl
        · exact .inl (hrest c hmem)
  · cases hend

end json
