import CommunicationCenter.HttpServer.BodyMembers
import Mathlib.Data.List.Nodup

open libc communication_center.system_state

namespace communication_center.http_server

/-- The members of an object, up to the closing brace. -/
def members_text : List BodyMember → Text → Text
  | [], rest => close_brace ++ rest
  | m :: members, rest => m.text (members_behind members rest)

/-- An object with its members in the given order. -/
def object_text (front : Text) (order : List BodyMember) (rest : Text) : Text :=
  front ++ (open_brace ++ members_text order rest)

/-- The bytes that can come behind a key or a value. -/
def delimiters : Text := ascii " \t\n\r:,\x7d"

/-- The word of a key that is searched for: it is not found at a closing quote. -/
structure KeyWord (word : Text) : Prop where
  unquoted : (34 : UInt8) ∉ word
  head : ∃ c ∈ word.head?, c ∉ delimiters

/-- White space is among the characters that delimit tokens. -/
theorem mem_delimiters_of_json_space {c : UInt8} (h : json_space c = true) : c ∈ delimiters := by
  simp only [json_space, Bool.or_eq_true, decide_eq_true_eq] at h
  rcases h with ((rfl | rfl) | rfl) | rfl <;> decide

/-- In front of a delimiter white space can be put, and what comes first is a delimiter still. -/
theorem head_of_blanks {blanks rest : Text} (h : ∀ c ∈ blanks, json_space c = true)
    (hrest : ∀ c ∈ rest.head?, c ∈ delimiters) :
    ∀ c ∈ (blanks ++ rest).head?, c ∈ delimiters := by
  cases blanks with
  | nil => exact hrest
  | cons blank blanks =>
    intro c hc
    obtain rfl : blank = c := Option.some.inj hc
    exact mem_delimiters_of_json_space (h blank (by simp))

/-- A search for a quoted word passes over text without quotes. -/
theorem strstr_unquoted {word before : Text} (h : (34 : UInt8) ∉ before) (text : Text) :
    strstr (quoted word) (before ++ text) = strstr (quoted word) text :=
  strstr_append_of_notMem h text

/-- A search for a quoted word passes over another quoted text, as long as a delimiter follows it:
the quotes of the one cannot be taken for those of the other. -/
theorem strstr_quoted_append {word shown rest : Text} (hword : KeyWord word)
    (hshown : (34 : UInt8) ∉ shown) (hne : shown ≠ word)
    (hrest : ∀ c ∈ rest.head?, c ∈ delimiters) :
    strstr (quoted word) (quoted shown ++ rest) = strstr (quoted word) rest := by
  have hopen : ¬ quoted word <+: quoted shown ++ rest := by
    rintro ⟨behind, heq⟩
    exact hne (quoted_inj hword.unquoted hshown heq).1.symm
  have hclose : ¬ quoted word <+: 34 :: rest := by
    rintro ⟨behind, heq⟩
    obtain ⟨c, hc, hnot⟩ := hword.head
    have htail : word ++ ([34] ++ behind) = rest := by
      simpa [quoted] using heq
    obtain ⟨word, rfl⟩ := List.head?_eq_some_iff.mp hc
    rw [← htail] at hrest
    exact hnot (hrest c rfl)
  have hsplit : quoted shown ++ rest = 34 :: (shown ++ 34 :: rest) := by
    simp [quoted]
  rw [hsplit] at hopen ⊢
  rw [strstr, if_neg fun h => hopen (List.isPrefixOf_iff_prefix.mp h)]
  have hinside : strstr (quoted word) (shown ++ 34 :: rest) = strstr (quoted word) (34 :: rest) :=
    strstr_unquoted hshown _
  rw [hinside, strstr, if_neg fun h => hclose (List.isPrefixOf_iff_prefix.mp h)]

/-- A member with another key, whose value is not the searched text, is passed over. -/
theorem strstr_member {word rest : Text} (hword : KeyWord word) {m : BodyMember}
    (hkey : m.key ≠ word) (hvalue : m.value ≠ quoted word)
    (hrest : ∀ c ∈ rest.head?, c ∈ delimiters) :
    strstr (quoted word) (m.text rest) = strstr (quoted word) rest := by
  have hcolon : ∀ c ∈ (m.beforeColon ++ (colon ++ (m.afterColon ++ (m.value ++ (m.after ++ rest))))).head?,
      c ∈ delimiters :=
    head_of_blanks m.blank_beforeColon (by simp [colon, delimiters, ascii])
  have hafter := head_of_blanks m.blank_after hrest
  have hpass : strstr (quoted word) (m.value ++ (m.after ++ rest)) =
      strstr (quoted word) (m.after ++ rest) := by
    rcases m.isValue with ⟨shown, hshown, heq⟩ | ⟨number, hnumber⟩
    · rw [heq] at hvalue ⊢
      exact strstr_quoted_append hword hshown (fun h => hvalue (congrArg quoted h)) hafter
    · exact strstr_unquoted (fun h => (plain_of_intText hnumber 34 h).2.1 rfl) _
  rw [BodyMember.text, strstr_unquoted (quote_notMem_blanks m.blank_before), BodyMember.behind_key,
    strstr_quoted_append hword m.unquoted hkey hcolon,
    strstr_unquoted (quote_notMem_blanks m.blank_beforeColon), strstr_unquoted (by decide),
    strstr_unquoted (quote_notMem_blanks m.blank_afterColon), hpass,
    strstr_unquoted (quote_notMem_blanks m.blank_after)]

/-- Behind a member comes a delimiter, if anything does: a comma before the next one, or the
closing brace. -/
theorem head_members_behind (members : List BodyMember) (rest : Text) :
    ∀ c ∈ (members_behind members rest).head?, c ∈ delimiters := by
  intro c hc
  cases members with
  | nil =>
    obtain rfl : brace = c := Option.some.inj hc
    decide
  | cons =>
    obtain rfl : 44 = c := Option.some.inj hc
    decide

/-- The search for a quoted word stops at the first member with this key, provided that no value is
the word in quotes. The members may be in any order. -/
theorem strstr_members {word : Text} (hword : KeyWord word) {members : List BodyMember}
    (hvalues : ∀ m ∈ members, m.value ≠ quoted word) (hmem : word ∈ members.map BodyMember.key)
    (rest : Text) :
    ∃ before m after, members = before ++ m :: after ∧ m.key = word ∧
      (∀ n ∈ before, n.key ≠ word) ∧ strstr (quoted word) (members_behind members rest) =
        some (quoted word ++ m.behind_key (members_behind after rest)) := by
  induction members with
  | nil => cases hmem
  | cons m members ih =>
    obtain ⟨hvalue, hothers⟩ := List.forall_mem_cons.mp hvalues
    rw [members_behind, strstr_unquoted (by decide)]
    by_cases hkey : m.key = word
    · refine ⟨[], m, members, rfl, hkey, by simp, ?_⟩
      rw [BodyMember.text, strstr_unquoted (quote_notMem_blanks m.blank_before), hkey,
        strstr_of_prefix (List.prefix_append _ _)]
    · have htail := (List.mem_cons.mp hmem).resolve_left (Ne.symm hkey)
      obtain ⟨before, n, after, rfl, hn, hbefore, hfound⟩ := ih hothers htail
      refine ⟨m :: before, n, after, rfl, hn, List.forall_mem_cons.mpr ⟨hkey, hbefore⟩, ?_⟩
      rw [strstr_member hword hkey hvalue (head_members_behind _ rest), hfound]

/-- A search for a quoted word in an object starts with its members, since the white space and the
brace in front of them hold no quote. -/
theorem strstr_object_text {word front : Text} (hfront : ∀ c ∈ front, json_space c = true)
    (order : List BodyMember) (rest : Text) :
    strstr (quoted word) (object_text front order rest) =
      strstr (quoted word) (members_behind order rest) := by
  rw [object_text, strstr_unquoted (quote_notMem_blanks hfront), strstr_unquoted (by decide)]
  cases order with
  | nil => rfl
  | cons m members => exact (strstr_unquoted (by decide) _).symm

/-- What follows a member can be taken apart from it. -/
theorem BodyMember.text_append (m : BodyMember) (rest : Text) : m.text rest = m.text [] ++ rest := by
  simp [BodyMember.text, BodyMember.behind_key]

/-- So can what follows several members. -/
theorem members_behind_append (members : List BodyMember) (rest : Text) :
    members_behind members rest = members_behind members [] ++ rest := by
  induction members with
  | nil => rfl
  | cons m members ih =>
    rw [members_behind, members_behind, m.text_append, ih, m.text_append (members_behind members [])]
    simp

/-- What follows an object is behind all of it: the rest does not change how the members are
written. -/
theorem object_text_append (front : Text) (order : List BodyMember) (rest : Text) :
    object_text front order rest = object_text front order [] ++ rest := by
  cases order with
  | nil => simp [object_text, members_text]
  | cons m members =>
    rw [object_text, object_text, members_text, members_text, m.text_append, members_behind_append,
      m.text_append (members_behind members [])]
    simp

/-- The length of members is the sum of theirs, with a comma or brace each. -/
theorem length_members_behind (members : List BodyMember) (rest : Text) :
    (members_behind members rest).length =
      (members.map fun m => (m.text []).length + 1).sum + (rest.length + 1) := by
  induction members with
  | nil => simp [members_behind, close_brace]
  | cons m members ih =>
    rw [members_behind, BodyMember.text_append, List.length_append, List.length_append, ih]
    simp [comma]
    omega

/-- The first member has no comma in front. -/
theorem length_members_text {members : List BodyMember} (h : members ≠ []) (rest : Text) :
    (members_text members rest).length + 1 = (members_behind members rest).length := by
  cases members with
  | nil => exact absurd rfl h
  | cons m members => simp [members_text, members_behind, comma]

/-- The order of the members does not matter for the length of an object, so that a body fits the
array in every order or in none. -/
theorem length_object_text {first second : List BodyMember} (h : first.Perm second)
    (front rest : Text) :
    (object_text front first rest).length = (object_text front second rest).length := by
  have hmembers : (members_text first rest).length = (members_text second rest).length := by
    cases first with
    | nil =>
      obtain rfl := List.nil_perm.mp h
      rfl
    | cons m members =>
      have hfirst := length_members_text (List.cons_ne_nil m members) rest
      have hsecond := length_members_text
        (fun hnil => List.cons_ne_nil m members (List.perm_nil.mp (hnil ▸ h))) rest
      have hsum := (h.map fun n => (n.text []).length + 1).sum_nat
      rw [length_members_behind] at hfirst hsecond
      omega
  simp [object_text, hmembers]

/-- Text within a C string and within an object. -/
def Inside (text : Text) : Prop :=
  ∀ c ∈ text, c ≠ 0 ∧ c ≠ brace

/-- Texts without NUL and closing brace are so together. -/
theorem Inside.append {first second : Text} (hfirst : Inside first) (hsecond : Inside second) :
    Inside (first ++ second) :=
  List.forall_mem_append.mpr ⟨hfirst, hsecond⟩

/-- Plain characters are neither. -/
theorem inside_of_plain {text : Text} (h : ∀ c ∈ text, Plain c) : Inside text :=
  fun c hc => ⟨(h c hc).1, (h c hc).2.2⟩

/-- White space is neither. -/
theorem inside_blanks {blanks : Text} (h : ∀ c ∈ blanks, json_space c = true) : Inside blanks :=
  inside_of_plain fun c hc => plain_of_json_space (h c hc)

/-- Quotes around a text put neither into it. -/
theorem inside_quoted {shown : Text} (h : Inside shown) : Inside (quoted shown) := by
  have hquote : Inside [34] := by
    simp [Inside, brace]
  exact hquote.append (h.append hquote)

theorem inside_punctuation : Inside open_brace ∧ Inside colon ∧ Inside comma := by
  simp [Inside, brace, open_brace, colon, comma]

structure BodyMember.IsInside (m : BodyMember) : Prop where
  key : Inside m.key
  value : Inside m.value

/-- What is behind the key of a member has neither, if its value has not. -/
theorem BodyMember.IsInside.behind_key {m : BodyMember} (h : m.IsInside) :
    Inside (m.behind_key []) :=
  (inside_blanks m.blank_beforeColon).append (inside_punctuation.2.1.append
    ((inside_blanks m.blank_afterColon).append (h.value.append
      ((inside_blanks m.blank_after).append (by simp [Inside])))))

/-- Nor does the whole member. -/
theorem BodyMember.IsInside.text {m : BodyMember} (h : m.IsInside) : Inside (m.text []) :=
  (inside_blanks m.blank_before).append ((inside_quoted h.key).append h.behind_key)

/-- The text of the members ends with the closing brace, the first one in it. -/
theorem members_behind_closed {members : List BodyMember} (h : ∀ m ∈ members, m.IsInside)
    (rest : Text) :
    ∃ inner, members_behind members rest = inner ++ (close_brace ++ rest) ∧ Inside inner := by
  induction members with
  | nil => exact ⟨[], rfl, by simp [Inside]⟩
  | cons m members ih =>
    obtain ⟨hm, hothers⟩ := List.forall_mem_cons.mp h
    obtain ⟨inner, heq, hinner⟩ := ih hothers
    refine ⟨comma ++ (m.text [] ++ inner), ?_, inside_punctuation.2.2.append (hm.text.append hinner)⟩
    rw [members_behind, m.text_append, heq]
    simp

/-- What is behind the key of a member goes up to the closing brace, with none in between. -/
theorem behind_key_closed {m : BodyMember} {after : List BodyMember}
    (h : ∀ n ∈ m :: after, n.IsInside) (rest : Text) :
    ∃ inner, m.behind_key (members_behind after rest) = inner ++ (close_brace ++ rest) ∧
      Inside inner := by
  obtain ⟨hm, hothers⟩ := List.forall_mem_cons.mp h
  obtain ⟨inner, heq, hinner⟩ := members_behind_closed hothers rest
  refine ⟨m.behind_key [] ++ inner, ?_, hm.behind_key.append hinner⟩
  rw [heq]
  simp [BodyMember.behind_key]

/-- An object is its inner part, in which there are no closing braces, and the closing brace. The
rest may be anything. -/
theorem object_text_closed {front : Text} (hfront : ∀ c ∈ front, json_space c = true)
    {members : List BodyMember} (h : ∀ m ∈ members, m.IsInside) (rest : Text) :
    ∃ inner, object_text front members rest = inner ++ (close_brace ++ rest) ∧ Inside inner := by
  have hopen := (inside_blanks hfront).append inside_punctuation.1
  cases members with
  | nil => exact ⟨front ++ open_brace, by simp [object_text, members_text], hopen⟩
  | cons m members =>
    obtain ⟨hm, hothers⟩ := List.forall_mem_cons.mp h
    obtain ⟨inner, heq, hinner⟩ := members_behind_closed hothers rest
    refine ⟨front ++ open_brace ++ (m.text [] ++ inner), ?_, hopen.append (hm.text.append hinner)⟩
    rw [object_text, members_text, m.text_append, heq]
    simp

/-- An object has no NUL, if what follows it has none. -/
theorem zero_notMem_object_text {front : Text} (hfront : ∀ c ∈ front, json_space c = true)
    {members : List BodyMember} (h : ∀ m ∈ members, m.IsInside) {rest : Text}
    (hrest : (0 : UInt8) ∉ rest) : (0 : UInt8) ∉ object_text front members rest := by
  obtain ⟨inner, heq, hinner⟩ := object_text_closed hfront h rest
  rw [heq, List.mem_append, List.mem_append, not_or, not_or]
  exact ⟨fun hmem => (hinner 0 hmem).1 rfl, by decide, hrest⟩

/-- What holds of the keys of an object holds of the key of each member. -/
theorem key_of_mem {P : Text → Prop} {keys : List Text} (h : ∀ key ∈ keys, P key)
    {members : List BodyMember} (hkeys : members.map BodyMember.key = keys) {m : BodyMember}
    (hm : m ∈ members) : P m.key :=
  h m.key (hkeys ▸ List.mem_map_of_mem hm)

/-- An order of members that puts their keys as they were is the order they were in, as no key is
double. -/
theorem eq_of_perm_of_keys {order members : List BodyMember} (h : order.Perm members)
    (hnodup : (members.map BodyMember.key).Nodup)
    (hkeys : order.map BodyMember.key = members.map BodyMember.key) : order = members := by
  refine List.ext_getElem h.length_eq fun i hi hj => ?_
  have hkey : (order.get ⟨i, hi⟩).key = (members.get ⟨i, hj⟩).key := by
    have heq := congrArg (·[i]?) hkeys
    simpa [hi, hj] using heq
  exact List.inj_on_of_nodup_map hnodup (h.mem_iff.mp (List.getElem_mem hi)) (List.getElem_mem hj) hkey

/-- Where the search for the first key ends, and what that says about the order of
the members. -/
theorem member_found {word : Text} (hword : KeyWord word) {keys : List Text}
    {order : List BodyMember} (hkeys : (order.map BodyMember.key).Perm (word :: keys))
    (hvalues : ∀ m ∈ order, m.value ≠ quoted word) {front : Text}
    (hfront : ∀ c ∈ front, json_space c = true) (rest : Text) :
    ∃ m after, m :: after <:+ order ∧ strstr (quoted word) (object_text front order rest) =
        some (quoted word ++ m.behind_key (members_behind after rest)) ∧
      (order.map BodyMember.key = word :: keys → order = m :: after) ∧
      (keys <+: after.map BodyMember.key → order.map BodyMember.key = word :: keys) := by
  obtain ⟨before, m, after, rfl, hkey, hbefore, hfound⟩ :=
    strstr_members hword hvalues (hkeys.mem_iff.mpr (by simp)) rest
  refine ⟨m, after, List.suffix_append _ _, (strstr_object_text hfront _ rest).trans hfound, ?_, ?_⟩
  · intro hordered
    cases before with
    | nil => rfl
    | cons n before => exact absurd (List.cons.inj hordered).1 (hbefore n (by simp))
  · intro hprefix
    have hlength := hkeys.length_eq
    have hle := hprefix.length_le
    simp only [List.map_append, List.map_cons, List.length_append, List.length_cons,
      List.length_map] at hlength hle
    obtain rfl : before = [] := List.eq_nil_of_length_eq_zero (by omega)
    have hsame := hprefix.eq_of_length (by simp only [List.length_map]; omega)
    rw [List.nil_append, List.map_cons, hkey, hsame]

end communication_center.http_server
