import CommunicationCenter.Libc.Scanf

namespace libc

/-- The text consists of the tokens in order, each behind any amount of white
space, and of the rest behind the last one. -/
inductive Tokens (blank : UInt8 → Bool) : List Text → Text → Text → Prop where
  | nil {rest : Text} : Tokens blank [] rest rest
  | cons {blanks token rest text : Text} {tokens : List Text}
      (hblanks : ∀ c ∈ blanks, blank c = true) (htokens : Tokens blank tokens rest text) :
      Tokens blank (token :: tokens) rest (blanks ++ (token ++ text))

variable {blank : UInt8 → Bool}

theorem Tokens.append {first second : List Text} {text mid rest : Text}
    (hfirst : Tokens blank first mid text) (hsecond : Tokens blank second rest mid) :
    Tokens blank (first ++ second) rest text := by
  induction hfirst with
  | nil => exact hsecond
  | cons hblanks _ ih => exact .cons hblanks (ih hsecond)

theorem Tokens.split (first : List Text) {second : List Text} {text rest : Text}
    (h : Tokens blank (first ++ second) rest text) :
    ∃ mid, Tokens blank first mid text ∧ Tokens blank second rest mid := by
  induction first generalizing text with
  | nil => exact ⟨text, .nil, h⟩
  | cons token first ih =>
    cases h with
    | cons hblanks htokens =>
      obtain ⟨mid, hfirst, hsecond⟩ := ih htokens
      exact ⟨mid, .cons hblanks hfirst, hsecond⟩

theorem Tokens.rest_append {tokens : List Text} {rest text : Text} (h : Tokens blank tokens rest text)
    (more : Text) : Tokens blank tokens (rest ++ more) (text ++ more) := by
  induction h with
  | nil => exact .nil
  | @cons blanks token rest text tokens hblanks _ ih =>
    rw [List.append_assoc, List.append_assoc]
    exact .cons hblanks ih

theorem Tokens.mono {wider : UInt8 → Bool} (hwider : ∀ c, blank c = true → wider c = true)
    {tokens : List Text} {rest text : Text} (h : Tokens blank tokens rest text) :
    Tokens wider tokens rest text := by
  induction h with
  | nil => exact .nil
  | cons hblanks _ ih => exact .cons (fun c hc => hwider c (hblanks c hc)) ih

/-- What is left of the text behind the tokens, read one by one. -/
def strip_tokens (blank : UInt8 → Bool) : List Text → Text → Option Text
  | [], text => some text
  | token :: tokens, text =>
    if token <+: text.dropWhile blank then
      strip_tokens blank tokens ((text.dropWhile blank).drop token.length)
    else none

/-- Whether a text consists of given tokens can be evaluated: if they can be taken off one after
the other, with the white space in front of each, it does. -/
theorem Tokens.of_strip {tokens : List Text} {text rest : Text}
    (h : strip_tokens blank tokens text = some rest) : Tokens blank tokens rest text := by
  induction tokens generalizing text with
  | nil =>
    obtain rfl := Option.some.inj h
    exact .nil
  | cons token tokens ih =>
    rw [strip_tokens] at h
    split at h
    · next hnext =>
      obtain ⟨behind, hbehind⟩ := hnext
      rw [← hbehind, List.drop_left] at h
      rw [← List.takeWhile_append_dropWhile (p := blank) (l := text), ← hbehind]
      exact .cons (fun c hc => List.mem_takeWhile_imp hc) (ih h)
    · cases h

/-- A sign, or none; true stands for a minus. -/
inductive SignText : Text → Bool → Prop where
  | none : SignText [] false
  | plus : SignText [43] false
  | minus : SignText [45] true

theorem SignText.bytes {mark : Text} {negative : Bool} (h : SignText mark negative) {c : UInt8}
    (hc : c ∈ mark) : c = 43 ∨ c = 45 := by
  cases h with
  | none => cases hc
  | plus => exact Or.inl (List.mem_singleton.mp hc)
  | minus => exact Or.inr (List.mem_singleton.mp hc)

/-- A decimal integer, read as a `long` that saturates. -/
def IntText (numeral : Text) (value : Int) : Prop :=
  ∃ mark negative digits, SignText mark negative ∧ digits ≠ [] ∧
    (∀ c ∈ digits, isdigit c = true) ∧ numeral = mark ++ digits ∧
    value = max INT_MIN
      (min INT_MAX (if negative then -(digits_value digits : Int) else digits_value digits))

/-- A byte that is no digit comes behind the numeral, or nothing does. -/
def EndsNumeral (rest : Text) : Prop :=
  ∀ c ∈ rest.head?, isdigit c = false

theorem isdigit_of_isspace {c : UInt8} (h : isspace c = true) : isdigit c = false := by
  by_contra hdigit
  have hskip : skip_space [c] = [c] := skip_space_of_digit (by simpa using hdigit)
  simp [skip_space, h] at hskip

/-- White space ends a numeral too. Where there is none, the text behind it has to end the numeral.
-/
theorem EndsNumeral.blanks {blanks rest : Text} (hblanks : ∀ c ∈ blanks, isspace c = true)
    (h : EndsNumeral rest) : EndsNumeral (blanks ++ rest) := by
  intro c hc
  cases blanks with
  | nil => exact h c hc
  | cons blank blanks =>
    obtain rfl : blank = c := Option.some.inj hc
    exact isdigit_of_isspace (hblanks blank (by simp))

theorem sign_eq (text : Text) : ∃ mark, SignText mark (sign text).1 ∧ text = mark ++ (sign text).2 := by
  unfold sign
  split
  · exact ⟨[45], .minus, rfl⟩
  · exact ⟨[43], .plus, rfl⟩
  · exact ⟨[], .none, rfl⟩

theorem sign_of_signText {mark : Text} {negative : Bool} (h : SignText mark negative) {c : UInt8}
    (hdigit : isdigit c = true) (text : Text) :
    sign (mark ++ (c :: text)) = (negative, c :: text) := by
  cases h with
  | none => exact sign_of_digit hdigit text
  | plus => rfl
  | minus => rfl

theorem takeWhile_digits {digits rest : Text} (hdigits : ∀ c ∈ digits, isdigit c = true)
    (hrest : EndsNumeral rest) :
    (digits ++ rest).takeWhile isdigit = digits ∧ (digits ++ rest).dropWhile isdigit = rest := by
  rw [List.takeWhile_append_of_pos hdigits, List.dropWhile_append_of_pos hdigits]
  cases rest with
  | nil => simp
  | cons c rest => simp [hrest c rfl]

theorem skip_space_of_signText {mark : Text} {negative : Bool} (h : SignText mark negative)
    {c : UInt8} (hdigit : isdigit c = true) (text : Text) :
    skip_space (mark ++ (c :: text)) = mark ++ (c :: text) := by
  cases h with
  | none => exact skip_space_of_digit hdigit
  | plus => rfl
  | minus => rfl

/-- What `strtol` accepts, and where it stops: any white space, a sign or none, and as many digits
as follow. The value is cut to the range of an `int`. -/
theorem strtol_eq_some_iff {text rest : Text} {value : Int} :
    strtol text = some (value, rest) ↔ ∃ blanks numeral, (∀ c ∈ blanks, isspace c = true) ∧
      IntText numeral value ∧ text = blanks ++ (numeral ++ rest) ∧ EndsNumeral rest := by
  constructor
  · intro h
    obtain ⟨mark, hmark, hsign⟩ := sign_eq (skip_space text)
    unfold strtol at h
    dsimp only at h
    split at h
    · cases h
    · next hdigits =>
      obtain ⟨rfl, rfl⟩ := Prod.mk.inj (Option.some.inj h)
      refine ⟨text.takeWhile isspace, _, fun c hc => List.mem_takeWhile_imp hc,
        ⟨mark, _, _, hmark, hdigits, fun c hc => List.mem_takeWhile_imp hc, rfl, rfl⟩, ?_, ?_⟩
      · rw [List.append_assoc, List.takeWhile_append_dropWhile, ← hsign, skip_space,
          List.takeWhile_append_dropWhile]
      · intro c hc
        have hhead := List.head?_dropWhile_not isdigit (sign (skip_space text)).2
        rw [Option.mem_def.mp hc] at hhead
        simpa using hhead
  · rintro ⟨blanks, _, hblanks, ⟨mark, negative, digits, hmark, hne, hdigits, rfl, rfl⟩, rfl, hrest⟩
    obtain ⟨htake, hdrop⟩ := takeWhile_digits hdigits hrest
    obtain ⟨d, digits, rfl⟩ := List.exists_cons_of_ne_nil hne
    have hd := hdigits d (by simp)
    unfold strtol
    rw [skip_space_append hblanks, List.append_assoc, List.cons_append,
      skip_space_of_signText hmark hd, sign_of_signText hmark hd]
    rw [List.cons_append] at htake hdrop
    simp only [htake, hdrop, hne, if_false]

end libc
