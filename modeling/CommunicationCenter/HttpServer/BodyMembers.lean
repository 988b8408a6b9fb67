import CommunicationCenter.HttpServer.DocumentScan

open libc communication_center.system_state

namespace communication_center.http_server

/-- What a member of a request body has as its value: a string without quotes in
it, or an integer. -/
def IsValue (value : Text) : Prop :=
  (∃ shown, (34 : UInt8) ∉ shown ∧ value = quoted shown) ∨ ∃ number, IntText value number

/-- A member of an object as it is written, with the white space around its parts. -/
structure BodyMember where
  before : Text
  key : Text
  beforeColon : Text
  afterColon : Text
  value : Text
  after : Text
  blanks : ∀ c ∈ before ++ (beforeColon ++ (afterColon ++ after)), json_space c = true
  unquoted : (34 : UInt8) ∉ key
  isValue : IsValue value

namespace BodyMember

variable (m : BodyMember)

def behind_key (rest : Text) : Text :=
  m.beforeColon ++ (colon ++ (m.afterColon ++ (m.value ++ (m.after ++ rest))))

def text (rest : Text) : Text :=
  m.before ++ (quoted m.key ++ m.behind_key rest)

theorem blank_before : ∀ c ∈ m.before, json_space c = true :=
  fun c hc => m.blanks c (by simp [hc])

theorem blank_beforeColon : ∀ c ∈ m.beforeColon, json_space c = true :=
  fun c hc => m.blanks c (by simp [hc])

theorem blank_afterColon : ∀ c ∈ m.afterColon, json_space c = true :=
  fun c hc => m.blanks c (by simp [hc])

theorem blank_after : ∀ c ∈ m.after, json_space c = true :=
  fun c hc => m.blanks c (by simp [hc])

end BodyMember

/-- The members behind the first one, up to the closing brace. -/
def members_behind : List BodyMember → Text → Text
  | [], rest => close_brace ++ rest
  | m :: members, rest => comma ++ m.text (members_behind members rest)

/-- The tokens behind the value of a first member. -/
def follow_tokens (members : List (Text × Text)) : List Text :=
  members.flatMap fun member => [comma, quoted member.1, colon, member.2]

/-- Two quoted texts at the front of one text are the same, and so is what follows. -/
theorem quoted_inj {first second x y : Text} (hfirst : (34 : UInt8) ∉ first)
    (hsecond : (34 : UInt8) ∉ second) (h : quoted first ++ x = quoted second ++ y) :
    first = second ∧ x = y := by
  have hwhile {shown rest : Text} (hshown : (34 : UInt8) ∉ shown) :
      (shown ++ 34 :: rest).takeWhile (· ≠ 34) = shown := by
    have hpass : ∀ c ∈ shown, decide (c ≠ 34) = true := fun c hc =>
      decide_eq_true fun heq => hshown (heq ▸ hc)
    rw [List.takeWhile_append_of_pos hpass]
    simp
  have htail : first ++ 34 :: x = second ++ 34 :: y := by
    simpa [quoted] using h
  have hsame : first = second := by
    have heq := congrArg (List.takeWhile (· ≠ 34)) htail
    rwa [hwhile hfirst, hwhile hsecond] at heq
  subst hsame
  exact ⟨rfl, (List.cons.inj (List.append_cancel_left htail)).2⟩

/-- Two numerals at the front of one text end at the same place, provided that no digit follows
them. They may be written differently. -/
theorem numeral_inj {first second x y : Text} {a b : Int} (hfirst : IntText first a)
    (hsecond : IntText second b) (hx : EndsNumeral x) (hy : EndsNumeral y)
    (h : first ++ x = second ++ y) : x = y := by
  have hread {numeral rest : Text} {value : Int} (hvalue : IntText numeral value)
      (hrest : EndsNumeral rest) : strtol (numeral ++ rest) = some (value, rest) :=
    strtol_eq_some_iff.mpr ⟨[], numeral, by simp, hvalue, rfl, hrest⟩
  have heq := hread hfirst hx
  rw [h, hread hsecond hy] at heq
  exact (Prod.mk.inj (Option.some.inj heq)).2.symm

/-- A numeral does not begin with a quote, whatever follows it, so that it cannot be taken for a
key. -/
theorem intText_head {numeral : Text} {number : Int} (h : IntText numeral number) (rest : Text) :
    (numeral ++ rest).head? ≠ some 34 := by
  obtain ⟨mark, negative, digits, hmark, hne, hdigits, rfl, _⟩ := h
  obtain ⟨d, digits, rfl⟩ := List.exists_cons_of_ne_nil hne
  intro heq
  cases hmark with
  | none =>
    have hdigit := hdigits d (by simp)
    rw [Option.some.inj heq] at hdigit
    exact absurd hdigit (by decide)
  | plus => exact absurd (Option.some.inj heq) (by decide)
  | minus => exact absurd (Option.some.inj heq) (by decide)

/-- A value is told apart from what comes behind it, whether it is a numeral or a string. What
comes behind has to end a numeral in both texts. -/
theorem value_inj {first second x y : Text} (hfirst : IsValue first) (hsecond : IsValue second)
    (hx : EndsNumeral x) (hy : EndsNumeral y) (h : first ++ x = second ++ y) : x = y := by
  rcases hfirst with ⟨shown, hshown, rfl⟩ | ⟨a, ha⟩
  · rcases hsecond with ⟨other, hother, rfl⟩ | ⟨b, hb⟩
    · exact (quoted_inj hshown hother h).2
    · exact absurd (congrArg List.head? h).symm (intText_head hb y)
  · rcases hsecond with ⟨other, hother, rfl⟩ | ⟨b, hb⟩
    · exact absurd (congrArg List.head? h) (intText_head ha x)
    · exact numeral_inj ha hb hx hy h

/-- A quoted text does not begin with white space. -/
theorem visible_quoted (shown : Text) : Visible (quoted shown) :=
  ⟨34, _, rfl, by decide⟩

/-- Nor does any value. -/
theorem IsValue.visible {value : Text} (h : IsValue value) : Visible value := by
  rcases h with ⟨shown, _, rfl⟩ | ⟨number, hnumber⟩
  · exact visible_quoted shown
  · exact hnumber.visible

/-- The next token begins where the white space ends. Both tokens show a byte that is no white
space, and the blanks may be of any kind that JSON knows. -/
theorem tokens_next {token next text rest blanks : Text} {tokens : List Text}
    (h : Tokens isspace (token :: tokens) rest (blanks ++ (next ++ text)))
    (hblanks : ∀ c ∈ blanks, json_space c = true) (htoken : Visible token) (hnext : Visible next) :
    ∃ behind, token ++ behind = next ++ text ∧ Tokens isspace tokens rest behind := by
  generalize hwhole : blanks ++ (next ++ text) = whole at h
  cases h with
  | @cons skipped _ _ behind _ hskipped htokens =>
    have hskip := congrArg skip_space hwhole
    rw [skip_space_of_visible hnext fun c hc => isspace_of_json_space (hblanks c hc),
      skip_space_of_visible htoken hskipped] at hskip
    exact ⟨behind, hskip.symm, htokens⟩

/-- Behind a member, also behind white space, a numeral is over: a comma, the closing brace or a
blank follows. -/
theorem endsNumeral_behind {blanks : Text} (h : ∀ c ∈ blanks, json_space c = true)
    (members : List BodyMember) (rest : Text) :
    EndsNumeral (blanks ++ members_behind members rest) := by
  refine .blanks (fun c hc => isspace_of_json_space (h c hc)) fun c hc => ?_
  cases members with
  | nil =>
    obtain rfl : brace = c := Option.some.inj hc
    decide
  | cons =>
    obtain rfl : 44 = c := Option.some.inj hc
    decide

theorem visible_punctuation : Visible colon ∧ Visible comma ∧ Visible close_brace :=
  ⟨⟨_, _, rfl, by decide⟩, ⟨_, _, rfl, by decide⟩, ⟨_, _, rfl, by decide⟩⟩

/-- If the text behind a key consists of the expected tokens, as a format string asks for them, the
members begin with the expected keys. Members may have any white space, and may go on behind the
expected ones. -/
theorem keys_of_tokens {value rest close : Text} {expected : List (Text × Text)} {m : BodyMember}
    {members : List BodyMember} (hvalue : IsValue value)
    (hexpected : ∀ member ∈ expected, (34 : UInt8) ∉ member.1 ∧ IsValue member.2)
    (h : Tokens isspace (colon :: value :: follow_tokens expected) rest
      (m.behind_key (members_behind members close))) :
    expected.map Prod.fst <+: members.map BodyMember.key := by
  obtain ⟨hcolon, hcomma, hbrace⟩ := visible_punctuation
  induction expected generalizing m members value with
  | nil => exact List.nil_prefix
  | cons member expected ih =>
    obtain ⟨⟨hkey, hnext⟩, hothers⟩ := List.forall_mem_cons.mp hexpected
    obtain ⟨behind, heq, h⟩ := tokens_next h m.blank_beforeColon hcolon hcolon
    obtain rfl := List.append_cancel_left heq
    obtain ⟨behind, heq, h⟩ := tokens_next h m.blank_afterColon hvalue.visible m.isValue.visible
    obtain rfl := value_inj hvalue m.isValue (endsNumeral_of_comma h)
      (endsNumeral_behind m.blank_after members close) heq
    cases members with
    | nil =>
      obtain ⟨behind, heq, _⟩ := tokens_next h m.blank_after hcomma hbrace
      exact absurd (List.cons.inj heq).1 (by decide)
    | cons n members =>
      obtain ⟨behind, heq, h⟩ := tokens_next h m.blank_after hcomma hcomma
      obtain rfl := List.append_cancel_left heq
      obtain ⟨behind, heq, h⟩ := tokens_next h n.blank_before (visible_quoted _) (visible_quoted _)
      obtain ⟨hsame, rfl⟩ := quoted_inj hkey n.unquoted heq
      exact List.cons_prefix_cons.mpr ⟨hsame, ih hnext hothers h⟩

/-- Text behind a key has the tokens of its own member and of all members that follow, for a
scanner that skips white space. What is behind the object is left as the rest. -/
theorem tokens_of_members (m : BodyMember) (members : List BodyMember) (close : Text) :
    ∃ rest, EndsNumeral rest ∧
      Tokens isspace (colon :: m.value :: follow_tokens (members.map fun n => (n.key, n.value))) rest
        (m.behind_key (members_behind members close)) := by
  have hspace {blanks : Text} (h : ∀ c ∈ blanks, json_space c = true) :
      ∀ c ∈ blanks, isspace c = true := fun c hc => isspace_of_json_space (h c hc)
  induction members generalizing m with
  | nil =>
    exact ⟨m.after ++ members_behind [] close, endsNumeral_behind m.blank_after [] close,
      .cons (hspace m.blank_beforeColon) (.cons (hspace m.blank_afterColon) .nil)⟩
  | cons n members ih =>
    obtain ⟨rest, hrest, htokens⟩ := ih n
    exact ⟨rest, hrest, .cons (hspace m.blank_beforeColon) (.cons (hspace m.blank_afterColon)
      (.cons (hspace m.blank_after) (.cons (hspace n.blank_before) htokens)))⟩

end communication_center.http_server
