import CommunicationCenter.Libc.Tokens

namespace libc

/-- The directives that match the bytes of a literal. -/
def literals (word : Text) : List Directive :=
  word.map .literal

/-- The directives that match the tokens behind white space. -/
def gaps (tokens : List Text) : List Directive :=
  tokens.flatMap fun token => .space :: literals token

/-- The directives `"%<width>[^"]"` behind white space. -/
def quoted_field (width : Nat) : List Directive :=
  [.space, .literal 34, .scanset width 34, .literal 34]

def quoted (text : Text) : Text :=
  34 :: (text ++ [34])

/-- A token that white space in front of it cannot be confused with. -/
def Visible (token : Text) : Prop :=
  ∃ c rest, token = c :: rest ∧ isspace c = false

theorem skip_space_of_visible {token : Text} (h : Visible token) {blanks : Text}
    (hblanks : ∀ c ∈ blanks, isspace c = true) (text : Text) :
    skip_space (blanks ++ (token ++ text)) = token ++ text := by
  obtain ⟨c, rest, rfl, hc⟩ := h
  rw [skip_space_append hblanks, skip_space, List.cons_append, List.dropWhile_cons_of_neg (by simp [hc])]

theorem exists_blanks (text : Text) :
    ∃ blanks, (∀ c ∈ blanks, isspace c = true) ∧ text = blanks ++ skip_space text :=
  ⟨text.takeWhile isspace, fun _ hc => List.mem_takeWhile_imp hc,
    List.takeWhile_append_dropWhile.symm⟩

theorem scan_literals (word : Text) (format : List Directive) (text : Text) :
    scan (literals word ++ format) (word ++ text) = scan format text := by
  induction word with
  | nil => rfl
  | cons c word ih => simpa [literals, scan] using ih

theorem scan_literals_inv {word : Text} {format : List Directive} {text : Text}
    (h : scan (literals word ++ format) text ≠ []) :
    ∃ rest, text = word ++ rest ∧ scan (literals word ++ format) text = scan format rest := by
  induction word generalizing text with
  | nil => exact ⟨text, rfl, rfl⟩
  | cons byte word ih =>
    cases text with
    | nil => exact absurd rfl h
    | cons c text =>
      have hstep : scan (literals (byte :: word) ++ format) (c :: text) =
          if c = byte then scan (literals word ++ format) text else [] := rfl
      rw [hstep] at h ⊢
      split at h
      · next heq =>
        obtain ⟨rest, rfl, hscan⟩ := ih h
        exact ⟨rest, by rw [heq]; rfl, by rw [if_pos heq, hscan]⟩
      · exact absurd rfl h

theorem scan_gaps {tokens : List Text} {text rest : Text} (hvisible : ∀ token ∈ tokens, Visible token)
    (h : Tokens isspace tokens rest text) (format : List Directive) :
    scan (gaps tokens ++ format) text = scan format rest := by
  induction h with
  | nil => rfl
  | @cons blanks token rest text tokens hblanks _ ih =>
    rw [gaps, List.flatMap_cons, List.append_assoc, List.cons_append, scan,
      skip_space_of_visible (hvisible token (by simp)) hblanks, scan_literals]
    exact ih fun token htoken => hvisible token (List.mem_cons_of_mem _ htoken)

theorem scan_gaps_inv {tokens : List Text} {format : List Directive} {text : Text}
    (h : scan (gaps tokens ++ format) text ≠ []) :
    ∃ rest, Tokens isspace tokens rest text ∧ scan (gaps tokens ++ format) text = scan format rest := by
  induction tokens generalizing text with
  | nil => exact ⟨text, .nil, rfl⟩
  | cons token tokens ih =>
    have hstep : scan (gaps (token :: tokens) ++ format) text =
        scan (literals token ++ (gaps tokens ++ format)) (skip_space text) := by
      rw [gaps, List.flatMap_cons, List.append_assoc, List.cons_append, scan]
      rfl
    rw [hstep] at h ⊢
    obtain ⟨mid, hmid, hscan⟩ := scan_literals_inv h
    rw [hscan] at h ⊢
    obtain ⟨rest, htokens, hrest⟩ := ih h
    obtain ⟨blanks, hblanks, htext⟩ := exists_blanks text
    refine ⟨rest, ?_, hrest⟩
    rw [htext, hmid]
    exact .cons hblanks htokens

/-- A quoted token of at most `width` bytes, none of them a quote. -/
structure QuotedField (width : Nat) (field : Text) : Prop where
  nonempty : field ≠ []
  bounded : field.length ≤ width
  unquoted : (34 : UInt8) ∉ field

theorem takeWhile_unquoted {field : Text} (h : (34 : UInt8) ∉ field) (width : Nat)
    (hbound : field.length ≤ width) (rest : Text) :
    ((field ++ 34 :: rest).take width).takeWhile (· ≠ 34) = field := by
  have hpass : ∀ c ∈ field, (decide (c ≠ 34)) = true := by
    intro c hc
    have hne : c ≠ 34 := fun heq => h (heq ▸ hc)
    simpa using hne
  rw [List.take_append, List.take_of_length_le hbound, List.takeWhile_append_of_pos hpass]
  cases hroom : width - field.length with
  | zero => simp
  | succ n => simp

theorem scan_quoted_field {width : Nat} {field text rest : Text} (hfield : QuotedField width field)
    (h : Tokens isspace [quoted field] rest text) (format : List Directive) :
    scan (quoted_field width ++ format) text = .text field :: scan format rest := by
  cases h with
  | @cons blanks _ _ text _ hblanks htokens =>
    cases htokens
    have hvisible : Visible (quoted field) := ⟨34, _, rfl, rfl⟩
    have hmatch := takeWhile_unquoted hfield.unquoted width hfield.bounded rest
    rw [quoted_field, List.cons_append, scan, skip_space_of_visible hvisible hblanks]
    simp only [quoted, List.cons_append, List.append_assoc, List.nil_append, scan, hmatch,
      hfield.nonempty, if_true, if_false, List.drop_left]

/-- If the scanner got behind a quoted field, the text there is a quoted field of admitted width
behind any white space, and the rest was scanned by the rest of the format. -/
theorem scan_quoted_field_inv {width : Nat} {format : List Directive} {text : Text}
    {value : Conversion} {values : List Conversion}
    (h : scan (quoted_field width ++ format) text = value :: values) (hvalues : values ≠ []) :
    ∃ field rest, QuotedField width field ∧ value = .text field ∧
      Tokens isspace [quoted field] rest text ∧ scan format rest = values := by
  obtain ⟨blanks, hblanks, htext⟩ := exists_blanks text
  have hopen : scan (quoted_field width ++ format) text =
      scan (literals [34] ++ (.scanset width 34 :: .literal 34 :: format)) (skip_space text) := rfl
  rw [hopen] at h
  obtain ⟨mid, hmid, hscan⟩ := scan_literals_inv (by rw [h]; simp)
  rw [hscan, scan] at h
  split at h
  · cases h
  · next hne =>
    obtain ⟨rfl, hrest⟩ := List.cons.inj h
    have hclose : scan (literals [34] ++ format)
        (mid.drop ((mid.take width).takeWhile (· ≠ 34)).length) = values := hrest
    obtain ⟨rest, hdrop, hscan'⟩ := scan_literals_inv (by rw [hclose]; exact hvalues)
    rw [hscan'] at hclose
    refine ⟨_, rest, ⟨hne, ?_, ?_⟩, rfl, ?_, hclose⟩
    · exact (List.takeWhile_prefix _).length_le.trans (List.length_take_le _ _)
    · intro hquote
      simpa using List.mem_takeWhile_imp hquote
    · have hprefix := (List.takeWhile_prefix (fun c : UInt8 => decide (c ≠ 34))).trans
        (List.take_prefix width mid)
      have hsplit := List.prefix_iff_eq_append.mp hprefix
      rw [hdrop] at hsplit
      have hfield : skip_space text = quoted ((mid.take width).takeWhile (· ≠ 34)) ++ rest := by
        rw [hmid]
        conv_lhs => rw [← hsplit]
        simp [quoted]
      rw [htext, hfield]
      exact .cons hblanks .nil

theorem IntText.visible {numeral : Text} {value : Int} (h : IntText numeral value) :
    Visible numeral := by
  obtain ⟨mark, negative, digits, hmark, hne, hdigits, rfl, _⟩ := h
  obtain ⟨d, digits, rfl⟩ := List.exists_cons_of_ne_nil hne
  have hskip := skip_space_of_signText hmark (hdigits d (by simp)) digits
  cases hnumeral : mark ++ d :: digits with
  | nil => simp at hnumeral
  | cons c rest =>
    refine ⟨c, rest, rfl, ?_⟩
    rw [hnumeral, skip_space] at hskip
    by_contra hspace
    rw [List.dropWhile_cons_of_pos (by simpa using hspace)] at hskip
    have hlength := congrArg List.length hskip
    have hle := (List.dropWhile_suffix isspace (l := rest)).length_le
    simp only [List.length_cons] at hlength
    omega

theorem scan_int {numeral text rest : Text} {value : Int} (hvalue : IntText numeral value)
    (hrest : EndsNumeral rest) (h : Tokens isspace [numeral] rest text) (format : List Directive) :
    scan (.space :: .int :: format) text = .int value :: scan format rest := by
  cases h with
  | @cons blanks _ _ text _ hblanks htokens =>
    cases htokens
    have hstrtol : strtol (numeral ++ rest) = some (value, rest) :=
      strtol_eq_some_iff.mpr ⟨[], numeral, by simp, hvalue, rfl, hrest⟩
    rw [scan, skip_space_of_visible hvalue.visible hblanks, scan, hstrtol]

theorem scan_int_inv {format : List Directive} {text : Text} {value : Conversion}
    {values : List Conversion} (h : scan (.space :: .int :: format) text = value :: values) :
    ∃ numeral number rest, value = .int number ∧ IntText numeral number ∧ EndsNumeral rest ∧
      Tokens isspace [numeral] rest text ∧ scan format rest = values := by
  obtain ⟨blanks, hblanks, htext⟩ := exists_blanks text
  rw [scan, scan] at h
  split at h
  · next number rest hstrtol =>
    obtain ⟨rfl, rfl⟩ := List.cons.inj h
    obtain ⟨more, numeral, hmore, hnumeral, hskip, hrest⟩ := strtol_eq_some_iff.mp hstrtol
    refine ⟨numeral, number, rest, rfl, hnumeral, hrest, ?_, rfl⟩
    rw [htext, hskip, ← List.append_assoc]
    refine .cons (fun c hc => ?_) .nil
    exact (List.mem_append.mp hc).elim (hblanks c) (hmore c)
  · cases h

/-- Tokens and a numeral behind them. -/
theorem scan_gaps_int {tokens : List Text} (hvisible : ∀ token ∈ tokens, Visible token)
    {numeral text rest : Text} {value : Int} (hvalue : IntText numeral value) (hrest : EndsNumeral rest)
    (h : Tokens isspace (tokens ++ [numeral]) rest text) (format : List Directive) :
    scan (gaps tokens ++ (.space :: .int :: format)) text = .int value :: scan format rest := by
  obtain ⟨mid, htokens, hnumeral⟩ := Tokens.split tokens h
  rw [scan_gaps hvisible htokens, scan_int hvalue hrest hnumeral]

theorem scan_gaps_int_inv {tokens : List Text} {format : List Directive} {text : Text} {number : Int}
    {values : List Conversion}
    (h : scan (gaps tokens ++ (.space :: .int :: format)) text = .int number :: values) :
    ∃ numeral rest, IntText numeral number ∧ EndsNumeral rest ∧
      Tokens isspace (tokens ++ [numeral]) rest text ∧ scan format rest = values := by
  obtain ⟨mid, htokens, hgap⟩ := scan_gaps_inv (h ▸ List.cons_ne_nil _ _)
  rw [hgap] at h
  obtain ⟨numeral, value, rest, hvalue, hnumeral, hrest, htoken, hscan⟩ := scan_int_inv h
  obtain rfl := Conversion.int.inj hvalue
  exact ⟨numeral, rest, hnumeral, hrest, htokens.append htoken, hscan⟩

/-- Tokens and a quoted field behind them. -/
theorem scan_gaps_quoted {tokens : List Text} (hvisible : ∀ token ∈ tokens, Visible token) {width : Nat}
    {field text rest : Text} (hfield : QuotedField width field)
    (h : Tokens isspace (tokens ++ [quoted field]) rest text) (format : List Directive) :
    scan (gaps tokens ++ (quoted_field width ++ format)) text = .text field :: scan format rest := by
  obtain ⟨mid, htokens, hquoted⟩ := Tokens.split tokens h
  rw [scan_gaps hvisible htokens, scan_quoted_field hfield hquoted]

theorem scan_gaps_quoted_inv {tokens : List Text} {width : Nat} {format : List Directive}
    {text field : Text} {values : List Conversion}
    (h : scan (gaps tokens ++ (quoted_field width ++ format)) text = .text field :: values)
    (hvalues : values ≠ []) :
    ∃ rest, QuotedField width field ∧ Tokens isspace (tokens ++ [quoted field]) rest text ∧
      scan format rest = values := by
  obtain ⟨mid, htokens, hgap⟩ := scan_gaps_inv (h ▸ List.cons_ne_nil _ _)
  rw [hgap] at h
  obtain ⟨found, rest, hfield, hvalue, hquoted, hscan⟩ := scan_quoted_field_inv h hvalues
  obtain rfl := Conversion.text.inj hvalue
  exact ⟨rest, hfield, htokens.append hquoted, hscan⟩

end libc
