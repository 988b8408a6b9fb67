import CommunicationCenter.Json.Parser

open libc

namespace json

/-- The character that an escape letter stands for. -/
def letter (c : UInt8) : Option UInt8 :=
  if c = 34 || c = 92 || c = 47 then some c
  else if c = 98 then some 8
  else if c = 102 then some 12
  else if c = 110 then some 10
  else if c = 114 then some 13
  else if c = 116 then some 9
  else none

/-- The number that four hexadecimal digits stand for, and the text behind them. -/
def code_unit (text : Text) : Option (Nat × Text) :=
  if (text.take 4).length = 4 ∧ (text.take 4).all (fun d => (hex_digit d).isSome) then
    some (Nat.ofDigits 16 ((text.take 4).filterMap hex_digit).reverse, text.drop 4)
  else none

/-- The bytes of a code point. -/
def utf8_bytes (code : Nat) : Text :=
  if code < 0x80 then [code.toUInt8]
  else if code < 0x800 then [(0xC0 + code / 64).toUInt8, (0x80 + code % 64).toUInt8]
  else if code < 0x10000 then
    [(0xE0 + code / 4096).toUInt8, (0x80 + code / 64 % 64).toUInt8, (0x80 + code % 64).toUInt8]
  else
    [(0xF0 + code / 262144).toUInt8, (0x80 + code / 4096 % 64).toUInt8,
      (0x80 + code / 64 % 64).toUInt8, (0x80 + code % 64).toUInt8]

/-- The character behind `\u`. One outside the basic plane is written as two
surrogates, and a lone surrogate is no character. -/
def code_point (text : Text) : Option (Text × Text) :=
  (code_unit text).bind fun (unit, rest) =>
    if 0xD800 ≤ unit ∧ unit < 0xDC00 then
      if rest.take 2 = [92, 117] then
        (code_unit (rest.drop 2)).bind fun (low, rest) =>
          if 0xDC00 ≤ low ∧ low < 0xE000 then
            some (utf8_bytes (0x10000 + (unit - 0xD800) * 0x400 + (low - 0xDC00)), rest)
          else none
      else none
    else if 0xDC00 ≤ unit ∧ unit < 0xE000 then none
    else some (utf8_bytes unit, rest)

/-- The character behind a backslash. -/
def escaped_character : Text → Option (Text × Text)
  | [] => none
  | c :: text =>
    if c = 117 then code_point text else (letter c).map fun character => ([character], text)

def unescape_from : Nat → Text → Option Text
  | 0, _ => none
  | _ + 1, [] => some []
  | fuel + 1, c :: text =>
    if c = 92 then
      (escaped_character text).bind fun (character, rest) =>
        (unescape_from fuel rest).map fun characters => character ++ characters
    else (unescape_from fuel text).map fun characters => c :: characters

/-- The characters that a string stands for, in UTF-8, from what is written
between its quotes. -/
def unescape (written : Text) : Option Text :=
  unescape_from (written.length + 1) written

example : unescape (ascii "a\\n\\u00e9\\uD83D\\ude00") =
    some [97, 10, 0xC3, 0xA9, 0xF0, 0x9F, 0x98, 0x80] := by
  decide +kernel

theorem utf8_bytes_length (code : Nat) : (utf8_bytes code).length ≤ 4 := by
  unfold utf8_bytes
  split
  · simp
  · split
    · simp
    · split <;> simp

theorem code_unit_length {text rest : Text} {unit : Nat} (h : code_unit text = some (unit, rest)) :
    rest.length + 4 = text.length := by
  unfold code_unit at h
  split at h
  · next hdigits =>
    cases h
    have htake := hdigits.1
    rw [List.length_take] at htake
    rw [List.length_drop]
    omega
  · cases h

/-- The character that an escape with digits stands for is not longer than the escape, also where
two escapes make one character. -/
theorem code_point_length {text character rest : Text}
    (h : code_point text = some (character, rest)) : character.length + rest.length ≤ text.length := by
  obtain ⟨⟨unit, behind⟩, hunit, h⟩ := Option.bind_eq_some_iff.mp h
  have hbehind := code_unit_length hunit
  dsimp only at h
  split at h
  · split at h
    · obtain ⟨⟨low, last⟩, hlow, h⟩ := Option.bind_eq_some_iff.mp h
      have hlast := code_unit_length hlow
      rw [List.length_drop] at hlast
      dsimp only at h
      split at h
      · obtain ⟨rfl, rfl⟩ := Prod.mk.inj (Option.some.inj h)
        have hfour := utf8_bytes_length (0x10000 + (unit - 0xD800) * 0x400 + (low - 0xDC00))
        omega
      · cases h
    · cases h
  · split at h
    · cases h
    · cases h
      have hfour := utf8_bytes_length unit
      omega

/-- An escape sequence is at least as long as the character that it stands for, so that unescaping
never makes a text longer. -/
theorem escaped_character_length {text character rest : Text}
    (h : escaped_character text = some (character, rest)) :
    character.length + rest.length ≤ text.length := by
  cases text with
  | nil => cases h
  | cons c text =>
    rw [escaped_character] at h
    split at h
    · have hpoint := code_point_length h
      rw [List.length_cons]
      omega
    · obtain ⟨character, _, h⟩ := Option.map_eq_some_iff.mp h
      cases h
      simp [Nat.add_comm]

/-- A string without backslashes stands for itself. -/
theorem unescape_from_plain {written : Text} (h : (92 : UInt8) ∉ written) {fuel : Nat}
    (hfuel : written.length < fuel) : unescape_from fuel written = some written := by
  induction written generalizing fuel with
  | nil =>
    obtain ⟨fuel, rfl⟩ := Nat.exists_eq_add_one_of_ne_zero (Nat.ne_zero_of_lt hfuel)
    rfl
  | cons c written ih =>
    obtain ⟨fuel, rfl⟩ := Nat.exists_eq_add_one_of_ne_zero (Nat.ne_zero_of_lt hfuel)
    simp only [List.mem_cons, not_or] at h
    have hrest := ih h.2 (by simpa using hfuel)
    rw [unescape_from, if_neg (Ne.symm h.1), hrest]
    rfl

/-- A string is at least as long as what it stands for, and one with a backslash is longer. -/
theorem unescape_from_length {fuel : Nat} {written characters : Text}
    (h : unescape_from fuel written = some characters) :
    characters.length ≤ written.length ∧
      ((92 : UInt8) ∈ written → characters.length < written.length) := by
  induction fuel generalizing written characters with
  | zero => cases h
  | succ fuel ih =>
    cases written with
    | nil =>
      cases h
      simp
    | cons c written =>
      rw [unescape_from] at h
      split at h
      · obtain ⟨⟨character, rest⟩, hcharacter, h⟩ := Option.bind_eq_some_iff.mp h
        obtain ⟨others, hothers, h⟩ := Option.map_eq_some_iff.mp h
        have hsequence := escaped_character_length hcharacter
        have hrest := (ih hothers).1
        subst h
        simp only [List.length_append, List.length_cons]
        exact ⟨by omega, fun _ => by omega⟩
      · next hc =>
        obtain ⟨others, hothers, rfl⟩ := Option.map_eq_some_iff.mp h
        obtain ⟨hle, hlt⟩ := ih hothers
        simp only [List.length_cons, List.mem_cons, Nat.add_le_add_iff_right,
          Nat.add_lt_add_iff_right]
        refine ⟨hle, fun hmem => hlt (hmem.resolve_left fun heq => hc heq.symm)⟩

/-- A string stands for what is written exactly when it has no backslash. -/
theorem unescape_eq_self_iff {written : Text} :
    unescape written = some written ↔ (92 : UInt8) ∉ written := by
  constructor
  · intro h hmem
    exact absurd ((unescape_from_length h).2 hmem) (Nat.lt_irrefl _)
  · intro h
    exact unescape_from_plain h (Nat.lt_succ_self _)

end json
