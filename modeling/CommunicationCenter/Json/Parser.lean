import CommunicationCenter.Libc.Number

open libc

namespace json

/-- The value that a document denotes. A string is kept as it is written between
its quotes, and the members of an object in their order. -/
inductive Json where
  | null
  | bool (value : Bool)
  | number (value : ℚ)
  | string (written : Text)
  | array (items : List Json)
  | object (members : List (Text × Json))

def whitespace (c : UInt8) : Bool :=
  c = 32 || c = 9 || c = 10 || c = 13

def skip (text : Text) : Text :=
  text.dropWhile whitespace

def word (expected text : Text) : Option Text :=
  if expected.isPrefixOf text then some (text.drop expected.length) else none

/-- The letters that may follow a backslash, apart from the one of a code point. -/
def escapable (c : UInt8) : Bool :=
  c = 34 || c = 92 || c = 47 || c = 98 || c = 102 || c = 110 || c = 114 || c = 116

/-- What is left behind an escape sequence, without its backslash. -/
def escape : Text → Option Text
  | [] => none
  | c :: text =>
    if escapable c then some text
    else if c = 117 then
      if (text.take 4).length = 4 ∧ (text.take 4).all (fun d => (hex_digit d).isSome) then
        some (text.drop 4)
      else none
    else none

/-- The characters of a string up to its closing quote, and the text behind it.
Control characters have to be escaped. -/
def string_body : Nat → Text → Option (Text × Text)
  | 0, _ => none
  | _ + 1, [] => none
  | fuel + 1, c :: text =>
    if c = 34 then some ([], text)
    else if c = 92 then
      (escape text).bind fun rest => (string_body fuel rest).map fun (written, rest') =>
        (c :: text.take (text.length - rest.length) ++ written, rest')
    else if c < 32 then none
    else (string_body fuel text).map fun (written, rest) => (c :: written, rest)

/-- The digits behind a decimal point. Without a point there are none, and a
point needs at least one. -/
def fraction_part : Text → Option (Text × Text)
  | 46 :: text =>
    if text.takeWhile isdigit = [] then none
    else some (text.takeWhile isdigit, text.dropWhile isdigit)
  | text => some ([], text)

/-- The power of ten of an exponent. -/
def exponent_part : Text → Option (ℚ × Text)
  | [] => some (1, [])
  | c :: text =>
    if tolower c = 101 then
      let (negative, text) := sign text
      if text.takeWhile isdigit = [] then none
      else
        let power : ℚ := 10 ^ digits_value (text.takeWhile isdigit)
        some (if negative then 1 / power else power, text.dropWhile isdigit)
    else some (1, c :: text)

def minus_sign : Text → Bool × Text
  | 45 :: text => (true, text)
  | text => (false, text)

/-- A number: an integer part without superfluous zeros in front, and optionally
a fraction and an exponent. -/
def number (text : Text) : Option (ℚ × Text) :=
  let (negative, text) := minus_sign text
  let whole := text.takeWhile isdigit
  if whole = [] ∨ (whole.head? = some 48 ∧ whole ≠ [48]) then none
  else
    (fraction_part (text.dropWhile isdigit)).bind fun (fraction, rest) =>
      (exponent_part rest).map fun (factor, rest) =>
        let magnitude : ℚ := digits_value (whole ++ fraction) / 10 ^ fraction.length * factor
        (if negative then -magnitude else magnitude, rest)

/-- The text behind the expected character and any white space in front of it. -/
def expect (expected : UInt8) (text : Text) : Option Text :=
  match skip text with
  | [] => none
  | c :: rest => if c = expected then some rest else none

/-- The key of a member, up to its colon. -/
def member_key (text : Text) : Option (Text × Text) :=
  (expect 34 text).bind fun rest =>
    (string_body rest.length rest).bind fun (key, rest) =>
      (expect 58 rest).map fun rest => (key, rest)

/-- Behind an entry of a list comes a comma with more of them, or the end of the list. -/
def entries_from {α : Type} (close : UInt8) (entry : α) (more : Text → Option (List α × Text))
    (text : Text) : Option (List α × Text) :=
  match skip text with
  | [] => none
  | c :: rest =>
    if c = 44 then (more rest).map fun (entries, rest) => (entry :: entries, rest)
    else if c = close then some ([entry], rest)
    else none

mutual

/-- One value, and the text behind it. The fuel bounds the nesting. -/
def value : Nat → Text → Option (Json × Text)
  | 0, _ => none
  | fuel + 1, text =>
    match skip text with
    | [] => none
    | c :: rest =>
      if c = 123 then
        match skip rest with
        | [] => none
        | d :: behind =>
          if d = 125 then some (.object [], behind)
          else (member_list fuel (d :: behind)).map fun (members, rest) => (.object members, rest)
      else if c = 91 then
        match skip rest with
        | [] => none
        | d :: behind =>
          if d = 93 then some (.array [], behind)
          else (item_list fuel (d :: behind)).map fun (items, rest) => (.array items, rest)
      else if c = 34 then
        (string_body rest.length rest).map fun (written, rest) => (.string written, rest)
      else if c = 116 then (word (ascii "rue") rest).map fun rest => (.bool true, rest)
      else if c = 102 then (word (ascii "alse") rest).map fun rest => (.bool false, rest)
      else if c = 110 then (word (ascii "ull") rest).map fun rest => (.null, rest)
      else (number (c :: rest)).map fun (magnitude, rest) => (.number magnitude, rest)

/-- The members of an object that is not empty, up to its closing brace. -/
def member_list : Nat → Text → Option (List (Text × Json) × Text)
  | 0, _ => none
  | fuel + 1, text =>
    (member_key text).bind fun (key, rest) =>
      (value fuel rest).bind fun (member, rest) =>
        entries_from 125 (key, member) (member_list fuel) rest

/-- The items of an array that is not empty, up to its closing bracket. -/
def item_list : Nat → Text → Option (List Json × Text)
  | 0, _ => none
  | fuel + 1, text =>
    (value fuel text).bind fun (item, rest) => entries_from 93 item (item_list fuel) rest

end

/-- A document is one value with nothing but white space behind it. A level of
nesting takes at most two of the fuel and at least two bytes, and every further
item takes one of it and a comma, so the length is fuel enough. -/
def parse (text : Text) : Option Json :=
  (value (text.length + 1) text).bind fun (document, rest) =>
    if skip rest = [] then some document else none

example : (["\x7b\"a\": [1, -2.5e1], \"b\": null\x7d", "\x7b\"a\": 1.\x7d", "\x7b\"a\": nan\x7d"].map
    fun text => (parse (ascii text)).isSome) = [true, false, false] := by
  decide +kernel

end json
