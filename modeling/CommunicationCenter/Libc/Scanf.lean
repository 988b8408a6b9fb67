import CommunicationCenter.Libc.Number

namespace libc

inductive Directive where
  | space
  | literal (byte : UInt8)
  | int
  | scanset (width : Nat) (stop : UInt8)
  deriving DecidableEq

inductive Conversion where
  | int (value : Int)
  | text (value : Text)
  deriving DecidableEq

/-- The directives of a scan format: `%d`, `%<digit>[^<byte>]`, white space and
bytes that have to match. -/
def directives : Text → List Directive
  | 37 :: 100 :: format => .int :: directives format
  | 37 :: width :: 91 :: 94 :: stop :: 93 :: format =>
    .scanset (width.toNat - 48) stop :: directives format
  | c :: format => (if isspace c then .space else .literal c) :: directives format
  | [] => []

/-- The values stored before the input first fails to match. Only `%d` skips
white space by itself, and a scanset has to match at least one byte. -/
def scan : List Directive → Text → List Conversion
  | [], _ => []
  | .space :: format, text => scan format (skip_space text)
  | .literal byte :: format, text => match text with
    | c :: text => if c = byte then scan format text else []
    | [] => []
  | .int :: format, text => match strtol text with
    | some (value, text) => .int value :: scan format text
    | none => []
  | .scanset width stop :: format, text =>
    let matched := (text.take width).takeWhile (· ≠ stop)
    if matched = [] then [] else .text matched :: scan format (text.drop matched.length)

def sscanf (text : Text) (format : String) : List Conversion :=
  scan (directives (ascii format)) text

example : sscanf (ascii "\"k\":  \"ab\",-7x") "\"k\" : \"%5[^\"]\" , %d" =
    [.text (ascii "ab"), .int (-7)] := by decide

end libc
