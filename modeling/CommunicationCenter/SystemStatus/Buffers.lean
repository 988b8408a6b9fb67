import CommunicationCenter.Libc.Buffer
import CommunicationCenter.SystemStatus

open libc

namespace communication_center.system_status.memory

/-- The two arrays of the module. -/
structure Buffers where
  status_headline : Vector UInt8 STATUS_EXPLANATION_MAX_LEN
  status_explanation : Vector UInt8 STATUS_EXPLANATION_MAX_LEN

/-- The pointer is NULL or the string is empty. -/
def absent : Option CString → Bool
  | none => true
  | some message => message.text = []

variable {n : Nat}

/-- `snprintf` with the format `%s`. -/
def system_status_copy_string (dest : Vector UInt8 n) (message : Option CString) (fallback : Text) :
    Option (Vector UInt8 n) :=
  let safe_message := match message with
    | none => fallback
    | some message => if message.text = [] then fallback else message.text
  vsnprintf dest 0 n safe_message

def system_status_set_headline_locked (message : Option CString) (b : Buffers) : Option Buffers := do
  let status_headline ← system_status_copy_string b.status_headline message (ascii "System update")
  return { b with status_headline }

def system_status_set_explanation_locked (message : Option CString) (b : Buffers) :
    Option Buffers := do
  let status_explanation ← system_status_copy_string b.status_explanation message
    (ascii "No status explanation available.")
  return { b with status_explanation }

def system_status_set_message_locked (headline message : Option CString) (b : Buffers) :
    Option Buffers := do
  let b ← system_status_set_headline_locked headline b
  system_status_set_explanation_locked message b

/-- `formatted` is what the format and the variable arguments stand for. -/
def system_status_set_messagef_locked (headline fmt : Option CString) (formatted : List UInt8)
    (b : Buffers) : Option Buffers := do
  let b ← system_status_set_headline_locked headline b
  if absent fmt then system_status_set_explanation_locked none b
  else
    let status_explanation ← vsnprintf b.status_explanation 0 STATUS_EXPLANATION_MAX_LEN formatted
    return { b with status_explanation }

def system_status_append_explanationf_locked (fmt : Option CString) (formatted : List UInt8)
    (b : Buffers) : Option Buffers :=
  if absent fmt then some b
  else do
    -- `strlen`
    let explanation ← read_string b.status_explanation
    let len := explanation.text.length
    if len + 1 ≥ STATUS_EXPLANATION_MAX_LEN then return b
    else
      let status_explanation ← store b.status_explanation len 32
      let status_explanation ← store status_explanation (len + 1) 0
      let status_explanation ← vsnprintf status_explanation (len + 1)
        (STATUS_EXPLANATION_MAX_LEN - (len + 1)) formatted
      return { b with status_explanation }

/-- The variants without `_locked` take the mutex if there is one. -/
def system_status_set_headline (message : Option CString) (b : Buffers) : Option Buffers :=
  system_status_set_headline_locked message b

def system_status_set_message (headline message : Option CString) (b : Buffers) : Option Buffers :=
  system_status_set_message_locked headline message b

def system_status_set_explanation (message : Option CString) (b : Buffers) : Option Buffers :=
  system_status_set_explanation_locked message b

/-- The text is formatted into an array of its own, so an empty one counts as absent. -/
def system_status_set_explanationf (uninitialised : Vector UInt8 STATUS_EXPLANATION_MAX_LEN)
    (fmt : Option CString) (formatted : List UInt8) (b : Buffers) : Option Buffers :=
  if absent fmt then system_status_set_explanation none b
  else do
    let message ← vsnprintf uninitialised 0 STATUS_EXPLANATION_MAX_LEN formatted
    let message ← read_string message
    system_status_set_explanation (some message) b

/-- The common body of the two getters, for an array of `buf_size` bytes or NULL. -/
def get_string {buf_size : Nat} (source : Vector UInt8 STATUS_EXPLANATION_MAX_LEN)
    (buf : Option (Vector UInt8 buf_size)) : Option (Option (Vector UInt8 buf_size)) :=
  match buf with
  | none => some none
  | some buf =>
    if buf_size = 0 then some (some buf)
    else do
      let text ← read_string source
      let buf ← vsnprintf buf 0 buf_size text.text
      return some buf

def system_status_get_headline {buf_size : Nat} (buf : Option (Vector UInt8 buf_size)) (b : Buffers) :
    Option (Option (Vector UInt8 buf_size)) :=
  get_string b.status_headline buf

def system_status_get_explanation {buf_size : Nat} (buf : Option (Vector UInt8 buf_size)) (b : Buffers) :
    Option (Option (Vector UInt8 buf_size)) :=
  get_string b.status_explanation buf

/-- A call of a setter. -/
inductive Operation where
  | set_headline (message : Option CString)
  | set_explanation (message : Option CString)
  | set_message (headline message : Option CString)
  | set_messagef (headline fmt : Option CString) (formatted : List UInt8)
  | set_explanationf (uninitialised : Vector UInt8 STATUS_EXPLANATION_MAX_LEN) (fmt : Option CString)
    (formatted : List UInt8)
  | append_explanationf (fmt : Option CString) (formatted : List UInt8)

def Operation.apply (b : Buffers) : Operation → Option Buffers
  | .set_headline message => system_status_set_headline message b
  | .set_explanation message => system_status_set_explanation message b
  | .set_message headline message => system_status_set_message headline message b
  | .set_messagef headline fmt formatted => system_status_set_messagef_locked headline fmt formatted b
  | .set_explanationf uninitialised fmt formatted =>
    system_status_set_explanationf uninitialised fmt formatted b
  | .append_explanationf fmt formatted => system_status_append_explanationf_locked fmt formatted b

/-- The calls in order; `none` is an access outside an array. -/
def run (operations : List Operation) (b : Buffers) : Option Buffers :=
  operations.foldlM Operation.apply b

def Buffers.initial : Buffers where
  status_headline := initialised (ascii "You are in control")
  status_explanation := initialised (ascii "Manual Mode, no Status explanation!")

end communication_center.system_status.memory
