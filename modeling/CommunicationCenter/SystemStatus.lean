import CommunicationCenter.Libc.Printf

open libc

namespace communication_center.system_status

def STATUS_EXPLANATION_MAX_LEN : Nat := 256

/-- The two shared status texts. -/
structure Status where
  status_headline : Text
  status_explanation : Text
  deriving DecidableEq

/-- `none` is the NULL message. -/
def system_status_copy_string (dest_size : Nat) (message : Option Text) (fallback : Text) : Text :=
  let safe_message := match message with
    | none => fallback
    | some [] => fallback
    | some message => message
  snprintf dest_size safe_message

def system_status_set_headline_locked (message : Option Text) (status : Status) : Status :=
  { status with
    status_headline :=
      system_status_copy_string STATUS_EXPLANATION_MAX_LEN message (ascii "System update") }

def system_status_set_explanation_locked (message : Option Text) (status : Status) : Status :=
  { status with
    status_explanation :=
      system_status_copy_string STATUS_EXPLANATION_MAX_LEN message
        (ascii "No status explanation available.") }

def system_status_set_message_locked (headline message : Option Text) (status : Status) : Status :=
  system_status_set_explanation_locked message (system_status_set_headline_locked headline status)

/-- The critical section of the variant that takes the mutex by itself. -/
def system_status_set_message (headline message : Option Text) (status : Status) : Status :=
  system_status_set_message_locked headline message status

variable {F : Type} [CFloat F]

def system_status_set_messagef_locked (headline fmt : Option Text) (args : List (Arg F))
    (status : Status) : Status :=
  let status := system_status_set_headline_locked headline status
  match fmt with
  | none => system_status_set_explanation_locked none status
  | some [] => system_status_set_explanation_locked none status
  | some fmt =>
    { status with status_explanation := snprintf STATUS_EXPLANATION_MAX_LEN (format fmt args) }

def system_status_append_explanationf_locked (fmt : Option Text) (args : List (Arg F))
    (status : Status) : Status :=
  match fmt with
  | none => status
  | some [] => status
  | some fmt =>
    let len := status.status_explanation.length
    if len + 1 ≥ STATUS_EXPLANATION_MAX_LEN then status
    else
      { status with
        status_explanation := status.status_explanation ++
          32 :: snprintf (STATUS_EXPLANATION_MAX_LEN - (len + 1)) (format fmt args) }

/-- Texts that are not empty replace both status texts, cut to the sizes of their arrays. -/
theorem system_status_set_messagef_locked_eq {headline fmt : Text} (hheadline : headline ≠ [])
    (hfmt : fmt ≠ []) (args : List (Arg F)) (status : Status) :
    system_status_set_messagef_locked headline fmt args status =
      { status_headline := snprintf STATUS_EXPLANATION_MAX_LEN headline
        status_explanation := snprintf STATUS_EXPLANATION_MAX_LEN (format fmt args) } := by
  obtain ⟨h, headline, rfl⟩ := List.exists_cons_of_ne_nil hheadline
  obtain ⟨f, fmt, rfl⟩ := List.exists_cons_of_ne_nil hfmt
  rfl

/-- Appending leaves the headline and what the explanation begins with. Nothing is appended without
a format, or where there is no room. -/
theorem system_status_append_explanationf_locked_extends (fmt : Option Text) (args : List (Arg F))
    (status : Status) :
    (system_status_append_explanationf_locked fmt args status).status_headline =
        status.status_headline ∧
      status.status_explanation <+:
        (system_status_append_explanationf_locked fmt args status).status_explanation := by
  unfold system_status_append_explanationf_locked
  split
  · exact ⟨rfl, List.prefix_rfl⟩
  · exact ⟨rfl, List.prefix_rfl⟩
  · dsimp only
    split
    · exact ⟨rfl, List.prefix_rfl⟩
    · exact ⟨rfl, List.prefix_append _ _⟩

/-- The texts before the first message is set. -/
def Status.initial : Status where
  status_headline := ascii "You are in control"
  status_explanation := ascii "Manual Mode, no Status explanation!"

end communication_center.system_status
