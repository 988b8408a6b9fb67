import CommunicationCenter.HttpServer.Handlers
import CommunicationCenter.Libc.Float

open libc communication_center.system_state

namespace communication_center.http_server

/-- The routes with a body. -/
inductive PostUri where
  | mode
  | actuators
  | schedule
  deriving DecidableEq

def PostUri.buf_size : PostUri → Nat
  | .mode => 32
  | .actuators => 128
  | .schedule => 512

variable {F : Type}

def post_handler (uri : PostUri) (global_client : Bool) (now : tm) (req : httpd_req_t)
    (s : State F) : Option (PostOutcome F) :=
  match uri with
  | .mode => some (mode_post_handler req s)
  | .actuators => some (actuators_post_handler global_client now req s)
  | .schedule => schedule_post_handler req s

/-- A request whose body arrives in pieces. The handlers call `httpd_req_recv`
once, and that call returns the first of them. -/
def httpd_req_t.fragmented (pieces : List (List UInt8)) : httpd_req_t where
  content_len := pieces.flatten.length
  recv := .bytes (pieces.headD [])

/-- The ways in which the network can deliver a body. -/
def Delivers (pieces : List (List UInt8)) (body : List UInt8) : Prop :=
  pieces.flatten = body ∧ ∀ piece ∈ pieces, piece ≠ []

def recv_error : HttpError := ⟨.HTTPD_400_BAD_REQUEST, "recv"⟩

/-- A first read that is short of the body ends the reading with an error, whatever comes later. -/
theorem read_body_short {buf_size : Nat} {pieces : List (List UInt8)}
    (hpositive : 0 < pieces.flatten.length) (hfits : pieces.flatten.length < buf_size)
    (hshort : (pieces.headD []).length < pieces.flatten.length) :
    read_body buf_size (.fragmented pieces) = .error recv_error := by
  have hlen : ¬(pieces.flatten.length ≤ 0 ∨ pieces.flatten.length ≥ buf_size) := by omega
  have hrecv : (pieces.headD []).length ≠ pieces.flatten.length := by omega
  rw [read_body, httpd_req_t.fragmented, if_neg hlen]
  simp only [if_pos hrecv, recv_error]

/-- A read that fails or is short is answered at once, before anything is parsed. The state is left
as it was and nothing is published. -/
theorem post_handler_of_recv_error {uri : PostUri} {req : httpd_req_t}
    (h : read_body uri.buf_size req = .error recv_error) (global_client : Bool) (now : tm)
    (s : State F) : post_handler uri global_client now req s =
      some { answer := .error recv_error, state := s, messages := [] } := by
  cases uri with
  | mode =>
    have hparse : mode_post_parse req = .error recv_error := by
      rw [mode_post_parse, show read_body 32 req = .error recv_error from h]
      rfl
    rw [post_handler, mode_post_handler, hparse]
  | actuators =>
    have hparse : actuators_post_parse req = .error recv_error := by
      rw [actuators_post_parse, show read_body 128 req = .error recv_error from h]
      rfl
    rw [post_handler, actuators_post_handler, hparse]
  | schedule =>
    have hparse : schedule_post_parse req = .error recv_error := by
      rw [schedule_post_parse, show read_body 512 req = .error recv_error from h]
      rfl
    rw [post_handler, schedule_post_handler, hparse]

/-- A body that was read is never answered as if it was not. Here for a mode. -/
theorem mode_post_parse_ne_recv {req : httpd_req_t} {text : Text}
    (hbody : read_body 32 req = .ok text) : mode_post_parse req ≠ .error recv_error := by
  rw [mode_post_parse, hbody]
  simp only [bind, Except.bind]
  split
  · split <;> simp [recv_error]
  · simp [recv_error]

/-- Here for actuators. -/
theorem actuators_post_parse_ne_recv {req : httpd_req_t} {text : Text}
    (hbody : read_body 128 req = .ok text) : actuators_post_parse req ≠ .error recv_error := by
  rw [actuators_post_parse, hbody]
  simp only [bind, Except.bind]
  split <;> simp [recv_error]

/-- Nor does the section of the handler answer so. -/
theorem actuators_post_section_ne_recv (now : tm) (r : ActuatorsRequest) (s : State F) :
    actuators_post_section now r s ≠ .error recv_error := by
  unfold actuators_post_section
  dsimp only
  split
  · simp [recv_error]
  · split <;> simp [recv_error]

/-- A body that was received whole is never answered as a short read, on none of the three routes
and in no state. This tells the outcomes of fragmented bodies apart. -/
theorem post_handler_ne_recv {uri : PostUri} {req : httpd_req_t} {text : Text}
    (hbody : read_body uri.buf_size req = .ok text) {global_client : Bool} {now : tm}
    {s : State F} {outcome : PostOutcome F}
    (h : post_handler uri global_client now req s = some outcome) :
    outcome.answer ≠ .error recv_error := by
  cases uri with
  | mode =>
    have hne := mode_post_parse_ne_recv hbody
    obtain rfl := Option.some.inj h
    unfold mode_post_handler
    split
    · next e hparse =>
      rw [hparse] at hne
      simpa using hne
    · simp
  | actuators =>
    have hne := actuators_post_parse_ne_recv hbody
    obtain rfl := Option.some.inj h
    unfold actuators_post_handler
    split
    · next e hparse =>
      rw [hparse] at hne
      simpa using hne
    · next r _ =>
      have hsection := actuators_post_section_ne_recv now r s
      split
      · next e heq =>
        rw [heq] at hsection
        simpa using hsection
      · simp
  | schedule =>
    have hparse : schedule_post_parse req =
        .ok (schedule_loop (start_count text) (some text) []) := by
      rw [schedule_post_parse, show read_body 512 req = .ok text from hbody]
      rfl
    simp only [post_handler, schedule_post_handler, hparse] at h
    split at h
    · next heq => cases heq
    · cases h
      simp
    · cases h

/-- A body in one piece is the whole body. -/
theorem fragmented_singleton (body : List UInt8) : .fragmented [body] = httpd_req_t.delivered body := by
  simp [httpd_req_t.fragmented, httpd_req_t.delivered]

/-- If the first piece is not shorter than the body, it is the body, and the only piece. -/
theorem eq_singleton_of_head_length {pieces : List (List UInt8)} {body : List UInt8}
    (h : Delivers pieces body) (hbody : 0 < body.length)
    (hhead : ¬ (pieces.headD []).length < body.length) : pieces = [body] := by
  obtain ⟨rfl, hnonempty⟩ := h
  cases pieces with
  | nil => simp at hbody
  | cons first rest =>
    cases rest with
    | nil => simp
    | cons second rest =>
      have hsecond := List.length_pos_iff.mpr (hnonempty second (by simp))
      simp only [List.headD_cons, List.flatten_cons, List.length_append] at hhead
      omega

/-- For each of the three routes, every state and every admitted body: the outcome is that of the
whole body exactly when the first read delivers it whole. The pieces may be any that make up the
body. Bodies whose length is refused are left out, as they are not read at all. -/
theorem fragmented_eq_delivered_iff (uri : PostUri) (global_client : Bool) (now : tm)
    {pieces : List (List UInt8)} {body : List UInt8} (hpieces : Delivers pieces body)
    (hpositive : 0 < body.length) (hfits : body.length < uri.buf_size) (s : State F) :
    post_handler uri global_client now (.fragmented pieces) s =
        post_handler uri global_client now (.delivered body) s ↔ pieces = [body] := by
  constructor
  · intro h
    by_contra hsplit
    have hshort : (pieces.headD []).length < body.length := by
      by_contra hhead
      exact hsplit (eq_singleton_of_head_length hpieces hpositive hhead)
    obtain ⟨rfl, _⟩ := hpieces
    rw [post_handler_of_recv_error (read_body_short hpositive hfits hshort)] at h
    exact post_handler_ne_recv (read_body_delivered hpositive hfits) h.symm rfl
  · rintro rfl
    rw [fragmented_singleton]

private def split_body : List (List UInt8) :=
  [ascii "\x7b\"mod", ascii "e\":0\x7d"]

private theorem split_body_delivers : Delivers split_body split_body.flatten :=
  ⟨rfl, by decide⟩

theorem fragmented_eq_delivered_iff_split :
    post_handler .mode true ⟨12, 30⟩ (.fragmented split_body) (State.initial : State Binary32) =
        post_handler .mode true ⟨12, 30⟩ (.delivered split_body.flatten) State.initial ↔
      split_body = [split_body.flatten] :=
  fragmented_eq_delivered_iff .mode true ⟨12, 30⟩ split_body_delivers (by decide) (by decide)
    State.initial

/-- A body that arrives in two pieces is refused, and the same body in one piece is accepted: the
handler calls for data only once. -/
theorem fragmented_ne_delivered :
    ¬ ∀ (uri : PostUri) (global_client : Bool) (now : tm) (pieces : List (List UInt8))
      (body : List UInt8), Delivers pieces body → 0 < body.length → body.length < uri.buf_size →
      ∀ s : State Binary32, post_handler uri global_client now (.fragmented pieces) s =
        post_handler uri global_client now (.delivered body) s := by
  intro h
  have hsame := h .mode true ⟨12, 30⟩ split_body split_body.flatten split_body_delivers (by decide)
    (by decide) State.initial
  have hanswers := congrArg (Option.map PostOutcome.answer) hsame
  exact absurd hanswers (by decide)

end communication_center.http_server
