import CommunicationCenter.HttpServer.ScheduleGet

open libc communication_center.system_state

namespace communication_center.http_server

/-- What the loop of `schedule_get_handler` formats, one text for each call. -/
def entry_pieces (first : Bool) : List schedule_period_t → List Text
  | [] => []
  | period :: periods => period_entry listed_mode first period :: entry_pieces false periods

/-- What all its calls of `snprintf` format, in order. -/
def listing_pieces (periods : List schedule_period_t) : List Text :=
  ascii "\x7b \"periods\":[" :: (entry_pieces true periods ++ [ascii "]\x7d"])

/-- The buffer after some calls. -/
def append_pieces (pieces : List Text) (resp : Resp) : Except Fault Resp :=
  pieces.foldlM Resp.append resp

/-- Two lists of pieces are appended one after the other. -/
theorem append_pieces_append (first second : List Text) (resp : Resp) :
    append_pieces (first ++ second) resp = append_pieces first resp >>= append_pieces second :=
  List.foldlM_append

/-- The loop over the periods appends the pieces of their entries. -/
theorem append_entries_eq_pieces (first : Bool) (periods : List schedule_period_t) (resp : Resp) :
    append_entries first periods resp = append_pieces (entry_pieces first periods) resp := by
  induction periods generalizing first resp with
  | nil => rfl
  | cons period periods ih =>
    rw [append_entries, entry_pieces, append_pieces, List.foldlM_cons]
    simp only [ih, append_pieces]

/-- The handler makes these calls, one after the other, and sends what they leave in the buffer. A
call that does not fit ends it with an error. -/
theorem schedule_get_handler_eq_pieces {F : Type} (s : State F) :
    schedule_get_handler s =
      (append_pieces (listing_pieces s.schedule) ⟨[], 0⟩).map Resp.text := by
  have hclosing (resp : Resp) : append_pieces [ascii "]\x7d"] resp = resp.append (ascii "]\x7d") := by
    rw [append_pieces, List.foldlM_cons]
    exact bind_pure _
  rw [listing_pieces, append_pieces, List.foldlM_cons, schedule_get_handler]
  cases Resp.append ⟨[], 0⟩ (ascii "\x7b \"periods\":[") with
  | error e => rfl
  | ok resp =>
    have hrest := append_pieces_append (entry_pieces true s.schedule) [ascii "]\x7d"] resp
    rw [append_pieces] at hrest
    simp only [bind, Except.bind] at hrest ⊢
    rw [hrest, append_entries_eq_pieces]
    cases append_pieces (entry_pieces true s.schedule) resp with
    | error e => rfl
    | ok resp =>
      dsimp only
      rw [hclosing]
      cases resp.append (ascii "]\x7d") <;> rfl

/-- Calls whose texts fit together leave the texts one after the other. The last byte of the buffer
stays for the NUL. -/
theorem append_pieces_fits (pieces : List Text) (resp : Resp)
    (hfits : resp.offset + pieces.flatten.length < RESP_SIZE) :
    append_pieces pieces resp =
      .ok ⟨resp.text ++ pieces.flatten, resp.offset + pieces.flatten.length⟩ := by
  induction pieces generalizing resp with
  | nil =>
    rw [List.flatten_nil, List.append_nil]
    rfl
  | cons piece pieces ih =>
    rw [List.flatten_cons, List.length_append] at hfits
    have hrest := ih ⟨resp.text ++ piece, resp.offset + piece.length⟩ (by dsimp only; omega)
    rw [append_pieces, List.foldlM_cons, append_fits (by omega)]
    rw [append_pieces] at hrest
    simp only [bind, Except.bind]
    rw [hrest, List.flatten_cons, List.append_assoc, List.length_append, Nat.add_assoc]

/-- All pieces together are the listing, also where there is no period at all. -/
theorem listing_pieces_flatten (periods : List schedule_period_t) :
    (listing_pieces periods).flatten = schedule_json listed_mode periods := by
  have hentries (first : Bool) :
      (entry_pieces first periods).flatten = entries_json listed_mode first periods := by
    induction periods generalizing first with
    | nil => rfl
    | cons period periods ih => rw [entry_pieces, entries_json, List.flatten_cons, ih]
  rw [listing_pieces, schedule_json, List.flatten_cons, List.flatten_append, hentries]
  simp

/-- The first pieces are not longer than all of them. -/
theorem flatten_take_length_le (pieces : List Text) (k : Nat) :
    (pieces.take k).flatten.length ≤ pieces.flatten.length := by
  conv_rhs => rw [← List.take_append_drop k pieces, List.flatten_append, List.length_append]
  exact Nat.le_add_right _ _

/-- After every call `offset` is inside the buffer and counts what is stored there,
and the whole listing is sent. -/
structure ListingFits {F : Type} (s : State F) : Prop where
  every_call : ∀ k, ∃ resp, append_pieces ((listing_pieces s.schedule).take k) ⟨[], 0⟩ = .ok resp ∧
    resp.offset < RESP_SIZE ∧ resp.text = ((listing_pieces s.schedule).take k).flatten ∧
    resp.text.length = resp.offset
  sent : schedule_get_handler s = .ok (listing_pieces s.schedule).flatten

/-- A listing that is shorter than the buffer fits it at every step, since what has been written
before is only a part of it. -/
theorem listingFits_of_length {F : Type} {s : State F}
    (h : (schedule_json listed_mode s.schedule).length < RESP_SIZE) : ListingFits s := by
  rw [← listing_pieces_flatten] at h
  have hcall (pieces : List Text) (hfits : pieces.flatten.length < RESP_SIZE) :
      append_pieces pieces ⟨[], 0⟩ = .ok ⟨pieces.flatten, pieces.flatten.length⟩ := by
    have hall := append_pieces_fits pieces ⟨[], 0⟩ (by simpa using hfits)
    simpa using hall
  constructor
  · intro k
    have hlt := (flatten_take_length_le (listing_pieces s.schedule) k).trans_lt h
    exact ⟨_, hcall _ hlt, hlt, rfl, rfl⟩
  · rw [schedule_get_handler_eq_pieces, hcall _ h]
    rfl

/-- So do up to `MAX_PERIODS` periods of times that fit their fields. -/
theorem listingFits {F : Type} {s : State F} (hcount : s.schedule.length ≤ MAX_PERIODS)
    (hlistable : ∀ period ∈ s.schedule, Listable period) : ListingFits s := by
  apply listingFits_of_length
  apply schedule_json_length_lt hcount hlistable
  exact fun period hperiod => listed_mode_length_le (hlistable period hperiod)

/-- The listing of a schedule that the array can hold is never cut off. -/
theorem schedule_get_handler_eq {F : Type} {s : State F} (hcount : s.schedule.length ≤ MAX_PERIODS)
    (hlistable : ∀ period ∈ s.schedule, Listable period) :
    schedule_get_handler s = .ok (schedule_json listed_mode s.schedule) := by
  rw [(listingFits hcount hlistable).sent, listing_pieces_flatten]

end communication_center.http_server
