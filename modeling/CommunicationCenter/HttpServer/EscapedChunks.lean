import CommunicationCenter.Json.Unescape
import CommunicationCenter.Packing.Greedy

open libc packing

namespace communication_center.http_server

abbrev esp_err_t := Int

def ESP_OK : esp_err_t := 0

/-- The array `chunk` with the index behind the bytes written to it. -/
structure ChunkBuffer where
  chunk : Vector UInt8 96
  j : Nat

def ChunkBuffer.filled (buffer : ChunkBuffer) : Text :=
  buffer.chunk.toList.take buffer.j

/-- The assignment `chunk[j++] = c`; `none` is a write outside the array. -/
def ChunkBuffer.put (c : UInt8) (buffer : ChunkBuffer) : Option ChunkBuffer :=
  if h : buffer.j < 96 then some { chunk := buffer.chunk.set buffer.j c h, j := buffer.j + 1 }
  else none

/-- The characters that are escaped. -/
def special (c : UInt8) : Bool :=
  c = 92 || c = 34

variable (results : Nat → esp_err_t)

/-- The calls made so far come in order, and `results` are what they return. -/
def httpd_resp_send_chunk (chunk : Text) (sent : List Text) : esp_err_t × List Text :=
  (results sent.length, sent ++ [chunk])

/-- Send what the buffer holds and start over; an error ends the function. -/
def flush (buffer : ChunkBuffer) (sent : List Text) :
    Except (esp_err_t × List Text) (ChunkBuffer × List Text) :=
  let (err, sent) := httpd_resp_send_chunk results buffer.filled sent
  if err ≠ ESP_OK then .error (err, sent) else .ok ({ buffer with j := 0 }, sent)

def make_room (c : UInt8) (buffer : ChunkBuffer) (sent : List Text) :
    Except (esp_err_t × List Text) (ChunkBuffer × List Text) :=
  if special c && buffer.j + 2 ≥ 96 then flush results buffer sent
  else if buffer.j + 1 ≥ 96 then flush results buffer sent
  else .ok (buffer, sent)

def ChunkBuffer.put_escaped (c : UInt8) (buffer : ChunkBuffer) : Option ChunkBuffer :=
  if special c then (buffer.put 92).bind fun buffer => buffer.put c else buffer.put c

/-- The loop over the source and the final send, with the result and all chunks
handed to `httpd_resp_send_chunk`; `none` is a write outside the array. -/
def escaped_loop : Text → ChunkBuffer → List Text → Option (esp_err_t × List Text)
  | [], buffer, sent =>
    if buffer.j > 0 then some (httpd_resp_send_chunk results buffer.filled sent)
    else some (ESP_OK, sent)
  | c :: src, buffer, sent =>
    if c < 0x20 then escaped_loop src buffer sent
    else
      match make_room results c buffer sent with
      | .error failed => some failed
      | .ok (buffer, sent) =>
        (buffer.put_escaped c).bind fun buffer => escaped_loop src buffer sent

/-- The array is not initialised, so it starts with any contents. -/
def httpd_resp_send_json_escaped_string_chunk (uninitialised : Vector UInt8 96)
    (src : Option Text) : Option (esp_err_t × List Text) :=
  match src with
  | none => some (ESP_OK, [])
  | some src => escaped_loop results src { chunk := uninitialised, j := 0 } []

/-- Chunks are handed over until one cannot be sent. -/
def deliver : List Text → List Text → esp_err_t × List Text
  | [], sent => (ESP_OK, sent)
  | chunk :: chunks, sent =>
    let (err, sent) := httpd_resp_send_chunk results chunk sent
    if err ≠ ESP_OK then (err, sent) else deliver chunks sent

/-- The source without control bytes. -/
def visible (src : Text) : Text :=
  src.filter fun c => !(c < 0x20)

def escape_byte (c : UInt8) : Text :=
  if special c then [92, c] else [c]

/-- The source without control bytes, with a backslash in front of every
backslash and double quote. -/
def escaped (src : Text) : Text :=
  (visible src).flatMap escape_byte

/-- The chunks that the source is cut into when all of them can be sent. -/
def escaped_chunks (src : Text) : List Text :=
  pack 95 escape_byte (visible src) []

/-- The escape of a byte fits an empty buffer of 95 bytes. -/
theorem fitting_escape_byte : Fitting 95 escape_byte := by
  intro c
  unfold escape_byte
  split <;> simp

@[simp] theorem ChunkBuffer.filled_reset (buffer : ChunkBuffer) :
    ({ buffer with j := 0 } : ChunkBuffer).filled = [] := by
  simp [ChunkBuffer.filled]

/-- What a buffer is filled with is as long as its index says. -/
theorem ChunkBuffer.filled_length {buffer : ChunkBuffer} (h : buffer.j ≤ 95) :
    buffer.filled.length = buffer.j := by
  simp [ChunkBuffer.filled]
  omega

/-- A byte that is put at an index in the array makes the filled part one longer. -/
theorem ChunkBuffer.put_eq {buffer : ChunkBuffer} (h : buffer.j < 96) (c : UInt8) :
    ∃ next, buffer.put c = some next ∧ next.j = buffer.j + 1 ∧
      next.filled = buffer.filled ++ [c] := by
  have hlength : buffer.j < buffer.chunk.toList.length := by simpa using h
  refine ⟨_, dif_pos h, rfl, ?_⟩
  simp only [ChunkBuffer.filled, Vector.toList_set]
  rw [List.take_succ_eq_append_getElem (by simpa using hlength), List.take_set_of_le (Nat.le_refl _),
    List.getElem_set_self]

/-- An escape that fits is put behind what is there, and stays inside the array. -/
theorem ChunkBuffer.put_escaped_eq {buffer : ChunkBuffer} {c : UInt8}
    (h : buffer.j + (escape_byte c).length ≤ 95) :
    ∃ next, buffer.put_escaped c = some next ∧ next.j ≤ 95 ∧
      next.filled = buffer.filled ++ escape_byte c := by
  unfold ChunkBuffer.put_escaped
  unfold escape_byte at h ⊢
  split
  · next hspecial =>
    rw [if_pos hspecial, List.length_cons, List.length_singleton] at h
    have hroom : buffer.j < 96 := by omega
    obtain ⟨mid, hput, hj, hfilled⟩ := ChunkBuffer.put_eq hroom 92
    have hmore : mid.j < 96 := by omega
    obtain ⟨next, hnext, hj', hfilled'⟩ := ChunkBuffer.put_eq hmore c
    refine ⟨next, by rw [hput, Option.bind_some, hnext], by omega, ?_⟩
    rw [hfilled', hfilled, List.append_assoc]
    rfl
  · next hplain =>
    rw [if_neg hplain, List.length_singleton] at h
    have hroom : buffer.j < 96 := by omega
    obtain ⟨next, hput, hj, hfilled⟩ := ChunkBuffer.put_eq hroom c
    exact ⟨next, hput, by omega, hfilled⟩

/-- Room is made exactly when the escaped character would not fit the 95 bytes
in front of the last one. -/
theorem make_room_eq {buffer : ChunkBuffer} (h : buffer.j ≤ 95) (c : UInt8) (sent : List Text) :
    make_room results c buffer sent =
      if buffer.filled.length + (escape_byte c).length > 95 then flush results buffer sent
      else .ok (buffer, sent) := by
  rw [ChunkBuffer.filled_length h]
  unfold make_room escape_byte
  cases special c with
  | true =>
    simp only [Bool.true_and, decide_eq_true_eq, if_true, List.length_cons, List.length_nil]
    split
    · rw [if_pos (by omega)]
    · rw [if_neg (by omega), if_neg (by omega)]
  | false =>
    simp only [Bool.false_and, Bool.false_eq_true, if_false, List.length_cons, List.length_nil]
    split
    · rw [if_pos (by omega)]
    · rw [if_neg (by omega)]

/-- Behind the loop, what is left in the array is sent as the last chunk. An empty array is not
sent. -/
theorem escaped_loop_nil {buffer : ChunkBuffer} (h : buffer.j ≤ 95) (sent : List Text) :
    escaped_loop results [] buffer sent =
      some (deliver results (pack 95 escape_byte [] buffer.filled) sent) := by
  rw [escaped_loop]
  have hlength := ChunkBuffer.filled_length h
  cases hfilled : buffer.filled with
  | nil =>
    rw [hfilled, List.length_nil] at hlength
    rw [if_neg (by omega)]
    rfl
  | cons b filled =>
    rw [hfilled, List.length_cons] at hlength
    rw [if_pos (by omega)]
    -- the result of the last send is returned whether or not it is an error
    by_cases herr : results sent.length = ESP_OK
    · simp [pack, deliver, httpd_resp_send_chunk, herr]
    · simp [pack, deliver, httpd_resp_send_chunk, herr]

/-- The loop hands over the chunks of the greedy packing, as far as they can be
sent, and writes inside the array. -/
theorem escaped_loop_eq (src : Text) {buffer : ChunkBuffer} (h : buffer.j ≤ 95) (sent : List Text) :
    escaped_loop results src buffer sent =
      some (deliver results (pack 95 escape_byte (visible src) buffer.filled) sent) := by
  induction src generalizing buffer sent with
  | nil => exact escaped_loop_nil results h sent
  | cons c src ih =>
    rw [escaped_loop]
    split
    · next hcontrol =>
      have hvisible : visible (c :: src) = visible src := by simp [visible, hcontrol]
      rw [hvisible, ih h]
    · next hshown =>
      have hvisible : visible (c :: src) = c :: visible src := by simp [visible, hshown]
      obtain ⟨_, hfits⟩ := fitting_escape_byte c
      rw [hvisible, pack, make_room_eq results h]
      by_cases hfull : buffer.filled.length + (escape_byte c).length > 95
      · rw [if_pos hfull, if_pos hfull, flush, deliver, httpd_resp_send_chunk]
        by_cases herr : results sent.length = ESP_OK
        · have hempty : ({ buffer with j := 0 } : ChunkBuffer).filled = [] := buffer.filled_reset
          have hroom : ({ buffer with j := 0 } : ChunkBuffer).j + (escape_byte c).length ≤ 95 := by
            simpa using hfits
          obtain ⟨next, hput, hj, hfilled⟩ := ChunkBuffer.put_escaped_eq hroom
          simp only [herr, ne_eq, not_true_eq_false, if_false]
          rw [hput, Option.bind_some, ih hj, hfilled, hempty, List.nil_append]
        · simp only [ne_eq, herr, not_false_eq_true, if_true]
      · rw [if_neg hfull, if_neg hfull]
        rw [ChunkBuffer.filled_length h] at hfull
        have hroom : buffer.j + (escape_byte c).length ≤ 95 := by omega
        obtain ⟨next, hput, hj, hfilled⟩ := ChunkBuffer.put_escaped_eq hroom
        dsimp only
        rw [hput, Option.bind_some, ih hj, hfilled]

/-- If all sends succeed, all chunks are sent, in their order. The results of sends that are not
made do not matter. -/
theorem deliver_ok {chunks sent : List Text}
    (h : ∀ k < chunks.length, results (sent.length + k) = ESP_OK) :
    deliver results chunks sent = (ESP_OK, sent ++ chunks) := by
  induction chunks generalizing sent with
  | nil => simp [deliver]
  | cons chunk chunks ih =>
    have hfirst : results sent.length = ESP_OK := h 0 (by simp)
    have hrest : ∀ k < chunks.length, results ((sent ++ [chunk]).length + k) = ESP_OK := by
      intro k hk
      rw [List.length_append, List.length_singleton, Nat.add_assoc, Nat.add_comm 1]
      exact h (k + 1) (by simpa using hk)
    simp only [deliver, httpd_resp_send_chunk, hfirst, ne_eq, not_true_eq_false, if_false]
    rw [ih hrest, List.append_assoc]
    rfl

/-- The first send that fails ends the loop with its error, and nothing is sent behind it. -/
theorem deliver_error {chunks sent : List Text} {k : Nat} (hk : k < chunks.length)
    (hearlier : ∀ i < k, results (sent.length + i) = ESP_OK)
    (herr : results (sent.length + k) ≠ ESP_OK) :
    deliver results chunks sent = (results (sent.length + k), sent ++ chunks.take (k + 1)) := by
  induction chunks generalizing sent k with
  | nil => simp at hk
  | cons chunk chunks ih =>
    cases k with
    | zero =>
      rw [Nat.add_zero] at herr
      simp [deliver, httpd_resp_send_chunk, herr]
    | succ k =>
      have hshift (i : Nat) : (sent ++ [chunk]).length + i = sent.length + (i + 1) := by
        rw [List.length_append, List.length_singleton, Nat.add_assoc, Nat.add_comm 1]
      have hfirst : results sent.length = ESP_OK := hearlier 0 (by simp)
      have hless : k < chunks.length := by simpa using hk
      have hbefore : ∀ i < k, results ((sent ++ [chunk]).length + i) = ESP_OK := fun i hi =>
        hshift i ▸ hearlier (i + 1) (by omega)
      have hrest := ih hless hbefore (hshift k ▸ herr)
      simp only [deliver, httpd_resp_send_chunk, hfirst, ne_eq, not_true_eq_false, if_false]
      rw [hrest, hshift, List.append_assoc]
      rfl

/-- Unescaping undoes escaping, for every text and with any fuel that is enough for the escaped
one. -/
theorem unescape_from_escaped (text : Text) {fuel : Nat}
    (hfuel : (text.flatMap escape_byte).length < fuel) :
    json.unescape_from fuel (text.flatMap escape_byte) = some text := by
  induction text generalizing fuel with
  | nil =>
    obtain ⟨fuel, rfl⟩ := Nat.exists_eq_add_one_of_ne_zero (Nat.ne_zero_of_lt hfuel)
    rfl
  | cons c text ih =>
    obtain ⟨fuel, rfl⟩ := Nat.exists_eq_add_one_of_ne_zero (Nat.ne_zero_of_lt hfuel)
    rw [List.flatMap_cons, escape_byte] at hfuel ⊢
    split
    · next hspecial =>
      rw [if_pos hspecial] at hfuel
      rw [List.length_append, List.length_cons] at hfuel
      have hless : (text.flatMap escape_byte).length < fuel := by omega
      have hrest := ih hless
      simp only [special, Bool.or_eq_true, decide_eq_true_eq] at hspecial
      have hcharacter (rest : Text) : json.escaped_character (c :: rest) = some ([c], rest) := by
        rcases hspecial with rfl | rfl <;> rfl
      simp only [List.cons_append, List.nil_append, json.unescape_from, if_true, hcharacter,
        Option.bind_some, hrest, Option.map_some]
    · next hplain =>
      rw [if_neg hplain] at hfuel
      have hne : c ≠ 92 := fun heq => hplain (by simp [special, heq])
      have hless : (text.flatMap escape_byte).length < fuel := by simpa using hfuel
      have hrest := ih hless
      rw [List.singleton_append, json.unescape_from, if_neg hne, hrest]
      rfl

/-- An escaped text is the body of a string, which ends at the quote behind it and not before. The
text has no control characters, which the writer leaves out. -/
theorem string_body_escaped {text : Text} (h : ∀ c ∈ text, ¬ c < 0x20) (rest : Text) {fuel : Nat}
    (hfuel : (text.flatMap escape_byte).length < fuel) :
    json.string_body fuel (text.flatMap escape_byte ++ 34 :: rest) =
      some (text.flatMap escape_byte, rest) := by
  induction text generalizing fuel with
  | nil =>
    obtain ⟨fuel, rfl⟩ := Nat.exists_eq_add_one_of_ne_zero (Nat.ne_zero_of_lt hfuel)
    rfl
  | cons c text ih =>
    obtain ⟨fuel, rfl⟩ := Nat.exists_eq_add_one_of_ne_zero (Nat.ne_zero_of_lt hfuel)
    have hshown := h c (by simp)
    have hothers : ∀ d ∈ text, ¬ d < 0x20 := fun d hd => h d (List.mem_cons_of_mem _ hd)
    rw [List.flatMap_cons, escape_byte] at hfuel ⊢
    split
    · next hspecial =>
      rw [if_pos hspecial] at hfuel
      rw [List.length_append, List.length_cons] at hfuel
      have hless : (text.flatMap escape_byte).length < fuel := by omega
      have hrest := ih hothers hless
      simp only [special, Bool.or_eq_true, decide_eq_true_eq] at hspecial
      have hescape (behind : Text) : json.escape (c :: behind) = some behind := by
        rcases hspecial with rfl | rfl <;> rfl
      simp only [List.cons_append, List.nil_append, json.string_body]
      rw [if_neg (by decide), if_pos trivial, hescape, Option.bind_some, hrest]
      simp
    · next hplain =>
      rw [if_neg hplain] at hfuel
      have hless : (text.flatMap escape_byte).length < fuel := by simpa using hfuel
      have hrest := ih hothers hless
      simp only [special, Bool.or_eq_true, decide_eq_true_eq, not_or] at hplain
      simp only [List.cons_append, List.nil_append, json.string_body]
      rw [if_neg hplain.2, if_neg hplain.1, if_neg hshown, hrest]
      rfl

/-- As long as the sends succeed, the chunks are the escaped source, cut between characters into 1
to 95 bytes. The first send that fails ends the function with its error. The array is never left,
whatever the source and the results are, and nothing is assumed of what the array holds at first.
-/
theorem escaped_string_chunks (uninitialised : Vector UInt8 96) (src : Text) :
    (∀ results : Nat → esp_err_t, (∀ k < (escaped_chunks src).length, results k = ESP_OK) →
      httpd_resp_send_json_escaped_string_chunk results uninitialised src =
        some (ESP_OK, escaped_chunks src)) ∧
    (∀ (results : Nat → esp_err_t) (k : Nat), k < (escaped_chunks src).length →
      (∀ i < k, results i = ESP_OK) → results k ≠ ESP_OK →
      httpd_resp_send_json_escaped_string_chunk results uninitialised src =
        some (results k, (escaped_chunks src).take (k + 1))) ∧
    (escaped_chunks src).flatten = escaped src ∧
    json.unescape (escaped src) = some (visible src) ∧
    (∀ rest : Text, json.string_body (escaped src ++ 34 :: rest).length (escaped src ++ 34 :: rest) =
      some (escaped src, rest)) ∧
    (∀ chunk ∈ escaped_chunks src, 1 ≤ chunk.length ∧ chunk.length ≤ 95) ∧
    ∃ segments : List Text, segments.flatten = visible src ∧
      escaped_chunks src = segments.map (List.flatMap escape_byte) := by
  have hloop (results : Nat → esp_err_t) :
      httpd_resp_send_json_escaped_string_chunk results uninitialised src =
        some (deliver results (escaped_chunks src) []) := by
    have hempty : ({ chunk := uninitialised, j := 0 } : ChunkBuffer).filled = [] := by
      simp [ChunkBuffer.filled]
    rw [httpd_resp_send_json_escaped_string_chunk, escaped_loop_eq results src (Nat.zero_le _) [],
      hempty, escaped_chunks]
  refine ⟨fun results hok => ?_, fun results k hk hearlier herr => ?_, ?_, ?_, ?_, ?_, ?_⟩
  · rw [hloop, deliver_ok results (by simpa using hok), List.nil_append]
  · have hbefore : ∀ i < k, results (([] : List Text).length + i) = ESP_OK := by simpa using hearlier
    have hdelivered := deliver_error results hk hbefore (by simpa using herr)
    rw [hloop, hdelivered]
    simp
  · exact flatten_pack _ _
  · exact unescape_from_escaped _ (Nat.lt_succ_self _)
  · intro rest
    refine string_body_escaped (fun c hc => ?_) rest (by simp [escaped])
    simpa [visible] using (List.mem_filter.mp hc).2
  · exact fun chunk hchunk => length_of_mem_pack fitting_escape_byte (by simp) hchunk
  · obtain ⟨segments, hflatten, hpack⟩ := exists_segments fitting_escape_byte (visible src) []
    exact ⟨segments, by simpa using hflatten, hpack⟩

end communication_center.http_server
