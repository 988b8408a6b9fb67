import CommunicationCenter.HttpServer.Fragments
import CommunicationCenter.HttpServer.MemberSearch

open libc communication_center.system_state

namespace communication_center.http_server

/-- The keys of the body in the order in which the handler scans them. -/
def actuator_keys : List Text :=
  [ascii "window", ascii "fan", ascii "door", ascii "absorber"]

/-- An object that assigns an integer to each actuator. -/
structure ActuatorsObject where
  request : ActuatorsRequest
  front : Text
  window : BodyMember
  fan : BodyMember
  door : BodyMember
  absorber : BodyMember
  back : Text
  blanks : ∀ c ∈ front ++ back, json_space c = true
  keys : [window, fan, door, absorber].map BodyMember.key = actuator_keys
  window_value : IntText window.value request.new_window
  fan_value : IntText fan.value request.new_fan
  door_value : IntText door.value request.new_door
  absorber_value : IntText absorber.value request.new_absorber

namespace ActuatorsObject

variable (b : ActuatorsObject)

def members : List BodyMember :=
  [b.window, b.fan, b.door, b.absorber]

/-- The body with the members in the given order. -/
def text (order : List BodyMember) : Text :=
  object_text b.front order b.back

/-- The value of each member is an integer. -/
theorem intText_of_mem {m : BodyMember} (h : m ∈ b.members) : ∃ number, IntText m.value number := by
  simp only [members, List.mem_cons, List.not_mem_nil, or_false] at h
  rcases h with rfl | rfl | rfl | rfl
  · exact ⟨_, b.window_value⟩
  · exact ⟨_, b.fan_value⟩
  · exact ⟨_, b.door_value⟩
  · exact ⟨_, b.absorber_value⟩

/-- So no member has a closing brace or a NUL in it. -/
theorem inside_of_mem {m : BodyMember} (h : m ∈ b.members) : m.IsInside := by
  have hkeys : ∀ key ∈ actuator_keys, Inside key := by
    simp [actuator_keys, ascii, Inside, brace]
  obtain ⟨number, hnumber⟩ := b.intText_of_mem h
  exact ⟨key_of_mem hkeys b.keys h, inside_of_plain (plain_of_intText hnumber)⟩

end ActuatorsObject

theorem keyWord_window : KeyWord (ascii "window") :=
  ⟨by decide, 119, rfl, by decide⟩

def invalid_body : HttpError := ⟨.HTTPD_400_BAD_REQUEST, "invalid body"⟩

/-- The parsing reads at the first position of the key `"window"` only. If the texts for the four
values are there, they are accepted, and if not, the body is refused. -/
theorem actuators_post_parse_of_found {req : httpd_req_t} {body found : Text}
    (hbody : read_body 128 req = .ok body)
    (hfound : strstr (ascii "\"window\"") body = some found) :
    (∀ r, ActuatorsText found r → actuators_post_parse req = .ok r) ∧
      ((∀ r, ¬ ActuatorsText found r) → actuators_post_parse req = .error invalid_body) := by
  rw [actuators_post_parse, hbody]
  simp only [bind, Except.bind, hfound, Option.map_some]
  constructor
  · intro r hr
    rw [scan_actuators_iff.mpr hr]
  · intro hnone
    split
    · next window fan door absorber hscan =>
      exact absurd (scan_actuators_iff.mp (Option.some.inj hscan)) (hnone ⟨window, fan, door, absorber⟩)
    · rfl

namespace ActuatorsObject

variable (b : ActuatorsObject)

theorem blank_front : ∀ c ∈ b.front, json_space c = true :=
  fun c hc => b.blanks c (List.mem_append_left _ hc)

theorem blank_back : ∀ c ∈ b.back, json_space c = true :=
  fun c hc => b.blanks c (List.mem_append_right _ hc)

/-- A body of admitted length is read whole, in whatever order its members are. -/
theorem read_body_text {order : List BodyMember} (h : order.Perm b.members)
    (hlength : (b.text order).length < 128) :
    read_body 128 (.delivered (b.text order)) = .ok (b.text order) := by
  have hzero : (0 : UInt8) ∉ b.text order := zero_notMem_object_text b.blank_front
    (fun m hm => b.inside_of_mem (h.mem_iff.mp hm)) (zero_notMem_blanks b.blank_back)
  have hpositive : 0 < (b.text order).length := by
    simp [text, object_text, open_brace]
  rw [read_body_delivered hpositive hlength, cstr_eq_self hzero]

/-- Behind the first key, the members in the scanned order are the text that is read. -/
theorem actuatorsText {rest found : Text} (hrest : EndsNumeral rest)
    (h : Tokens isspace (colon :: b.window.value ::
      follow_tokens ([b.fan, b.door, b.absorber].map fun m => (m.key, m.value))) rest found) :
    ActuatorsText (quoted (ascii "window") ++ found) b.request := by
  have hkeys : b.fan.key = ascii "fan" ∧ b.door.key = ascii "door" ∧
      b.absorber.key = ascii "absorber" := by
    simpa [actuator_keys] using (List.cons.inj b.keys).2
  obtain ⟨hfan, hdoor, habsorber⟩ := hkeys
  refine ⟨b.window.value, b.fan.value, b.door.value, b.absorber.value, found, rest, rfl,
    b.window_value, b.fan_value, b.door_value, b.absorber_value, hrest, ?_⟩
  simp only [List.map_cons, List.map_nil, hfan, hdoor, habsorber] at h
  exact h

/-- The body is read when its members are in the scanned order, and refused in
every other order. -/
theorem actuators_post_parse_text {order : List BodyMember} (h : order.Perm b.members)
    (hlength : (b.text order).length < 128) :
    (order.map BodyMember.key = actuator_keys →
        actuators_post_parse (.delivered (b.text order)) = .ok b.request) ∧
      (order.map BodyMember.key ≠ actuator_keys →
        actuators_post_parse (.delivered (b.text order)) = .error invalid_body) := by
  have hkeys : (order.map BodyMember.key).Perm actuator_keys := by
    rw [← b.keys]
    exact h.map BodyMember.key
  have hvalues : ∀ m ∈ order, m.value ≠ quoted (ascii "window") := by
    intro m hm heq
    obtain ⟨number, hnumber⟩ := b.intText_of_mem (h.mem_iff.mp hm)
    exact (plain_of_intText hnumber 34 (by simp [heq, quoted])).2.1 rfl
  obtain ⟨m, after, hsuffix, hfound, hordered, hscanned⟩ :=
    member_found keyWord_window hkeys hvalues b.blank_front b.back
  obtain ⟨hread, hrefused⟩ := actuators_post_parse_of_found (b.read_body_text h hlength) hfound
  constructor
  · intro horder
    obtain rfl : order = b.members :=
      eq_of_perm_of_keys h (by rw [members, b.keys]; decide) (by rw [horder, members, b.keys])
    obtain ⟨rfl, rfl⟩ := List.cons.inj (hordered horder)
    obtain ⟨rest, hrest, htokens⟩ := tokens_of_members b.window [b.fan, b.door, b.absorber] b.back
    exact hread b.request (b.actuatorsText hrest htokens)
  · intro horder
    refine hrefused fun r hr => horder (hscanned ?_)
    obtain ⟨window, fan, door, absorber, text, rest, heq, hwindow, hfan, hdoor, habsorber, _,
      htokens⟩ := hr
    obtain rfl : m.behind_key (members_behind after b.back) = text := List.append_cancel_left heq
    have hexpected : ∀ member ∈ [(ascii "fan", fan), (ascii "door", door), (ascii "absorber", absorber)],
        (34 : UInt8) ∉ member.1 ∧ IsValue member.2 := by
      simp only [List.forall_mem_cons]
      exact ⟨⟨by decide, .inr ⟨_, hfan⟩⟩, ⟨by decide, .inr ⟨_, hdoor⟩⟩,
        ⟨by decide, .inr ⟨_, habsorber⟩⟩, by simp⟩
    exact keys_of_tokens (.inr ⟨_, hwindow⟩) hexpected htokens

end ActuatorsObject

variable {F : Type}

/-- A body that is not parsed is answered with the error, and nothing is changed or published. -/
theorem actuators_post_handler_error {req : httpd_req_t} {e : HttpError}
    (h : actuators_post_parse req = .error e) (global_client : Bool) (now : tm) (s : State F) :
    actuators_post_handler global_client now req s =
      { answer := .error e, state := s, messages := [] } := by
  rw [actuators_post_handler, h]

/-- A body that was read is never answered as an invalid one. The handler may still refuse it
because manual control is not allowed. -/
theorem actuators_post_handler_ne_invalid {req : httpd_req_t} {r : ActuatorsRequest}
    (h : actuators_post_parse req = .ok r) (global_client : Bool) (now : tm) (s : State F) :
    (actuators_post_handler global_client now req s).answer ≠ .error invalid_body := by
  have hsection : actuators_post_section now r s ≠ .error invalid_body := by
    unfold actuators_post_section
    dsimp only
    split
    · simp [invalid_body]
    · split <;> simp [invalid_body]
  simp only [actuators_post_handler, h]
  split
  · next e heq =>
    rw [heq] at hsection
    simpa using hsection
  · simp

/-- A body that does not fit the buffer is refused before it is read. -/
theorem actuators_post_parse_long {body : Text} (h : 128 ≤ body.length) :
    actuators_post_parse (.delivered body) = .error ⟨.HTTPD_400_BAD_REQUEST, "len"⟩ := by
  rw [actuators_post_parse, read_body_refused (Or.inr h)]
  rfl

/-- A body that fits is answered as invalid in every order but the scanned one. -/
theorem actuators_invalid_iff (b : ActuatorsObject) {order : List BodyMember}
    (h : order.Perm b.members) (hlength : (b.text order).length < 128) (global_client : Bool)
    (now : tm) (s : State F) :
    (actuators_post_handler global_client now (.delivered (b.text order)) s).answer =
        .error invalid_body ↔ order.map BodyMember.key ≠ actuator_keys := by
  obtain ⟨hread, hrefused⟩ := b.actuators_post_parse_text h hlength
  constructor
  · intro hinvalid horder
    exact actuators_post_handler_ne_invalid (hread horder) global_client now s hinvalid
  · intro horder
    rw [actuators_post_handler_error (hrefused horder)]

/-- In every state, two orders of the members have the same outcome exactly when
the body is too long or both or neither of them are the scanned order. -/
theorem actuators_order_iff (b : ActuatorsObject) {first second : List BodyMember}
    (hfirst : first.Perm b.members) (hsecond : second.Perm b.members) (global_client : Bool)
    (now : tm) (s : State F) :
    actuators_post_handler global_client now (.delivered (b.text first)) s =
        actuators_post_handler global_client now (.delivered (b.text second)) s ↔
      128 ≤ (b.text b.members).length ∨
        (first.map BodyMember.key = actuator_keys ↔ second.map BodyMember.key = actuator_keys) := by
  have hlength {order : List BodyMember} (h : order.Perm b.members) :
      (b.text order).length = (b.text b.members).length := length_object_text h _ _
  by_cases hlong : 128 ≤ (b.text b.members).length
  · have hrefused {order : List BodyMember} (h : order.Perm b.members) :=
      actuators_post_handler_error (actuators_post_parse_long (hlong.trans (hlength h).ge))
        global_client now s
    simp [hlong, hrefused hfirst, hrefused hsecond]
  · have hshort {order : List BodyMember} (h : order.Perm b.members) :
        (b.text order).length < 128 := by
      rw [hlength h]
      omega
    have hinvalid {order : List BodyMember} (h : order.Perm b.members) :=
      actuators_invalid_iff b h (hshort h) global_client now s
    rw [or_iff_right hlong]
    constructor
    · intro heq
      rw [← not_iff_not, ← ne_eq, ← ne_eq, ← hinvalid hfirst, ← hinvalid hsecond, heq]
    · intro hiff
      obtain ⟨hread, hrefused⟩ := b.actuators_post_parse_text hfirst (hshort hfirst)
      obtain ⟨hread', hrefused'⟩ := b.actuators_post_parse_text hsecond (hshort hsecond)
      have hsame : actuators_post_parse (.delivered (b.text first)) =
          actuators_post_parse (.delivered (b.text second)) := by
        by_cases horder : first.map BodyMember.key = actuator_keys
        · rw [hread horder, hread' (hiff.mp horder)]
        · rw [hrefused horder, hrefused' fun h => horder (hiff.mpr h)]
      rw [actuators_post_handler, actuators_post_handler, hsame]

end communication_center.http_server
