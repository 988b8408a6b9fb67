import CommunicationCenter.SystemStatus.Buffers

open libc

namespace communication_center.system_status.memory

def Buffers.texts (b : Buffers) : Status where
  status_headline := string b.status_headline
  status_explanation := string b.status_explanation

/-- Both arrays hold strings. -/
structure Buffers.Valid (b : Buffers) : Prop where
  headline : Terminated b.status_headline
  explanation : Terminated b.status_explanation

def headline_fallback : Text := ascii "System update"

def explanation_fallback : Text := ascii "No status explanation available."

/-- What a setter shows for its argument. -/
def shown (message : Option CString) (fallback : Text) : Text :=
  match message with
  | none => fallback
  | some message => if message.text = [] then fallback else message.text.take 255

/-- What the module is for: two texts of at most 255 characters. -/
def Operation.on_texts (status : Status) : Operation → Status
  | .set_headline message => { status with status_headline := shown message headline_fallback }
  | .set_explanation message =>
    { status with status_explanation := shown message explanation_fallback }
  | .set_message headline message =>
    { status_headline := shown headline headline_fallback
      status_explanation := shown message explanation_fallback }
  | .set_messagef headline fmt formatted =>
    { status_headline := shown headline headline_fallback
      status_explanation :=
        if absent fmt then explanation_fallback else (cstr formatted).take 255 }
  | .set_explanationf _ fmt formatted =>
    { status with
      status_explanation :=
        if absent fmt ∨ cstr formatted = [] then explanation_fallback
        else (cstr formatted).take 255 }
  | .append_explanationf fmt formatted =>
    { status with
      status_explanation :=
        if absent fmt then status.status_explanation
        else (status.status_explanation ++ 32 :: cstr formatted).take 255 }

theorem shown_of_absent {message : Option CString} (h : absent message = true) (fallback : Text) :
    shown message fallback = fallback := by
  cases message with
  | none => rfl
  | some message => exact if_pos (of_decide_eq_true h)

/-- A text that is formatted over an array from its start. -/
theorem vsnprintf_whole (buffer : Vector UInt8 STATUS_EXPLANATION_MAX_LEN) (formatted : List UInt8) :
    ∃ printed, vsnprintf buffer 0 STATUS_EXPLANATION_MAX_LEN formatted = some printed ∧
      Terminated printed ∧ string printed = (cstr formatted).take 255 := by
  have hfits : 0 + STATUS_EXPLANATION_MAX_LEN ≤ STATUS_EXPLANATION_MAX_LEN := by decide
  obtain ⟨printed, hprinted, hterminated, hstring⟩ :=
    vsnprintf_eq buffer (List.not_mem_nil (a := 0)) rfl (by decide) hfits formatted
  exact ⟨printed, hprinted, hterminated, hstring⟩

/-- Into an array of 256 bytes a text of at most 255 is copied whole. -/
theorem system_status_copy_string_eq (dest : Vector UInt8 STATUS_EXPLANATION_MAX_LEN)
    (message : Option CString) (fallback : Text) (hnul : (0 : UInt8) ∉ fallback)
    (hlength : fallback.length ≤ 255) :
    ∃ copied, system_status_copy_string dest message fallback = some copied ∧ Terminated copied ∧
      string copied = shown message fallback := by
  have hprint (text : Text) (htext : (0 : UInt8) ∉ text) :
      ∃ copied, vsnprintf dest 0 STATUS_EXPLANATION_MAX_LEN text = some copied ∧ Terminated copied ∧
        string copied = text.take 255 := by
    have hwhole := vsnprintf_whole dest text
    rwa [cstr_eq_self htext] at hwhole
  have hfallback := hprint fallback hnul
  rw [List.take_of_length_le hlength] at hfallback
  cases message with
  | none => exact hfallback
  | some message =>
    rw [system_status_copy_string, shown]
    split
    · exact hfallback
    · exact hprint message.text message.nonzero

variable {b : Buffers}

theorem system_status_set_headline_locked_eq (hb : b.Valid) (message : Option CString) :
    ∃ next, system_status_set_headline_locked message b = some next ∧ next.Valid ∧
      next.texts = { b.texts with status_headline := shown message headline_fallback } := by
  obtain ⟨copied, hcopied, hterminated, hstring⟩ := system_status_copy_string_eq b.status_headline
    message headline_fallback (by decide) (by decide)
  refine ⟨{ b with status_headline := copied }, ?_, ⟨hterminated, hb.explanation⟩, ?_⟩
  · rw [headline_fallback] at hcopied
    rw [system_status_set_headline_locked, hcopied]
    rfl
  · rw [Buffers.texts, hstring]
    rfl

theorem system_status_set_explanation_locked_eq (hb : b.Valid) (message : Option CString) :
    ∃ next, system_status_set_explanation_locked message b = some next ∧ next.Valid ∧
      next.texts = { b.texts with status_explanation := shown message explanation_fallback } := by
  obtain ⟨copied, hcopied, hterminated, hstring⟩ := system_status_copy_string_eq b.status_explanation
    message explanation_fallback (by decide) (by decide)
  refine ⟨{ b with status_explanation := copied }, ?_, ⟨hb.headline, hterminated⟩, ?_⟩
  · rw [explanation_fallback] at hcopied
    rw [system_status_set_explanation_locked, hcopied]
    rfl
  · rw [Buffers.texts, hstring]
    rfl

theorem system_status_set_messagef_locked_eq (hb : b.Valid) (headline fmt : Option CString)
    (formatted : List UInt8) :
    ∃ next, system_status_set_messagef_locked headline fmt formatted b = some next ∧ next.Valid ∧
      next.texts = (Operation.set_messagef headline fmt formatted).on_texts b.texts := by
  obtain ⟨mid, hmid, hmidValid, hmidTexts⟩ := system_status_set_headline_locked_eq hb headline
  rw [system_status_set_messagef_locked, hmid, Operation.on_texts]
  dsimp only [bind, Option.bind]
  cases habsent : absent fmt with
  | true =>
    obtain ⟨next, hnext, hvalid, htexts⟩ := system_status_set_explanation_locked_eq hmidValid none
    refine ⟨next, hnext, hvalid, ?_⟩
    rw [htexts, hmidTexts]
    rfl
  | false =>
    obtain ⟨printed, hprinted, hterminated, hstring⟩ := vsnprintf_whole mid.status_explanation formatted
    have hheadline := congrArg Status.status_headline hmidTexts
    refine ⟨{ mid with status_explanation := printed }, ?_, ⟨hmidValid.headline, hterminated⟩, ?_⟩
    · simp only [Bool.false_eq_true, if_false, hprinted]
      rfl
    · rw [Buffers.texts, hstring]
      exact congrArg (fun headline => Status.mk headline _) hheadline

theorem system_status_set_explanationf_eq (hb : b.Valid)
    (uninitialised : Vector UInt8 STATUS_EXPLANATION_MAX_LEN) (fmt : Option CString)
    (formatted : List UInt8) :
    ∃ next, system_status_set_explanationf uninitialised fmt formatted b = some next ∧ next.Valid ∧
      next.texts = (Operation.set_explanationf uninitialised fmt formatted).on_texts b.texts := by
  rw [system_status_set_explanationf, Operation.on_texts]
  cases habsent : absent fmt with
  | true =>
    obtain ⟨next, hnext, hvalid, htexts⟩ := system_status_set_explanation_locked_eq hb none
    exact ⟨next, hnext, hvalid, by simpa [shown] using htexts⟩
  | false =>
    obtain ⟨message, hmessage, hterminated, hstring⟩ := vsnprintf_whole uninitialised formatted
    obtain ⟨next, hnext, hvalid, htexts⟩ := system_status_set_explanation_locked_eq hb
      (some ⟨string message, zero_notMem_cstr _⟩)
    refine ⟨next, ?_, hvalid, ?_⟩
    · simp only [Bool.false_eq_true, if_false, hmessage, bind, Option.bind,
        read_string_of_terminated hterminated]
      exact hnext
    · have hempty : (cstr formatted).take 255 = [] ↔ cstr formatted = [] := by simp
      rw [htexts, shown]
      simp only [hstring, hempty, List.take_take, Nat.min_self, Bool.false_eq_true, false_or]

/-- The cut of a text behind a separator for which there is room. -/
theorem take_append_space {text : Text} (h : text.length ≤ 254) (more : Text) :
    (text ++ 32 :: more).take 255 = text ++ 32 :: more.take (254 - text.length) := by
  have hroom : 255 - text.length = (254 - text.length) + 1 := by omega
  rw [List.take_append, List.take_of_length_le (by omega), hroom, List.take_succ_cons]

/-- A separator and a text are appended to a string of at most 255 characters,
which is cut there. -/
theorem system_status_append_explanationf_locked_eq (hb : b.Valid) (fmt : Option CString)
    (formatted : List UInt8) :
    ∃ next, system_status_append_explanationf_locked fmt formatted b = some next ∧ next.Valid ∧
      next.texts = (Operation.append_explanationf fmt formatted).on_texts b.texts := by
  rw [system_status_append_explanationf_locked, Operation.on_texts]
  cases habsent : absent fmt with
  | true => exact ⟨b, rfl, hb, by simp⟩
  | false =>
    have hsize : STATUS_EXPLANATION_MAX_LEN = 256 := rfl
    have htext : string b.status_explanation = b.texts.status_explanation := rfl
    have hlength := string_length_lt hb.explanation
    simp only [Bool.false_eq_true, if_false, read_string_of_terminated hb.explanation, bind, Option.bind]
    rw [htext] at hlength ⊢
    by_cases hfull : b.texts.status_explanation.length + 1 ≥ STATUS_EXPLANATION_MAX_LEN
    · have hexact : b.texts.status_explanation.length = 255 := by omega
      refine ⟨b, if_pos hfull, hb, ?_⟩
      rw [← hexact, List.take_left]
    · have hend : b.texts.status_explanation.length + 1 < STATUS_EXPLANATION_MAX_LEN := by omega
      obtain ⟨spaced, ended, hspaced, hended, hfront⟩ := store_at_end_eq b.status_explanation hend 32
      have hnul : (0 : UInt8) ∉ b.texts.status_explanation ++ [32] := by
        rw [List.mem_append, List.mem_singleton, not_or]
        exact ⟨zero_notMem_cstr _, by decide⟩
      have hfrontLength : (b.texts.status_explanation ++ [32]).length =
          b.texts.status_explanation.length + 1 := List.length_append
      have hfits : (b.texts.status_explanation ++ [32]).length + (STATUS_EXPLANATION_MAX_LEN -
          (b.texts.status_explanation.length + 1)) ≤ STATUS_EXPLANATION_MAX_LEN := by omega
      obtain ⟨printed, hprinted, hterminated, hstring⟩ :=
        vsnprintf_eq ended hnul (hfrontLength ▸ hfront) (by omega) hfits formatted
      refine ⟨{ b with status_explanation := printed }, ?_, ⟨hb.headline, hterminated⟩, ?_⟩
      · rw [hfrontLength] at hprinted
        rw [htext] at hspaced hended
        rw [if_neg hfull, hspaced]
        dsimp only
        rw [hended]
        dsimp only
        rw [hprinted]
        rfl
      · have hroom : STATUS_EXPLANATION_MAX_LEN - (b.texts.status_explanation.length + 1) - 1 =
            254 - b.texts.status_explanation.length := by omega
        rw [Buffers.texts, hstring, hroom, take_append_space (by omega), List.append_assoc]
        rfl

/-- One call stays inside the arrays and does what it is for: on arrays that hold strings it never
fails, and refines the operation on texts. -/
theorem apply_eq (hb : b.Valid) (operation : Operation) :
    ∃ next, operation.apply b = some next ∧ next.Valid ∧
      next.texts = operation.on_texts b.texts := by
  cases operation with
  | set_headline message => exact system_status_set_headline_locked_eq hb message
  | set_explanation message => exact system_status_set_explanation_locked_eq hb message
  | set_message headline message =>
    obtain ⟨mid, hmid, hmidValid, hmidTexts⟩ := system_status_set_headline_locked_eq hb headline
    obtain ⟨next, hnext, hvalid, htexts⟩ := system_status_set_explanation_locked_eq hmidValid message
    refine ⟨next, ?_, hvalid, ?_⟩
    · rw [Operation.apply, system_status_set_message, system_status_set_message_locked, hmid]
      exact hnext
    · rw [htexts, hmidTexts]
      rfl
  | set_messagef headline fmt formatted => exact system_status_set_messagef_locked_eq hb headline fmt formatted
  | set_explanationf uninitialised fmt formatted =>
    exact system_status_set_explanationf_eq hb uninitialised fmt formatted
  | append_explanationf fmt formatted => exact system_status_append_explanationf_locked_eq hb fmt formatted

theorem run_eq (hb : b.Valid) (operations : List Operation) :
    ∃ next, run operations b = some next ∧ next.Valid ∧
      next.texts = operations.foldl Operation.on_texts b.texts := by
  induction operations generalizing b with
  | nil => exact ⟨b, rfl, hb, rfl⟩
  | cons operation operations ih =>
    obtain ⟨mid, hmid, hmidValid, hmidTexts⟩ := apply_eq hb operation
    obtain ⟨next, hnext, hvalid, htexts⟩ := ih hmidValid
    refine ⟨next, ?_, hvalid, ?_⟩
    · rw [run, List.foldlM_cons, hmid]
      exact hnext
    · rw [htexts, hmidTexts, List.foldl_cons]

/-- The texts with single spaces between them. -/
def joined (texts : List Text) : Text :=
  [32].intercalate texts

theorem joined_snoc {texts : List Text} (h : texts ≠ []) (text : Text) :
    joined (texts ++ [text]) = joined texts ++ 32 :: text := by
  unfold joined
  induction texts with
  | nil => exact absurd rfl h
  | cons first texts ih =>
    by_cases hnil : texts = []
    · rw [hnil]
      simp [List.intercalate_cons_cons]
    · rw [List.cons_append, List.intercalate_cons_of_ne_nil (by simp),
        List.intercalate_cons_of_ne_nil hnil, ih hnil]
      simp

/-- Cutting a text before something is appended does not show behind the cut. -/
theorem take_append_take (text more : Text) (k : Nat) :
    (text.take k ++ more).take k = (text ++ more).take k := by
  rw [List.take_append, List.take_append, List.take_take, Nat.min_self, List.length_take]
  congr 2
  omega

def append_call (piece : Option CString × List UInt8) : Operation :=
  .append_explanationf piece.1 piece.2

def piece_text (piece : Option CString × List UInt8) : Text :=
  cstr piece.2

/-- Appending to a cut text gives the cut of the whole text, however many pieces are appended and
wherever the cut falls. -/
theorem appends_on_texts {pieces : List (Option CString × List UInt8)}
    (hpieces : ∀ piece ∈ pieces, absent piece.1 = false) {texts : List Text} (hnonempty : texts ≠ [])
    {status : Status} (hstatus : status.status_explanation = (joined texts).take 255) :
    ((pieces.map append_call).foldl Operation.on_texts status).status_explanation =
      (joined (texts ++ pieces.map piece_text)).take 255 := by
  induction pieces generalizing texts status with
  | nil => simpa using hstatus
  | cons piece pieces ih =>
    have hpiece := hpieces piece (by simp)
    have hnext : ((append_call piece).on_texts status).status_explanation =
        (joined (texts ++ [piece_text piece])).take 255 := by
      rw [append_call, Operation.on_texts]
      simp only [hpiece, Bool.false_eq_true, if_false]
      rw [hstatus, take_append_take, joined_snoc hnonempty, piece_text]
    have hrest := ih (fun p hp => hpieces p (List.mem_cons_of_mem _ hp)) (by simp) hnext
    rw [List.map_cons, List.foldl_cons, hrest, List.append_assoc, List.map_cons]
    rfl

/-- A getter hands over as much of the text as fits the array with its NUL. -/
theorem get_string_eq {source : Vector UInt8 STATUS_EXPLANATION_MAX_LEN} (h : Terminated source)
    {buf_size : Nat} (hpositive : 0 < buf_size) (buf : Vector UInt8 buf_size) :
    ∃ filled, get_string source (some buf) = some (some filled) ∧ Terminated filled ∧
      string filled = (string source).take (buf_size - 1) := by
  have hfits : 0 + buf_size ≤ buf_size := Nat.le_of_eq (Nat.zero_add _)
  obtain ⟨filled, hfilled, hterminated, hstring⟩ :=
    vsnprintf_eq buf (List.not_mem_nil (a := 0)) rfl hpositive hfits (string source)
  refine ⟨filled, ?_, hterminated, ?_⟩
  · have hprint : vsnprintf buf 0 buf_size (string source) = some filled := hfilled
    simp only [get_string, if_neg (Nat.ne_of_gt hpositive), read_string_of_terminated h, bind,
      Option.bind, hprint]
    rfl
  · rw [hstring, List.nil_append, cstr_string]

/-- The argument for the headline, of the calls that set it. -/
def Operation.headline : Operation → Option (Option CString)
  | .set_headline message => some message
  | .set_message headline _ => some headline
  | .set_messagef headline _ _ => some headline
  | _ => none

/-- The argument for the explanation, of the calls that set it. -/
def Operation.message : Operation → Option (Option CString)
  | .set_explanation message => some message
  | .set_message _ message => some message
  | .set_messagef _ fmt _ => some fmt
  | .set_explanationf _ fmt _ => some fmt
  | _ => none

theorem on_texts_headline (operation : Operation) (status : Status) :
    (operation.on_texts status).status_headline =
      (operation.headline.map fun argument => shown argument headline_fallback).getD
        status.status_headline := by
  cases operation <;> rfl

/-- The call stays inside the arrays and leaves texts with the property. -/
def After (operation : Operation) (b : Buffers) (p : Status → Prop) : Prop :=
  ∃ next, operation.apply b = some next ∧ p next.texts

theorem after_of_on_texts (hb : b.Valid) {operation : Operation} {p : Status → Prop}
    (h : p (operation.on_texts b.texts)) : After operation b p := by
  obtain ⟨next, hnext, _, htexts⟩ := apply_eq hb operation
  exact ⟨next, hnext, htexts ▸ h⟩

/-- How the two texts behave from the given arrays on. -/
structure TextLaws (b : Buffers) : Prop where
  refines : ∀ operation : Operation, After operation b fun texts => texts = operation.on_texts b.texts
  joined : ∀ (headline fmt : Option CString) (formatted : List UInt8)
    (pieces : List (Option CString × List UInt8)), absent fmt = false →
      (∀ piece ∈ pieces, absent piece.1 = false) →
        ∃ next, run (.set_messagef headline fmt formatted :: pieces.map append_call) b = some next ∧
          next.texts.status_explanation =
            (memory.joined (cstr formatted :: pieces.map piece_text)).take 255
  unset_headline : ∀ (operation : Operation) (argument : Option CString),
    operation.headline = some argument → absent argument = true →
      After operation b fun texts => texts.status_headline = headline_fallback
  unset_explanation : ∀ (operation : Operation) (argument : Option CString),
    operation.message = some argument → absent argument = true →
      After operation b fun texts => texts.status_explanation = explanation_fallback
  absent_append : ∀ (fmt : Option CString) (formatted : List UInt8), absent fmt = true →
    (Operation.append_explanationf fmt formatted).apply b = some b
  headline_only : ∀ message : Option CString, After (.set_headline message) b fun texts =>
    texts.status_explanation = b.texts.status_explanation
  explanation_only : ∀ operation : Operation, operation.headline = none →
    After operation b fun texts => texts.status_headline = b.texts.status_headline
  get_headline : ∀ buf_size : Nat, 0 < buf_size → ∀ buf : Vector UInt8 buf_size,
    ∃ filled, system_status_get_headline (some buf) b = some (some filled) ∧ Terminated filled ∧
      string filled = b.texts.status_headline.take (buf_size - 1)
  get_explanation : ∀ buf_size : Nat, 0 < buf_size → ∀ buf : Vector UInt8 buf_size,
    ∃ filled, system_status_get_explanation (some buf) b = some (some filled) ∧ Terminated filled ∧
      string filled = b.texts.status_explanation.take (buf_size - 1)

/-- Arrays that hold strings obey all laws of the texts: every operation refines the one on texts,
and none leaves its array. -/
theorem textLaws_of_valid (hb : b.Valid) : TextLaws b where
  refines := fun operation => after_of_on_texts hb rfl
  joined := by
    intro headline fmt formatted pieces hfmt hpieces
    obtain ⟨next, hnext, _, htexts⟩ := run_eq hb (.set_messagef headline fmt formatted :: pieces.map append_call)
    refine ⟨next, hnext, ?_⟩
    have hfirst : ((Operation.set_messagef headline fmt formatted).on_texts b.texts).status_explanation =
        (memory.joined [cstr formatted]).take 255 := by
      rw [Operation.on_texts, memory.joined, List.intercalate_singleton]
      simp only [hfmt, Bool.false_eq_true, if_false]
    rw [htexts, List.foldl_cons, appends_on_texts hpieces (by simp) hfirst]
    rfl
  unset_headline := by
    intro operation argument hargument habsent
    apply after_of_on_texts hb
    rw [on_texts_headline, hargument, Option.map_some, Option.getD_some, shown_of_absent habsent]
  unset_explanation := by
    intro operation argument hargument habsent
    apply after_of_on_texts hb
    have hshown := shown_of_absent habsent explanation_fallback
    cases operation with
    | set_explanation message => cases hargument; exact hshown
    | set_message headline message => cases hargument; exact hshown
    | set_messagef headline fmt formatted => cases hargument; exact if_pos habsent
    | set_explanationf uninitialised fmt formatted => cases hargument; exact if_pos (Or.inl habsent)
    | set_headline => cases hargument
    | append_explanationf => cases hargument
  absent_append := fun fmt formatted habsent => if_pos habsent
  headline_only := fun message => after_of_on_texts hb rfl
  explanation_only := by
    intro operation hnone
    apply after_of_on_texts hb
    rw [on_texts_headline, hnone, Option.map_none, Option.getD_none]
  get_headline := fun _ hpositive buf => get_string_eq hb.headline hpositive buf
  get_explanation := fun _ hpositive buf => get_string_eq hb.explanation hpositive buf

theorem valid_initial : Buffers.initial.Valid where
  headline := (string_initialised (by decide) (by decide)).1
  explanation := (string_initialised (by decide) (by decide)).1

/-- After any calls both arrays hold strings of at most 255 characters, no call having left its
array, and the texts behave as they should. The texts handed in may have any length, and the
operations may come in any order, from the texts that the arrays hold at first. -/
theorem status_texts_bounded (operations : List Operation) :
    ∃ b, run operations Buffers.initial = some b ∧ b.Valid ∧
      b.texts.status_headline.length ≤ 255 ∧ b.texts.status_explanation.length ≤ 255 ∧ TextLaws b := by
  obtain ⟨b, hrun, hvalid, _⟩ := run_eq valid_initial operations
  have hheadline := string_length_lt hvalid.headline
  have hexplanation := string_length_lt hvalid.explanation
  exact ⟨b, hrun, hvalid, Nat.le_of_lt_succ hheadline, Nat.le_of_lt_succ hexplanation,
    textLaws_of_valid hvalid⟩

end communication_center.system_status.memory
