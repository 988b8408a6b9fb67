import CommunicationCenter.SystemStatus.BoundedTexts

open libc

namespace communication_center.system_status.memory

theorem shown_eq (message : Option CString) {fallback : Text} (h : fallback.length ≤ 255) :
    shown message fallback = system_status.system_status_copy_string STATUS_EXPLANATION_MAX_LEN
      (message.map CString.text) fallback := by
  have hfallback : fallback.take 255 = fallback := List.take_of_length_le h
  cases message with
  | none => exact hfallback.symm
  | some message =>
    obtain ⟨text, hnul⟩ := message
    cases text with
    | nil => exact hfallback.symm
    | cons c text => rfl

variable {b : Buffers}

/-- The calls on the arrays leave the texts that the functions on texts compute. -/
theorem set_message_refines (hb : b.Valid) (headline message : Option CString) :
    After (.set_message headline message) b fun texts =>
      texts = system_status.system_status_set_message (headline.map CString.text)
        (message.map CString.text) b.texts := by
  apply after_of_on_texts hb
  have hheadline := shown_eq headline (by decide : headline_fallback.length ≤ 255)
  have hmessage := shown_eq message (by decide : explanation_fallback.length ≤ 255)
  rw [Operation.on_texts, hheadline, hmessage]
  rfl

section

variable {F : Type} [CFloat F] {fmt : CString} {args : List (Arg F)}
  (hnul : (0 : UInt8) ∉ format fmt.text args)
include hnul

theorem set_messagef_refines (hb : b.Valid) (headline : Option CString) :
    After (.set_messagef headline (some fmt) (format fmt.text args)) b fun texts =>
      texts = system_status.system_status_set_messagef_locked (headline.map CString.text)
        (some fmt.text) args b.texts := by
  apply after_of_on_texts hb
  have hheadline := shown_eq headline (by decide : headline_fallback.length ≤ 255)
  rw [Operation.on_texts, hheadline, cstr_eq_self hnul]
  obtain ⟨text, htext⟩ := fmt
  cases text with
  | nil => rfl
  | cons c text => rfl

theorem append_explanationf_refines (hb : b.Valid) :
    After (.append_explanationf (some fmt) (format fmt.text args)) b fun texts =>
      texts = system_status.system_status_append_explanationf_locked (some fmt.text) args b.texts := by
  apply after_of_on_texts hb
  have hlength : b.texts.status_explanation.length < 256 := string_length_lt hb.explanation
  have hsize : STATUS_EXPLANATION_MAX_LEN = 256 := rfl
  rw [Operation.on_texts, cstr_eq_self hnul]
  obtain ⟨text, htext⟩ := fmt
  cases text with
  | nil => rfl
  | cons c text =>
    rw [system_status.system_status_append_explanationf_locked.eq_3 _ _ _ (List.cons_ne_nil c text)]
    have hpresent : absent (some ⟨c :: text, htext⟩) = false := rfl
    simp only [hpresent, Bool.false_eq_true, if_false]
    by_cases hfull : b.texts.status_explanation.length + 1 ≥ STATUS_EXPLANATION_MAX_LEN
    · have hexact : b.texts.status_explanation.length = 255 := by omega
      rw [if_pos hfull, ← hexact, List.take_left]
    · have hroom : STATUS_EXPLANATION_MAX_LEN - (b.texts.status_explanation.length + 1) - 1 =
          254 - b.texts.status_explanation.length := by omega
      rw [if_neg hfull, take_append_space (by omega), snprintf, hroom]

end

theorem initial_texts : Buffers.initial.texts = Status.initial := by
  have hheadline := (string_initialised (n := STATUS_EXPLANATION_MAX_LEN)
    (by decide : (ascii "You are in control").length < STATUS_EXPLANATION_MAX_LEN) (by decide)).2
  have hexplanation := (string_initialised (n := STATUS_EXPLANATION_MAX_LEN)
    (by decide : (ascii "Manual Mode, no Status explanation!").length < STATUS_EXPLANATION_MAX_LEN)
    (by decide)).2
  rw [Buffers.texts, Buffers.initial, hheadline, hexplanation]
  rfl

end communication_center.system_status.memory
