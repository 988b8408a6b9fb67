import CommunicationCenter.MqttBroker.SensorMessage

open libc

namespace communication_center.mqtt_broker

/-- A text that is cut inside the key has no key. -/
theorem strstr_cut_key {k : Nat} (h : k < 3) : strstr (ascii "AQ:") ((ascii "AQ:").take k) = none := by
  have hall : ∀ k : Fin 3, strstr (ascii "AQ:") ((ascii "AQ:").take k) = none := by decide
  exact hall ⟨k, h⟩

/-- What is read behind the key when only some of the bytes there were copied: the digits that
were, without the blanks in front of them. None may be left, which is read as 0. -/
theorem atoi_cut (m : SensorMessage) (room : Nat) :
    atoi ((blanks m.aqBlanks ++ (decimal m.aq ++ (ascii ", IP:" ++ m.ip))).take room) =
      digits_value ((decimal m.aq).take (room - m.aqBlanks)) := by
  have hblanks : (blanks m.aqBlanks).length = m.aqBlanks := List.length_replicate
  rw [List.take_append, hblanks, List.take_append]
  generalize room - m.aqBlanks = visible
  have hvalue : (digits_value ((decimal m.aq).take visible) : Int) ≤ INT_MAX := by
    have hle := digits_value_take_le (decimal m.aq) visible
    rw [digits_value_decimal] at hle
    have hmax := m.aq_int
    omega
  apply atoi_digits
  · intro c hc
    rw [mem_blanks (List.mem_of_mem_take hc)]
    decide
  · exact fun c hc => isdigit_of_mem_decimal (List.mem_of_mem_take hc)
  · intro hempty
    have hzero : visible = 0 := by
      rcases List.take_eq_nil_iff.mp hempty with h | h
      · exact h
      · exact absurd h (decimal_ne_nil _)
    rw [hzero, Nat.zero_sub, List.take_zero]
  · intro c hc
    obtain rfl : 44 = c := by
      cases hcut : visible - (decimal m.aq).length with
      | zero => simp [hcut] at hc
      | succ => simpa [hcut, ascii] using hc
    decide
  · exact hvalue

/-- What is stored for a documented message is the number formed by the digits
inside the copied bytes, modulo 256. -/
theorem uint8_field_render (m : SensorMessage) :
    (uint8_field "AQ:" (payload_text m.render)).toNat = digits_value m.copied_digits % 256 := by
  have hpayload : payload_text m.render = m.render.take (copy_len m.render.length) :=
    cstr_eq_self fun h => m.zero_notMem_render (List.mem_of_mem_take h)
  have hbefore : (65 : UInt8) ∉ m.before.take (copy_len m.render.length) := fun h =>
    (m.before_bytes (List.mem_of_mem_take h)).1 rfl
  have hcopied : m.copied_digits = (decimal m.aq).take
      (copy_len m.render.length - m.before.length - 3 - m.aqBlanks) := by
    rw [SensorMessage.copied_digits, Nat.sub_sub, Nat.sub_sub, Nat.add_assoc]
  have hkey : ascii "AQ:" = 65 :: ascii "Q:" := rfl
  rw [hpayload, hcopied]
  unfold uint8_field
  generalize copy_len m.render.length = size at hbefore ⊢
  rw [SensorMessage.render, List.take_append, hkey, strstr_append_of_notMem hbefore, ← hkey,
    List.take_append]
  generalize size - m.before.length = room
  by_cases hroom : room < 3
  · have hlen : room - (ascii "AQ:").length = 0 := Nat.sub_eq_zero_of_le hroom.le
    have hnone : room - 3 - m.aqBlanks = 0 := by omega
    rw [hlen, List.take_zero, List.append_nil, strstr_cut_key hroom, hnone]
    rfl
  · have hlen : (ascii "AQ:").length = 3 := rfl
    have htake : (ascii "AQ:").take room = ascii "AQ:" :=
      List.take_of_length_le (by rw [hlen]; omega)
    have hdrop (text : Text) : (ascii "AQ:" ++ text).drop ("AQ:").length = text := rfl
    rw [htake, hlen, strstr_of_prefix (List.prefix_append _ _)]
    dsimp only
    rw [hdrop, atoi_cut, UInt8.ofInt]
    simp
    omega

/-- A message of at most 95 bytes is copied as a whole, so that all digits of its air quality are
read. -/
theorem copied_digits_of_length_le {m : SensorMessage} (h : m.render.length ≤ 95) :
    m.copied_digits = decimal m.aq := by
  have hrender : m.render.length = m.before.length + (3 + (m.aqBlanks + ((decimal m.aq).length +
      (ascii ", IP:" ++ m.ip).length))) := by
    simp only [SensorMessage.render, List.length_append, blanks, List.length_replicate]
    rfl
  rw [SensorMessage.copied_digits, copy_len_of_le h, hrender]
  exact List.take_of_length_le (by omega)

end communication_center.mqtt_broker
