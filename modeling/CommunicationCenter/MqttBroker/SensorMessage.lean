import CommunicationCenter.MqttBroker.Message

open libc communication_center.system_state

namespace communication_center.mqtt_broker

/-- A decimal literal: an optional minus, digits, and an optional fraction. -/
def IsDecimal (text : Text) : Prop :=
  ∃ sign whole fraction, text = sign ++ (whole ++ fraction) ∧ (sign = [] ∨ sign = [45]) ∧
    whole ≠ [] ∧ (∀ c ∈ whole, isdigit c = true) ∧
    (fraction = [] ∨ ∃ digits, fraction = 46 :: digits ∧ digits ≠ [] ∧
      ∀ c ∈ digits, isdigit c = true)

def IsDottedQuad (text : Text) : Prop :=
  ∃ a b c d : UInt8, text = decimal a.toNat ++ 46 :: (decimal b.toNat ++ 46 ::
    (decimal c.toNat ++ 46 :: decimal d.toNat))

/-- A message of the documented form
`Temp:<float>, H=<float>, AQ:<int>, IP:<ipv4>`, with blanks before the numbers. -/
structure SensorMessage where
  tempBlanks : Nat
  temp : Text
  humidityBlanks : Nat
  humidity : Text
  aqBlanks : Nat
  aq : Nat
  ip : Text
  temp_decimal : IsDecimal temp
  humidity_decimal : IsDecimal humidity
  aq_int : (aq : Int) ≤ INT_MAX
  ip_dottedQuad : IsDottedQuad ip

def blanks (n : Nat) : Text :=
  List.replicate n 32

namespace SensorMessage

variable (m : SensorMessage)

/-- The text in front of the key of the air quality. -/
def before : Text :=
  ascii "Temp:" ++ blanks m.tempBlanks ++ m.temp ++ ascii ", H=" ++ blanks m.humidityBlanks ++
    m.humidity ++ ascii ", "

def render : Text :=
  m.before ++ (ascii "AQ:" ++ (blanks m.aqBlanks ++ (decimal m.aq ++ (ascii ", IP:" ++ m.ip))))

/-- The digits of the air quality that lie inside the copied bytes. -/
def copied_digits : Text :=
  (decimal m.aq).take
    (copy_len m.render.length - (m.before.length + 3 + m.aqBlanks))

end SensorMessage

theorem mem_blanks {n : Nat} {c : UInt8} (h : c ∈ blanks n) : c = 32 :=
  List.eq_of_mem_replicate h

theorem IsDecimal.bytes {text : Text} (h : IsDecimal text) {c : UInt8} (hc : c ∈ text) :
    c = 45 ∨ c = 46 ∨ isdigit c = true := by
  obtain ⟨sign, whole, fraction, rfl, hsign, _, hwhole, hfraction⟩ := h
  rcases List.mem_append.mp hc with hc | hc
  · rcases hsign with rfl | rfl
    · cases hc
    · exact Or.inl (List.mem_singleton.mp hc)
  · rcases List.mem_append.mp hc with hc | hc
    · exact Or.inr (Or.inr (hwhole c hc))
    · rcases hfraction with rfl | ⟨digits, rfl, _, hdigits⟩
      · cases hc
      · rcases List.mem_cons.mp hc with rfl | hc
        · exact Or.inr (Or.inl rfl)
        · exact Or.inr (Or.inr (hdigits c hc))

theorem IsDottedQuad.bytes {text : Text} (h : IsDottedQuad text) {c : UInt8} (hc : c ∈ text) :
    c = 46 ∨ isdigit c = true := by
  obtain ⟨a, b, d, e, rfl⟩ := h
  simp only [List.mem_append, List.mem_cons] at hc
  rcases hc with hc | hc | hc | hc | hc | hc | hc
  all_goals first
    | exact Or.inl hc
    | exact Or.inr (isdigit_of_mem_decimal hc)

namespace SensorMessage

variable (m : SensorMessage)

/-- The numbers and blanks in front contain no capital A, and nothing at all is
a NUL. -/
theorem before_bytes {c : UInt8} (hc : c ∈ m.before) : c ≠ 65 ∧ c ≠ 0 := by
  have hnumber {d : UInt8} (h : d = 45 ∨ d = 46 ∨ isdigit d = true) : d ≠ 65 ∧ d ≠ 0 := by
    rcases h with rfl | rfl | h
    · decide
    · decide
    · exact ⟨by rintro rfl; exact absurd h (by decide), by rintro rfl; exact absurd h (by decide)⟩
  have hliteral : ∀ d ∈ ascii "Temp:" ++ ascii ", H=" ++ ascii ", ", d ≠ 65 ∧ d ≠ 0 := by
    simp [ascii]
  simp only [before, List.mem_append] at hc
  rcases hc with (((((hc | hc) | hc) | hc) | hc) | hc) | hc
  · exact hliteral c (by simp [hc])
  · rw [mem_blanks hc]; decide
  · exact hnumber (m.temp_decimal.bytes hc)
  · exact hliteral c (by simp [hc])
  · rw [mem_blanks hc]; decide
  · exact hnumber (m.humidity_decimal.bytes hc)
  · exact hliteral c (by simp [hc])

theorem zero_notMem_render : (0 : UInt8) ∉ m.render := by
  intro hc
  have hdigit (n : Nat) : (0 : UInt8) ∉ decimal n := fun h =>
    absurd (isdigit_of_mem_decimal h) (by decide)
  simp only [render, List.mem_append] at hc
  rcases hc with hc | hc | hc | hc | hc | hc
  · exact (m.before_bytes hc).2 rfl
  · exact absurd hc (by decide)
  · exact absurd (mem_blanks hc) (by decide)
  · exact hdigit _ hc
  · exact absurd hc (by decide)
  · rcases m.ip_dottedQuad.bytes hc with h | h <;> exact absurd h (by decide)

end SensorMessage

end communication_center.mqtt_broker
