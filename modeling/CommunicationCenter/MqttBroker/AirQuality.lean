import CommunicationCenter.MqttBroker.StoredAirQuality
import CommunicationCenter.SystemState.AutoUpdate

open libc expiring communication_center.system_state

namespace communication_center.mqtt_broker

/-- The two sources that report an air quality. -/
inductive Source where
  | indoor
  | outdoor

namespace Source

def topic : Source → Text
  | indoor => ascii "ESP32/indoor"
  | outdoor => ascii "ESP32/outdoor"

variable {F : Type}

def cell : Source → State F → Cell (Climate F)
  | indoor, s => s.indoor
  | outdoor, s => s.outdoor

/-- What a tick may do with bad air at the source: with bad air outside it opens
neither window nor door, and with bad air inside it has the absorber on as soon
as it knows the outdoor readings too. -/
def TickRespectsBadAir : Source → State F → State F → Prop
  | indoor, s, t => s.outdoor.available = true → t.actuators.absorber_used = true
  | outdoor, s, t =>
    (t.actuators.window = true → s.actuators.window = true) ∧
      (t.actuators.door = true → s.actuators.door = true)

end Source

variable {F : Type} [CFloat F]

theorem Source.cell_mqtt_message_cb (source : Source) (data : List UInt8) (now_ms : Int)
    (s : State F) :
    (source.cell (mqtt_message_cb source.topic data now_ms s)).available = true ∧
      (source.cell (mqtt_message_cb source.topic data now_ms s)).value.aq =
        uint8_field "AQ:" (payload_text data) := by
  cases source with
  | indoor =>
    obtain ⟨ip, h⟩ := mqtt_message_cb_indoor data now_ms s
    rw [Source.topic, h]
    exact ⟨rfl, rfl⟩
  | outdoor =>
    obtain ⟨ip, h⟩ := mqtt_message_cb_outdoor data now_ms s
    rw [Source.topic, h]
    exact ⟨rfl, rfl⟩

/-- An automatic tick that sees bad air at a source acts on it. The source has data, and the
reading is the one that is stored, not the one that was sent. -/
theorem Source.tickRespectsBadAir (source : Source) {now : tm} {s : State F}
    {mode : system_mode_t} (hgoverning : governing_mode now s = some mode)
    (hmode : mode = MODE_AUTO_BEST ∨ mode = MODE_AUTO_ECO)
    (havailable : (source.cell s).available = true) (haq : GOOD_AQ < (source.cell s).value.aq) :
    source.TickRespectsBadAir s (system_auto_update_section now s).1 := by
  rw [system_auto_update_section_of_some hgoverning]
  cases source with
  | indoor =>
    intro houtdoor
    have habsorber := apply_auto_logic_bad_indoor_air (s := { s with current_mode := mode })
      hmode havailable houtdoor haq
    unfold evaluate_rules
    dsimp only
    split <;> exact habsorber
  | outdoor =>
    have hclosed := apply_auto_logic_bad_outdoor_air (s := { s with current_mode := mode })
      hmode havailable haq
    unfold evaluate_rules
    dsimp only
    split <;> exact hclosed

/-- The reading of a message compares with the threshold as its number does, and
while it is the latest one, no automatic tick takes bad air for good. -/
def AirQualitySurvives (F : Type) [CFloat F] (source : Source) (m : SensorMessage) : Prop :=
  ∀ (s : State F) (now_ms : Int),
    ((source.cell (mqtt_message_cb source.topic m.render now_ms s)).value.aq ≤ GOOD_AQ ↔
      m.aq ≤ GOOD_AQ.toNat) ∧
    (GOOD_AQ.toNat < m.aq → ∀ (t : State F) (now : tm) (mode : system_mode_t),
      source.cell t = source.cell (mqtt_message_cb source.topic m.render now_ms s) →
      governing_mode now t = some mode → mode = MODE_AUTO_BEST ∨ mode = MODE_AUTO_ECO →
      source.TickRespectsBadAir t (system_auto_update_section now t).1)

/-- A good reading always survives. A bad one survives exactly when the digits inside the copied
bytes still exceed the threshold modulo 256. This is said of all messages of the documented form,
of any length, for every state they come in and every later tick that finds their reading still
there. -/
theorem airQualitySurvives_iff (source : Source) (m : SensorMessage) :
    AirQualitySurvives F source m ↔
      m.aq ≤ GOOD_AQ.toNat ∨ GOOD_AQ.toNat < digits_value m.copied_digits % 256 := by
  have hcut : digits_value m.copied_digits ≤ m.aq :=
    (digits_value_take_le _ _).trans (digits_value_decimal m.aq).le
  have hstored (s : State F) (now_ms : Int) :
      (source.cell (mqtt_message_cb source.topic m.render now_ms s)).value.aq.toNat =
        digits_value m.copied_digits % 256 := by
    rw [(source.cell_mqtt_message_cb m.render now_ms s).2, uint8_field_render]
  have hgood : GOOD_AQ.toNat = 70 := rfl
  constructor
  · intro h
    have hiff := (h State.initial 0).1
    rw [UInt8.le_iff_toNat_le, hstored] at hiff
    by_contra hnot
    obtain ⟨hbad, hread⟩ := not_or.mp hnot
    exact hbad (hiff.mp (Nat.not_lt.mp hread))
  · intro h s now_ms
    refine ⟨?_, fun hbad t now mode hcell hgoverning hmode => ?_⟩
    · rw [UInt8.le_iff_toNat_le, hstored]
      omega
    · apply source.tickRespectsBadAir hgoverning hmode
      · rw [hcell]
        exact (source.cell_mqtt_message_cb m.render now_ms s).1
      · rw [hcell, UInt8.lt_iff_toNat_lt, hstored]
        exact h.resolve_left (Nat.not_le.mpr hbad)

private def aq_300 : SensorMessage where
  tempBlanks := 1
  temp := ascii "18.40"
  humidityBlanks := 0
  humidity := ascii "61.00"
  aqBlanks := 1
  aq := 300
  ip := ascii "192.168.0.52"
  temp_decimal := ⟨[], ascii "18", ascii ".40", by decide, by decide, by decide,
    List.all_eq_true.mp (by decide), Or.inr ⟨ascii "40", by decide, by decide,
      List.all_eq_true.mp (by decide)⟩⟩
  humidity_decimal := ⟨[], ascii "61", ascii ".00", by decide, by decide, by decide,
    List.all_eq_true.mp (by decide), Or.inr ⟨ascii "00", by decide, by decide,
      List.all_eq_true.mp (by decide)⟩⟩
  aq_int := by decide
  ip_dottedQuad := ⟨192, 168, 0, 52, by decide⟩

/-- The reading 300 is stored as 44, which counts as good air, so that the next tick does not act
on it. -/
theorem aq_300_read_as_good :
    ¬ ∀ (source : Source) (m : SensorMessage), AirQualitySurvives Binary32 source m := by
  intro h
  have hiff := (h .outdoor aq_300 State.initial 0).1
  have hstored := uint8_field_render aq_300
  rw [copied_digits_of_length_le (by decide), digits_value_decimal] at hstored
  rw [UInt8.le_iff_toNat_le, (Source.cell_mqtt_message_cb _ _ _ _).2, hstored] at hiff
  exact absurd (hiff.mp (by decide)) (by decide)

end communication_center.mqtt_broker
