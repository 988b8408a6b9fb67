import CommunicationCenter.MqttBroker.Decoding

open libc communication_center.system_state

namespace communication_center.mqtt_broker

/-- The text begins with a numeral. The words for infinity and for no number at all are
not numerals, although `atof` accepts them. -/
def starts_number (text : Text) : Bool :=
  let (_, text) := sign (skip_space text)
  (hex_numeral text).isSome || (unsigned_numeral decimal_digit 10 101 10 text).isSome

/-- What `atof` makes of text that does not begin with a numeral. -/
def word_value (text : Text) : Numeral :=
  let (negative, text) := sign (skip_space text)
  let word := (text.take 3).map tolower
  if word = ascii "inf" then .infinite negative
  else if word = ascii "nan" then .nan
  else .finite false 0

example : (["21.5", " -Infinity", "nan", "x"].map fun text =>
    (starts_number (ascii text), decide (strtod (ascii text) = word_value (ascii text)))) =
    [(true, false), (false, true), (false, true), (false, true)] := by
  decide +kernel

theorem strtod_without_number {text : Text} (h : starts_number text = false) :
    strtod text = word_value text := by
  simp only [starts_number, Bool.or_eq_false_iff, Option.isSome_eq_false_iff,
    Option.isNone_iff_eq_none] at h
  simp only [strtod, word_value, h.1, h.2]

/-- The fields of a message that carry readings. -/
inductive Field where
  | temp
  | humidity
  | aq
  deriving DecidableEq

namespace Field

def key : Field → String
  | temp => "Temp:"
  | humidity => "H="
  | aq => "AQ:"

/-- The air quality is an integer for `atoi`, and the others are for `atof`. -/
def starts : Field → Text → Bool
  | temp, text => starts_number text
  | humidity, text => starts_number text
  | aq, text => (strtol text).isSome

/-- The field is there and is followed by a number. -/
def given (f : Field) (payload : Text) : Bool :=
  match strstr (ascii f.key) payload with
  | some p => f.starts (p.drop f.key.length)
  | none => false

/-- Two readings agree in the field. -/
def Same {F : Type} : Field → Climate F → Climate F → Prop
  | temp, c, d => d.temp = c.temp
  | humidity, c, d => d.humidity = c.humidity
  | aq, c, d => d.aq = c.aq

theorem Same.symm {F : Type} {f : Field} {c d : Climate F} (h : f.Same c d) : f.Same d c := by
  cases f <;> exact Eq.symm h

theorem Same.trans {F : Type} {f : Field} {b c d : Climate F} (hfirst : f.Same b c)
    (hsecond : f.Same c d) : f.Same b d := by
  cases f <;> exact Eq.trans hsecond hfirst

end Field

variable {F : Type} [CFloat F]

/-- The value that a float field gets where no numeral follows its key: zero, unless the key
is there and a word follows that `atof` accepts. -/
def float_absent (key : String) (payload : Text) : F :=
  match strstr (ascii key) payload with
  | some p => CFloat.ofNumeral (word_value (p.drop key.length))
  | none => CFloat.lit 0

/-- The values that stand for absent fields. -/
def absent (F : Type) [CFloat F] (payload : Text) : Climate F where
  temp := float_absent "Temp:" payload
  humidity := float_absent "H=" payload
  aq := 0

theorem float_field_without_number {key : String} {payload : Text}
    (h : ∀ p ∈ strstr (ascii key) payload, starts_number (p.drop key.length) = false) :
    (float_field key payload : F) = float_absent key payload := by
  unfold float_field float_absent
  cases hfound : strstr (ascii key) payload with
  | none => rfl
  | some p =>
    dsimp only
    rw [strtod_without_number (h p hfound)]

theorem uint8_field_without_number {key : String} {payload : Text}
    (h : ∀ p ∈ strstr (ascii key) payload, strtol (p.drop key.length) = none) :
    uint8_field key payload = 0 := by
  unfold uint8_field
  cases hfound : strstr (ascii key) payload with
  | none => rfl
  | some p =>
    dsimp only
    rw [atoi, h p hfound]
    rfl

/-- A field that is absent is read as zero, or as the value of the word in its place. -/
theorem Field.reading_of_absent {f : Field} {payload : Text} (h : f.given payload = false) :
    f.Same (absent F payload) (reading F payload) := by
  have hnumber : ∀ p ∈ strstr (ascii f.key) payload, f.starts (p.drop f.key.length) = false := by
    intro p hp
    rwa [Field.given, Option.mem_def.mp hp] at h
  cases f with
  | temp => exact float_field_without_number hnumber
  | humidity => exact float_field_without_number hnumber
  | aq =>
    have hinteger : ∀ p ∈ strstr (ascii "AQ:") payload, strtol (p.drop "AQ:".length) = none := by
      intro p hp
      exact Option.isNone_iff_eq_none.mp (Option.isSome_eq_false_iff.mp (hnumber p hp))
    exact uint8_field_without_number hinteger

/-- The message leaves the cached values of its absent fields and, if it has any,
the availability of the source. -/
def KeepsAbsent (source : Source) (data : List UInt8) (s : State F) : Prop :=
  ∀ (now_ms : Int) (f : Field), f.given (payload_text data) = false →
    f.Same (source.cell s).value (source.cell (mqtt_message_cb source.topic data now_ms s)).value ∧
      (source.cell (mqtt_message_cb source.topic data now_ms s)).available =
        (source.cell s).available

/-- The source has data already, and what stands for an absent field is the value that is
cached: zero, or the infinity or NaN of the word that the message has in its place. -/
def AbsentHarmless (source : Source) (data : List UInt8) (s : State F) : Prop :=
  ∀ f : Field, f.given (payload_text data) = false →
    (source.cell s).available = true ∧ f.Same (absent F (payload_text data)) (source.cell s).value

theorem keepsAbsent_iff (source : Source) (data : List UInt8) (s : State F) :
    KeepsAbsent source data s ↔ AbsentHarmless source data s := by
  have hcell (now_ms : Int) := (mqtt_message_cb_source source data now_ms s).1
  constructor
  · intro h f habsent
    obtain ⟨hvalue, havailable⟩ := h 0 f habsent
    rw [hcell] at hvalue havailable
    exact ⟨havailable.symm, (Field.reading_of_absent habsent).trans hvalue.symm⟩
  · intro h now_ms f habsent
    obtain ⟨havailable, hcached⟩ := h f habsent
    rw [hcell]
    exact ⟨hcached.symm.trans (Field.reading_of_absent habsent), havailable.symm⟩

/-- The same for the message with the wind speed, which is a numeral only. -/
def KeepsWind (data : List UInt8) (s : State F) : Prop :=
  ∀ now_ms : Int, starts_number (payload_text data) = false →
    (mqtt_message_cb (ascii "ESP32/wind") data now_ms s).wind.value = s.wind.value ∧
      (mqtt_message_cb (ascii "ESP32/wind") data now_ms s).wind.available = s.wind.available

def WindHarmless (data : List UInt8) (s : State F) : Prop :=
  starts_number (payload_text data) = false →
    s.wind.available = true ∧ s.wind.value = CFloat.ofNumeral (word_value (payload_text data))

theorem keepsWind_iff (data : List UInt8) (s : State F) :
    KeepsWind data s ↔ WindHarmless data s := by
  constructor
  · intro h habsent
    obtain ⟨hvalue, havailable⟩ := h 0 habsent
    rw [mqtt_message_cb_wind] at hvalue havailable
    rw [strtod_without_number habsent] at hvalue
    exact ⟨havailable.symm, hvalue.symm⟩
  · intro h now_ms habsent
    obtain ⟨havailable, hcached⟩ := h habsent
    rw [mqtt_message_cb_wind, strtod_without_number habsent]
    exact ⟨hcached.symm, havailable.symm⟩

end communication_center.mqtt_broker
