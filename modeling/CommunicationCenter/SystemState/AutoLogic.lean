import CommunicationCenter.SystemState.Schedule

open libc communication_center.system_status

namespace communication_center.system_state

variable {F : Type}

/-- What decides on the actuators is unchanged between two states, which may
differ in the actuators themselves and in the status texts. -/
structure SameInputs (s t : State F) : Prop where
  schedule : t.schedule = s.schedule
  last : t.last = s.last
  current_mode : t.current_mode = s.current_mode
  indoor : t.indoor = s.indoor
  outdoor : t.outdoor = s.outdoor
  wind : t.wind = s.wind
  indoor_ip_address : t.indoor_ip_address = s.indoor_ip_address
  outdoor_ip_address : t.outdoor_ip_address = s.outdoor_ip_address

variable [CFloat F]

/-- The branch of `apply_auto_logic` for `MODE_AUTO_BEST`. -/
def auto_best (s : State F) : State F :=
  if !s.indoor.available || !s.outdoor.available then
    -- the window and the door keep their state while data is missing
    { s with
      actuators := { s.actuators with fan := false, absorber_used := false }
      status := system_status_set_message_locked (ascii "Still thinking...")
        (ascii "AUTO_BEST: waiting for indoor and outdoor sensor data.") s.status }
  else
    let indoor := s.indoor.value
    let outdoor := s.outdoor.value
    let humidity_diff_high_enough :=
      CFloat.gt (CFloat.sub indoor.humidity outdoor.humidity) HUMIDITY_DIFF_THRESHOLD
    let outdoor_air_is_good : Bool := outdoor.aq ≤ GOOD_AQ
    let window := humidity_diff_high_enough && outdoor_air_is_good
    let fan := window
    let absorber_used := CFloat.gt indoor.humidity HIGH_HUMIDITY || decide (indoor.aq > GOOD_AQ)
    let status :=
      if fan then
        system_status_set_messagef_locked
          (ascii "Fresh up... fan On. Inside is too toxic!")
          (ascii "AUTO_BEST: window and door open and fan on because indoor humidity %.1f is higher than outdoor humidity %.1f and indoor air quality %u is above the threshold %u.")
          [.float indoor.humidity, .float outdoor.humidity, .uint indoor.aq.toNat,
            .uint GOOD_AQ.toNat] s.status
      else if window then
        system_status_set_messagef_locked
          (ascii "Fresh air is coming in")
          (ascii "AUTO_BEST: window and door open because indoor humidity %.1f is higher than outdoor humidity %.1f and outdoor air quality %u is acceptable.")
          [.float indoor.humidity, .float outdoor.humidity, .uint outdoor.aq.toNat] s.status
      else if !outdoor_air_is_good then
        system_status_set_messagef_locked (F := F)
          (ascii "Oh No, outside is toxic!")
          (ascii "AUTO_BEST: window and door kept closed because outdoor air quality %u is above the threshold %u.")
          [.uint outdoor.aq.toNat, .uint GOOD_AQ.toNat] s.status
      else
        system_status_set_messagef_locked
          (ascii "Waiting for a better breeze")
          (ascii "AUTO_BEST: window kept closed because humidity difference %.1f is below the threshold %.1f.")
          [.float (CFloat.sub indoor.humidity outdoor.humidity), .float HUMIDITY_DIFF_THRESHOLD]
          s.status
    let status :=
      if absorber_used then
        system_status_append_explanationf_locked
          (ascii "Absorber enabled because indoor humidity %.1f or air quality %u crossed the threshold.")
          [.float indoor.humidity, .uint indoor.aq.toNat] status
      else status
    { s with actuators := { window, fan, door := window, absorber_used }, status }

/-- The part of the `MODE_AUTO_ECO` branch that decides on window, door and fan
once outdoor data is available. -/
def auto_eco_ventilation (s : State F) : State F :=
  let indoor := s.indoor.value
  let outdoor := s.outdoor.value
  let fan_was_on := s.actuators.fan
  let humidity_diff_high_enough :=
    CFloat.gt (CFloat.sub indoor.humidity outdoor.humidity) HUMIDITY_DIFF_THRESHOLD
  if decide (outdoor.aq ≤ GOOD_AQ) && humidity_diff_high_enough then
    let opened := { s.actuators with window := true, door := true }
    if s.wind.available && CFloat.gt s.wind.value WIND_HIGH then
      { s with
        actuators := { opened with fan := false }
        status := system_status_set_messagef_locked
          (ascii "Saving energy, windy outside")
          (ascii "AUTO_ECO: window open, but fan off because wind speed %.1f is above the threshold %.1f.")
          [.float s.wind.value, .float WIND_HIGH] s.status }
    else if !s.indoor.available then
      { s with
        actuators := { opened with fan := false }
        status := system_status_set_message_locked (ascii "One moment...")
          (ascii "AUTO_ECO: window open, waiting for indoor sensor data before deciding on the fan.")
          s.status }
    else
      let fan_should_start :=
        CFloat.gt indoor.humidity HIGH_HUMIDITY || CFloat.gt indoor.temp AUTO_ECO_FAN_ON_TEMP_C
      let fan_should_keep_running :=
        fan_was_on &&
          (CFloat.gt indoor.humidity
              (CFloat.sub HIGH_HUMIDITY AUTO_ECO_FAN_HUMIDITY_RELEASE_MARGIN) ||
            CFloat.gt indoor.temp AUTO_ECO_FAN_OFF_TEMP_C)
      let fan := fan_should_start || fan_should_keep_running
      let status :=
        if fan then
          if fan_should_start then
            system_status_set_messagef_locked
              (ascii "Fresh up... fan On")
              (ascii "AUTO_ECO: window open and fan on because indoor humidity %.1f or temperature %.1f crossed the limit.")
              [.float indoor.humidity, .float indoor.temp] s.status
          else
            system_status_set_messagef_locked
              (ascii "Fresh up... fan On")
              (ascii "AUTO_ECO: window open and fan kept on while indoor humidity %.1f or temperature %.1f is still close to the limit, to avoid rapid switching.")
              [.float indoor.humidity, .float indoor.temp] s.status
        else
          system_status_set_messagef_locked
            (ascii "Saving energy")
            (ascii "AUTO_ECO: window open and fan off because indoor humidity %.1f and temperature %.1f are within the configured limits.")
            [.float indoor.humidity, .float indoor.temp] s.status
      { s with actuators := { opened with fan }, status }
  else
    { s with
      actuators := { s.actuators with window := false, door := false, fan := false }
      status :=
        if outdoor.aq > GOOD_AQ then
          system_status_set_messagef_locked (F := F)
            (ascii "Oh No, outside is toxic!")
            (ascii "AUTO_ECO: window kept closed because outdoor air quality %u is above the threshold %u.")
            [.uint outdoor.aq.toNat, .uint GOOD_AQ.toNat] s.status
        else
          system_status_set_messagef_locked
            (ascii "Waiting for a better breeze")
            (ascii "AUTO_ECO: window kept closed because humidity difference %.1f is below the threshold %.1f.")
            [.float (CFloat.sub indoor.humidity outdoor.humidity), .float HUMIDITY_DIFF_THRESHOLD]
            s.status }

/-- The branch of `apply_auto_logic` for `MODE_AUTO_ECO`. -/
def auto_eco (s : State F) : State F :=
  if !s.outdoor.available then
    { s with
      actuators := { s.actuators with fan := false, absorber_used := false }
      status := system_status_set_message_locked (ascii "Looking outside...")
        (ascii "AUTO_ECO: waiting for outdoor sensor data.") s.status }
  else
    let s := auto_eco_ventilation s
    let indoor := s.indoor.value
    let absorber_used := s.indoor.available &&
      (CFloat.gt indoor.humidity HIGH_HUMIDITY || decide (indoor.aq > GOOD_AQ))
    let status :=
      if absorber_used then
        system_status_append_explanationf_locked
          (ascii "Absorber enabled because indoor humidity %.1f or air quality %u crossed the threshold.")
          [.float indoor.humidity, .uint indoor.aq.toNat] s.status
      else s.status
    { s with actuators := { s.actuators with absorber_used }, status }

/-- No rule runs in a mode other than the two automatic ones. -/
def apply_auto_logic (mode : system_mode_t) (s : State F) : State F :=
  if mode = MODE_AUTO_BEST then auto_best s
  else if mode = MODE_AUTO_ECO then auto_eco s
  else s

theorem auto_best_frame (s : State F) : SameInputs s (auto_best s) := by
  unfold auto_best
  split <;> constructor <;> rfl

theorem auto_eco_ventilation_frame (s : State F) : SameInputs s (auto_eco_ventilation s) := by
  unfold auto_eco_ventilation
  dsimp only
  split
  · split
    · constructor <;> rfl
    · split <;> constructor <;> rfl
  · constructor <;> rfl

theorem auto_eco_frame (s : State F) : SameInputs s (auto_eco s) := by
  unfold auto_eco
  split
  · constructor <;> rfl
  · obtain ⟨hschedule, hlast, hmode, hindoor, houtdoor, hwind, hin, hout⟩ :=
      auto_eco_ventilation_frame s
    exact ⟨hschedule, hlast, hmode, hindoor, houtdoor, hwind, hin, hout⟩

/-- The rules write nothing but the actuators and the status texts, in any mode, also in one that
has no rules. -/
theorem apply_auto_logic_frame (mode : system_mode_t) (s : State F) :
    SameInputs s (apply_auto_logic mode s) := by
  unfold apply_auto_logic
  split
  · exact auto_best_frame s
  · split
    · exact auto_eco_frame s
    · constructor <;> rfl

/-- With bad air outside neither rule set opens the window or the door. One that is open may be
left open. -/
theorem apply_auto_logic_bad_outdoor_air {mode : system_mode_t} {s : State F}
    (hmode : mode = MODE_AUTO_BEST ∨ mode = MODE_AUTO_ECO) (havailable : s.outdoor.available = true)
    (haq : GOOD_AQ < s.outdoor.value.aq) :
    ((apply_auto_logic mode s).actuators.window = true → s.actuators.window = true) ∧
      ((apply_auto_logic mode s).actuators.door = true → s.actuators.door = true) := by
  have hbad : ¬ s.outdoor.value.aq ≤ GOOD_AQ := UInt8.not_le.mpr haq
  rcases hmode with rfl | rfl
  · unfold apply_auto_logic auto_best
    rw [if_pos rfl]
    split
    · exact ⟨id, id⟩
    · simp [hbad]
  · unfold apply_auto_logic auto_eco auto_eco_ventilation
    rw [if_neg (by decide), if_pos rfl]
    simp [havailable, hbad]

/-- With bad air inside and both sources available, both rule sets turn the
absorber on. -/
theorem apply_auto_logic_bad_indoor_air {mode : system_mode_t} {s : State F}
    (hmode : mode = MODE_AUTO_BEST ∨ mode = MODE_AUTO_ECO) (hindoor : s.indoor.available = true)
    (houtdoor : s.outdoor.available = true) (haq : GOOD_AQ < s.indoor.value.aq) :
    (apply_auto_logic mode s).actuators.absorber_used = true := by
  rcases hmode with rfl | rfl
  · unfold apply_auto_logic auto_best
    simp [hindoor, houtdoor, haq]
  · have hframe := (auto_eco_ventilation_frame s).indoor
    unfold apply_auto_logic auto_eco
    rw [if_neg (by decide), if_pos rfl]
    simp [hindoor, houtdoor, haq, hframe]

end communication_center.system_state
