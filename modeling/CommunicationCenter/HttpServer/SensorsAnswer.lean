import CommunicationCenter.HttpServer.ShownReading

open libc communication_center.system_state

namespace communication_center.http_server

theorem dashes_shown_when {shows : json.Json → Prop} (hshows : ∀ shown, shows shown ↔
    shown = .string (ascii "--")) : ShownWhen (ascii "\"--\"") shows True := by
  have hplain : (ascii "--").all json.plain = true := by decide
  have htext : ascii "\"--\"" = 34 :: (ascii "--" ++ [34]) := by decide
  rw [htext]
  apply ShownWhen.of_reads (json.reads_string (List.all_eq_true.mp hplain))
  rw [iff_true]
  exact ⟨_, rfl, (hshows _).mpr rfl⟩

/-- A number in the answer is shown right exactly when it is available and can be printed, or is
not available and shown as a dash. It is printed with one to twelve decimals. -/
theorem float_shown_when {decimals : Nat} (hpositive : 0 < decimals) (hfew : decimals ≤ 12)
    (available : Bool) (reading : Binary32) :
    ShownWhen (format_json_float available reading decimals).text
      (ShowsReading available decimals reading) (available = true → Printable decimals reading) := by
  cases available with
  | false =>
    rw [show (false = true → Printable decimals reading) = True by simp]
    exact dashes_shown_when fun shown => by simp [ShowsReading]
  | true =>
    rw [show (true = true → Printable decimals reading) = Printable decimals reading by simp]
    cases reading with
    | nan =>
      apply ShownWhen.of_reads reads_nan
      simp [Printable]
    | infinite negative =>
      have htext : (format_json_float true (.infinite negative : Binary32) decimals).text =
          minus negative ++ ascii "inf" := by
        cases negative with
        | true => rfl
        | false => rfl
      rw [htext]
      apply ShownWhen.of_reads (reads_infinite negative)
      simp [Printable]
    | finite negative magnitude => exact finite_shown_when hpositive hfew negative magnitude

theorem uint_shown_when (available : Bool) (aq : UInt8) :
    ShownWhen (format_json_uint available aq : JsonField Binary32).text
      (ShowsAirQuality available aq) True := by
  cases available with
  | false => exact dashes_shown_when fun shown => by simp [ShowsAirQuality]
  | true =>
    have hlength : (decimal aq.toNat).length ≤ 3 :=
      decimal_length_le (by decide) (aq.toNat_lt.trans (by decide))
    have htext : (format_json_uint true aq : JsonField Binary32).text =
        minus false ++ (decimal aq.toNat ++ []) := by
      rw [List.append_nil]
      exact List.take_of_length_le (by omega)
    have hcanonical := json.canonical_decimal aq.toNat
    rw [htext]
    apply ShownWhen.of_reads (json.reads_number false hcanonical (some _) fun rest hrest =>
      json.number_whole false hcanonical hrest.endsNumber)
    rw [digits_value_decimal, iff_true]
    exact ⟨_, rfl, rfl⟩

/-- The document shows what is cached. -/
structure ShowsState (s : State Binary32) (readings : Readings) : Prop where
  indoor_temp : ShowsReading s.indoor.available 2 s.indoor.value.temp readings.indoor_temp
  indoor_humidity : ShowsReading s.indoor.available 2 s.indoor.value.humidity readings.indoor_humidity
  indoor_aq : ShowsAirQuality s.indoor.available s.indoor.value.aq readings.indoor_aq
  outdoor_temp : ShowsReading s.outdoor.available 2 s.outdoor.value.temp readings.outdoor_temp
  outdoor_humidity :
    ShowsReading s.outdoor.available 2 s.outdoor.value.humidity readings.outdoor_humidity
  outdoor_aq : ShowsAirQuality s.outdoor.available s.outdoor.value.aq readings.outdoor_aq
  wind_speed : ShowsReading s.wind.available 1 s.wind.value readings.wind_speed

/-- The text is JSON, and says of every cached value what it should. -/
def AnswersCached (s : State Binary32) (text : Text) : Prop :=
  ∃ readings : Readings, ShowsState s readings ∧ json.parse text =
    some (readings.document s.indoor.available (s.outdoor.available || s.wind.available))

structure AllPrintable (s : State Binary32) : Prop where
  indoor_temp : s.indoor.available = true → Printable 2 s.indoor.value.temp
  indoor_humidity : s.indoor.available = true → Printable 2 s.indoor.value.humidity
  outdoor_temp : s.outdoor.available = true → Printable 2 s.outdoor.value.temp
  outdoor_humidity : s.outdoor.available = true → Printable 2 s.outdoor.value.humidity
  wind_speed : s.wind.available = true → Printable 1 s.wind.value

theorem document_inj {first second : Readings} {indoor outdoor : Bool}
    (h : first.document indoor outdoor = second.document indoor outdoor) : first = second := by
  cases first
  cases second
  simpa [Readings.document, climate_object, and_assoc] using h

/-- The answer shows the cached values exactly if all those that are available can be printed.
Nothing is assumed of the values, which may be too long for their texts, infinite or none at all.
-/
theorem answers_cached_iff (s : State Binary32) :
    AnswersCached s (sensors_snapshot s).json_resp ↔ AllPrintable s := by
  have htwo (available : Bool) (reading : Binary32) :=
    float_shown_when (by decide : 0 < 2) (by decide) available reading
  have hindoor_temp := htwo s.indoor.available s.indoor.value.temp
  have hindoor_humidity := htwo s.indoor.available s.indoor.value.humidity
  have hindoor_aq := uint_shown_when s.indoor.available s.indoor.value.aq
  have houtdoor_temp := htwo s.outdoor.available s.outdoor.value.temp
  have houtdoor_humidity := htwo s.outdoor.available s.outdoor.value.humidity
  have houtdoor_aq := uint_shown_when s.outdoor.available s.outdoor.value.aq
  have hwind := float_shown_when (by decide : 0 < 1) (by decide) s.wind.available s.wind.value
  have hfields : FieldsReadable (sensors_snapshot s) :=
    ⟨hindoor_temp.1, hindoor_humidity.1, hindoor_aq.1, houtdoor_temp.1, houtdoor_humidity.1,
      houtdoor_aq.1, hwind.1⟩
  constructor
  · rintro ⟨readings, hshows, hparse⟩
    obtain ⟨read, hread, hdocument⟩ := (parse_json_resp_iff hfields).mp hparse
    obtain rfl := document_inj hdocument
    exact ⟨hindoor_temp.2.mp ⟨_, hread.indoor_temp, hshows.indoor_temp⟩,
      hindoor_humidity.2.mp ⟨_, hread.indoor_humidity, hshows.indoor_humidity⟩,
      houtdoor_temp.2.mp ⟨_, hread.outdoor_temp, hshows.outdoor_temp⟩,
      houtdoor_humidity.2.mp ⟨_, hread.outdoor_humidity, hshows.outdoor_humidity⟩,
      hwind.2.mp ⟨_, hread.wind_speed, hshows.wind_speed⟩⟩
  · intro h
    obtain ⟨t, ht, hshows_t⟩ := hindoor_temp.2.mpr h.indoor_temp
    obtain ⟨u, hu, hshows_u⟩ := hindoor_humidity.2.mpr h.indoor_humidity
    obtain ⟨v, hv, hshows_v⟩ := hindoor_aq.2.mpr trivial
    obtain ⟨x, hx, hshows_x⟩ := houtdoor_temp.2.mpr h.outdoor_temp
    obtain ⟨y, hy, hshows_y⟩ := houtdoor_humidity.2.mpr h.outdoor_humidity
    obtain ⟨z, hz, hshows_z⟩ := houtdoor_aq.2.mpr trivial
    obtain ⟨w, hw, hshows_w⟩ := hwind.2.mpr h.wind_speed
    have hread : FieldsRead (sensors_snapshot s) ⟨t, u, v, x, y, z, w⟩ :=
      ⟨ht, hu, hv, hx, hy, hz, hw⟩
    exact ⟨⟨t, u, v, x, y, z, w⟩,
      ⟨hshows_t, hshows_u, hshows_v, hshows_x, hshows_y, hshows_z, hshows_w⟩,
      (parse_json_resp_iff hfields).mpr ⟨_, hread, rfl⟩⟩

end communication_center.http_server
