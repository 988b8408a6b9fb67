import CommunicationCenter.MqttBroker.Malformed
import CommunicationCenter.System.IntermittentData

open libc expiring transition communication_center.system_state communication_center.mqtt_broker

namespace communication_center.system

/-- A step of the system, where the updates of the broker's task are given by the
messages that it received. -/
inductive Input where
  | climate (source : Source) (data : List UInt8) (now_ms : Int)
  | address (source : Source) (ip : Text)
  | wind (data : List UInt8) (now_ms : Int)
  | task (l : TaskLabel)
  | request (r : Request)
  | handler

/-- The update of a source's readings. -/
def readings_update {F : Type} (c : Climate F) (now_ms : Int) : Source → SensorUpdate F
  | .indoor => .indoor_sensor c.temp c.humidity c.aq now_ms
  | .outdoor => .outdoor_sensor c.temp c.humidity c.aq now_ms

def address_update {F : Type} (ip : Text) : Source → SensorUpdate F
  | .indoor => .indoor_ip ip
  | .outdoor => .outdoor_ip ip

def Input.label (F : Type) [CFloat F] : Input → Label F
  | climate source data now_ms =>
    .update (readings_update (reading F (payload_text data)) now_ms source)
  | address source ip => .update (address_update ip source)
  | wind data now_ms =>
    .update (.wind_speed (CFloat.ofNumeral (strtod (payload_text data))) now_ms)
  | task l => .task l
  | request r => .request r
  | handler => .handler

/-- The readings that an update writes for a source. -/
def Label.climate_update {F : Type} : Source → Label F → Option (Climate F × Int)
  | .indoor, label => label.indoor_update
  | .outdoor, label => label.outdoor_update

section

variable {F : Type} [CFloat F]

/-- The callback makes the update of the address, if there is one, and then that
of the readings. -/
theorem mqtt_message_cb_updates (source : Source) (data : List UInt8) (now_ms : Int) (s : State F) :
    mqtt_message_cb source.topic data now_ms s =
      system_state_update (readings_update (reading F (payload_text data)) now_ms source)
        (((strstr (ascii "IP:") (payload_text data)).map fun p =>
          system_state_update (address_update (p.drop 3) source) s).getD s) := by
  cases source with
  | indoor =>
    rw [Source.topic, mqtt_message_cb, if_pos rfl]
    cases strstr (ascii "IP:") (payload_text data) <;> rfl
  | outdoor =>
    rw [Source.topic, mqtt_message_cb, if_neg (by decide), if_pos rfl]
    cases strstr (ascii "IP:") (payload_text data) <;> rfl

def input_step (sys : System F) (input : Input) : Option (System F × List (Event F)) :=
  step sys (input.label F)

/-- The text of a message from the source. -/
def Input.payload : Source → Input → Option Text
  | .indoor, climate .indoor data _ => some (payload_text data)
  | .outdoor, climate .outdoor data _ => some (payload_text data)
  | _, _ => none

def Input.wind_payload : Input → Option Text
  | wind data _ => some (payload_text data)
  | _ => none

/-- The latest input that brings something. -/
def latest {K : Type} (brings : Input → Option K) (past : List Input) : Option K :=
  (past.filterMap brings).getLast?

theorem latest_snoc {K : Type} (brings : Input → Option K) (past : List Input) (input : Input) :
    latest brings (past ++ [input]) = (brings input).or (latest brings past) := by
  rw [latest, filterMap_snoc]
  cases brings input <;> simp [latest]

/-- The latest message of the source that gives the field gives it as zero. -/
def ReportedZero (F : Type) [CFloat F] (past : List Input) (source : Source) (f : Field) : Prop :=
  ∃ payload ∈ latest (fun input => (input.payload source).filter f.given) past,
    f.Same .zero (reading F payload)

def ReportedCalm (F : Type) [CFloat F] (past : List Input) : Prop :=
  ∃ payload ∈ latest (fun input => input.wind_payload.filter starts_number) past,
    (CFloat.ofNumeral (strtod payload) : F) = CFloat.lit 0

theorem Input.update_of_payload {input : Input} {source : Source} {payload : Text}
    (h : input.payload source = some payload) :
    ∃ now_ms, (input.label F).climate_update source = some (reading F payload, now_ms) := by
  unfold Input.payload at h
  split at h
  · obtain rfl := Option.some.inj h
    exact ⟨_, rfl⟩
  · obtain rfl := Option.some.inj h
    exact ⟨_, rfl⟩
  · cases h

theorem Input.no_update {input : Input} {source : Source} (h : input.payload source = none) :
    (input.label F).climate_update source = none := by
  cases input with
  | climate sender data now_ms =>
    cases source <;> cases sender <;> simp_all [Input.payload, Label.climate_update, Input.label,
      readings_update, Label.indoor_update, Label.outdoor_update]
  | address sender ip => cases source <;> cases sender <;> rfl
  | wind data now_ms => cases source <;> rfl
  | task l => cases source <;> rfl
  | request r => cases source <;> rfl
  | handler => cases source <;> rfl

/-- What a step can do to a source: a message from it writes all of its readings, and any other
step leaves it as it is or takes its data away. -/
theorem climate_step {sys next : System F} {input : Input} {emitted : List (Event F)}
    (hstep : input_step sys input = some (next, emitted)) (source : Source) :
    (∀ payload, input.payload source = some payload →
        (source.cell next.shared).value = reading F payload) ∧
      (input.payload source = none → source.cell next.shared = source.cell sys.shared ∨
        (source.cell next.shared).available = false) := by
  obtain ⟨reads, hmove⟩ := sources_move hstep
  have houtcome : (∀ value stamp, (input.label F).climate_update source = some (value, stamp) →
        (source.cell next.shared).value = value) ∧
      ((input.label F).climate_update source = none →
        source.cell next.shared = source.cell sys.shared ∨
          (source.cell next.shared).available = false) := by
    cases source with
    | indoor => exact hmove.indoor.outcome
    | outdoor => exact hmove.outdoor.outcome
  refine ⟨fun payload hpayload => ?_, fun hnone => houtcome.2 (Input.no_update hnone)⟩
  obtain ⟨now_ms, hupdate⟩ := Input.update_of_payload (F := F) hpayload
  exact houtcome.1 _ _ hupdate

theorem wind_step {sys next : System F} {input : Input} {emitted : List (Event F)}
    (hstep : input_step sys input = some (next, emitted)) :
    (∀ payload, input.wind_payload = some payload →
        next.shared.wind.value = CFloat.ofNumeral (strtod payload)) ∧
      (input.wind_payload = none → next.shared.wind = sys.shared.wind ∨
        next.shared.wind.available = false) := by
  obtain ⟨reads, hmove⟩ := sources_move hstep
  obtain ⟨hwritten, hnone⟩ := hmove.wind.outcome
  cases input with
  | climate source data now_ms => exact ⟨by simp [Input.wind_payload], fun _ => hnone (by cases source <;> rfl)⟩
  | address source ip => exact ⟨by simp [Input.wind_payload], fun _ => hnone (by cases source <;> rfl)⟩
  | wind data now_ms =>
    refine ⟨fun payload hpayload => ?_, by simp [Input.wind_payload]⟩
    obtain rfl := Option.some.inj hpayload
    exact hwritten _ _ rfl
  | task l => exact ⟨by simp [Input.wind_payload], fun _ => hnone rfl⟩
  | request r => exact ⟨by simp [Input.wind_payload], fun _ => hnone rfl⟩
  | handler => exact ⟨by simp [Input.wind_payload], fun _ => hnone rfl⟩

/-- A message that changes nothing it does not give. -/
def Input.KeepsAbsent (s : State F) : Input → Prop
  | climate source data _ => mqtt_broker.KeepsAbsent source data s
  | wind data _ => KeepsWind data s
  | _ => True

def Input.AbsentHarmless (s : State F) : Input → Prop
  | climate source data _ => mqtt_broker.AbsentHarmless source data s
  | wind data _ => WindHarmless data s
  | _ => True

theorem Input.absentHarmless_payload {s : State F} {source : Source} {payload : Text}
    (input : Input) (h : input.AbsentHarmless s) (hpayload : input.payload source = some payload)
    (f : Field) (hgiven : f.given payload = false) :
    (source.cell s).available = true ∧ f.Same (absent F payload) (source.cell s).value := by
  unfold Input.payload at hpayload
  split at hpayload
  · obtain rfl := Option.some.inj hpayload
    exact h f hgiven
  · obtain rfl := Option.some.inj hpayload
    exact h f hgiven
  · cases hpayload

theorem Input.windHarmless_payload {s : State F} {payload : Text} (input : Input)
    (h : input.AbsentHarmless s) (hpayload : input.wind_payload = some payload)
    (hgiven : starts_number payload = false) :
    s.wind.available = true ∧ s.wind.value = CFloat.ofNumeral (word_value payload) := by
  unfold Input.wind_payload at hpayload
  split at hpayload
  · obtain rfl := Option.some.inj hpayload
    exact h hgiven
  · cases hpayload

/-- The fields that a tick in the mode reads. -/
def Reads (mode : system_mode_t) (s : State F) : Source → Field → Prop
  | .indoor, f =>
    (mode = MODE_AUTO_BEST ∧ s.indoor.available = true ∧ s.outdoor.available = true ∧ f ≠ .temp) ∨
      (mode = MODE_AUTO_ECO ∧ s.outdoor.available = true ∧
        (f = .humidity ∨ s.indoor.available = true))
  | .outdoor, f =>
    ((mode = MODE_AUTO_BEST ∧ s.indoor.available = true) ∨ mode = MODE_AUTO_ECO) ∧
      s.outdoor.available = true ∧ f ≠ .temp

/-- Every zero that the tick reads was reported by a source that has data. -/
structure ReadsReported (past : List Input) (now : tm) (s : State F) : Prop where
  climate : ∀ mode, governing_mode now s = some mode → ∀ source f, Reads mode s source f →
    f.Same .zero (source.cell s).value →
      (source.cell s).available = true ∧ ReportedZero F past source f
  wind : governing_mode now s = some MODE_AUTO_ECO → s.wind.available = true →
    s.wind.value = CFloat.lit 0 → ReportedCalm F past

/-- A tick in `AUTO_ECO` that finds outdoor data finds indoor data too. -/
def ReadsData (now : tm) (s : State F) : Prop :=
  governing_mode now s = some MODE_AUTO_ECO → s.outdoor.available = true →
    s.indoor.available = true

/-- The zeros of the sources that have data were reported. -/
structure ZerosReported (past : List Input) (s : State F) : Prop where
  climate : ∀ source f, (source.cell s).available = true → f.Same .zero (source.cell s).value →
    ReportedZero F past source f
  wind : s.wind.available = true → s.wind.value = CFloat.lit 0 → ReportedCalm F past

/-- If a message does no harm, a zero in the cache of a source with data has been reported after
it, provided that those before it had been. No other step writes a zero there. -/
theorem ZerosReported.step {past : List Input} {sys next : System F} {input : Input}
    {emitted : List (Event F)} (h : ZerosReported past sys.shared)
    (hharmless : input.AbsentHarmless sys.shared)
    (hstep : input_step sys input = some (next, emitted)) :
    ZerosReported (past ++ [input]) next.shared := by
  constructor
  · intro source f havailable hzero
    obtain ⟨hwritten, hkept⟩ := climate_step hstep source
    rw [ReportedZero, latest_snoc]
    cases hpayload : input.payload source with
    | none =>
      rcases hkept hpayload with hcell | hlost
      · rw [hcell] at havailable hzero
        exact h.climate source f havailable hzero
      · rw [hlost] at havailable
        cases havailable
    | some payload =>
      rw [hwritten payload hpayload] at hzero
      cases hgiven : f.given payload with
      | true => exact ⟨payload, by simp [hgiven], hzero⟩
      | false =>
        -- a zero of an absent field was there before
        obtain ⟨hbefore, hcached⟩ := input.absentHarmless_payload hharmless hpayload f hgiven
        have hsame := (Field.reading_of_absent hgiven).symm.trans hcached
        rw [Option.filter_some, if_neg (by simp [hgiven]), Option.none_or]
        exact h.climate source f hbefore (hzero.trans hsame)
  · intro havailable hzero
    obtain ⟨hwritten, hkept⟩ := wind_step hstep
    rw [ReportedCalm, latest_snoc]
    cases hpayload : input.wind_payload with
    | none =>
      rcases hkept hpayload with hcell | hlost
      · rw [hcell] at havailable hzero
        exact h.wind havailable hzero
      · rw [hlost] at havailable
        cases havailable
    | some payload =>
      rw [hwritten payload hpayload] at hzero
      cases hgiven : starts_number payload with
      | true => exact ⟨payload, by simp [hgiven], hzero⟩
      | false =>
        obtain ⟨hbefore, hcached⟩ := input.windHarmless_payload hharmless hpayload hgiven
        rw [strtod_without_number hgiven, ← hcached] at hzero
        rw [Option.filter_some, if_neg (by simp [hgiven]), Option.none_or]
        exact h.wind hbefore hzero

/-- A condition on the minute, the history and the state that a tick finds. -/
def Input.AtTick (P : tm → Prop) : Input → Prop
  | task (.auto_update now) => P now
  | _ => True

/-- A tick reads only what was reported exactly when `AUTO_ECO` finds indoor data next to outdoor
data, given that the zeros in the caches with data were reported. -/
theorem readsReported_iff {past : List Input} {s : State F} (hcleared : ClearedSources s)
    (hreported : ZerosReported past s) (now : tm) :
    ReadsReported past now s ↔ ReadsData now s := by
  constructor
  · intro h hgoverning houtdoor
    by_contra hindoor
    have hzero : Field.humidity.Same .zero (Source.indoor.cell s).value := by
      have hvalue := hcleared.indoor (by simpa using hindoor)
      exact congrArg Climate.humidity hvalue
    exact hindoor (h.climate _ hgoverning .indoor .humidity
      (Or.inr ⟨rfl, houtdoor, Or.inl rfl⟩) hzero).1
  · intro h
    constructor
    · intro mode hgoverning source f hreads hzero
      have havailable : (source.cell s).available = true := by
        cases source with
        | indoor =>
          rcases hreads with ⟨_, hindoor, _⟩ | ⟨rfl, houtdoor, _⟩
          · exact hindoor
          · exact h hgoverning houtdoor
        | outdoor => exact hreads.2.1
      exact ⟨havailable, hreported.climate source f havailable hzero⟩
    · exact fun _ havailable hzero => hreported.wind havailable hzero

/-- A message touches no field that it does not give, and a tick reads no zero
that was not reported. -/
structure ReportsOnly (past : List Input) (s : State F) (input : Input) : Prop where
  message : input.KeepsAbsent s
  tick : input.AtTick fun now => ReadsReported past now s

/-- An absent field finds the value that stands for it in the cache of a source
with data, and a tick finds the data that it reads. -/
structure ZerosHarmless (s : State F) (input : Input) : Prop where
  message : input.AbsentHarmless s
  tick : input.AtTick fun now => ReadsData now s

theorem Input.keepsAbsent_iff (s : State F) (input : Input) :
    input.KeepsAbsent s ↔ input.AbsentHarmless s := by
  cases input with
  | climate source data now_ms => exact mqtt_broker.keepsAbsent_iff source data s
  | wind data now_ms => exact keepsWind_iff data s
  | _ => exact Iff.rfl

theorem reportsOnly_iff {past : List Input} {s : State F} (hcleared : ClearedSources s)
    (hreported : ZerosReported past s) (input : Input) :
    ReportsOnly past s input ↔ ZerosHarmless s input := by
  have htick : input.AtTick (fun now => ReadsReported past now s) ↔
      input.AtTick (fun now => ReadsData now s) := by
    unfold Input.AtTick
    split
    · exact readsReported_iff hcleared hreported _
    · exact Iff.rfl
  exact ⟨fun h => ⟨(input.keepsAbsent_iff s).mp h.message, htick.mp h.tick⟩,
    fun h => ⟨(input.keepsAbsent_iff s).mpr h.message, htick.mpr h.tick⟩⟩

/-- While no absent field does harm, every zero of a source with data was reported. -/
theorem zerosReported {inputs : List Input}
    (h : EveryStep (input_step (F := F)) System.initial inputs
      fun _ sys input => input.AbsentHarmless sys.shared) :
    EveryState input_step System.initial inputs fun past sys _ =>
      ZerosReported past (sys : System F).shared := by
  have hinit : ZerosReported [] (System.initial (F := F)).shared := by
    refine ⟨fun source f havailable _ => ?_, fun havailable _ => ?_⟩
    · cases source <;> cases havailable
    · cases havailable
  exact h.everyState hinit fun past sys events input next emitted hreported hharmless hstep =>
    hreported.step hharmless hstep

/-- In every run, messages without a field do no harm and no tick reads a zero that was not
reported exactly when each of them finds the values that stand for its absent fields in the cache
of a source with data, and `AUTO_ECO` finds indoor data next to outdoor data. A field counts as
absent where no numeral follows its key, so also where the word `inf` or `nan` does. The messages
may be any bytes, in any state and at any place of a run. -/
theorem reports_only_iff (F : Type) [CFloat F] :
    (∀ (source : Source) (data : List UInt8) (s : State F),
      mqtt_broker.KeepsAbsent source data s ↔ mqtt_broker.AbsentHarmless source data s) ∧
    (∀ (data : List UInt8) (s : State F), KeepsWind data s ↔ WindHarmless data s) ∧
    ∀ inputs : List Input,
      EveryStep input_step System.initial inputs
          (fun past sys input => ReportsOnly past (sys : System F).shared input) ↔
        EveryStep input_step System.initial inputs
          fun _ sys input => ZerosHarmless (sys : System F).shared input := by
  refine ⟨mqtt_broker.keepsAbsent_iff, keepsWind_iff, fun inputs => ?_⟩
  have hiff (hharmless : EveryStep input_step System.initial inputs
      fun _ sys input => input.AbsentHarmless (sys : System F).shared) {past : List Input}
      {sys : System F} {events : List (Event F)} {input : Input}
      (hpast : past ++ [input] <+: inputs)
      (hrun : Run input_step System.initial past sys events) :
      ReportsOnly past sys.shared input ↔ ZerosHarmless sys.shared input := by
    have hlabels : Run step System.initial (past.map (Input.label F)) sys events :=
      Run.map_labels hrun
    have hcleared := (clearedSources _).last hlabels
    have hreported := zerosReported hharmless past sys events
      ((List.prefix_append _ _).trans hpast) hrun
    exact reportsOnly_iff hcleared hreported input
  constructor
  · intro h past sys events input next emitted hprefix hrun hstep
    refine (hiff ?_ hprefix hrun).mp (h past sys events input next emitted hprefix hrun hstep)
    exact fun past sys events input next emitted hprefix hrun hstep =>
      (input.keepsAbsent_iff sys.shared).mp
        (h past sys events input next emitted hprefix hrun hstep).message
  · intro h past sys events input next emitted hprefix hrun hstep
    refine (hiff ?_ hprefix hrun).mpr (h past sys events input next emitted hprefix hrun hstep)
    exact fun past sys events input next emitted hprefix hrun hstep =>
      (h past sys events input next emitted hprefix hrun hstep).message

end

private def humidity_cut_off : List Input :=
  [.request (.post_mode (.delivered (ascii "\x7b\"mode\":0\x7d"))), .handler,
    .climate .outdoor (ascii "Temp: 15.0, H= 40.0, AQ: 10, IP:192.168.4.3") 0,
    .climate .indoor (ascii "Temp: 21.0, H=") 0,
    .task (.read_clock 0), .task .refresh]

/-- A message that was cut off before its humidity makes `AUTO_BEST` decide on
an indoor humidity of zero. -/
theorem humidity_cut_off_read_as_zero :
    ¬ ((∀ (source : Source) (data : List UInt8) (s : State Binary32),
        mqtt_broker.KeepsAbsent source data s) ∧
      (∀ (data : List UInt8) (s : State Binary32), KeepsWind data s) ∧
      ∀ inputs : List Input, EveryStep input_step System.initial inputs
        fun past sys input => ReportsOnly past (sys : System Binary32).shared input) := by
  rintro ⟨-, -, h⟩
  have hrun : (exec (input_step (F := Binary32)) System.initial humidity_cut_off).map (fun r =>
      (governing_mode ⟨12, 0⟩ r.1.shared, r.1.shared.indoor.available,
        r.1.shared.outdoor.available, r.1.shared.indoor.value.humidity,
        (input_step r.1 (.task (.auto_update ⟨12, 0⟩))).isSome)) =
      some (some MODE_AUTO_BEST, true, true, CFloat.lit 0, true) := by
    decide +kernel
  obtain ⟨⟨sys, events⟩, hexec, hread⟩ := Option.map_eq_some_iff.mp hrun
  simp only [Prod.mk.injEq] at hread
  obtain ⟨hgoverning, hindoor, houtdoor, hzero, hstep⟩ := hread
  obtain ⟨⟨next, emitted⟩, hstep⟩ := Option.isSome_iff_exists.mp hstep
  have htick := (h (humidity_cut_off ++ [.task (.auto_update ⟨12, 0⟩)]) _ sys events _ next emitted
    List.prefix_rfl (.of_exec hexec) hstep).tick
  obtain ⟨-, payload, hpayload, -⟩ := htick.climate _ hgoverning .indoor .humidity
    (Or.inl ⟨rfl, hindoor, houtdoor, by decide⟩) hzero
  have hnone : latest (fun input => (input.payload .indoor).filter (Field.given .humidity))
      humidity_cut_off = none := by
    decide +kernel
  rw [hnone] at hpayload
  cases hpayload

end communication_center.system
