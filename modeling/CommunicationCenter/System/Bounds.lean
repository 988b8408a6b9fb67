import CommunicationCenter.System.ScheduleListing
import CommunicationCenter.SystemState.ScheduleOrder

open libc transition communication_center.system_state communication_center.http_server

namespace communication_center.system

variable {F : Type}

/-- The stored periods fit the array, and they and the mode their types. -/
structure Bounded (s : State F) : Prop where
  count : s.schedule.length ≤ MAX_PERIODS
  periods : ∀ period ∈ s.schedule, Listable period
  mode_min : INT_MIN ≤ s.current_mode
  mode_max : s.current_mode ≤ INT_MAX

/-- The mode that governs a tick is the current one or that of a stored period. -/
theorem governing_mode_bounds {now : tm} {s : State F} {mode : system_mode_t} (hs : Bounded s)
    (h : governing_mode now s = some mode) : INT_MIN ≤ mode ∧ mode ≤ INT_MAX := by
  unfold governing_mode at h
  split at h
  · cases h
  · split at h
    · rw [schedule_is_active_eq_first_match] at h
      obtain ⟨period, hperiod, _, rfl⟩ := selection.exists_of_first_match h
      exact ⟨(hs.periods period hperiod).mode_min, (hs.periods period hperiod).mode_max⟩
    · obtain rfl := Option.some.inj h
      exact ⟨hs.mode_min, hs.mode_max⟩

theorem mode_after_bounds [CFloat F] {s : State F} (hs : Bounded s) (label : Label F) :
    INT_MIN ≤ mode_after s label ∧ mode_after s label ≤ INT_MAX := by
  have hkept := And.intro hs.mode_min hs.mode_max
  unfold mode_after
  split
  · next now =>
    cases hgoverning : governing_mode now s with
    | none => exact hkept
    | some mode => exact governing_mode_bounds hs hgoverning
  · next req =>
    cases hparse : mode_post_parse req with
    | error e => exact hkept
    | ok new_mode =>
      obtain ⟨hmin, hmax⟩ := mode_post_parse_range hparse
      have hint : INT_MIN ≤ 0 ∧ 2 ≤ INT_MAX := by decide
      exact ⟨hint.1.trans hmin, hmax.trans hint.2⟩
  · exact hkept

theorem collected_periods_bounded {req : httpd_req_t} {periods : List schedule_period_t}
    (h : schedule_post_parse req = .ok (some (.ok periods))) :
    periods.length ≤ MAX_PERIODS ∧ ∀ period ∈ periods, Listable period := by
  obtain ⟨hcount, text, _, hmem⟩ := schedule_post_parse_collected h
  exact ⟨hcount, fun period hperiod => (collected_period ((hmem period).mp hperiod)).2⟩

theorem bounded_initial [CFloat F] : Bounded (State.initial : State F) where
  count := Nat.zero_le _
  periods := by
    intro period hperiod
    cases hperiod
  mode_min := (by decide : INT_MIN ≤ MODE_MANUAL)
  mode_max := (by decide : MODE_MANUAL ≤ INT_MAX)

theorem bounded_step [CFloat F] {sys next : System F} {label : Label F} {emitted : List (Event F)}
    (hs : Bounded sys.shared) (hstep : step sys label = some (next, emitted)) :
    Bounded next.shared := by
  have hmode := mode_after_bounds hs label
  rw [← mode_step hstep] at hmode
  rcases schedule_step hstep with hkept | ⟨req, periods, rfl, hparse, hstored⟩
  · exact ⟨hkept ▸ hs.count, hkept ▸ hs.periods, hmode.1, hmode.2⟩
  · obtain ⟨hcount, hlistable⟩ := collected_periods_bounded hparse
    exact ⟨hstored ▸ hcount, hstored ▸ hlistable, hmode.1, hmode.2⟩

theorem bounded_everyState [CFloat F] (labels : List (Label F)) :
    EveryState step System.initial labels fun _ sys _ => Bounded sys.shared :=
  everyState_of_step bounded_initial (fun _ _ _ _ _ _ hs hstep => bounded_step hs hstep) labels

end communication_center.system
