import CommunicationCenter.Cyclic.Interval
import CommunicationCenter.SystemState.State

open libc

namespace communication_center.system_state

/-- The fields of the broken-down local time that are read. -/
structure tm where
  tm_hour : Fin 24
  tm_min : Fin 60
  deriving DecidableEq

def tm.now_min (now : tm) : Nat :=
  now.tm_hour * 60 + now.tm_min

theorem tm.now_min_lt (now : tm) : now.now_min < 1440 := by
  have hhour := now.tm_hour.isLt
  have hmin := now.tm_min.isLt
  unfold now_min
  omega

/-- Bytes behind a short time text are the zeros that `strncpy` padded it with. -/
def char_at (t : Text) (i : Nat) : UInt8 :=
  t.getD i 0

/-- Hours and minutes are computed in `uint8_t`; their sum in minutes cannot
exceed a `uint16_t`. -/
def time_to_minutes (t : Text) : Nat :=
  let hh : UInt8 := (char_at t 0 - 48) * 10 + (char_at t 1 - 48)
  let mm : UInt8 := (char_at t 3 - 48) * 10 + (char_at t 4 - 48)
  hh.toNat * 60 + mm.toNat

/-- The mode of the first period that contains the current minute; `none` is the
result false, which leaves `*out_mode` unchanged. -/
def schedule_is_active (now : tm) : List schedule_period_t → Option system_mode_t
  | [] => none
  | period :: schedule =>
    let now_min := now.now_min
    let start := time_to_minutes period.start
    let end_ := time_to_minutes period.end_
    if (start ≤ end_ ∧ now_min ≥ start ∧ now_min ≤ end_) ∨
        (start > end_ ∧ (now_min ≥ start ∨ now_min ≤ end_)) then
      some period.mode
    else schedule_is_active now schedule

structure ControlFlags where
  schedule_configured : Bool
  schedule_active : Bool
  schedule_holding_state : Bool
  manual_control_allowed : Bool
  deriving DecidableEq

variable {F : Type}

def system_state_get_control_flags_locked (now : tm) (s : State F) : ControlFlags :=
  let has_schedule := s.schedule.length > 0
  let manual_allowed := s.current_mode = MODE_MANUAL
  if ¬manual_allowed ∧ has_schedule then
    let active := (schedule_is_active now s.schedule).isSome
    { schedule_configured := has_schedule
      schedule_active := active
      schedule_holding_state := !active
      manual_control_allowed := !active }
  else
    { schedule_configured := has_schedule
      schedule_active := false
      schedule_holding_state := false
      manual_control_allowed := manual_allowed }

/-- The text `HH:MM` of a minute of the day. -/
def hhmm (hour minute : Nat) : Text :=
  [(48 + hour / 10).toUInt8, (48 + hour % 10).toUInt8, 58,
    (48 + minute / 10).toUInt8, (48 + minute % 10).toUInt8]

def IsTime (text : Text) (minutes : Nat) : Prop :=
  ∃ hour < 24, ∃ minute < 60, text = hhmm hour minute ∧ minutes = hour * 60 + minute

def schedule_period_t.ValidTimes (period : schedule_period_t) : Prop :=
  (∃ first, IsTime period.start first) ∧ ∃ last, IsTime period.end_ last

/-- The current minute lies in the period, which runs from its start to its end
around the clock. -/
def schedule_period_t.Covers (period : schedule_period_t) (now : tm) : Prop :=
  ∃ first last, IsTime period.start first ∧ IsTime period.end_ last ∧
    cyclic.Between 1440 first last now.now_min

/-- The first period in list order that contains the current minute. -/
def FirstCovering (schedule : List schedule_period_t) (now : tm) (period : schedule_period_t) :
    Prop :=
  ∃ before after, schedule = before ++ period :: after ∧ period.Covers now ∧
    ∀ earlier ∈ before, ¬ earlier.Covers now

private theorem time_byte (d : Fin 10) : (48 + d.val).toUInt8 - 48 = d.val.toUInt8 := by
  revert d
  decide

private theorem two_digits (tens : Fin 6) (ones : Fin 10) :
    (tens.val.toUInt8 * 10 + ones.val.toUInt8).toNat = tens.val * 10 + ones.val := by
  revert tens ones
  decide

theorem time_to_minutes_of_isTime {text : Text} {minutes : Nat} (h : IsTime text minutes) :
    time_to_minutes text = minutes := by
  obtain ⟨hour, hhour, minute, hminute, rfl, rfl⟩ := h
  have htwo (n : Nat) (hn : n < 60) :
      (((48 + n / 10).toUInt8 - 48) * 10 + ((48 + n % 10).toUInt8 - 48)).toNat = n := by
    have htens := time_byte ⟨n / 10, by omega⟩
    have hones := time_byte ⟨n % 10, by omega⟩
    have hsum := two_digits ⟨n / 10, by omega⟩ ⟨n % 10, by omega⟩
    simp only at htens hones hsum
    rw [htens, hones, hsum]
    omega
  simp only [time_to_minutes, char_at, hhmm, List.getD_cons_zero, List.getD_cons_succ]
  rw [htwo hour (by omega), htwo minute hminute]

theorem IsTime.lt {text : Text} {minutes : Nat} (h : IsTime text minutes) : minutes < 1440 := by
  obtain ⟨hour, hhour, minute, hminute, _, rfl⟩ := h
  omega

/-- On valid times the comparison of the source decides cyclic membership, with both ends in the
period and with periods across midnight. -/
theorem covers_iff {period : schedule_period_t} (h : period.ValidTimes) (now : tm) :
    period.Covers now ↔
      (time_to_minutes period.start ≤ time_to_minutes period.end_ ∧
          now.now_min ≥ time_to_minutes period.start ∧
          now.now_min ≤ time_to_minutes period.end_) ∨
        (time_to_minutes period.start > time_to_minutes period.end_ ∧
          (now.now_min ≥ time_to_minutes period.start ∨
            now.now_min ≤ time_to_minutes period.end_)) := by
  obtain ⟨⟨first, hfirst⟩, last, hlast⟩ := h
  have hbetween := cyclic.between_iff hfirst.lt hlast.lt now.now_min_lt
  rw [time_to_minutes_of_isTime hfirst, time_to_minutes_of_isTime hlast]
  constructor
  · rintro ⟨first', last', hfirst', hlast', hin⟩
    rw [← time_to_minutes_of_isTime hfirst', time_to_minutes_of_isTime hfirst,
      ← time_to_minutes_of_isTime hlast', time_to_minutes_of_isTime hlast] at hin
    exact hbetween.mp hin
  · intro hin
    exact ⟨first, last, hfirst, hlast, hbetween.mpr hin⟩

/-- On valid times the scan returns the mode of the first covering period, whatever periods come
behind it. -/
theorem schedule_is_active_of_firstCovering {schedule : List schedule_period_t} {now : tm}
    {period : schedule_period_t} (hvalid : ∀ p ∈ schedule, p.ValidTimes)
    (h : FirstCovering schedule now period) :
    schedule_is_active now schedule = some period.mode := by
  obtain ⟨before, after, rfl, hcovers, hbefore⟩ := h
  induction before with
  | nil =>
    have hperiod := covers_iff (hvalid period (by simp)) now
    rw [List.nil_append, schedule_is_active, if_pos (hperiod.mp hcovers)]
  | cons earlier before ih =>
    have hearlier := covers_iff (hvalid earlier (by simp)) now
    rw [List.cons_append, schedule_is_active,
      if_neg fun h => hbefore earlier (by simp) (hearlier.mpr h)]
    exact ih (fun p hp => hvalid p (List.mem_cons_of_mem _ hp))
      fun p hp => hbefore p (List.mem_cons_of_mem _ hp)

/-- On valid times the scan finds nothing exactly when no period covers the
current minute. -/
theorem schedule_is_active_eq_none_iff {schedule : List schedule_period_t}
    (hvalid : ∀ period ∈ schedule, period.ValidTimes) (now : tm) :
    schedule_is_active now schedule = none ↔ ∀ period ∈ schedule, ¬ period.Covers now := by
  induction schedule with
  | nil => simp [schedule_is_active]
  | cons period schedule ih =>
    have hperiod := covers_iff (hvalid period (by simp)) now
    have hrest := ih fun p hp => hvalid p (List.mem_cons_of_mem _ hp)
    by_cases hcovers : period.Covers now
    · rw [schedule_is_active, if_pos (hperiod.mp hcovers)]
      simp [hcovers]
    · rw [schedule_is_active, if_neg fun h => hcovers (hperiod.mpr h), hrest]
      simp [hcovers]

/-- Among the periods that cover the current minute there is a first one, if there is any. -/
theorem exists_firstCovering {schedule : List schedule_period_t} {now : tm}
    (h : ∃ period ∈ schedule, period.Covers now) : ∃ period, FirstCovering schedule now period := by
  induction schedule with
  | nil => simp at h
  | cons period schedule ih =>
    by_cases hcovers : period.Covers now
    · exact ⟨period, [], schedule, rfl, hcovers, by simp⟩
    · obtain ⟨found, before, after, rfl, hfound, hbefore⟩ := ih (by simpa [hcovers] using h)
      exact ⟨found, period :: before, after, rfl, hfound, by simpa [hcovers] using hbefore⟩

theorem schedule_is_active_eq_some_iff {schedule : List schedule_period_t}
    (hvalid : ∀ period ∈ schedule, period.ValidTimes) {now : tm} {mode : system_mode_t} :
    schedule_is_active now schedule = some mode ↔
      ∃ period, FirstCovering schedule now period ∧ period.mode = mode := by
  constructor
  · intro hactive
    have hcovering : ∃ period, FirstCovering schedule now period := by
      apply exists_firstCovering
      by_contra hnone
      simp only [not_exists, not_and] at hnone
      rw [(schedule_is_active_eq_none_iff hvalid now).mpr hnone] at hactive
      cases hactive
    obtain ⟨period, hfirst⟩ := hcovering
    rw [schedule_is_active_of_firstCovering hvalid hfirst] at hactive
    exact ⟨period, hfirst, Option.some.inj hactive⟩
  · rintro ⟨period, hfirst, rfl⟩
    exact schedule_is_active_of_firstCovering hvalid hfirst

end communication_center.system_state
