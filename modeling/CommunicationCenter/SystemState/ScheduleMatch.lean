import CommunicationCenter.SystemState.Schedule

open libc

namespace communication_center.system_state

theorem time_to_minutes_lt (t : Text) : time_to_minutes t < 2 ^ 16 := by
  have hhour := UInt8.toNat_lt ((char_at t 0 - 48) * 10 + (char_at t 1 - 48))
  have hminute := UInt8.toNat_lt ((char_at t 3 - 48) * 10 + (char_at t 4 - 48))
  unfold time_to_minutes
  dsimp only
  omega

/-- The loop of `schedule_is_active` from an index on, with the minutes as
`uint16_t` and the variable behind `out_mode`. -/
def schedule_is_active_from (now : tm) (schedule : List schedule_period_t)
    (out_mode : system_mode_t) (i : Nat) : Bool × system_mode_t :=
  let now_min : UInt16 := now.now_min.toUInt16
  if h : i < schedule.length then
    let start : UInt16 := (time_to_minutes schedule[i].start).toUInt16
    let end_ : UInt16 := (time_to_minutes schedule[i].end_).toUInt16
    if (start ≤ end_ ∧ now_min ≥ start ∧ now_min ≤ end_) ∨
        (start > end_ ∧ (now_min ≥ start ∨ now_min ≤ end_)) then
      (true, schedule[i].mode)
    else schedule_is_active_from now schedule out_mode (i + 1)
  else (false, out_mode)
  termination_by schedule.length - i

theorem minutes_le_iff {a b : Nat} (ha : a < 2 ^ 16) (hb : b < 2 ^ 16) :
    a.toUInt16 ≤ b.toUInt16 ↔ a ≤ b := by
  rw [UInt16.le_iff_toNat_le, UInt16.toNat_ofNat', UInt16.toNat_ofNat', Nat.mod_eq_of_lt ha,
    Nat.mod_eq_of_lt hb]

theorem minutes_lt_iff {a b : Nat} (ha : a < 2 ^ 16) (hb : b < 2 ^ 16) :
    a.toUInt16 < b.toUInt16 ↔ a < b := by
  rw [← UInt16.not_le, minutes_le_iff hb ha, Nat.not_le]

/-- All minutes fit the sixteen bits that they are stored in, so the loop is the
scan of the periods that it has not looked at yet. -/
theorem schedule_is_active_from_eq (now : tm) (schedule : List schedule_period_t)
    (out_mode : system_mode_t) (i : Nat) :
    schedule_is_active_from now schedule out_mode i =
      ((schedule_is_active now (schedule.drop i)).isSome,
        (schedule_is_active now (schedule.drop i)).getD out_mode) := by
  have hnow : now.now_min < 2 ^ 16 := now.now_min_lt.trans (by decide)
  fun_induction schedule_is_active_from now schedule out_mode i with
  | case1 i now_min hi start end_ hinside =>
    have hstart := time_to_minutes_lt schedule[i].start
    have hend := time_to_minutes_lt schedule[i].end_
    simp only [ge_iff_le, gt_iff_lt, now_min, start, end_, minutes_le_iff, minutes_lt_iff, hnow,
      hstart, hend] at hinside
    rw [List.drop_eq_getElem_cons hi, schedule_is_active, if_pos hinside]
    rfl
  | case2 i now_min hi start end_ houtside ih =>
    have hstart := time_to_minutes_lt schedule[i].start
    have hend := time_to_minutes_lt schedule[i].end_
    simp only [ge_iff_le, gt_iff_lt, now_min, start, end_, minutes_le_iff, minutes_lt_iff, hnow,
      hstart, hend] at houtside
    rw [List.drop_eq_getElem_cons hi, schedule_is_active, if_neg houtside, ih]
  | case3 i hi =>
    rw [List.drop_eq_nil_of_le (Nat.le_of_not_lt hi)]
    rfl

/-- On a schedule of valid times, the scan with its output variable reports a match exactly when
some period covers the minute around the clock. It stores the mode of the first such period, and
nothing without one. The schedule may have any length, its periods may overlap and end before they
start, and their modes may be any numbers. -/
theorem schedule_is_active_from_iff {schedule : List schedule_period_t}
    (hvalid : ∀ period ∈ schedule, period.ValidTimes) (now : tm) (out_mode : system_mode_t) :
    ((schedule_is_active_from now schedule out_mode 0).1 = true ↔
      ∃ period ∈ schedule, period.Covers now) ∧
    (∀ period, FirstCovering schedule now period →
      (schedule_is_active_from now schedule out_mode 0).2 = period.mode) ∧
    ((schedule_is_active_from now schedule out_mode 0).1 = false →
      (schedule_is_active_from now schedule out_mode 0).2 = out_mode) := by
  rw [schedule_is_active_from_eq, List.drop_zero]
  refine ⟨?_, ?_, ?_⟩
  · rw [Option.isSome_iff_ne_none, ne_eq, schedule_is_active_eq_none_iff hvalid]
    simp
  · intro period hfirst
    rw [schedule_is_active_of_firstCovering hvalid hfirst]
    rfl
  · intro hinactive
    rw [Option.isSome_eq_false_iff, Option.isNone_iff_eq_none] at hinactive
    rw [hinactive]
    rfl

theorem isTime_hhmm {hour minute : Nat} (hhour : hour < 24) (hminute : minute < 60) :
    IsTime (hhmm hour minute) (hour * 60 + minute) :=
  ⟨hour, hhour, minute, hminute, rfl, rfl⟩

private def night_and_dawn : List schedule_period_t :=
  [⟨hhmm 22 30, hhmm 6 15, 1⟩, ⟨hhmm 5 0, hhmm 5 0, 0⟩]

/-- Two overlapping periods, the first one across midnight: in the minute that both cover, the scan
takes the first. -/
theorem schedule_is_active_from_iff_overlapping :
    ((schedule_is_active_from ⟨5, 0⟩ night_and_dawn 2 0).1 = true ↔
      ∃ period ∈ night_and_dawn, period.Covers ⟨5, 0⟩) ∧
    (∀ period, FirstCovering night_and_dawn ⟨5, 0⟩ period →
      (schedule_is_active_from ⟨5, 0⟩ night_and_dawn 2 0).2 = period.mode) ∧
    ((schedule_is_active_from ⟨5, 0⟩ night_and_dawn 2 0).1 = false →
      (schedule_is_active_from ⟨5, 0⟩ night_and_dawn 2 0).2 = 2) := by
  refine schedule_is_active_from_iff (fun period hperiod => ?_) ⟨5, 0⟩ 2
  rcases List.mem_pair.mp hperiod with rfl | rfl
  · exact ⟨⟨_, isTime_hhmm (by decide) (by decide)⟩, _, isTime_hhmm (by decide) (by decide)⟩
  · exact ⟨⟨_, isTime_hhmm (by decide) (by decide)⟩, _, isTime_hhmm (by decide) (by decide)⟩

end communication_center.system_state
