import CommunicationCenter.Selection.FirstMatch
import CommunicationCenter.SystemState.ScheduleMatch
import Mathlib.Data.List.Pairwise

open libc

namespace communication_center.system_state

/-- The condition of the loop in `schedule_is_active`. -/
def contains_minute (now : tm) (period : schedule_period_t) : Bool :=
  let start := time_to_minutes period.start
  let end_ := time_to_minutes period.end_
  (start ≤ end_ ∧ now.now_min ≥ start ∧ now.now_min ≤ end_) ∨
    (start > end_ ∧ (now.now_min ≥ start ∨ now.now_min ≤ end_))

theorem schedule_is_active_eq_first_match (now : tm) (schedule : List schedule_period_t) :
    schedule_is_active now schedule =
      selection.first_match (contains_minute now) schedule_period_t.mode schedule := by
  induction schedule with
  | nil => rfl
  | cons period schedule ih =>
    cases hinside : contains_minute now period with
    | true =>
      rw [selection.first_match_cons_of_pos hinside, schedule_is_active,
        if_pos (of_decide_eq_true hinside)]
    | false =>
      rw [selection.first_match_cons_of_neg hinside, schedule_is_active,
        if_neg (of_decide_eq_false hinside), ih]

theorem contains_minute_iff {period : schedule_period_t} (h : period.ValidTimes) (now : tm) :
    contains_minute now period = true ↔ period.Covers now := by
  rw [covers_iff h, contains_minute]
  exact decide_eq_true_iff

/-- The current minute lies in the period without the minute at which it ends. -/
def schedule_period_t.Inside (period : schedule_period_t) (now : tm) : Prop :=
  ∃ first last, IsTime period.start first ∧ IsTime period.end_ last ∧
    cyclic.HalfOpen 1440 first last now.now_min

def schedule_period_t.EndsAt (period : schedule_period_t) (now : tm) : Prop :=
  IsTime period.end_ now.now_min

/-- As half-open intervals the periods have no minute in common. -/
def schedule_period_t.Disjoint (period other : schedule_period_t) : Prop :=
  ∀ now, ¬(period.Inside now ∧ other.Inside now)

instance : Std.Symm schedule_period_t.Disjoint where
  symm := fun _ _ h now hboth => h now hboth.symm

/-- The minute at which a period ends belongs to it, as well as the minutes inside, which begin
with the one at which it starts. -/
theorem covers_iff_inside {period : schedule_period_t} (h : period.ValidTimes) (now : tm) :
    period.Covers now ↔ period.Inside now ∨ period.EndsAt now := by
  obtain ⟨⟨first, hfirst⟩, last, hlast⟩ := h
  constructor
  · rintro ⟨first', last', hfirst', hlast', hin⟩
    rcases (cyclic.between_iff_halfOpen hfirst'.lt hlast'.lt).mp hin with hinside | hends
    · exact Or.inl ⟨first', last', hfirst', hlast', hinside⟩
    · right
      rwa [schedule_period_t.EndsAt, hends]
  · rintro (⟨first', last', hfirst', hlast', hinside⟩ | hends)
    · have hin := (cyclic.between_iff_halfOpen hfirst'.lt hlast'.lt).mpr (Or.inl hinside)
      exact ⟨first', last', hfirst', hlast', hin⟩
    · have hin := (cyclic.between_iff_halfOpen hfirst.lt hends.lt).mpr (Or.inr rfl)
      exact ⟨first, now.now_min, hfirst, hends, hin⟩

/-- Two disjoint periods share a minute only where one of them ends: as half-open intervals they
have none in common. -/
theorem endsAt_of_shared {period other : schedule_period_t} (hperiod : period.ValidTimes)
    (hother : other.ValidTimes) (hdisjoint : period.Disjoint other) {now : tm}
    (hcovers : period.Covers now) (hcovers' : other.Covers now) :
    period.EndsAt now ∨ other.EndsAt now := by
  rcases (covers_iff_inside hperiod now).mp hcovers with hinside | hends
  · rcases (covers_iff_inside hother now).mp hcovers' with hinside' | hends'
    · exact absurd ⟨hinside, hinside'⟩ (hdisjoint now)
    · exact Or.inr hends'
  · exact Or.inl hends

/-- At the current minute one period ends while a period of another mode contains
it. -/
def ContestedEnd (schedule : List schedule_period_t) (now : tm) : Prop :=
  ∃ period ∈ schedule, ∃ other ∈ schedule,
    period.EndsAt now ∧ other.Covers now ∧ period.mode ≠ other.mode

/-- For periods that are disjoint as half-open intervals, the order decides nothing about the
activity. It decides the mode at contested ends, and nowhere else. The times are valid ones, and a
period may reach over midnight; no other assumption is made about the schedule or the minute. -/
theorem schedule_is_active_perm {schedule : List schedule_period_t}
    (hvalid : ∀ period ∈ schedule, period.ValidTimes)
    (hdisjoint : schedule.Pairwise schedule_period_t.Disjoint) (now : tm) :
    (∀ schedule' : List schedule_period_t, schedule'.Perm schedule →
      (schedule_is_active now schedule').isSome = (schedule_is_active now schedule).isSome) ∧
    ((∀ schedule' : List schedule_period_t, schedule'.Perm schedule →
      schedule_is_active now schedule' = schedule_is_active now schedule) ↔
        ¬ ContestedEnd schedule now) := by
  simp only [schedule_is_active_eq_first_match]
  refine ⟨fun schedule' hperm => selection.first_match_isSome_perm hperm, ?_⟩
  rw [selection.first_match_perm_iff]
  constructor
  · rintro hone ⟨period, hperiod, other, hother, hends, hcovers, hmode⟩
    have hperiodCovers := (covers_iff_inside (hvalid period hperiod) now).mpr (Or.inr hends)
    exact hmode (hone period hperiod ((contains_minute_iff (hvalid period hperiod) now).mpr hperiodCovers)
      other hother ((contains_minute_iff (hvalid other hother) now).mpr hcovers))
  · intro hcontested period hperiod hin other hother hin'
    by_contra hmode
    have hcovers := (contains_minute_iff (hvalid period hperiod) now).mp hin
    have hcovers' := (contains_minute_iff (hvalid other hother) now).mp hin'
    have hpair := hdisjoint.forall hperiod hother
      fun heq => hmode (congrArg schedule_period_t.mode heq)
    rcases endsAt_of_shared (hvalid period hperiod) (hvalid other hother) hpair hcovers hcovers'
      with hends | hends
    · exact hcontested ⟨period, hperiod, other, hother, hends, hcovers', hmode⟩
    · exact hcontested ⟨other, hother, period, hperiod, hends, hcovers, Ne.symm hmode⟩

theorem IsTime.hhmm_eq {hour minute minutes : Nat} (hhour : hour < 24) (hminute : minute < 60)
    (h : IsTime (hhmm hour minute) minutes) : minutes = hour * 60 + minute := by
  rw [← time_to_minutes_of_isTime h, time_to_minutes_of_isTime (isTime_hhmm hhour hminute)]

/-- Two periods of one day, the second one from the end of the first one on. -/
private def back_to_back : List schedule_period_t :=
  [⟨hhmm 8 0, hhmm 18 0, 0⟩, ⟨hhmm 18 0, hhmm 23 0, 1⟩]

theorem back_to_back_valid : ∀ period ∈ back_to_back, period.ValidTimes := by
  intro period hperiod
  rcases List.mem_pair.mp hperiod with rfl | rfl
  · exact ⟨⟨_, isTime_hhmm (by decide) (by decide)⟩, _, isTime_hhmm (by decide) (by decide)⟩
  · exact ⟨⟨_, isTime_hhmm (by decide) (by decide)⟩, _, isTime_hhmm (by decide) (by decide)⟩

theorem back_to_back_disjoint : back_to_back.Pairwise schedule_period_t.Disjoint := by
  apply List.pairwise_pair.mpr
  rintro now ⟨⟨first, last, hfirst, hlast, k, hk, hnow⟩, first', last', hfirst', hlast', k', hk', hnow'⟩
  rw [hfirst.hhmm_eq (by decide) (by decide), hlast.hhmm_eq (by decide) (by decide)] at hk
  rw [hfirst.hhmm_eq (by decide) (by decide)] at hnow
  rw [hfirst'.hhmm_eq (by decide) (by decide), hlast'.hhmm_eq (by decide) (by decide)] at hk'
  rw [hfirst'.hhmm_eq (by decide) (by decide)] at hnow'
  omega

/-- One of the two orders is active in the other mode at the shared minute. -/
theorem back_to_back_order :
    ¬ ∀ schedule schedule' : List schedule_period_t,
      (∀ period ∈ schedule, period.ValidTimes) → schedule.Pairwise schedule_period_t.Disjoint →
      schedule'.Perm schedule → ∀ now : tm,
        schedule_is_active now schedule' = schedule_is_active now schedule := by
  intro hall
  have hswapped := hall back_to_back [⟨hhmm 18 0, hhmm 23 0, 1⟩, ⟨hhmm 8 0, hhmm 18 0, 0⟩]
    back_to_back_valid back_to_back_disjoint (List.Perm.swap _ _ _) ⟨18, 0⟩
  exact absurd hswapped (by decide)

theorem schedule_is_active_perm_back_to_back :
    (∀ schedule' : List schedule_period_t, schedule'.Perm back_to_back →
      (schedule_is_active ⟨18, 0⟩ schedule').isSome =
        (schedule_is_active ⟨18, 0⟩ back_to_back).isSome) ∧
    ((∀ schedule' : List schedule_period_t, schedule'.Perm back_to_back →
      schedule_is_active ⟨18, 0⟩ schedule' = schedule_is_active ⟨18, 0⟩ back_to_back) ↔
        ¬ ContestedEnd back_to_back ⟨18, 0⟩) :=
  schedule_is_active_perm back_to_back_valid back_to_back_disjoint ⟨18, 0⟩

end communication_center.system_state
