import CommunicationCenter.HttpServer.ActuatorsBody
import CommunicationCenter.HttpServer.PeriodObjects

open libc communication_center.system_state

namespace communication_center.http_server

/-- A body with period objects is parsed into the periods written in the scanned
order, as many as there is room for. -/
theorem schedule_post_parse_written {opening closing : Text} {written : List WrittenPeriod}
    (h : Envelope written.length opening closing)
    (hlength : (opening ++ written_text written closing).length < 512) :
    schedule_post_parse (.delivered (opening ++ written_text written closing)) =
      .ok (some (.ok ((scanned_periods written).take MAX_PERIODS))) := by
  obtain ⟨hopening, hclosing⟩ := h.zero_notMem
  have hzero : (0 : UInt8) ∉ opening ++ written_text written closing :=
    List.mem_append.not.mpr (not_or.mpr ⟨hopening, zero_notMem_written_text hclosing⟩)
  obtain ⟨starts, hstarts, hclosed, hperiods⟩ := object_starts_written_text written closing
  obtain ⟨hopen, hend⟩ := h.object_starts (written_text written closing)
  have hbody : object_starts false (opening ++ written_text written closing) = starts := by
    rw [hopen, hstarts, hend, List.append_nil]
  rw [schedule_post_parse_of_closed (h.length_pos rfl) hlength hzero (hbody ▸ hclosed), hbody, hperiods]

variable {F : Type}

/-- In every state, two bodies with the same period objects store the same schedule
exactly when they are too long or the same periods are written in the scanned order,
as many as there is room for. -/
theorem schedule_order_iff {opening closing : Text} {first second : List WrittenPeriod}
    (henvelope : Envelope first.length opening closing)
    (hobjects : first.map WrittenPeriod.object = second.map WrittenPeriod.object) (s : State F) :
    (schedule_post_handler (.delivered (opening ++ written_text first closing)) s).map
          (fun outcome => outcome.state.schedule) =
        (schedule_post_handler (.delivered (opening ++ written_text second closing)) s).map
          (fun outcome => outcome.state.schedule) ↔
      512 ≤ (opening ++ written_text first closing).length ∨
        (scanned_periods first).take MAX_PERIODS = (scanned_periods second).take MAX_PERIODS := by
  have hlength : (opening ++ written_text first closing).length =
      (opening ++ written_text second closing).length := by
    simp [length_written_text hobjects]
  by_cases hlong : 512 ≤ (opening ++ written_text first closing).length
  · rw [schedule_post_handler_refused (Or.inr hlong),
      schedule_post_handler_refused (Or.inr (hlength ▸ hlong))]
    exact iff_of_true rfl (Or.inl hlong)
  · have hcount : first.length = second.length := by
      simpa using congrArg List.length hobjects
    obtain ⟨outcome, houtcome, _, hstored⟩ := schedule_post_handler_of_parse
      (schedule_post_parse_written henvelope (by omega)) s
    obtain ⟨other, hother, _, hstored'⟩ := schedule_post_handler_of_parse
      (schedule_post_parse_written (hcount ▸ henvelope) (by omega)) s
    rw [houtcome, hother, Option.map_some, Option.map_some, Option.some.injEq, hstored, hstored',
      or_iff_right hlong]

/-- In every state and for every assignment of integers to the actuators, two orders of the members
have the same outcome exactly when the body is too long or both or neither of them are the scanned
order. For every list of period objects, two bodies that order their members store the same
schedule exactly when they are too long or the same periods are written in the scanned order, as
many as there is room for. White space may stand between any two tokens, and the integers need not
be ones that the handlers accept. -/
theorem member_order_iff :
    (∀ (b : ActuatorsObject) (first second : List BodyMember), first.Perm b.members →
      second.Perm b.members → ∀ (global_client : Bool) (now : tm) (s : State F),
      (actuators_post_handler global_client now (.delivered (b.text first)) s =
          actuators_post_handler global_client now (.delivered (b.text second)) s ↔
        128 ≤ (b.text b.members).length ∨
          (first.map BodyMember.key = actuator_keys ↔
            second.map BodyMember.key = actuator_keys))) ∧
    ∀ (opening closing : Text) (first second : List WrittenPeriod),
      Envelope first.length opening closing →
      first.map WrittenPeriod.object = second.map WrittenPeriod.object → ∀ s : State F,
      ((schedule_post_handler (.delivered (opening ++ written_text first closing)) s).map
            (fun outcome => outcome.state.schedule) =
          (schedule_post_handler (.delivered (opening ++ written_text second closing)) s).map
            (fun outcome => outcome.state.schedule) ↔
        512 ≤ (opening ++ written_text first closing).length ∨
          (scanned_periods first).take MAX_PERIODS = (scanned_periods second).take MAX_PERIODS) :=
  ⟨fun b _ _ => actuators_order_iff b, fun _ _ _ _ => schedule_order_iff⟩

private def compact {key value : Text} (hkey : (34 : UInt8) ∉ key) (hvalue : IsValue value) :
    BodyMember where
  before := []
  key := key
  beforeColon := []
  afterColon := []
  value := value
  after := []
  blanks := by simp
  unquoted := hkey
  isValue := hvalue

private theorem intText_zero : IntText [48] 0 :=
  ⟨[], false, [48], .none, by simp, by simp [isdigit], rfl, by decide⟩

private def zero (key : Text) (hkey : (34 : UInt8) ∉ key) : BodyMember :=
  compact hkey (.inr ⟨0, intText_zero⟩)

private def all_closed : ActuatorsObject where
  request := { new_window := 0, new_fan := 0, new_door := 0, new_absorber := 0 }
  front := []
  window := zero (ascii "window") (by decide)
  fan := zero (ascii "fan") (by decide)
  door := zero (ascii "door") (by decide)
  absorber := zero (ascii "absorber") (by decide)
  back := []
  blanks := by simp
  keys := rfl
  window_value := intText_zero
  fan_value := intText_zero
  door_value := intText_zero
  absorber_value := intText_zero

private def morning : schedule_period_t where
  start := ascii "08:00"
  end_ := ascii "12:00"
  mode := MODE_AUTO_BEST

private theorem morning_times : TimeText morning.start ∧ TimeText morning.end_ :=
  ⟨⟨48, 56, 48, 48, by decide⟩, ⟨49, 50, 48, 48, by decide⟩⟩

private def time_member (key time : Text) (hkey : (34 : UInt8) ∉ key) (htime : TimeText time) :
    BodyMember :=
  compact hkey (.inl ⟨time, (quotedField_of_timeText htime).unquoted, rfl⟩)

private def morning_object : PeriodObject where
  period := morning
  front := []
  start := time_member (ascii "start") morning.start (by decide) morning_times.1
  end_ := time_member (ascii "end") morning.end_ (by decide) morning_times.2
  mode := zero (ascii "mode") (by decide)
  back := []
  blanks := by simp
  keys := rfl
  start_value := rfl
  end_value := rfl
  times := morning_times
  mode_value := intText_zero

private def start_first : WrittenPeriod where
  object := morning_object
  order := morning_object.members
  permuted := .refl _

private def mode_first : WrittenPeriod where
  object := morning_object
  order := [morning_object.mode, morning_object.start, morning_object.end_]
  permuted := (List.Perm.swap _ _ _).trans ((List.Perm.swap _ _ _).cons _)

/-- The order of the documented body, with the door behind it, is refused, and a
period whose mode comes first is left out. -/
theorem member_order_matters :
    (¬ ∀ (b : ActuatorsObject) (order : List BodyMember), order.Perm b.members →
      ∀ (global_client : Bool) (now : tm) (s : State Binary32),
      actuators_post_handler global_client now (.delivered (b.text order)) s =
        actuators_post_handler global_client now (.delivered (b.text b.members)) s) ∧
    ¬ ∀ (opening closing : Text) (first second : List WrittenPeriod),
      Envelope first.length opening closing →
      first.map WrittenPeriod.object = second.map WrittenPeriod.object → ∀ s : State Binary32,
      (schedule_post_handler (.delivered (opening ++ written_text first closing)) s).map
          (fun outcome => outcome.state.schedule) =
        (schedule_post_handler (.delivered (opening ++ written_text second closing)) s).map
          (fun outcome => outcome.state.schedule) := by
  constructor
  · intro h
    have hperm : [all_closed.fan, all_closed.window, all_closed.absorber, all_closed.door].Perm
        all_closed.members :=
      (List.Perm.swap _ _ _).trans (((List.Perm.swap _ _ _).cons _).cons _)
    have hsame := (actuators_order_iff all_closed hperm (.refl _) true ⟨12, 30⟩
      State.initial).mp (h all_closed _ hperm true ⟨12, 30⟩ State.initial)
    exact absurd hsame (by decide +kernel)
  · intro h
    have henvelope : Envelope [start_first].length [] [] := .single (by simp)
    have hobjects : [start_first].map WrittenPeriod.object = [mode_first].map WrittenPeriod.object := rfl
    have hsame := (schedule_order_iff henvelope hobjects State.initial).mp
      (h [] [] [start_first] [mode_first] henvelope hobjects State.initial)
    exact absurd hsame (by decide +kernel)

end communication_center.http_server
