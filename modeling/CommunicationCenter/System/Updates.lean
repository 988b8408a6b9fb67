import CommunicationCenter.System.Model

open communication_center.system_state

namespace communication_center.system

variable {F : Type}

/-- The clock value that a step reads, if it reads one. -/
def Label.clock : Label F → Option Int
  | .update (.indoor_sensor _ _ _ now_ms) => some now_ms
  | .update (.outdoor_sensor _ _ _ now_ms) => some now_ms
  | .update (.wind_speed _ now_ms) => some now_ms
  | .task (.read_clock now) => some now
  | .request (.get_sensors now) => some now
  | _ => none

/-- The clock value that a step reads for a refresh. -/
def Label.refresh_clock : Label F → Option Int
  | .task (.read_clock now) => some now
  | .request (.get_sensors now) => some now
  | _ => none

/-- The clock value that `sensors_get_handler` reads for its own refresh. -/
def Label.report_clock : Label F → Option Int
  | .request (.get_sensors now) => some now
  | _ => none

/-- The readings, and the clock value, that a step writes for one source. -/
def Label.indoor_update : Label F → Option (Climate F × Int)
  | .update (.indoor_sensor temp humidity aq now_ms) => some ({ temp, humidity, aq }, now_ms)
  | _ => none

def Label.outdoor_update : Label F → Option (Climate F × Int)
  | .update (.outdoor_sensor temp humidity aq now_ms) => some ({ temp, humidity, aq }, now_ms)
  | _ => none

def Label.wind_update : Label F → Option (F × Int)
  | .update (.wind_speed speed now_ms) => some (speed, now_ms)
  | _ => none

theorem no_updates {label : Label F} (h : ∀ u, label ≠ .update u) :
    label.indoor_update = none ∧ label.outdoor_update = none ∧ label.wind_update = none := by
  cases label with
  | update u => exact absurd rfl (h u)
  | task => exact ⟨rfl, rfl, rfl⟩
  | request => exact ⟨rfl, rfl, rfl⟩
  | handler => exact ⟨rfl, rfl, rfl⟩

/-- The clock value written with an update is the one that the step read. -/
theorem clock_of_update {label : Label F} {stamp : Int} :
    (∀ climate, label.indoor_update = some (climate, stamp) → label.clock = some stamp) ∧
      (∀ climate, label.outdoor_update = some (climate, stamp) → label.clock = some stamp) ∧
      ∀ speed, label.wind_update = some (speed, stamp) → label.clock = some stamp := by
  cases label with
  | update u =>
    cases u <;> simp [Label.indoor_update, Label.outdoor_update, Label.wind_update, Label.clock]
  | task => simp [Label.indoor_update, Label.outdoor_update, Label.wind_update]
  | request => simp [Label.indoor_update, Label.outdoor_update, Label.wind_update]
  | handler => simp [Label.indoor_update, Label.outdoor_update, Label.wind_update]

end communication_center.system
