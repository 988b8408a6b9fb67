import CommunicationCenter.System.Model

open communication_center.system_state

namespace communication_center.system

/-- The values that a task has captured and not yet published. -/
def SystemTask.pending : SystemTask → Option Actuators
  | .publish captured => some captured
  | _ => none

def HttpTask.pending : HttpTask → Option Actuators
  | .actuators_status captured _ => some captured
  | .actuators_publish captured => some captured
  | _ => none

variable {F : Type}

/-- The arguments of the calls of `publish_state`, in order. -/
def calls (events : List (Event F)) : List Actuators :=
  events.filterMap fun event => match event with
    | .publish_call q => some q
    | _ => none

/-- The messages handed to the MQTT client, in order. -/
def messages (events : List (Event F)) : List Message :=
  events.filterMap fun event => match event with
    | .sent message => some message
    | _ => none

@[simp] theorem calls_nil : calls ([] : List (Event F)) = [] := rfl

@[simp] theorem messages_nil : messages ([] : List (Event F)) = [] := rfl

@[simp] theorem calls_append (first second : List (Event F)) :
    calls (first ++ second) = calls first ++ calls second :=
  List.filterMap_append

@[simp] theorem messages_append (first second : List (Event F)) :
    messages (first ++ second) = messages first ++ messages second :=
  List.filterMap_append

@[simp] theorem calls_response (r : Response F) : calls [.response r] = [] := rfl

@[simp] theorem messages_response (r : Response F) : messages [.response r] = [] := rfl

@[simp] theorem calls_publish_events (q : Actuators) (s : State F) :
    calls (publish_events q s) = [q] := by
  have hnone (sent : List Message) : calls (sent.map (Event.sent (F := F))) = [] := by
    simp [calls]
  exact congrArg (q :: ·) (hnone _)

@[simp] theorem messages_publish_events (q : Actuators) (s : State F) :
    messages (publish_events q s) = (publish_state true q s).2 := by
  have hall (sent : List Message) : messages (sent.map (Event.sent (F := F))) = sent := by
    simp [messages, List.filterMap_map]
  exact hall _

end communication_center.system
