import CommunicationCenter.HttpServer.Request
import CommunicationCenter.Libc.Scanf
import CommunicationCenter.Libc.Search
import CommunicationCenter.SystemState.State

open libc communication_center.system_state

namespace communication_center.http_server

/-- The ways in which the parsing loop could leave its memory. -/
inductive Fault where
  | nullPointer
  | pastTerminator
  | localOverflow
  deriving DecidableEq

def start_key : Text := ascii "\"start\""

/-- The byte that closes a period object. -/
def brace : UInt8 := 125

def scan_period (p : Text) : Option schedule_period_t :=
  match sscanf p "\"start\" : \"%5[^\"]\" , \"end\" : \"%5[^\"]\" , \"mode\" : %d" with
  | [.text start, .text end_, .int mode] => some { start, end_, mode }
  | _ => none

/-- Write behind the periods that `local` already holds. -/
def store_local (periods : List schedule_period_t) (period : schedule_period_t) :
    Except Fault (List schedule_period_t) :=
  if periods.length < MAX_PERIODS then .ok (periods ++ [period]) else .error .localOverflow

/-- The part of the loop body that scans at the key and stores the period. -/
def collect_period (p : Text) (periods : List schedule_period_t) :
    Except Fault (List schedule_period_t) :=
  match scan_period p with
  | some period => store_local periods period
  | none => .ok periods

/-- The part of the loop body that moves the cursor behind the next closing
brace; `none` is the NULL that `strchr` returns without one. -/
def skip_object (p : Text) : Except Fault (Option Text) :=
  match next_char p with
  | none => .error .pastTerminator
  | some p =>
    match strchr brace p with
    | none => .ok none
    | some p =>
      match next_char p with
      | none => .error .pastTerminator
      | some p => .ok (some p)

/-- One evaluation of the loop condition and, if it holds, of the loop body. The
result `none` leaves the loop; otherwise it is the cursor and the local periods
for the next evaluation. -/
def schedule_loop_step (p : Option Text) (periods : List schedule_period_t) :
    Except Fault (Option (Option Text × List schedule_period_t)) :=
  match p with
  | none => .error .nullPointer
  | some p =>
    match strstr start_key p with
    | none => .ok none
    | some p =>
      if periods.length < MAX_PERIODS then do
        let periods ← collect_period p periods
        let p ← skip_object p
        .ok (some (p, periods))
      else .ok none

/-- The loop, cut off when it would start one more iteration than allowed. -/
def schedule_loop (iterations : Nat) (p : Option Text) (periods : List schedule_period_t) :
    Option (Except Fault (List schedule_period_t)) :=
  match schedule_loop_step p periods, iterations with
  | .error fault, _ => some (.error fault)
  | .ok none, _ => some (.ok periods)
  | .ok (some _), 0 => none
  | .ok (some (p, periods)), iterations + 1 => schedule_loop iterations p periods

end communication_center.http_server
