import Mathlib.Data.List.Infix

namespace expiring

/-- A cached value that is cleared when no write has refreshed it for too long. -/
structure Cell (V : Type) where
  value : V
  available : Bool
  stamp : Int
  deriving DecidableEq

variable {V : Type}

def Cell.empty (zero : V) : Cell V where
  value := zero
  available := false
  stamp := 0

def Cell.write (value : V) (now : Int) (_ : Cell V) : Cell V where
  value := value
  available := true
  stamp := now

def Cell.reset (zero : V) (cell : Cell V) : Cell V :=
  { cell with value := zero, available := false }

def Cell.expire (zero : V) (timeout now : Int) (cell : Cell V) : Cell V :=
  if cell.available && now - cell.stamp > timeout then cell.reset zero else cell

/-- The cell reflects a history of writes: an available value is the latest
write, and a cleared cell was never written or was found stale by a clock value
that was read for an expiry check. -/
structure Cell.Tracks (zero : V) (timeout : Int) (writes : List (V × Int)) (reads : List Int)
    (cell : Cell V) : Prop where
  available : cell.available = true → writes.getLast? = some (cell.value, cell.stamp)
  cleared : cell.available = false → cell.value = zero
  stale : cell.available = false →
    writes = [] ∨ ∃ value stamp, writes.getLast? = some (value, stamp) ∧
      ∃ now ∈ reads, now - stamp > timeout

/-- The value of a cell without data is the zero. -/
def Cell.Cleared (zero : V) (cell : Cell V) : Prop :=
  cell.available = false → cell.value = zero

/-- An available value is no older than the timeout at the given clock value. -/
def Cell.FreshAt (timeout now : Int) (cell : Cell V) : Prop :=
  cell.available = true → now - cell.stamp ≤ timeout

/-- The changes that a cell may see: its own write, or its own expiry by a clock
value that was read. -/
inductive Cell.Moves (zero : V) (timeout : Int) (reads : List Int) (before : Cell V) :
    Option (V × Int) → Cell V → Prop where
  | written (value : V) (stamp : Int) :
    Moves zero timeout reads before (some (value, stamp)) (before.write value stamp)
  | kept : Moves zero timeout reads before none before
  | expired (now : Int) (hnow : now ∈ reads) (havailable : before.available = true)
      (hold : now - before.stamp > timeout) :
    Moves zero timeout reads before none (before.reset zero)

variable {zero : V} {timeout : Int} {writes : List (V × Int)} {reads : List Int}
  {cell after : Cell V}

theorem Cell.tracks_empty : (Cell.empty zero).Tracks zero timeout [] [] where
  available := by simp [Cell.empty]
  cleared := fun _ => rfl
  stale := fun _ => Or.inl rfl

theorem Cell.Tracks.more_reads {more : List Int} (h : cell.Tracks zero timeout writes reads)
    (hreads : reads ⊆ more) : cell.Tracks zero timeout writes more where
  available := h.available
  cleared := h.cleared
  stale := fun hoff => (h.stale hoff).imp_right fun ⟨value, stamp, hlast, now, hnow, hold⟩ =>
    ⟨value, stamp, hlast, now, hreads hnow, hold⟩

theorem Cell.moves_expire {now : Int} (hnow : now ∈ reads) (cell : Cell V) :
    cell.Moves zero timeout reads none (cell.expire zero timeout now) := by
  unfold Cell.expire
  split
  · next hexpired =>
    rw [Bool.and_eq_true, decide_eq_true_eq] at hexpired
    exact .expired now hnow hexpired.1 hexpired.2
  · exact .kept

/-- Every change keeps the cell in step with its history. The change may be a write, an expiry at a
clock value of the history, or nothing at all. -/
theorem Cell.Tracks.moves {write : Option (V × Int)} (h : cell.Tracks zero timeout writes reads)
    (hmoves : cell.Moves zero timeout reads write after) :
    after.Tracks zero timeout (writes ++ write.toList) reads := by
  cases hmoves with
  | written value stamp => exact ⟨by simp [Cell.write], by simp [Cell.write], by simp [Cell.write]⟩
  | kept => simpa using h
  | expired now hnow havailable hold =>
    have hlast : (writes ++ (none : Option (V × Int)).toList).getLast? =
        some (cell.value, cell.stamp) := by
      simpa using h.available havailable
    exact ⟨by simp [Cell.reset], fun _ => rfl, fun _ => Or.inr ⟨_, _, hlast, now, hnow, hold⟩⟩

theorem Cell.Cleared.moves {write : Option (V × Int)} (h : cell.Cleared zero)
    (hmoves : cell.Moves zero timeout reads write after) : after.Cleared zero := by
  cases hmoves with
  | written value stamp => simp [Cell.Cleared, Cell.write]
  | kept => exact h
  | expired => exact fun _ => rfl

theorem Cell.freshAt_expire (cell : Cell V) (now : Int) :
    (cell.expire zero timeout now).FreshAt timeout now := by
  unfold Cell.expire Cell.FreshAt
  split
  · simp [Cell.reset]
  · next hkept =>
    intro havailable
    rw [havailable, Bool.true_and, decide_eq_true_eq] at hkept
    omega

/-- A fresh cell stays fresh while the clock of its writes does not run back. -/
theorem Cell.FreshAt.moves {now : Int} {write : Option (V × Int)} (h : cell.FreshAt timeout now)
    (htimeout : 0 ≤ timeout) (hlater : ∀ value stamp, write = some (value, stamp) → now ≤ stamp)
    (hmoves : cell.Moves zero timeout reads write after) : after.FreshAt timeout now := by
  cases hmoves with
  | written value stamp =>
    intro _
    have hle := hlater value stamp rfl
    change now - stamp ≤ timeout
    omega
  | kept => exact h
  | expired => simp [Cell.FreshAt, Cell.reset]

/-- A write is what is there afterwards. Without one, the cell is kept or loses its data. -/
theorem Cell.Moves.outcome {before after : Cell V} {update : Option (V × Int)}
    (h : before.Moves zero timeout reads update after) :
    (∀ value stamp, update = some (value, stamp) → after.value = value) ∧
      (update = none → after = before ∨ after.available = false) := by
  cases h with
  | written value stamp =>
    refine ⟨fun _ _ heq => ?_, by simp⟩
    exact congrArg Prod.fst (Option.some.inj heq)
  | kept => exact ⟨by simp, fun _ => Or.inl rfl⟩
  | expired => exact ⟨by simp, fun _ => Or.inr rfl⟩

end expiring
