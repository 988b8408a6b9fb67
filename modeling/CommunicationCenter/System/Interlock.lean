import CommunicationCenter.System.Control
import CommunicationCenter.SystemState.WireInterlock

open libc transition communication_center.system_state

namespace communication_center.system

variable {F : Type}

/-- The interlock of the current values and of all values on their way to, or
already handed to, `publish_state`. -/
structure Interlocked (sys : System F) (events : List (Event F)) : Prop where
  current : sys.shared.actuators.Interlocked
  system_task : ∀ q ∈ sys.system_task.pending, q.Interlocked
  http_task : ∀ q ∈ sys.http_task.pending, q.Interlocked
  published : ∀ q ∈ calls events, q.Interlocked

/-- Values come into a task's hands as the current ones, and are handed to
`publish_state` from there. -/
theorem Interlocked.flow {sys next : System F} {events emitted : List (Event F)}
    (h : Interlocked sys events) (hcurrent : next.shared.actuators.Interlocked)
    (hsystem : ∀ q ∈ next.system_task.pending,
      q ∈ sys.system_task.pending ∨ q = next.shared.actuators)
    (hhttp : ∀ q ∈ next.http_task.pending, q ∈ sys.http_task.pending ∨ q = next.shared.actuators)
    (hcalls : ∀ q ∈ calls emitted, q ∈ sys.system_task.pending ∨ q ∈ sys.http_task.pending) :
    Interlocked next (events ++ emitted) where
  current := hcurrent
  system_task := fun q hq => (hsystem q hq).elim (h.system_task q) fun heq => heq ▸ hcurrent
  http_task := fun q hq => (hhttp q hq).elim (h.http_task q) fun heq => heq ▸ hcurrent
  published := by
    rw [calls_append]
    exact List.forall_mem_append.mpr
      ⟨h.published, fun q hq => (hcalls q hq).elim (h.system_task q) (h.http_task q)⟩

variable [CFloat F]

/-- The check behind the rules restores the interlock whatever they decided, in any mode and in any
state. -/
theorem evaluate_rules_interlocked (mode : system_mode_t) (s : State F) :
    (evaluate_rules mode s).actuators.Interlocked := by
  unfold evaluate_rules Actuators.Interlocked
  dsimp only
  split
  · simp
  · next hcheck =>
    intro hfan
    by_contra hwindow
    exact hcheck (by simp [hfan, hwindow])

theorem interlocked_initial : Interlocked (System.initial : System F) [] where
  current := show Actuators.off.Interlocked by decide
  system_task := by simp [System.initial, SystemTask.pending]
  http_task := by simp [System.initial, HttpTask.pending]
  published := by simp

/-- One step keeps the interlock, in the shared state, in what the task and the handler have
captured, and in what was published. Nothing is assumed of the step. -/
theorem Interlocked.step {sys next : System F} {label : Label F}
    {events emitted : List (Event F)} (h : Interlocked sys events)
    (hstep : step sys label = some (next, emitted)) : Interlocked next (events ++ emitted) := by
  cases control_step hstep with
  | quiet _ hcontrol hsystem hhttp hcalls _ =>
    refine h.flow ?_ ?_ ?_ (by simp [hcalls])
    · rw [hcontrol.actuators]
      exact h.current
    · exact fun q hq => Or.inl (hsystem ▸ hq)
    · exact fun q hq => Or.inl (hhttp ▸ hq)
  | skipped now _ hcontrol hsystem hhttp hemitted =>
    refine h.flow ?_ ?_ ?_ (by simp [hemitted])
    · rw [hcontrol.actuators]
      exact h.current
    · exact fun q hq => Or.inl (hsystem ▸ hq)
    · exact fun q hq => Or.inl (hhttp ▸ hq)
  | evaluated now mode _ hshared hsystem hhttp hemitted =>
    refine h.flow ?_ ?_ ?_ (by simp [hemitted, calls])
    · rw [hshared]
      exact evaluate_rules_interlocked _ _
    · simp [hsystem, SystemTask.pending]
    · exact fun q hq => Or.inl (hhttp ▸ hq)
  | task_published captured htask hshared hsystem hhttp hcalls _ =>
    refine h.flow ?_ ?_ ?_ (by simp [hcalls, htask, SystemTask.pending])
    · rw [hshared]
      exact h.current
    · simp [hsystem, SystemTask.pending]
    · exact fun q hq => Or.inl (hhttp ▸ hq)
  | handler_published captured htask hshared hsystem hhttp hcalls _ =>
    refine h.flow ?_ ?_ ?_ (by simp [hcalls, htask, HttpTask.pending])
    · rw [hshared]
      exact h.current
    · exact fun q hq => Or.inl (hsystem ▸ hq)
    · simp [hhttp, HttpTask.pending]
  | mode_posted _ _ _ _ hshared hsystem hhttp hemitted =>
    refine h.flow ?_ ?_ (by simp [hhttp]) (by simp [hemitted])
    · rw [hshared]
      exact h.current
    · exact fun q hq => Or.inl (hsystem ▸ hq)
  | actuators_posted _ _ r _ _ _ hrule hshared hsystem hhttp hemitted =>
    refine h.flow ?_ ?_ ?_ (by simp [hemitted])
    · rw [hshared]
      exact hrule
    · exact fun q hq => Or.inl (hsystem ▸ hq)
    · simp [hhttp, hshared]
  | schedule_posted _ _ _ _ hshared hsystem hhttp hemitted =>
    refine h.flow ?_ ?_ (by simp [hhttp]) (by simp [hemitted])
    · rw [hshared]
      exact h.current
    · exact fun q hq => Or.inl (hsystem ▸ hq)

/-- In every state of every run, the fan runs only with the window open, and no call of
`publish_state` was ever made with other values. Nothing is assumed of the run: sensor updates,
ticks and requests may be interleaved in any way, section by section. -/
theorem interlock (labels : List (Label F)) :
    EveryState step System.initial labels fun _ sys events =>
      (sys.shared.actuators.fan = true → sys.shared.actuators.window = true) ∧
        ∀ q ∈ calls events, q.fan = true → q.window = true := by
  have hinv : EveryState step (System.initial : System F) labels
      fun _ sys events => Interlocked sys events :=
    everyState_of_step interlocked_initial (fun _ _ _ _ _ _ h hstep => h.step hstep) labels
  intro past sys events hpast hrun
  have h := hinv past sys events hpast hrun
  exact ⟨h.current, h.published⟩

end communication_center.system
