import CommunicationCenter.System.Control
import CommunicationCenter.Libc.Float

open libc transition communication_center.system_state communication_center.http_server

namespace communication_center.system

variable {F : Type}

/-- No captured values wait for their call of `publish_state`. -/
def System.Quiescent (sys : System F) : Prop :=
  sys.system_task.pending = none ∧ sys.http_task.pending = none

/-- A call of `publish_state` that leaves nothing pending publishes values that
were not overwritten since their capture. -/
def FreshPublish (sys : System F) (label : Label F) : Prop :=
  ∀ captured,
    (label = .task .publish ∧ sys.system_task = .publish captured ∧
        sys.http_task.pending = none) ∨
      (label = .handler ∧ sys.http_task = .actuators_publish captured ∧
        sys.system_task.pending = none) →
    captured = sys.shared.actuators

variable [CFloat F]

/-- A subscriber that starts with the last published values goes on with them, whatever the
order of steps. -/
theorem replay_last (start : System F) (labels : List (Label F)) :
    EveryState step start labels fun _ sys events =>
      replay start.shared.last (messages events) = sys.shared.last := by
  refine everyState_of_step rfl (fun past sys events label next emitted hreplay hstep => ?_) labels
  have hquiet (hlast : next.shared.last = sys.shared.last) (hmessages : messages emitted = []) :
      replay start.shared.last (messages (events ++ emitted)) = next.shared.last := by
    rw [messages_append, hmessages, List.append_nil, hlast, hreplay]
  have hpublish (captured : Actuators) (hshared : next.shared = { sys.shared with last := captured })
      (hmessages : messages emitted = (publish_state true captured sys.shared).2) :
      replay start.shared.last (messages (events ++ emitted)) = next.shared.last := by
    rw [messages_append, replay_append, hreplay, hmessages, replay_publish_state, hshared]
  cases control_step hstep with
  | quiet _ hcontrol _ _ _ hmessages => exact hquiet hcontrol.last hmessages
  | skipped _ _ hcontrol _ _ hemitted => exact hquiet hcontrol.last (by simp [hemitted])
  | evaluated now mode _ hshared _ _ hemitted =>
    refine hquiet ?_ (by simp [hemitted, messages])
    rw [hshared]
    exact (evaluate_rules_frame mode { sys.shared with current_mode := mode }).last
  | task_published captured _ hshared _ _ _ hmessages => exact hpublish captured hshared hmessages
  | handler_published captured _ hshared _ _ _ hmessages =>
    exact hpublish captured hshared hmessages
  | mode_posted _ _ _ _ hshared _ _ hemitted => exact hquiet (by simp [hshared]) (by simp [hemitted])
  | actuators_posted _ _ _ _ _ _ _ hshared _ _ hemitted =>
    exact hquiet (by simp [hshared]) (by simp [hemitted])
  | schedule_posted _ _ _ _ hshared _ _ hemitted =>
    exact hquiet (by simp [hshared]) (by simp [hemitted])

/-- The subscribers hold the last published values, whatever the order of steps. -/
theorem replay_eq_last (labels : List (Label F)) :
    EveryState step System.initial labels fun _ sys events =>
      replay .off (messages events) = sys.shared.last :=
  replay_last System.initial labels

/-- With fresh publications only, a quiescent state published its values last: a step either leaves
something pending or publishes what the actuators are. -/
theorem last_eq_of_freshPublish {sys next : System F} {label : Label F}
    {emitted : List (Event F)} (h : sys.Quiescent → sys.shared.last = sys.shared.actuators)
    (hfresh : FreshPublish sys label) (hstep : step sys label = some (next, emitted)) :
    next.Quiescent → next.shared.last = next.shared.actuators := by
  rintro ⟨htask, hhandler⟩
  cases control_step hstep with
  | quiet _ hcontrol hsystem hhttp _ _ =>
    rw [hcontrol.last, hcontrol.actuators]
    exact h ⟨hsystem ▸ htask, hhttp ▸ hhandler⟩
  | skipped _ _ hcontrol hsystem hhttp _ =>
    rw [hcontrol.last, hcontrol.actuators]
    exact h ⟨hsystem ▸ htask, hhttp ▸ hhandler⟩
  | evaluated _ _ _ _ hsystem _ _ => simp [hsystem, SystemTask.pending] at htask
  | task_published captured hpublish hshared _ hhttp _ _ =>
    rw [hshared]
    exact hfresh captured (Or.inl ⟨rfl, hpublish, hhttp ▸ hhandler⟩)
  | handler_published captured hpublish hshared hsystem _ _ _ =>
    rw [hshared]
    exact hfresh captured (Or.inr ⟨rfl, hpublish, hsystem ▸ htask⟩)
  | mode_posted _ _ hidle _ hshared hsystem _ _ =>
    rw [hshared]
    exact h ⟨hsystem ▸ htask, by rw [hidle]; rfl⟩
  | actuators_posted _ _ _ _ _ _ _ _ _ hhttp _ => simp [hhttp] at hhandler
  | schedule_posted _ _ hidle _ hshared hsystem _ _ =>
    rw [hshared]
    exact h ⟨hsystem ▸ htask, by rw [hidle]; rfl⟩

/-- A publication that leaves the system quiescent with its own values current
was fresh. -/
theorem freshPublish_of_last_eq {sys next : System F} {label : Label F}
    {emitted : List (Event F)} (hstep : step sys label = some (next, emitted))
    (h : next.Quiescent → next.shared.last = next.shared.actuators) : FreshPublish sys label := by
  rintro captured (⟨rfl, htask, hother⟩ | ⟨rfl, htask, hother⟩)
  · simp only [step, task_step, htask, Option.some.injEq, Prod.mk.injEq] at hstep
    obtain ⟨rfl, _⟩ := hstep
    exact h ⟨rfl, hother⟩
  · simp only [step, handler_step, htask, Option.some.injEq, Prod.mk.injEq] at hstep
    obtain ⟨rfl, _⟩ := hstep
    exact h ⟨hother, rfl⟩

/-- In every run, the replayed messages give the current values in all quiescent states exactly
when no call of `publish_state` that leaves nothing pending publishes values that the other task
has overwritten. The client is there from the start; without it the messages would be dropped,
which is not looked at here. -/
theorem replay_current_iff (labels : List (Label F)) :
    EveryState step System.initial labels (fun _ sys events =>
        sys.Quiescent → replay .off (messages events) = sys.shared.actuators) ↔
      EveryStep step System.initial labels fun _ sys label => FreshPublish sys label := by
  have hreplay := replay_eq_last labels
  constructor
  · intro h past sys events label next emitted hpast hrun hstep
    apply freshPublish_of_last_eq hstep
    intro hquiescent
    rw [← hreplay _ _ _ hpast (.snoc hrun hstep)]
    exact h _ _ _ hpast (.snoc hrun hstep) hquiescent
  · intro h past sys events hpast hrun hquiescent
    have hlast : EveryState step (System.initial : System F) labels fun _ sys _ =>
        sys.Quiescent → sys.shared.last = sys.shared.actuators :=
      h.everyState (fun _ => rfl) fun _ _ _ _ _ _ hmid hfresh hstep =>
        last_eq_of_freshPublish hmid hfresh hstep
    rw [hreplay past sys events hpast hrun]
    exact hlast past sys events hpast hrun hquiescent

private def post_mode (body : String) : Label Binary32 :=
  .request (.post_mode (.delivered (ascii body)))

private def post_actuators (body : String) : Label Binary32 :=
  .request (.post_actuators (.delivered (ascii body)) ⟨12, 0⟩)

/-- A tick of the best automatic mode without sensor data captures an open window
and door; before it publishes them, the user takes over and closes both. -/
private def overtaken_tick : List (Label Binary32) :=
  [post_actuators "\x7b\"window\":1,\"fan\":0,\"door\":1,\"absorber\":1\x7d", .handler, .handler,
    post_mode "\x7b\"mode\":0\x7d", .handler,
    .task (.read_clock 0), .task .refresh, .task (.auto_update ⟨12, 0⟩),
    post_mode "\x7b\"mode\":2\x7d", .handler,
    post_actuators "\x7b\"window\":0,\"fan\":0,\"door\":0,\"absorber\":0\x7d", .handler, .handler,
    .task .publish]

/-- The boards are left with an open window that the system holds closed: a handler publishes
between a tick and its publication, and the older values come last. -/
theorem replay_current_overtaken_tick :
    ¬ ∀ labels : List (Label Binary32), EveryState step System.initial labels fun _ sys events =>
      sys.Quiescent → replay .off (messages events) = sys.shared.actuators := by
  intro h
  have hrun : (exec step System.initial overtaken_tick).map (fun r =>
      (r.1.system_task, r.1.http_task, r.1.shared.actuators, replay .off (messages r.2))) =
      some (.idle, .idle, .off, ⟨true, false, true, false⟩) := by
    decide +kernel
  obtain ⟨⟨sys, events⟩, hexec, hend⟩ := Option.map_eq_some_iff.mp hrun
  simp only [Prod.mk.injEq] at hend
  obtain ⟨htask, hhandler, hcurrent, hremote⟩ := hend
  have hquiescent : sys.Quiescent := by
    rw [System.Quiescent, htask, hhandler]
    exact ⟨rfl, rfl⟩
  have hequal := h overtaken_tick overtaken_tick sys events List.prefix_rfl (.of_exec hexec) hquiescent
  rw [hremote, hcurrent] at hequal
  exact absurd hequal (by decide)

end communication_center.system
