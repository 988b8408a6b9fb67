import Mathlib.Data.List.Infix

namespace transition

/-- A finite run of a partial step function. Labels and emitted observations are
listed in order, so the label list is the history of the run. -/
inductive Run {S L E : Type} (step : S → L → Option (S × List E)) (start : S) :
    List L → S → List E → Prop where
  | nil : Run step start [] start []
  | snoc {labels : List L} {mid stop : S} {events emitted : List E} {label : L}
      (hrun : Run step start labels mid events)
      (hstep : step mid label = some (stop, emitted)) :
      Run step start (labels ++ [label]) stop (events ++ emitted)

/-- Executable form of a run: follow the labels while every step is enabled. -/
def exec {S L E : Type} (step : S → L → Option (S × List E)) (start : S) :
    List L → Option (S × List E)
  | [] => some (start, [])
  | label :: labels =>
    (step start label).bind fun (mid, emitted) =>
      (exec step mid labels).map fun (stop, events) => (stop, emitted ++ events)

variable {S L E : Type} {step : S → L → Option (S × List E)} {start stop : S}
  {labels : List L} {events : List E}

theorem Run.append {mid : S} {before after : List E} {first second : List L}
    (hfirst : Run step start first mid before) (hsecond : Run step mid second stop after) :
    Run step start (first ++ second) stop (before ++ after) := by
  induction hsecond with
  | nil => simpa using hfirst
  | snoc _ hstep ih =>
    rw [← List.append_assoc, ← List.append_assoc]
    exact .snoc ih hstep

theorem Run.of_exec (h : exec step start labels = some (stop, events)) :
    Run step start labels stop events := by
  induction labels generalizing start events with
  | nil =>
    simp only [exec, Option.some.injEq, Prod.mk.injEq] at h
    obtain ⟨rfl, rfl⟩ := h
    exact .nil
  | cons label labels ih =>
    simp only [exec, Option.bind_eq_some_iff, Option.map_eq_some_iff, Prod.mk.injEq] at h
    obtain ⟨⟨mid, emitted⟩, hstep, ⟨last, rest⟩, hrest, rfl, rfl⟩ := h
    have hfirst : Run step start [label] mid emitted := Run.snoc .nil hstep
    exact hfirst.append (ih hrest)

theorem exec_snoc (labels : List L) (label : L) :
    exec step start (labels ++ [label]) = (exec step start labels).bind fun (mid, events) =>
      (step mid label).map fun (stop, emitted) => (stop, events ++ emitted) := by
  induction labels generalizing start with
  | nil =>
    simp only [List.nil_append, exec, Option.bind_some, Option.map_some, List.append_nil]
    cases step start label <;> rfl
  | cons first labels ih =>
    rw [List.cons_append, exec, exec]
    cases step start first with
    | none => rfl
    | some result =>
      obtain ⟨mid, emitted⟩ := result
      simp only [Option.bind_some, ih]
      cases exec step mid labels with
      | none => rfl
      | some rest =>
        simp only [Option.bind_some, Option.map_some, Option.map_map]
        cases step rest.1 label <;> simp

/-- The step function leaves one end for every list of labels. -/
theorem Run.exec_eq (h : Run step start labels stop events) :
    exec step start labels = some (stop, events) := by
  induction h with
  | nil => rfl
  | snoc _ hstep ih => simp only [exec_snoc, ih, Option.bind_some, hstep, Option.map_some]

/-- Inputs that stand for labels run as their labels do, with the same states and the same events.
-/
theorem Run.map_labels {K : Type} {label : K → L} {inputs : List K}
    (h : Run (fun s input => step s (label input)) start inputs stop events) :
    Run step start (inputs.map label) stop events := by
  induction h with
  | nil => exact .nil
  | snoc _ hstep ih =>
    rw [List.map_append]
    exact .snoc ih hstep

/-- A property of the history, the state and the observations holds in every
state that the run passes through, its start and its end included. -/
def EveryState (step : S → L → Option (S × List E)) (start : S) (labels : List L)
    (Q : List L → S → List E → Prop) : Prop :=
  ∀ pre mid before, pre <+: labels → Run step start pre mid before → Q pre mid before

/-- A condition on the history, the state before a step and the step's label
holds for every step that the run takes. -/
def EveryStep (step : S → L → Option (S × List E)) (start : S) (labels : List L)
    (P : List L → S → L → Prop) : Prop :=
  ∀ pre mid before label next emitted, pre ++ [label] <+: labels →
    Run step start pre mid before → step mid label = some (next, emitted) → P pre mid label

theorem EveryState.last {Q : List L → S → List E → Prop}
    (h : EveryState step start labels Q) (hrun : Run step start labels stop events) :
    Q labels stop events :=
  h labels stop events List.prefix_rfl hrun

theorem EveryStep.init {P : List L → S → L → Prop} {label : L}
    (h : EveryStep step start (labels ++ [label]) P) : EveryStep step start labels P :=
  fun pre mid before next stop emitted hpre =>
    h pre mid before next stop emitted (hpre.trans (List.prefix_append _ _))

/-- The induction over a run: what holds at the start and is preserved by every
step that meets the step condition holds at the end. -/
theorem Run.invariant {P : List L → S → L → Prop} {Inv : List L → S → List E → Prop}
    (h : Run step start labels stop events) (hsteps : EveryStep step start labels P)
    (hinit : Inv [] start [])
    (hpreserved : ∀ past mid before label next emitted, Inv past mid before → P past mid label →
      step mid label = some (next, emitted) → Inv (past ++ [label]) next (before ++ emitted)) :
    Inv labels stop events := by
  induction h with
  | nil => exact hinit
  | snoc hrun hstep ih =>
    have hlast := hsteps _ _ _ _ _ _ List.prefix_rfl hrun hstep
    exact hpreserved _ _ _ _ _ _ (ih hsteps.init) hlast hstep

theorem EveryStep.everyState {P : List L → S → L → Prop} {Inv : List L → S → List E → Prop}
    (hsteps : EveryStep step start labels P) (hinit : Inv [] start [])
    (hpreserved : ∀ past mid before label next emitted, Inv past mid before → P past mid label →
      step mid label = some (next, emitted) → Inv (past ++ [label]) next (before ++ emitted)) :
    EveryState step start labels Inv := by
  intro pre mid before hpre hrun
  have hsub : EveryStep step start pre P := fun past at_ seen label next emitted hpast =>
    hsteps past at_ seen label next emitted (hpast.trans hpre)
  exact hrun.invariant hsub hinit hpreserved

/-- An invariant that every step preserves holds in every state of every run. It may speak of the
history and of the events. -/
theorem everyState_of_step {Inv : List L → S → List E → Prop} (hinit : Inv [] start [])
    (hpreserved : ∀ past mid before label next emitted, Inv past mid before →
      step mid label = some (next, emitted) → Inv (past ++ [label]) next (before ++ emitted))
    (labels : List L) : EveryState step start labels Inv := by
  have htrivial : EveryStep step start labels fun _ _ _ => True := fun _ _ _ _ _ _ _ _ _ => ⟨⟩
  apply htrivial.everyState hinit
  intro past mid before label next emitted hinv _
  exact hpreserved past mid before label next emitted hinv

/-- A state property that forces the step condition on the step before it makes
every step of a run meet that condition. -/
theorem EveryState.everyStep {P : List L → S → L → Prop} {Q : List L → S → List E → Prop}
    (hstates : EveryState step start labels Q)
    (hforced : ∀ past mid before label next emitted, Run step start past mid before →
      step mid label = some (next, emitted) → Q past mid before →
      Q (past ++ [label]) next (before ++ emitted) → P past mid label) :
    EveryStep step start labels P := by
  intro pre mid before label next emitted hpre hmid hstep
  exact hforced pre mid before label next emitted hmid hstep
    (hstates pre mid before ((List.prefix_append _ _).trans hpre) hmid)
    (hstates _ _ _ hpre (.snoc hmid hstep))

end transition
