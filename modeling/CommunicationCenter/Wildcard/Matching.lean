import Mathlib.Data.List.Basic
import Mathlib.Data.List.Nodup

namespace wildcard

/-- The two reserved keys of a filter: one that stands for any one key, and one
that stands for all that follow. -/
structure Wildcards (K : Type) where
  single : K
  multi : K
  distinct : single ≠ multi

variable {K : Type} {w : Wildcards K}

/-- A filter matches a topic key by key. The last key of a filter may stand for
the rest of the topic, also for an empty one. -/
def Matches (w : Wildcards K) : List K → List K → Prop
  | [], topic => topic = []
  | key :: filter, [] => key = w.multi ∧ filter = []
  | key :: filter, name :: topic => key = w.multi ∧ filter = [] ∨
      (key = w.single ∨ key = name) ∧ Matches w filter topic

def Matches.decide [DecidableEq K] : (filter topic : List K) → Decidable (Matches w filter topic)
  | [], topic => decEq topic []
  | key :: filter, [] => inferInstanceAs (Decidable (key = w.multi ∧ filter = []))
  | key :: filter, name :: topic =>
    have := Matches.decide filter topic
    inferInstanceAs (Decidable (key = w.multi ∧ filter = [] ∨
      (key = w.single ∨ key = name) ∧ Matches w filter topic))

instance [DecidableEq K] (filter topic : List K) : Decidable (Matches w filter topic) :=
  Matches.decide filter topic

/-- A topic has no reserved key. -/
def Plain (w : Wildcards K) (topic : List K) : Prop :=
  w.single ∉ topic ∧ w.multi ∉ topic

theorem Plain.tail {name : K} {topic : List K} (h : Plain w (name :: topic)) : Plain w topic :=
  ⟨fun hmem => h.1 (List.mem_cons_of_mem _ hmem), fun hmem => h.2 (List.mem_cons_of_mem _ hmem)⟩

theorem Plain.ne_single {name : K} {topic : List K} (h : Plain w (name :: topic)) :
    name ≠ w.single :=
  fun heq => h.1 (heq ▸ List.mem_cons_self)

theorem Plain.ne_multi {name : K} {topic : List K} (h : Plain w (name :: topic)) :
    name ≠ w.multi :=
  fun heq => h.2 (heq ▸ List.mem_cons_self)

/-- The nonempty filters that match a topic, in the order of a search that goes
into the branch of the name, then into that of any name, and takes the rest last.
A filter that ends with the topic comes after the longer ones. -/
def matching (w : Wildcards K) : List K → List (List K)
  | [] => [[w.multi]]
  | name :: topic =>
    let below := matching w topic ++ if topic.isEmpty then [[]] else []
    below.map (name :: ·) ++ below.map (w.single :: ·) ++ [[w.multi]]

/-- All the filters that match a topic. -/
def matchingBelow (w : Wildcards K) (topic : List K) : List (List K) :=
  matching w topic ++ if topic.isEmpty then [[]] else []

theorem matching_cons (name : K) (topic : List K) :
    matching w (name :: topic) = (matchingBelow w topic).map (name :: ·) ++
      (matchingBelow w topic).map (w.single :: ·) ++ [[w.multi]] := rfl

theorem ne_nil_of_mem_matching {filter topic : List K} (h : filter ∈ matching w topic) :
    filter ≠ [] := by
  cases topic with
  | nil =>
    obtain rfl := List.mem_singleton.mp h
    exact List.cons_ne_nil _ _
  | cons name topic =>
    rw [matching_cons] at h
    simp only [List.mem_append, List.mem_map, List.mem_singleton] at h
    obtain (⟨_, _, rfl⟩ | ⟨_, _, rfl⟩) | rfl := h <;> exact List.cons_ne_nil _ _

theorem mem_matchingBelow {filter topic : List K} :
    filter ∈ matchingBelow w topic ↔ filter ∈ matching w topic ∨ filter = [] ∧ topic = [] := by
  unfold matchingBelow
  cases topic <;> simp

/-- The list has exactly the nonempty filters that match, for a topic without wildcards among its
levels. -/
theorem mem_matching_iff {filter topic : List K} (h : Plain w topic) :
    filter ∈ matching w topic ↔ filter ≠ [] ∧ Matches w filter topic := by
  induction topic generalizing filter with
  | nil => cases filter <;> simp [matching, Matches]
  | cons name topic ih =>
    have hbelow (filter : List K) : filter ∈ matchingBelow w topic ↔ Matches w filter topic := by
      rw [mem_matchingBelow, ih h.tail]
      cases filter with
      | nil => simp [Matches]
      | cons key filter => simp
    cases filter with
    | nil =>
      refine ⟨fun hmem => absurd rfl (ne_nil_of_mem_matching hmem), fun hne => absurd rfl hne.1⟩
    | cons key filter =>
      simp only [matching_cons, List.mem_append, List.mem_map, List.mem_singleton, hbelow,
        List.cons.injEq, Matches]
      constructor
      · rintro ((⟨_, hmatch, rfl, rfl⟩ | ⟨_, hmatch, rfl, rfl⟩) | hmulti)
        · exact ⟨List.cons_ne_nil _ _, Or.inr ⟨Or.inr rfl, hmatch⟩⟩
        · exact ⟨List.cons_ne_nil _ _, Or.inr ⟨Or.inl rfl, hmatch⟩⟩
        · exact ⟨List.cons_ne_nil _ _, Or.inl hmulti⟩
      · rintro ⟨-, hmulti | ⟨rfl | rfl, hmatch⟩⟩
        · exact Or.inr hmulti
        · exact Or.inl (Or.inr ⟨filter, hmatch, rfl, rfl⟩)
        · exact Or.inl (Or.inl ⟨filter, hmatch, rfl, rfl⟩)

/-- No filter is listed twice, so that a search by the list meets no node twice. -/
theorem nodup_matching {topic : List K} (h : Plain w topic) : (matching w topic).Nodup := by
  induction topic with
  | nil => exact List.nodup_singleton _
  | cons name topic ih =>
    have hbelow : (matchingBelow w topic).Nodup := by
      apply List.Nodup.append (ih h.tail)
      · cases topic <;> simp
      · intro filter hfilter hnil
        have hne := ne_nil_of_mem_matching hfilter
        cases topic <;> simp_all
    have hnames (key : K) : ((matchingBelow w topic).map (key :: ·)).Nodup :=
      hbelow.map (List.cons_injective)
    rw [matching_cons]
    apply List.Nodup.append
    · apply List.Nodup.append (hnames name) (hnames w.single)
      intro filter hname hsingle
      obtain ⟨_, _, rfl⟩ := List.mem_map.mp hname
      obtain ⟨_, _, heq⟩ := List.mem_map.mp hsingle
      exact h.ne_single (List.cons.inj heq).1.symm
    · exact List.nodup_singleton _
    · intro filter hfilter hmulti
      obtain rfl := List.mem_singleton.mp hmulti
      obtain hname | hsingle := List.mem_append.mp hfilter
      · obtain ⟨_, _, heq⟩ := List.mem_map.mp hname
        exact h.ne_multi (List.cons.inj heq).1
      · obtain ⟨_, _, heq⟩ := List.mem_map.mp hsingle
        exact w.distinct (List.cons.inj heq).1

end wildcard
