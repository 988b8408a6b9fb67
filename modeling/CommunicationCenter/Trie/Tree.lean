import Mathlib.Data.List.Basic
import Mathlib.Data.List.Nodup

namespace trie

/-- A tree of values. The branches of a node have keys, and stand in the order
in which they were added. -/
inductive Trie (K V : Type) where
  | node (value : V) (children : List (K × Trie K V))

variable {K V T : Type}

def Trie.value : Trie K V → V
  | .node value _ => value

def Trie.children : Trie K V → List (K × Trie K V)
  | .node _ children => children

@[simp] theorem Trie.value_node (value : V) (children : List (K × Trie K V)) :
    (Trie.node value children).value = value := rfl

@[simp] theorem Trie.children_node (value : V) (children : List (K × Trie K V)) :
    (Trie.node value children).children = children := rfl

@[simp] theorem Trie.node_eta (t : Trie K V) : Trie.node t.value t.children = t := by
  cases t with
  | node => rfl

variable [DecidableEq K]

/-- The entry of a key in an association list. -/
def find (key : K) : List (K × T) → Option T
  | [] => none
  | (k, t) :: entries => if key = k then some t else find key entries

/-- One entry of an association list is added at the end, replaced or deleted. -/
def alter (key : K) (f : Option T → Option T) : List (K × T) → List (K × T)
  | [] => ((f none).map fun t => (key, t)).toList
  | (k, t) :: entries =>
    if key = k then ((f (some t)).map fun t => (k, t)).toList ++ entries
    else (k, t) :: alter key f entries

@[simp] theorem find_nil (key : K) : find key ([] : List (K × T)) = none := rfl

@[simp] theorem find_cons_self {key : K} {t : T} {entries : List (K × T)} :
    find key ((key, t) :: entries) = some t := by
  rw [find, if_pos rfl]

/-- An entry with another key is passed over by the search. -/
theorem find_cons_of_ne {key k : K} {t : T} {entries : List (K × T)} (h : key ≠ k) :
    find key ((k, t) :: entries) = find key entries := by
  rw [find, if_neg h]

/-- What is in the list after an entry was altered was there before, or is what the entry was
altered to. -/
theorem mem_alter {key : K} {f : Option T → Option T} {entries : List (K × T)} {entry : K × T}
    (h : entry ∈ alter key f entries) :
    entry ∈ entries ∨ entry.1 = key ∧ f (find key entries) = some entry.2 := by
  induction entries with
  | nil =>
    obtain ⟨t, ht, rfl⟩ := Option.map_eq_some_iff.mp (Option.mem_toList.mp h)
    exact Or.inr ⟨rfl, ht⟩
  | cons first entries ih =>
    obtain ⟨k, t⟩ := first
    rw [alter] at h
    by_cases hkey : key = k
    · rw [if_pos hkey] at h
      subst hkey
      obtain hnew | hold := List.mem_append.mp h
      · obtain ⟨t', ht', rfl⟩ := Option.map_eq_some_iff.mp (Option.mem_toList.mp hnew)
        exact Or.inr ⟨rfl, by rwa [find_cons_self]⟩
      · exact Or.inl (List.mem_cons_of_mem _ hold)
    · rw [if_neg hkey] at h
      obtain rfl | hrest := List.mem_cons.mp h
      · exact Or.inl List.mem_cons_self
      · obtain hold | ⟨heq, hnew⟩ := ih hrest
        · exact Or.inl (List.mem_cons_of_mem _ hold)
        · exact Or.inr ⟨heq, by rwa [find_cons_of_ne hkey]⟩

/-- Altering an entry, also where it is added or taken away, leaves every key in the list at most
once. -/
theorem keys_alter_nodup {key : K} {f : Option T → Option T} {entries : List (K × T)}
    (h : (entries.map Prod.fst).Nodup) : ((alter key f entries).map Prod.fst).Nodup := by
  induction entries with
  | nil => cases hnew : f none <;> simp [alter, hnew]
  | cons first entries ih =>
    obtain ⟨k, t⟩ := first
    obtain ⟨hfresh, hrest⟩ := List.nodup_cons.mp h
    rw [alter]
    by_cases hkey : key = k
    · rw [if_pos hkey]
      cases hnew : f (some t) with
      | none => simpa using hrest
      | some t' => simpa using h
    · rw [if_neg hkey, List.map_cons]
      apply List.nodup_cons.mpr
      refine ⟨fun hmem => ?_, ih hrest⟩
      obtain ⟨entry, hentry, heq⟩ := List.mem_map.mp hmem
      obtain hold | ⟨hnew, _⟩ := mem_alter hentry
      · exact hfresh (List.mem_map.mpr ⟨entry, hold, heq⟩)
      · exact hkey (hnew.symm.trans heq)

/-- A key that no entry has is not found. -/
theorem find_eq_none_of_fresh {key : K} {entries : List (K × T)}
    (h : key ∉ entries.map Prod.fst) : find key entries = none := by
  induction entries with
  | nil => rfl
  | cons first entries ih =>
    rw [List.map_cons, List.mem_cons, not_or] at h
    exact (find_cons_of_ne h.1).trans (ih h.2)

/-- Where no key is there twice, each entry is the one that is found for its key. -/
theorem find_eq_some_of_mem {entry : K × T} {entries : List (K × T)}
    (h : (entries.map Prod.fst).Nodup) (hentry : entry ∈ entries) :
    find entry.1 entries = some entry.2 := by
  induction entries with
  | nil => cases hentry
  | cons first entries ih =>
    obtain ⟨hfresh, hrest⟩ := List.nodup_cons.mp h
    obtain rfl | hmem := List.mem_cons.mp hentry
    · exact find_cons_self
    · have hne : entry.1 ≠ first.1 := fun heq => hfresh (heq ▸ List.mem_map_of_mem hmem)
      rw [find_cons_of_ne hne]
      exact ih hrest hmem

/-- What is found for a key is in the list with that key. The key may be there twice. -/
theorem mem_of_find {key : K} {t : T} {entries : List (K × T)} (h : find key entries = some t) :
    (key, t) ∈ entries := by
  induction entries with
  | nil => cases h
  | cons first entries ih =>
    obtain ⟨k, t'⟩ := first
    by_cases hkey : key = k
    · subst hkey
      rw [find_cons_self] at h
      obtain rfl := Option.some.inj h
      exact List.mem_cons_self
    · rw [find_cons_of_ne hkey] at h
      exact List.mem_cons_of_mem _ (ih h)

/-- Altering an entry sets what is found for its key, and leaves what is found for all other keys.
No key may be there twice. -/
theorem find_alter {key : K} {f : Option T → Option T} {entries : List (K × T)}
    (h : (entries.map Prod.fst).Nodup) (other : K) :
    find other (alter key f entries) =
      if other = key then f (find key entries) else find other entries := by
  induction entries with
  | nil =>
    cases hnew : f none with
    | none => simp [alter, hnew]
    | some t =>
      by_cases hother : other = key
      · simp [alter, hnew, hother]
      · simp [alter, hnew, hother, find_cons_of_ne hother]
  | cons first entries ih =>
    obtain ⟨k, t⟩ := first
    obtain ⟨hfresh, hrest⟩ := List.nodup_cons.mp h
    rw [alter]
    by_cases hkey : key = k
    · subst hkey
      rw [if_pos rfl, find_cons_self]
      by_cases hother : other = key
      · subst hother
        rw [if_pos rfl]
        cases hnew : f (some t) with
        | none => exact find_eq_none_of_fresh hfresh
        | some t' => exact find_cons_self
      · rw [if_neg hother, find_cons_of_ne hother]
        cases hnew : f (some t) with
        | none => rfl
        | some t' => exact find_cons_of_ne hother
    · rw [if_neg hkey, find_cons_of_ne hkey]
      by_cases hother : other = k
      · subst hother
        rw [find_cons_self, if_neg (Ne.symm hkey), find_cons_self]
      · rw [find_cons_of_ne hother, ih hrest, find_cons_of_ne hother]

/-- A function of the values can be applied before the search or after it. -/
theorem find_map_snd {S : Type} (g : S → T) (key : K) (entries : List (K × S)) :
    find key (entries.map fun entry => (entry.1, g entry.2)) = (find key entries).map g := by
  induction entries with
  | nil => rfl
  | cons entry entries ih =>
    obtain ⟨k, t⟩ := entry
    rw [List.map_cons]
    by_cases hkey : key = k
    · subst hkey
      simp
    · rw [find_cons_of_ne hkey, find_cons_of_ne hkey, ih]

/-- The branch with a key. -/
def Trie.child (key : K) (t : Trie K V) : Option (Trie K V) :=
  find key t.children

/-- The value at the end of a path, and the default value where the path leads
out of the tree. -/
def Trie.get (default : V) : List K → Trie K V → V
  | [], t => t.value
  | key :: path, t => Trie.get default path ((t.child key).getD (.node default []))

/-- Change the value at the end of a path, which is added to the tree. -/
def Trie.update (default : V) (f : V → V) : List K → Trie K V → Trie K V
  | [], t => .node (f t.value) t.children
  | key :: path, t => .node t.value (alter key (fun branch =>
      some (Trie.update default f path (branch.getD (.node default [])))) t.children)

/-- A node without branches, and with nothing in its value. -/
def Trie.bare (empty : V → Bool) (t : Trie K V) : Bool :=
  t.children.isEmpty && empty t.value

/-- Change the value at the end of a path, where it lies in the tree, and take
away the nodes of the path that are bare then. The root stays. -/
def Trie.prune (empty : V → Bool) (f : V → V) : List K → Trie K V → Trie K V
  | [], t => .node (f t.value) t.children
  | key :: path, t => .node t.value (alter key (fun branch =>
      (branch.map (Trie.prune empty f path)).filter fun t => !t.bare empty) t.children)

/-- A property of a node's value and branches holds at every node. -/
inductive Trie.All (P : V → List (K × Trie K V) → Prop) : Trie K V → Prop where
  | node {value : V} {children : List (K × Trie K V)} (hhere : P value children)
      (hbelow : ∀ entry ∈ children, All P entry.2) : All P (.node value children)

variable {P : V → List (K × Trie K V) → Prop} {t : Trie K V} {default : V} {empty : V → Bool}
  {f : V → V}

omit [DecidableEq K] in
/-- What holds of all nodes holds of the first one. -/
theorem Trie.All.here (h : t.All P) : P t.value t.children := by
  cases h with
  | node hhere _ => exact hhere

omit [DecidableEq K] in
/-- What holds of all nodes of a tree holds of all nodes of each branch. -/
theorem Trie.All.branch (h : t.All P) {entry : K × Trie K V} (hentry : entry ∈ t.children) :
    entry.2.All P := by
  cases h with
  | node _ hbelow => exact hbelow entry hentry

/-- The same, for a branch that is given by its key. -/
theorem Trie.All.child (h : t.All P) {key : K} {branch : Trie K V}
    (hbranch : t.child key = some branch) : branch.All P :=
  h.branch (mem_of_find hbranch)

/-- One branch is altered, added or taken away, and the property holds at the node again and in the
new branch. -/
theorem Trie.All.alter (h : t.All P) {key : K} {g : Option (Trie K V) → Option (Trie K V)}
    (hhere : P t.value (alter key g t.children))
    (hnew : ∀ branch, g (t.child key) = some branch → branch.All P) :
    (Trie.node t.value (trie.alter key g t.children)).All P := by
  refine .node hhere fun entry hentry => ?_
  obtain hold | ⟨-, hbranch⟩ := mem_alter hentry
  · exact h.branch hold
  · exact hnew entry.2 hbranch

/-- The keys of the branches of a node differ. -/
def Trie.Distinct (t : Trie K V) : Prop :=
  t.All fun _ children => (children.map Prod.fst).Nodup

omit [DecidableEq K] in
/-- A tree of one node has no two branches with one key. -/
theorem Trie.distinct_leaf (value : V) : (Trie.node value [] : Trie K V).Distinct :=
  .node List.nodup_nil fun _ hentry => nomatch hentry

/-- A branch of a tree without double keys has none either, nor has the new node that stands in for
a missing branch. -/
theorem Trie.Distinct.child_getD (h : t.Distinct) (key : K) (value : V) :
    ((t.child key).getD (.node value [])).Distinct := by
  cases hchild : t.child key with
  | none => exact Trie.distinct_leaf value
  | some branch => exact Trie.All.child h hchild

/-- Altering the branch of a key alters that branch and no other one. -/
theorem Trie.Distinct.child_alter (h : t.Distinct) {key : K}
    {g : Option (Trie K V) → Option (Trie K V)} (other : K) :
    (Trie.node t.value (alter key g t.children)).child other =
      if other = key then g (t.child key) else t.child other :=
  find_alter h.here other

/-- An update along a path, which adds the nodes that are missing, makes no key double. -/
theorem Trie.Distinct.update (h : t.Distinct) (path : List K) :
    (t.update default f path).Distinct := by
  induction path generalizing t with
  | nil => exact .node h.here fun entry hentry => h.branch hentry
  | cons key path ih =>
    refine Trie.All.alter h (keys_alter_nodup h.here) fun branch hbranch => ?_
    obtain rfl := Option.some.inj hbranch
    exact ih (h.child_getD key default)

/-- An update along a path that takes away empty nodes on its way back makes no key double. -/
theorem Trie.Distinct.prune (h : t.Distinct) (path : List K) :
    (t.prune empty f path).Distinct := by
  induction path generalizing t with
  | nil => exact .node h.here fun entry hentry => h.branch hentry
  | cons key path ih =>
    refine Trie.All.alter h (keys_alter_nodup h.here) fun branch hbranch => ?_
    obtain ⟨hmap, -⟩ := Option.filter_eq_some_iff.mp hbranch
    obtain ⟨old, hold, rfl⟩ := Option.map_eq_some_iff.mp hmap
    exact ih (Trie.All.child h hold)

/-- A tree of one default node has the default value at every path. -/
theorem Trie.get_leaf (path : List K) : (Trie.node default [] : Trie K V).get default path = default := by
  induction path with
  | nil => rfl
  | cons key path ih => exact ih

/-- The value on one path is changed, and no other one. Nodes that are missing on the path are
added with the default value. -/
theorem Trie.get_update (h : t.Distinct) (path other : List K) :
    (t.update default f path).get default other =
      if other = path then f (t.get default path) else t.get default other := by
  induction path generalizing t other with
  | nil =>
    cases other with
    | nil => rfl
    | cons key other => rfl
  | cons key path ih =>
    cases other with
    | nil => rfl
    | cons key' other =>
      rw [Trie.get, Trie.update, h.child_alter]
      by_cases hkey : key' = key
      · subst hkey
        rw [if_pos rfl, Option.getD_some, ih (h.child_getD key' default)]
        simp only [List.cons.injEq, true_and, Trie.get]
      · rw [if_neg hkey, if_neg fun heq => hkey (List.cons.inj heq).1]
        rfl

/-- Pruning changes the value on the path, and no other one. What it takes away are nodes whose
values are the default one, which the change has to keep as it is. -/
theorem Trie.get_prune (h : t.Distinct) (hempty : ∀ value, empty value = true → value = default)
    (hdefault : f default = default) (path other : List K) :
    (t.prune empty f path).get default other =
      if other = path then f (t.get default path) else t.get default other := by
  have hbare (branch : Trie K V) (hbare : branch.bare empty = true) :
      branch = .node default [] := by
    obtain ⟨hchildren, hvalue⟩ := Bool.and_eq_true_iff.mp hbare
    rw [← Trie.node_eta branch, hempty _ hvalue, List.isEmpty_iff.mp hchildren]
  induction path generalizing t other with
  | nil =>
    cases other with
    | nil => rfl
    | cons key other => rfl
  | cons key path ih =>
    cases other with
    | nil => rfl
    | cons key' other =>
      rw [Trie.get, Trie.prune, h.child_alter]
      by_cases hkey : key' = key
      · subst hkey
        simp only [if_true, List.cons.injEq, true_and, Trie.get]
        cases hchild : t.child key' with
        | none =>
          simp only [Option.map_none, Option.filter_none, Option.getD_none, Trie.get_leaf,
            hdefault, ite_self]
        | some branch =>
          have hbranch := ih (Trie.All.child h hchild) other
          rw [Option.map_some, Option.getD_some, ← hbranch]
          by_cases hkept : (branch.prune empty f path).bare empty = true
          · rw [Option.filter_some, if_neg (by simp [hkept]), hbare _ hkept]
            rfl
          · rw [Option.filter_some, if_pos (by simp [hkept])]
            rfl
      · rw [if_neg hkey, if_neg fun heq => hkey (List.cons.inj heq).1]
        rfl

/-- A branch takes the place of the one with its key. -/
def Trie.replace (t : Trie K V) (key : K) (branch : Trie K V) : Trie K V :=
  .node t.value (alter key (fun _ => some branch) t.children)

@[simp] theorem Trie.value_replace (t : Trie K V) (key : K) (branch : Trie K V) :
    (t.replace key branch).value = t.value := rfl

/-- A branch without double keys can take the place of another one. -/
theorem Trie.Distinct.replace (h : t.Distinct) {key : K} {branch : Trie K V}
    (hbranch : branch.Distinct) : (t.replace key branch).Distinct :=
  Trie.All.alter h (keys_alter_nodup h.here) fun _ hnew => Option.some.inj hnew ▸ hbranch

/-- Replacing a branch sets the branch of its key and no other one. -/
theorem Trie.Distinct.child_replace (h : t.Distinct) (key other : K) (branch : Trie K V) :
    (t.replace key branch).child other = if other = key then some branch else t.child other :=
  h.child_alter other

/-- A path whose first key has a branch goes on in that branch. -/
theorem Trie.get_of_child {key : K} {branch : Trie K V} (h : t.child key = some branch)
    (path : List K) : t.get default (key :: path) = branch.get default path := by
  rw [Trie.get, h, Option.getD_some]

/-- A path whose first key has no branch has the default value. -/
theorem Trie.get_of_no_child {key : K} (h : t.child key = none) (path : List K) :
    t.get default (key :: path) = default := by
  rw [Trie.get, h, Option.getD_none, Trie.get_leaf]

/-- After a branch was replaced, the paths through its key are those of the new branch and all
others are as before. -/
theorem Trie.get_replace (h : t.Distinct) (key other : K) (branch : Trie K V) (path : List K) :
    (t.replace key branch).get default (other :: path) =
      if other = key then branch.get default path else t.get default (other :: path) := by
  rw [Trie.get, h.child_replace]
  by_cases hkey : other = key
  · rw [if_pos hkey, if_pos hkey, Option.getD_some]
  · rw [if_neg hkey, if_neg hkey, Trie.get]

/-- Below a branch with this key the tree ends. -/
def Trie.Terminal (last : K) (t : Trie K V) : Prop :=
  t.All fun _ children => ∀ branch, (last, branch) ∈ children → branch.children = []

omit [DecidableEq K] in
/-- In a tree of one node nothing follows the last key of a path. -/
theorem Trie.terminal_leaf (last : K) (value : V) : (Trie.node value [] : Trie K V).Terminal last :=
  .node (fun _ hentry => nomatch hentry) fun _ hentry => nomatch hentry

/-- Where nothing may follow a key, its branch is a single node. -/
theorem Trie.Terminal.children_eq_nil {last : K} (h : t.Terminal last) {branch : Trie K V}
    (hbranch : t.child last = some branch) : branch.children = [] :=
  h.here branch (mem_of_find hbranch)

/-- An altered branch with the last key still ends there, and behind any other key the new branch
has to end as well. -/
theorem Trie.Terminal.alter {last key : K} (h : t.Terminal last)
    {g : Option (Trie K V) → Option (Trie K V)}
    (hend : key = last → ∀ branch, g (t.child key) = some branch → branch.children = [])
    (hnew : ∀ branch, g (t.child key) = some branch → branch.Terminal last) :
    (Trie.node t.value (trie.alter key g t.children)).Terminal last := by
  refine Trie.All.alter h (fun branch hmem => ?_) hnew
  obtain hold | ⟨rfl, hbranch⟩ := mem_alter hmem
  · exact h.here branch hold
  · exact hend rfl branch hbranch

/-- An update keeps that nothing follows the key, unless its path goes on behind it. -/
theorem Trie.Terminal.update {last : K} (h : t.Terminal last) {path : List K}
    (hpath : last ∉ path.dropLast) : (t.update default f path).Terminal last := by
  induction path generalizing t with
  | nil => exact .node h.here fun entry hentry => h.branch hentry
  | cons key path ih =>
    have hchild : ((t.child key).getD (.node default [])).Terminal last := by
      cases hchild : t.child key with
      | none => exact Trie.terminal_leaf last default
      | some branch => exact Trie.All.child h hchild
    refine Trie.Terminal.alter h (fun hkey branch hbranch => ?_) fun branch hbranch => ?_
    · obtain rfl := Option.some.inj hbranch
      subst hkey
      cases path with
      | nil =>
        rw [Trie.update, Trie.children_node]
        cases hchild : t.child key with
        | none => rfl
        | some branch => exact h.children_eq_nil hchild
      | cons _ path => exact absurd List.mem_cons_self hpath
    · obtain rfl := Option.some.inj hbranch
      apply ih hchild
      cases path with
      | nil => exact List.not_mem_nil
      | cons _ path => exact fun hmem => hpath (List.mem_cons_of_mem _ hmem)

/-- Pruning adds no nodes to a tree of one node. -/
theorem Trie.children_prune (h : t.children = []) (path : List K) :
    (t.prune empty f path).children = [] := by
  cases path with
  | nil => exact h
  | cons key path =>
    rw [Trie.prune, h]
    rfl

/-- Pruning never puts anything behind a key, whatever its path and whatever it takes away. -/
theorem Trie.Terminal.prune {last : K} (h : t.Terminal last) (path : List K) :
    (t.prune empty f path).Terminal last := by
  induction path generalizing t with
  | nil => exact .node h.here fun entry hentry => h.branch hentry
  | cons key path ih =>
    refine Trie.Terminal.alter h (fun hkey branch hbranch => ?_) fun branch hbranch => ?_
    all_goals
      obtain ⟨hmap, -⟩ := Option.filter_eq_some_iff.mp hbranch
      obtain ⟨old, hold, rfl⟩ := Option.map_eq_some_iff.mp hmap
    · subst hkey
      exact Trie.children_prune (h.children_eq_nil hold) path
    · exact ih (Trie.All.child h hold)

/-- No branch is bare. -/
def Trie.Trimmed (empty : V → Bool) (t : Trie K V) : Prop :=
  t.All fun _ children => ∀ entry ∈ children, entry.2.bare empty = false

omit [DecidableEq K] in
/-- A tree of one node has no empty node without branches below its first one. -/
theorem Trie.trimmed_leaf (value : V) : (Trie.node value [] : Trie K V).Trimmed empty :=
  .node (fun _ hentry => nomatch hentry) fun _ hentry => nomatch hentry

/-- A tree stays trimmed if the altered branch is trimmed itself and not a bare empty node. -/
theorem Trie.Trimmed.alter (h : t.Trimmed empty) {key : K}
    {g : Option (Trie K V) → Option (Trie K V)}
    (hnew : ∀ branch, g (t.child key) = some branch →
      branch.bare empty = false ∧ branch.Trimmed empty) :
    (Trie.node t.value (trie.alter key g t.children)).Trimmed empty := by
  refine Trie.All.alter h (fun entry hmem => ?_) fun branch hbranch => (hnew branch hbranch).2
  obtain hold | ⟨-, hbranch⟩ := mem_alter hmem
  · exact h.here entry hold
  · exact (hnew entry.2 hbranch).1

/-- A list in which an entry was set is not empty, whether the key was there before or not. -/
theorem alter_some_ne_nil (key : K) (f : Option T → T) (entries : List (K × T)) :
    trie.alter key (fun t => some (f t)) entries ≠ [] := by
  cases entries with
  | nil => exact List.cons_ne_nil _ _
  | cons first entries =>
    rw [trie.alter]
    split
    · exact List.cons_ne_nil _ _
    · exact List.cons_ne_nil _ _

/-- A tree that was updated to a value which is not empty is no bare node. -/
theorem Trie.bare_update (hf : ∀ value, empty (f value) = false) (path : List K) :
    (t.update default f path).bare empty = false := by
  cases path with
  | nil => simp [Trie.bare, Trie.update, hf]
  | cons key path =>
    have hne := alter_some_ne_nil key (fun branch : Option (Trie K V) =>
      Trie.update default f path (branch.getD (.node default []))) t.children
    simp [Trie.bare, Trie.update, hne]

/-- A used value is put into the tree, and the nodes that are added on the path lead to it, so that
none of them is bare. -/
theorem Trie.Trimmed.update (h : t.Trimmed empty) (hf : ∀ value, empty (f value) = false)
    (path : List K) : (t.update default f path).Trimmed empty := by
  induction path generalizing t with
  | nil => exact .node h.here fun entry hentry => h.branch hentry
  | cons key path ih =>
    refine Trie.Trimmed.alter h fun branch hbranch => ?_
    obtain rfl := Option.some.inj hbranch
    refine ⟨Trie.bare_update hf path, ih ?_⟩
    cases hchild : t.child key with
    | none => exact Trie.trimmed_leaf default
    | some branch => exact Trie.All.child h hchild

/-- Pruning along a path keeps a tree trimmed, as each node on the path is taken away once it is
bare. -/
theorem Trie.Trimmed.prune (h : t.Trimmed empty) (path : List K) :
    (t.prune empty f path).Trimmed empty := by
  induction path generalizing t with
  | nil => exact .node h.here fun entry hentry => h.branch hentry
  | cons key path ih =>
    refine Trie.Trimmed.alter h fun branch hbranch => ?_
    obtain ⟨hmap, hkept⟩ := Option.filter_eq_some_iff.mp hbranch
    obtain ⟨old, hold, rfl⟩ := Option.map_eq_some_iff.mp hmap
    exact ⟨by simpa using hkept, ih (Trie.All.child h hold)⟩

/-- A trimmed tree without values below its root has no branches, since a bare branch would have
been taken away. -/
theorem Trie.children_eq_nil_of_get (hempty : empty default = true) (htrimmed : t.Trimmed empty)
    (hdistinct : t.Distinct) (hget : ∀ path ≠ [], t.get default path = default) :
    t.children = [] := by
  induction htrimmed with
  | @node value children hhere hbelow ih =>
    apply List.eq_nil_iff_forall_not_mem.mpr
    intro entry hentry
    have hchild : (Trie.node value children).child entry.1 = some entry.2 :=
      find_eq_some_of_mem hdistinct.here hentry
    have hbranch (path : List K) : entry.2.get default path = default := by
      rw [← Trie.get_of_child hchild]
      exact hget _ (List.cons_ne_nil _ _)
    have hchildren := ih entry hentry (hdistinct.branch hentry) fun path _ => hbranch path
    have hvalue : entry.2.value = default := hbranch []
    have hbare := hhere entry hentry
    rw [Trie.bare, hchildren, hvalue, hempty] at hbare
    cases hbare

end trie
