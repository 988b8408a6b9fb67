import CommunicationCenter.Trie.Tree

namespace trie

variable {K V : Type} [DecidableEq K] {default : V} {forest : List (K × Trie K V)}

/-- The tree with a name, and an empty one where there is none. -/
def root (default : V) (first : K) (forest : List (K × Trie K V)) : Trie K V :=
  (find first forest).getD (.node default [])

/-- The names of the trees differ, and the paths to the values of a tree begin with
its name. -/
structure Rooted (default : V) (forest : List (K × Trie K V)) : Prop where
  keys : (forest.map Prod.fst).Nodup
  distinct : ∀ entry ∈ forest, entry.2.Distinct
  rooted : ∀ entry ∈ forest, ∀ path, entry.2.get default path ≠ default → path.head? = some entry.1

/-- The tree that is found for a first key is the one for its paths. -/
theorem root_of_find {first : K} {t : Trie K V} (h : find first forest = some t) :
    root default first forest = t := by
  rw [root, h, Option.getD_some]

/-- Where there is no tree for a first key, its paths are those of a default node. -/
theorem root_of_find_none {first : K} (h : find first forest = none) :
    root default first forest = .node default [] := by
  rw [root, h, Option.getD_none]

/-- No tree of a rooted forest has two branches with one key, also not the one that stands for a
missing tree. -/
theorem Rooted.root_distinct (h : Rooted default forest) (first : K) :
    (root default first forest).Distinct := by
  cases hfind : find first forest with
  | none =>
    rw [root_of_find_none hfind]
    exact Trie.distinct_leaf _
  | some t =>
    rw [root_of_find hfind]
    exact h.distinct _ (mem_of_find hfind)

/-- In a rooted forest only paths with the first key of a tree have a value there. -/
theorem Rooted.head?_eq (h : Rooted default forest) {first : K} {path : List K}
    (hpath : (root default first forest).get default path ≠ default) :
    path.head? = some first := by
  cases hfind : find first forest with
  | none =>
    rw [root_of_find_none hfind, Trie.get_leaf] at hpath
    exact absurd rfl hpath
  | some t =>
    rw [root_of_find hfind] at hpath
    exact h.rooted _ (mem_of_find hfind) path hpath

/-- The paths with another first key have the default value in a tree. -/
theorem Rooted.get_root_of_ne (h : Rooted default forest) {first : K} {path : List K}
    (hpath : path.head? ≠ some first) : (root default first forest).get default path = default := by
  by_contra hne
  exact hpath (h.head?_eq hne)

/-- Trees to which nothing was added make a rooted forest, if there is one for each first key at
most. -/
theorem rooted_of_leaves (hkeys : (forest.map Prod.fst).Nodup)
    (hleaves : ∀ entry ∈ forest, entry.2 = .node default []) : Rooted default forest where
  keys := hkeys
  distinct := by
    intro entry hmem
    rw [hleaves entry hmem]
    exact Trie.distinct_leaf _
  rooted := by
    intro entry hmem path hne
    rw [hleaves entry hmem, Trie.get_leaf] at hne
    exact absurd rfl hne

/-- A forest of single default nodes has the default value everywhere. -/
theorem get_root_of_leaves (hleaves : ∀ entry ∈ forest, entry.2 = .node default []) (first : K)
    (path : List K) : (root default first forest).get default path = default := by
  cases hfind : find first forest with
  | none => rw [root_of_find_none hfind, Trie.get_leaf]
  | some t =>
    have hleaf : t = .node default [] := hleaves _ (mem_of_find hfind)
    rw [root_of_find hfind, hleaf, Trie.get_leaf]

/-- Altering the tree of a first key alters that tree and no other one. -/
theorem root_alter (h : (forest.map Prod.fst).Nodup) {first : K}
    {g : Option (Trie K V) → Option (Trie K V)} (other : K) :
    root default other (alter first g forest) =
      if other = first then (g (find first forest)).getD (.node default [])
      else root default other forest := by
  rw [root, find_alter h]
  split
  · rfl
  · rfl

/-- One tree is altered, added or taken away. The new tree has paths with its own first key only.
-/
theorem Rooted.alter (h : Rooted default forest) {first : K}
    {g : Option (Trie K V) → Option (Trie K V)}
    (hnew : ∀ t, g (find first forest) = some t → t.Distinct ∧
      ∀ path, t.get default path ≠ default → path.head? = some first) :
    Rooted default (trie.alter first g forest) where
  keys := keys_alter_nodup h.keys
  distinct := by
    intro entry hmem
    obtain hold | ⟨-, heq⟩ := mem_alter hmem
    · exact h.distinct entry hold
    · exact (hnew _ heq).1
  rooted := by
    intro entry hmem path hne
    obtain hold | ⟨hfirst, heq⟩ := mem_alter hmem
    · exact h.rooted entry hold path hne
    · rw [hfirst]
      exact (hnew _ heq).2 path hne

/-- The values of one tree are changed at one path, which begins with the first key of the tree.
Then all of its paths with values do. -/
theorem head?_of_change (h : Rooted default forest) {first : K} {path : List K}
    (hpath : path.head? = some first) {changed : Trie K V} {value : V}
    (hget : ∀ other, changed.get default other =
      if other = path then value else (root default first forest).get default other)
    {other : List K} (hne : changed.get default other ≠ default) : other.head? = some first := by
  rw [hget] at hne
  by_cases heq : other = path
  · rw [heq]
    exact hpath
  · rw [if_neg heq] at hne
    exact h.head?_eq hne

/-- An update in the tree of the first key of its path keeps the forest rooted, also where the tree
has to be added. -/
theorem Rooted.update (h : Rooted default forest) (f : V → V) {first : K} {path : List K}
    (hpath : path.head? = some first) :
    Rooted default (trie.alter first (fun t =>
      some ((t.getD (.node default [])).update default f path)) forest) := by
  apply h.alter
  intro t hnew
  obtain rfl := Option.some.inj hnew
  refine ⟨(h.root_distinct first).update path, fun other => ?_⟩
  exact head?_of_change h hpath (Trie.get_update (h.root_distinct first) path)

/-- The value at one path of one tree is changed, and no other one. -/
theorem get_root_update (h : Rooted default forest) (f : V → V) {first other : K}
    (path otherPath : List K) :
    (root default other (alter first (fun t =>
        some ((t.getD (.node default [])).update default f path)) forest)).get default otherPath =
      if other = first ∧ otherPath = path then f ((root default first forest).get default path)
      else (root default other forest).get default otherPath := by
  rw [root_alter h.keys]
  by_cases hfirst : other = first
  · rw [if_pos hfirst, Option.getD_some]
    refine (Trie.get_update (h.root_distinct first) path otherPath).trans ?_
    simp [hfirst, root]
  · rw [if_neg hfirst, if_neg fun hboth => hfirst hboth.1]

/-- Pruning in a tree that may be missing sets the value of its path and no other one. An empty
value has to be the default, and the default has to stay so. -/
theorem get_getD_prune (h : Rooted default forest) {empty : V → Bool} {f : V → V}
    (hempty : ∀ value, empty value = true → value = default) (hf : f default = default)
    (first : K) (path other : List K) :
    (((find first forest).map (Trie.prune empty f path)).getD (.node default [])).get default other =
      if other = path then f ((root default first forest).get default path)
      else (root default first forest).get default other := by
  cases hfind : find first forest with
  | none =>
    rw [root_of_find_none hfind]
    simp [Trie.get_leaf, hf]
  | some t =>
    rw [root_of_find hfind]
    exact Trie.get_prune (h.distinct _ (mem_of_find hfind)) hempty hf path other

/-- Pruning in the tree of the first key of its path keeps the forest rooted. Empty values have to
be the default one, which has to stay as it is. -/
theorem Rooted.prune (h : Rooted default forest) {empty : V → Bool} {f : V → V}
    (hempty : ∀ value, empty value = true → value = default) (hf : f default = default)
    {first : K} {path : List K} (hpath : path.head? = some first) :
    Rooted default (trie.alter first (fun t => t.map (Trie.prune empty f path)) forest) := by
  apply h.alter
  intro t hnew
  have hget := get_getD_prune h hempty hf first path
  rw [hnew, Option.getD_some] at hget
  obtain ⟨old, hold, rfl⟩ := Option.map_eq_some_iff.mp hnew
  exact ⟨(h.distinct _ (mem_of_find hold)).prune path, fun other => head?_of_change h hpath hget⟩

/-- After pruning, the path has its new value and all paths of all trees have the values they had
before. -/
theorem get_root_prune (h : Rooted default forest) {empty : V → Bool} {f : V → V}
    (hempty : ∀ value, empty value = true → value = default) (hf : f default = default)
    {first other : K} (path otherPath : List K) :
    (root default other (alter first (fun t => t.map (Trie.prune empty f path)) forest)).get default
        otherPath =
      if other = first ∧ otherPath = path then f ((root default first forest).get default path)
      else (root default other forest).get default otherPath := by
  rw [root_alter h.keys]
  by_cases hfirst : other = first
  · rw [if_pos hfirst, get_getD_prune h hempty hf]
    simp [hfirst]
  · rw [if_neg hfirst, if_neg fun hboth => hfirst hboth.1]

end trie
