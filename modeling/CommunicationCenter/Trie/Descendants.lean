import CommunicationCenter.Trie.Tree

namespace trie

variable {K V : Type}

/-- The values of all nodes below, with the paths that lead to them. A node comes
before the ones below it. -/
def descendants : List (K × Trie K V) → List (List K × V)
  | [] => []
  | (key, .node value children) :: rest =>
    ([key], value) :: (descendants children).map (fun entry => (key :: entry.1, entry.2)) ++
      descendants rest

@[simp] theorem descendants_nil : descendants ([] : List (K × Trie K V)) = [] := by
  rw [descendants]

theorem descendants_cons (key : K) (branch : Trie K V) (rest : List (K × Trie K V)) :
    descendants ((key, branch) :: rest) = ([key], branch.value) ::
      (descendants branch.children).map (fun entry => (key :: entry.1, entry.2)) ++
        descendants rest := by
  cases branch with
  | node value children => rw [descendants, Trie.value_node, Trie.children_node]

theorem exists_cons_of_mem_descendants {path : List K} {value : V} {children : List (K × Trie K V)}
    (h : (path, value) ∈ descendants children) :
    ∃ key rest, path = key :: rest ∧ key ∈ children.map Prod.fst := by
  induction children with
  | nil => simp at h
  | cons first children ih =>
    obtain ⟨key, branch⟩ := first
    rw [descendants_cons, List.cons_append, List.mem_cons, List.mem_append] at h
    obtain heq | hbelow | hrest := h
    · exact ⟨key, [], (Prod.mk.inj heq).1, List.mem_cons_self⟩
    · obtain ⟨entry, -, heq⟩ := List.mem_map.mp hbelow
      exact ⟨key, entry.1, (Prod.mk.inj heq).1.symm, List.mem_cons_self⟩
    · obtain ⟨other, rest, heq, hmem⟩ := ih hrest
      exact ⟨other, rest, heq, List.mem_cons_of_mem _ hmem⟩

/-- A path goes into a branch, and ends there or goes on below. The branches may have double keys
here. -/
theorem cons_mem_descendants {key : K} {path : List K} {value : V}
    {children : List (K × Trie K V)} :
    (key :: path, value) ∈ descendants children ↔ ∃ branch, (key, branch) ∈ children ∧
      (path = [] ∧ branch.value = value ∨ (path, value) ∈ descendants branch.children) := by
  induction children with
  | nil => simp
  | cons first children ih =>
    obtain ⟨other, branch⟩ := first
    rw [descendants_cons, List.cons_append, List.mem_cons, List.mem_append, ih]
    constructor
    · rintro (heq | hbelow | ⟨branch', hmem, hin⟩)
      · obtain ⟨hpath, hvalue⟩ := Prod.mk.inj heq
        obtain ⟨rfl, rfl⟩ := List.cons.inj hpath
        exact ⟨branch, List.mem_cons_self, Or.inl ⟨rfl, hvalue.symm⟩⟩
      · obtain ⟨entry, hentry, heq⟩ := List.mem_map.mp hbelow
        obtain ⟨hpath, hvalue⟩ := Prod.mk.inj heq
        obtain ⟨rfl, rfl⟩ := List.cons.inj hpath
        exact ⟨branch, List.mem_cons_self, Or.inr (hvalue ▸ hentry)⟩
      · exact ⟨branch', List.mem_cons_of_mem _ hmem, hin⟩
    · rintro ⟨branch', hmem, hin⟩
      obtain heq | hmem := List.mem_cons.mp hmem
      · obtain ⟨rfl, rfl⟩ := Prod.mk.inj heq
        obtain ⟨rfl, rfl⟩ | hbelow := hin
        · exact Or.inl rfl
        · exact Or.inr (Or.inl (List.mem_map.mpr ⟨_, hbelow, rfl⟩))
      · exact Or.inr (Or.inr ⟨branch', hmem, hin⟩)

variable [DecidableEq K] {t : Trie K (Option V)}

theorem Trie.mem_children_iff {S : Type} {t : Trie K S} (h : t.Distinct) {key : K}
    {branch : Trie K S} : (key, branch) ∈ t.children ↔ t.child key = some branch :=
  ⟨fun hmem => find_eq_some_of_mem h.here hmem, mem_of_find⟩

/-- Where values may be missing, the descendants are the values below the root, each under its
path. No node may have two branches with one key. -/
theorem mem_descendants_iff (h : t.Distinct) {path : List K} {value : V} :
    (path, some value) ∈ descendants t.children ↔ path ≠ [] ∧ t.get none path = some value := by
  induction path generalizing t with
  | nil =>
    refine ⟨fun hmem => ?_, fun hne => absurd rfl hne.1⟩
    obtain ⟨_, _, heq, -⟩ := exists_cons_of_mem_descendants hmem
    cases heq
  | cons key path ih =>
    rw [cons_mem_descendants]
    constructor
    · rintro ⟨branch, hmem, hin⟩
      have hchild := (Trie.mem_children_iff h).mp hmem
      refine ⟨List.cons_ne_nil _ _, ?_⟩
      rw [Trie.get_of_child hchild]
      obtain ⟨rfl, hvalue⟩ | hbelow := hin
      · exact hvalue
      · exact ((ih (h.branch hmem)).mp hbelow).2
    · rintro ⟨-, hget⟩
      cases hchild : t.child key with
      | none =>
        rw [Trie.get_of_no_child hchild] at hget
        cases hget
      | some branch =>
        have hmem := mem_of_find hchild
        rw [Trie.get_of_child hchild] at hget
        refine ⟨branch, hmem, ?_⟩
        cases path with
        | nil => exact Or.inl ⟨rfl, hget⟩
        | cons next path => exact Or.inr ((ih (h.branch hmem)).mpr ⟨List.cons_ne_nil _ _, hget⟩)

omit [DecidableEq K] in
/-- No path is listed twice, if no node has two branches with one key. -/
theorem nodup_descendants {S : Type} {t : Trie K S} (h : t.Distinct) :
    ((descendants t.children).map Prod.fst).Nodup := by
  induction h with
  | @node value children hhere hbelow ih =>
    rw [Trie.children_node]
    clear hbelow
    induction children with
    | nil => simp
    | cons first children ihrest =>
      obtain ⟨key, branch⟩ := first
      obtain ⟨hfresh, hrest⟩ := List.nodup_cons.mp hhere
      have hbranch := ih (key, branch) List.mem_cons_self
      have hnames := ihrest hrest fun entry hentry => ih entry (List.mem_cons_of_mem _ hentry)
      have hpaths : (([key], branch.value) :: (descendants branch.children).map
          (fun entry => (key :: entry.1, entry.2)) ++ descendants children).map Prod.fst =
        ([key] :: ((descendants branch.children).map Prod.fst).map (key :: ·)) ++
          (descendants children).map Prod.fst := by
        simp [Function.comp_def]
      rw [descendants_cons, hpaths]
      apply List.Nodup.append
      · apply List.nodup_cons.mpr
        refine ⟨fun hmem => ?_, hbranch.map List.cons_injective⟩
        obtain ⟨path, hpath, heq⟩ := List.mem_map.mp hmem
        obtain ⟨entry, hentry, rfl⟩ := List.mem_map.mp hpath
        obtain ⟨_, _, hcons, -⟩ := exists_cons_of_mem_descendants hentry
        rw [hcons] at heq
        cases heq
      · exact hnames
      · intro path hfirst hlater
        obtain ⟨entry, hentry, rfl⟩ := List.mem_map.mp hlater
        obtain ⟨other, rest, heq, hmem⟩ := exists_cons_of_mem_descendants hentry
        have hkey : other = key := by
          obtain hsingle | hbelow := List.mem_cons.mp hfirst
          · exact (List.cons.inj (heq.symm.trans hsingle)).1
          · obtain ⟨path, -, hcons⟩ := List.mem_map.mp hbelow
            exact (List.cons.inj (hcons.trans heq)).1.symm
        exact hfresh (hkey ▸ hmem)

end trie
