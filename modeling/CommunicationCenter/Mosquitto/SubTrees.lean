import CommunicationCenter.Mosquitto.SubSearch

open libc trie wildcard

namespace communication_center.mosquitto

/-- The node that a filter leads to. -/
def node_at (subs : List (Text × mosquitto_subhier)) (topics : List Text) : mosquitto_subnode :=
  (sub_root subs topics).get .new topics

/-- What holds of the trees at all times: no first level is a wildcard, and nothing
is below a `#`. -/
structure SubTrees (subs : List (Text × mosquitto_subhier)) : Prop where
  rooted : Rooted .new subs
  plain : Plain wildcards (subs.map Prod.fst)
  terminal : ∀ entry ∈ subs, entry.2.Terminal [hash]

/-- The levels of a filter that can be subscribed to. -/
structure Filter (topics : List Text) : Prop where
  nonempty : topics ≠ []
  first : topics.head? ≠ some [plus] ∧ topics.head? ≠ some [hash]
  last : [hash] ∉ topics.dropLast

variable {subs : List (Text × mosquitto_subhier)} {topics : List Text}
  {f : mosquitto_subnode → mosquitto_subnode}

/-- A filter has a first part. -/
theorem Filter.head?_eq (h : Filter topics) : topics.head? = some (topics.headD []) := by
  cases topics with
  | nil => exact absurd rfl h.nonempty
  | cons first topics => rfl

/-- The first part of a filter is no wildcard. -/
theorem Filter.first_ne (h : Filter topics) :
    topics.headD [] ≠ [plus] ∧ topics.headD [] ≠ [hash] := by
  obtain ⟨hplus, hhash⟩ := h.first
  rw [h.head?_eq] at hplus hhash
  exact ⟨fun heq => hplus (congrArg some heq), fun heq => hhash (congrArg some heq)⟩

/-- Nothing follows a hash in any of the trees, also where there is no tree for the first level. -/
theorem SubTrees.root_terminal (h : SubTrees subs) (first : Text) :
    (root .new first subs).Terminal [hash] := by
  cases hfind : find first subs with
  | none =>
    rw [root_of_find_none hfind]
    exact Trie.terminal_leaf _ _
  | some subhier =>
    rw [root_of_find hfind]
    exact h.terminal _ (mem_of_find hfind)

/-- The tree of one first level is altered. The level is not a wildcard, and the new tree, if there
is one, is in order. -/
theorem SubTrees.alter (h : SubTrees subs) {first : Text}
    {g : Option mosquitto_subhier → Option mosquitto_subhier}
    (hplain : first ≠ [plus] ∧ first ≠ [hash]) (hrooted : Rooted .new (trie.alter first g subs))
    (hterminal : ∀ subhier, g (find first subs) = some subhier → subhier.Terminal [hash]) :
    SubTrees (trie.alter first g subs) := by
  have hkeys (key : Text) (hkey : key ∈ (trie.alter first g subs).map Prod.fst) :
      key ∈ subs.map Prod.fst ∨ key = first := by
    obtain ⟨entry, hmem, rfl⟩ := List.mem_map.mp hkey
    obtain hold | ⟨heq, -⟩ := mem_alter hmem
    · exact Or.inl (List.mem_map_of_mem hold)
    · exact Or.inr heq
  refine ⟨hrooted, ⟨fun hmem => ?_, fun hmem => ?_⟩, fun entry hmem => ?_⟩
  · obtain hold | heq := hkeys _ hmem
    · exact h.plain.1 hold
    · exact hplain.1 heq.symm
  · obtain hold | heq := hkeys _ hmem
    · exact h.plain.2 hold
    · exact hplain.2 heq.symm
  · obtain hold | ⟨-, heq⟩ := mem_alter hmem
    · exact h.terminal entry hold
    · exact hterminal _ heq

/-- A subscription that is set keeps what is asked of the trees. -/
theorem SubTrees.sub_update (h : SubTrees subs) (htopics : Filter topics) :
    SubTrees (sub_update f topics subs) := by
  apply h.alter htopics.first_ne (h.rooted.update f htopics.head?_eq)
  intro subhier hnew
  obtain rfl := Option.some.inj hnew
  exact (h.root_terminal _).update htopics.last

/-- Equal filters have equal first parts. -/
theorem headD_eq_and_eq_iff {filter : List Text} :
    filter.headD [] = topics.headD [] ∧ filter = topics ↔ filter = topics :=
  ⟨And.right, fun heq => ⟨by rw [heq], heq⟩⟩

/-- The node of the filter is updated, and no other one. -/
theorem node_at_sub_update (h : SubTrees subs) (filter : List Text) :
    node_at (sub_update f topics subs) filter =
      if filter = topics then f (node_at subs topics) else node_at subs filter := by
  refine (get_root_update h.rooted f topics filter).trans ?_
  simp only [headD_eq_and_eq_iff]
  rfl

/-- A node is unused exactly if it is as new. -/
theorem unused_iff (node : mosquitto_subnode) : node.unused = true ↔ node = .new := by
  obtain ⟨subs, shared⟩ := node
  simp [mosquitto_subnode.unused, mosquitto_subnode.new]

/-- A subscription that is taken away keeps what is asked of the trees. What is done to the node
must leave a new one as it is. -/
theorem SubTrees.sub_remove_recurse (h : SubTrees subs) (htopics : Filter topics)
    (hf : f .new = .new) : SubTrees (sub_remove_recurse f topics subs) := by
  apply h.alter htopics.first_ne
    (h.rooted.prune (fun node => (unused_iff node).mp) hf htopics.head?_eq)
  intro subhier hnew
  obtain ⟨old, hold, rfl⟩ := Option.map_eq_some_iff.mp hnew
  exact (h.terminal _ (mem_of_find hold)).prune topics

/-- The node of the filter is changed, and no other one, though nodes that become unused are taken
away. -/
theorem node_at_sub_remove_recurse (h : SubTrees subs) (hf : f .new = .new)
    (filter : List Text) : node_at (sub_remove_recurse f topics subs) filter =
      if filter = topics then f (node_at subs topics) else node_at subs filter := by
  refine (get_root_prune h.rooted (fun node => (unused_iff node).mp) hf topics filter).trans ?_
  simp only [headD_eq_and_eq_iff]
  rfl

/-- No tree has a wildcard for its first level. -/
theorem SubTrees.find_single (h : SubTrees subs) : find [plus] subs = none :=
  find_eq_none_of_fresh h.plain.1

/-- No tree has the hash for its name. -/
theorem SubTrees.find_multi (h : SubTrees subs) : find [hash] subs = none :=
  find_eq_none_of_fresh h.plain.2

/-- The filters that match are all found in the tree of the topic's first level. -/
theorem SubTrees.get_matching (h : SubTrees subs) {name : Text} {filter : List Text}
    (hmatch : filter ∈ matching wildcards (name :: topics)) :
    (root .new name subs).get .new filter = node_at subs filter := by
  have hhead : filter.head? = some name ∨ filter.head? = some [plus] ∨
      filter.head? = some [hash] := by
    rw [matching_cons] at hmatch
    simp only [List.mem_append, List.mem_map, List.mem_singleton] at hmatch
    obtain (⟨rest, -, rfl⟩ | ⟨rest, -, rfl⟩) | rfl := hmatch
    · exact Or.inl rfl
    · exact Or.inr (Or.inl rfl)
    · exact Or.inr (Or.inr rfl)
  by_cases hname : filter.head? = some name
  · obtain ⟨rest, rfl⟩ := List.head?_eq_some_iff.mp hname
    rfl
  · rw [h.rooted.get_root_of_ne hname, node_at, sub_root]
    obtain hplus | hhash := hhead.resolve_left hname
    · obtain ⟨rest, rfl⟩ := List.head?_eq_some_iff.mp hplus
      rw [List.headD_cons, root_of_find_none h.find_single, Trie.get_leaf]
    · obtain ⟨rest, rfl⟩ := List.head?_eq_some_iff.mp hhash
      rw [List.headD_cons, root_of_find_none h.find_multi, Trie.get_leaf]

variable {m : routed_msg}

/-- What a search does with the trees of one kind. -/
structure SubsSearched (m : routed_msg) (filters : List (List Text))
    (subs : List (Text × mosquitto_subhier))
    (result : List (Text × mosquitto_subhier) × search_result) : Prop where
  trees : SubTrees result.1
  deliveries : result.2.deliveries =
    filters.flatMap fun filter => (subs_process m (node_at subs filter)).2.deliveries
  have_subscribers : result.2.have_subscribers =
    filters.any fun filter => (subs_process m (node_at subs filter)).2.have_subscribers
  node_at : ∀ filter, node_at result.1 filter =
    if filter ∈ filters then (subs_process m (node_at subs filter)).1 else node_at subs filter

/-- A message goes to the nodes of the filters that match its topic, each once, in the tree of the
topic's first level and in those of the wildcards. No other node is changed. -/
theorem sub_search_subs_searched (h : SubTrees subs) {name : Text}
    (hplain : Plain wildcards (name :: topics)) :
    SubsSearched m (matching wildcards (name :: topics)) subs
      (sub_search_subs m (name :: topics) subs) := by
  have hget (filter : List Text) (hmatch : filter ∈ matching wildcards (name :: topics)) :=
    h.get_matching hmatch
  unfold sub_search_subs
  rw [List.headD_cons]
  cases hfind : find name subs with
  | none =>
    have hnew (filter : List Text) (hmatch : filter ∈ matching wildcards (name :: topics)) :
        node_at subs filter = .new := by
      rw [← hget filter hmatch, root_of_find_none hfind, Trie.get_leaf]
    refine ⟨h, ?_, ?_, fun filter => ?_⟩
    · symm
      apply List.flatMap_eq_nil_iff.mpr
      intro filter hmatch
      rw [hnew filter hmatch, subs_process_new]
      exact search_result.deliveries_nothing
    · symm
      apply List.any_eq_false.mpr
      intro filter hmatch
      rw [hnew filter hmatch, subs_process_new]
      exact Bool.false_ne_true
    · by_cases hmatch : filter ∈ matching wildcards (name :: topics)
      · rw [if_pos hmatch, hnew filter hmatch, subs_process_new]
      · rw [if_neg hmatch]
  | some subhier =>
    have hentry := mem_of_find hfind
    have hsearched := sub_search_searched (m := m) hplain (h.rooted.distinct _ hentry)
      (h.terminal _ hentry)
    rw [root_of_find hfind] at hget
    have hfirst (filter : List Text)
        (hne : (sub_search m (name :: topics) subhier).1.get .new filter ≠ .new) :
        filter.head? = some name := by
      apply h.rooted.rooted _ hentry filter
      intro heq
      rw [hsearched.get, heq, subs_process_new, ite_self] at hne
      exact hne rfl
    refine ⟨?_, ?_, ?_, fun filter => ?_⟩
    · apply h.alter ⟨hplain.ne_single, hplain.ne_multi⟩
      · apply h.rooted.alter
        intro searched heq
        obtain rfl := Option.some.inj heq
        exact ⟨hsearched.distinct, hfirst⟩
      · intro searched heq
        obtain rfl := Option.some.inj heq
        exact hsearched.terminal
    · rw [hsearched.deliveries]
      apply List.flatMap_congr
      intro filter hmatch
      rw [hget filter hmatch]
    · rw [hsearched.have_subscribers, Bool.eq_iff_iff, List.any_eq_true, List.any_eq_true]
      apply exists_congr
      intro filter
      apply and_congr_right
      intro hmatch
      rw [hget filter hmatch]
    · rw [node_at, sub_root, root_alter h.rooted.keys, Option.getD_some]
      by_cases hname : filter.headD [] = name
      · rw [if_pos hname, hsearched.get, node_at, sub_root, hname, root_of_find hfind]
      · rw [if_neg hname]
        by_cases hmatch : filter ∈ matching wildcards (name :: topics)
        · have hhead : filter.head? ≠ some name := by
            intro heq
            obtain ⟨rest, rfl⟩ := List.head?_eq_some_iff.mp heq
            exact hname rfl
          have hnew := h.rooted.get_root_of_ne hhead
          rw [root_of_find hfind, hget filter hmatch] at hnew
          rw [if_pos hmatch, hnew, subs_process_new]
          exact hnew
        · rw [if_neg hmatch, node_at, sub_root]

end communication_center.mosquitto
