import CommunicationCenter.Mosquitto.Subs

open libc trie wildcard

namespace communication_center.mosquitto

variable {m : routed_msg}

@[simp] theorem search_result.deliveries_nothing : search_result.nothing.deliveries = [] := rfl

@[simp] theorem search_result.have_subscribers_nothing :
    search_result.nothing.have_subscribers = false := rfl

@[simp] theorem search_result.deliveries_andThen (first second : search_result) :
    (first.andThen second).deliveries = first.deliveries ++ second.deliveries := rfl

@[simp] theorem search_result.have_subscribers_andThen (first second : search_result) :
    (first.andThen second).have_subscribers =
      (first.have_subscribers || second.have_subscribers) := rfl

/-- At a new node there is nothing to do for a message. -/
theorem subs_process_new : subs_process m .new = (.new, .nothing) := by
  simp [subs_process, mosquitto_subnode.new, subs_shared_process, mosquitto_subnode.unused,
    search_result.nothing]

/-- A part of the search has processed the nodes of these filters, in this order,
and no others. -/
structure Searched (m : routed_msg) (filters : List (List Text)) (subhier : mosquitto_subhier)
    (result : mosquitto_subhier × search_result) : Prop where
  distinct : result.1.Distinct
  terminal : result.1.Terminal [hash]
  deliveries : result.2.deliveries =
    filters.flatMap fun filter => (subs_process m (subhier.get .new filter)).2.deliveries
  have_subscribers : result.2.have_subscribers =
    filters.any fun filter => (subs_process m (subhier.get .new filter)).2.have_subscribers
  get : ∀ filter, result.1.get .new filter =
    if filter ∈ filters then (subs_process m (subhier.get .new filter)).1
    else subhier.get .new filter
  bare : result.1.bare mosquitto_subnode.unused = subhier.bare mosquitto_subnode.unused
  trimmed : subhier.Trimmed mosquitto_subnode.unused → result.1.Trimmed mosquitto_subnode.unused

/-- A message takes no groups away and adds none; it only changes whose turn it is. -/
theorem isEmpty_subs_shared_process (shared : List (Text × List mosquitto_subleaf)) :
    (subs_shared_process m shared).1.isEmpty = shared.isEmpty := by
  cases shared with
  | nil => rfl
  | cons group shared =>
    obtain ⟨name, _ | ⟨leaf, leaves⟩⟩ := group
    · rfl
    · rfl

/-- So it does not make a node unused. -/
theorem unused_subs_process (node : mosquitto_subnode) :
    (subs_process m node).1.unused = node.unused := by
  rw [subs_process, mosquitto_subnode.unused, isEmpty_subs_shared_process, mosquitto_subnode.unused]

variable {subhier : mosquitto_subhier} {filters : List (List Text)}

/-- A search for no filters leaves the tree as it is and hands nothing on. -/
theorem Searched.nothing (hdistinct : subhier.Distinct) (hterminal : subhier.Terminal [hash]) :
    Searched m [] subhier (subhier, .nothing) where
  distinct := hdistinct
  terminal := hterminal
  deliveries := by simp
  have_subscribers := by simp
  get := by simp
  bare := rfl
  trimmed := id

/-- One part of a search follows another that has processed other nodes: together they have
processed the nodes of both, each once. -/
theorem Searched.andThen {result next : mosquitto_subhier × search_result}
    {others : List (List Text)} (h : Searched m filters subhier result)
    (hnext : Searched m others result.1 next) (hdisjoint : filters.Disjoint others) :
    Searched m (filters ++ others) subhier (next.1, result.2.andThen next.2) := by
  have hkept (filter : List Text) (hmem : filter ∈ others) :
      result.1.get .new filter = subhier.get .new filter := by
    rw [h.get, if_neg fun hfilter => hdisjoint hfilter hmem]
  refine ⟨hnext.distinct, hnext.terminal, ?_, ?_, fun filter => ?_, hnext.bare.trans h.bare,
    fun htrimmed => hnext.trimmed (h.trimmed htrimmed)⟩
  · rw [search_result.deliveries_andThen, h.deliveries, hnext.deliveries, List.flatMap_append]
    congr 1
    apply List.flatMap_congr
    intro filter hmem
    rw [hkept filter hmem]
  · rw [search_result.have_subscribers_andThen, h.have_subscribers, hnext.have_subscribers,
      List.any_append]
    congr 1
    rw [Bool.eq_iff_iff, List.any_eq_true, List.any_eq_true]
    apply exists_congr
    intro filter
    apply and_congr_right
    intro hmem
    rw [hkept filter hmem]
  · rw [hnext.get]
    by_cases hmem : filter ∈ others
    · rw [if_pos hmem, if_pos (List.mem_append_right _ hmem), hkept filter hmem]
    · rw [if_neg hmem, h.get]
      simp [hmem]

/-- The node itself is processed, and no node below it. This is the end of a search. -/
theorem Searched.here (hdistinct : subhier.Distinct) (hterminal : subhier.Terminal [hash]) :
    Searched m [[]] subhier (subs_process_branch m subhier) where
  distinct := .node hdistinct.here fun _ hentry => hdistinct.branch hentry
  terminal := .node hterminal.here fun _ hentry => hterminal.branch hentry
  deliveries := by simp [subs_process_branch, Trie.get]
  have_subscribers := by simp [subs_process_branch, Trie.get]
  get := by
    intro filter
    cases filter with
    | nil => simp [subs_process_branch, Trie.get]
    | cons name filter => simp [subs_process_branch, Trie.get, Trie.child]
  bare := by simp [subs_process_branch, Trie.bare, unused_subs_process]
  trimmed := fun htrimmed => .node htrimmed.here fun _ hentry => htrimmed.branch hentry

/-- What was processed below a branch, said of the tree that has it. The branch of the hash must
still end where it did. -/
theorem Searched.branch {name : Text} {branch : mosquitto_subhier}
    {result : mosquitto_subhier × search_result} (hdistinct : subhier.Distinct)
    (hterminal : subhier.Terminal [hash]) (hbranch : subhier.child name = some branch)
    (h : Searched m filters branch result) (hend : name = [hash] → result.1.children = []) :
    Searched m (filters.map (name :: ·)) subhier (subhier.replace name result.1, result.2) where
  distinct := hdistinct.replace h.distinct
  terminal := by
    apply Trie.Terminal.alter hterminal
    · intro hname branch hnew
      exact Option.some.inj hnew ▸ hend hname
    · intro branch hnew
      exact Option.some.inj hnew ▸ h.terminal
  deliveries := by
    rw [h.deliveries, List.flatMap_map]
    apply List.flatMap_congr
    intro filter _
    rw [Trie.get_of_child hbranch]
  have_subscribers := by
    rw [h.have_subscribers, List.any_map]
    congr 1
    funext filter
    rw [Function.comp_apply, Trie.get_of_child hbranch]
  get := by
    intro filter
    cases filter with
    | nil => simp [Trie.get]
    | cons other filter =>
      rw [Trie.get_replace hdistinct]
      by_cases hname : other = name
      · subst hname
        rw [if_pos rfl, h.get, Trie.get_of_child hbranch]
        simp
      · rw [if_neg hname, if_neg]
        intro hmem
        obtain ⟨_, _, heq⟩ := List.mem_map.mp hmem
        exact hname (List.cons.inj heq).1.symm
  bare := by
    have hold : subhier.children ≠ [] := List.ne_nil_of_mem (mem_of_find hbranch)
    have hnew := alter_some_ne_nil name (fun _ => result.1) subhier.children
    rw [Trie.bare, Trie.replace, Trie.children_node, List.isEmpty_eq_false_iff.mpr hnew, Trie.bare,
      List.isEmpty_eq_false_iff.mpr hold, Bool.false_and, Bool.false_and]
  trimmed := by
    intro htrimmed
    apply Trie.Trimmed.alter htrimmed
    intro branch hnew
    obtain rfl := Option.some.inj hnew
    rw [h.bare]
    exact ⟨htrimmed.here _ (mem_of_find hbranch), h.trimmed (Trie.All.child htrimmed hbranch)⟩

/-- There is nothing below a branch that is missing, for any filters that begin with its key. -/
theorem Searched.missing {name : Text} (hdistinct : subhier.Distinct)
    (hterminal : subhier.Terminal [hash]) (hbranch : subhier.child name = none) :
    Searched m (filters.map (name :: ·)) subhier (subhier, .nothing) where
  distinct := hdistinct
  terminal := hterminal
  deliveries := by simp [List.flatMap_map, Trie.get_of_no_child hbranch, subs_process_new]
  have_subscribers := by simp [List.any_map, Trie.get_of_no_child hbranch, subs_process_new]
  get := by
    intro filter
    by_cases hmem : filter ∈ filters.map (name :: ·)
    · obtain ⟨rest, -, rfl⟩ := List.mem_map.mp hmem
      rw [if_pos hmem, Trie.get_of_no_child hbranch, subs_process_new]
    · rw [if_neg hmem]
  bare := rfl
  trimmed := id

/-- A search in the branch of one name, where there is one, deals with the filters that go on in
it. The name is not the hash. -/
theorem sub_search_branch_searched {search : mosquitto_subhier → mosquitto_subhier × search_result}
    {name : Text} (topics : List Text) (hname : name ≠ [hash]) (hdistinct : subhier.Distinct)
    (hterminal : subhier.Terminal [hash])
    (hsearch : ∀ branch : mosquitto_subhier, branch.Distinct → branch.Terminal [hash] →
      Searched m (matching wildcards topics) branch (search branch)) :
    Searched m ((matchingBelow wildcards topics).map (name :: ·)) subhier
      (sub_search_branch m search topics.isEmpty name subhier) := by
  unfold sub_search_branch
  cases hbranch : subhier.child name with
  | none => exact Searched.missing hdistinct hterminal hbranch
  | some branch =>
    have hbelow := hsearch branch (Trie.All.child hdistinct hbranch)
      (Trie.All.child hterminal hbranch)
    have hend {rest : mosquitto_subhier} (heq : name = [hash]) : rest.children = [] :=
      absurd heq hname
    cases topics with
    | nil =>
      have hall := hbelow.andThen (Searched.here hbelow.distinct hbelow.terminal) (by simp [matching])
      exact hall.branch hdistinct hterminal hbranch hend
    | cons topic topics =>
      have hall := hbelow.andThen (Searched.nothing hbelow.distinct hbelow.terminal) (by simp)
      exact hall.branch hdistinct hterminal hbranch hend

/-- The branch of the hash is looked at as the end of a filter, at any depth of the topic. -/
theorem sub_search_multi_searched (hdistinct : subhier.Distinct)
    (hterminal : subhier.Terminal [hash]) :
    Searched m [[wildcards.multi]] subhier (sub_search_multi m subhier) := by
  unfold sub_search_multi
  cases hbranch : subhier.child [hash] with
  | none => exact @Searched.missing m subhier [[]] [hash] hdistinct hterminal hbranch
  | some branch =>
    have hend := hterminal.children_eq_nil hbranch
    have hhere := @Searched.here m branch (Trie.All.child hdistinct hbranch)
      (Trie.All.child hterminal hbranch)
    simp only [if_pos hend]
    exact hhere.branch hdistinct hterminal hbranch fun _ => hend

/-- The search processes the nodes of the filters that match the rest of a topic, each once and in
the order of the list, and no others. The levels of the topic are no wildcards. -/
theorem sub_search_searched {topics : List Text} (hplain : Plain wildcards topics)
    (hdistinct : subhier.Distinct) (hterminal : subhier.Terminal [hash]) :
    Searched m (matching wildcards topics) subhier (sub_search m topics subhier) := by
  induction topics generalizing subhier with
  | nil => exact sub_search_multi_searched hdistinct hterminal
  | cons name topics ih =>
    have hplus : [plus] ≠ [hash] := by decide
    have hname : name ≠ [hash] := hplain.ne_multi
    have hsingle : name ≠ [plus] := hplain.ne_single
    have hliteral := sub_search_branch_searched topics hname hdistinct hterminal
      fun branch => ih hplain.tail
    have hany := sub_search_branch_searched topics hplus hliteral.distinct hliteral.terminal
      fun branch => ih hplain.tail
    rw [matching_cons]
    apply Searched.andThen (Searched.andThen hliteral hany ?_)
      (sub_search_multi_searched hany.distinct hany.terminal)
    · intro filter hmem hmulti
      obtain rfl := List.mem_singleton.mp hmulti
      obtain hmem | hmem := List.mem_append.mp hmem
      · obtain ⟨_, _, heq⟩ := List.mem_map.mp hmem
        exact hname (List.cons.inj heq).1
      · obtain ⟨_, _, heq⟩ := List.mem_map.mp hmem
        exact hplus (List.cons.inj heq).1
    · intro filter hmem hmem'
      obtain ⟨_, _, rfl⟩ := List.mem_map.mp hmem
      obtain ⟨_, _, heq⟩ := List.mem_map.mp hmem'
      exact hsingle (List.cons.inj heq).1.symm

end communication_center.mosquitto
