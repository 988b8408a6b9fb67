import CommunicationCenter.Mosquitto.Routing

open libc trie wildcard

namespace communication_center.mosquitto

/-- Every node below the first level of a tree has subscribers or leads to some. -/
def AllTrimmed (subs : List (Text × mosquitto_subhier)) : Prop :=
  ∀ entry ∈ subs, entry.2.Trimmed mosquitto_subnode.unused

variable {subs : List (Text × mosquitto_subhier)} {topics : List Text} {db : mosquitto_subs}
  {f : mosquitto_subnode → mosquitto_subnode} {context : Text}

/-- All trees stay trimmed if the altered one is. The alteration may also take the tree away. -/
theorem AllTrimmed.alter (h : AllTrimmed subs) {first : Text}
    {g : Option mosquitto_subhier → Option mosquitto_subhier}
    (hnew : ∀ subhier, g (find first subs) = some subhier →
      subhier.Trimmed mosquitto_subnode.unused) :
    AllTrimmed (trie.alter first g subs) := by
  intro entry hmem
  obtain hold | ⟨-, heq⟩ := mem_alter hmem
  · exact h entry hold
  · exact hnew entry.2 heq

/-- The tree of a first part is trimmed, also where it is a new one. -/
theorem AllTrimmed.root (h : AllTrimmed subs) (first : Text) :
    (trie.root .new first subs).Trimmed mosquitto_subnode.unused := by
  cases hfind : find first subs with
  | none =>
    rw [root_of_find_none hfind]
    exact Trie.trimmed_leaf _
  | some subhier =>
    rw [root_of_find hfind]
    exact h _ (mem_of_find hfind)

/-- Setting a subscription leaves no garbage, as the node at its end is in use afterwards. -/
theorem AllTrimmed.sub_update (h : AllTrimmed subs) (hf : ∀ node, (f node).unused = false) :
    AllTrimmed (sub_update f topics subs) := by
  apply h.alter
  intro subhier hnew
  obtain rfl := Option.some.inj hnew
  exact (h.root _).update hf topics

/-- Taking a subscription away leaves none, as the nodes that are unused go with it. -/
theorem AllTrimmed.sub_remove_recurse (h : AllTrimmed subs) :
    AllTrimmed (sub_remove_recurse f topics subs) := by
  apply h.alter
  intro subhier hnew
  obtain ⟨old, hold, rfl⟩ := Option.map_eq_some_iff.mp hnew
  exact (h _ (mem_of_find hold)).prune topics

/-- Nor does a message, which moves members of groups only. Its levels must not be wildcards. -/
theorem AllTrimmed.sub_search_subs {m : routed_msg} (h : AllTrimmed subs) (htrees : SubTrees subs)
    {name : Text} (hplain : Plain wildcards (name :: topics)) :
    AllTrimmed (sub_search_subs m (name :: topics) subs).1 := by
  unfold mosquitto.sub_search_subs
  rw [List.headD_cons]
  cases hfind : find name subs with
  | none => exact h
  | some subhier =>
    have hentry := mem_of_find hfind
    have hsearched := sub_search_searched (m := m) hplain (htrees.rooted.distinct _ hentry)
      (htrees.terminal _ hentry)
    apply h.alter
    intro searched heq
    obtain rfl := Option.some.inj heq
    exact hsearched.trimmed (h _ hentry)

/-- Neither of the two kinds of trees has nodes that nobody needs. -/
def NoGarbage (db : mosquitto_subs) : Prop :=
  AllTrimmed db.normal_subs ∧ AllTrimmed db.shared_subs

/-- A SUBSCRIBE for one filter leaves no garbage, also where the filter is refused. -/
theorem NoGarbage.subscribe {protocol : mosquitto_protocol} {sub : Text} {qos options : UInt8}
    {identifier : UInt32} (h : NoGarbage db) :
    NoGarbage (sub_step db (.subscribe context protocol sub qos identifier options)) := by
  rw [sub_step]
  by_cases hsub : can_subscribe sub = true
  swap
  · rw [if_neg hsub]
    exact h
  rw [if_pos hsub, sub_add]
  cases htokens : sub_topic_tokenise sub with
  | error rc => exact h
  | ok tokens =>
    obtain ⟨topics, sharename⟩ := tokens
    obtain ⟨hfilter, hfits⟩ := filter_of_tokenise htokens hsub
    have hfirst : fits_hier (topics.headD []) = true := by
      apply List.all_eq_true.mp hfits
      exact List.mem_of_mem_head? hfilter.head?_eq
    simp only [hfirst, hfits, Bool.not_true, Bool.false_eq_true, if_false]
    cases sharename with
    | none =>
      refine ⟨h.1.sub_update fun node => ?_, h.2⟩
      simp [mosquitto_subnode.unused, sub_add_leaf_ne_nil]
    | some sharename =>
      refine ⟨h.1, h.2.sub_update fun node => ?_⟩
      have hne := alter_some_ne_nil sharename (fun leaves : Option (List mosquitto_subleaf) =>
        (sub_add_leaf context qos identifier options (leaves.getD [])).1) node.shared
      simp [mosquitto_subnode.unused, hne]

/-- An UNSUBSCRIBE for one filter leaves none, whether there was a subscription or not. -/
theorem NoGarbage.unsubscribe {sub : Text} (h : NoGarbage db) :
    NoGarbage (sub_step db (.unsubscribe context sub)) := by
  rw [sub_step]
  by_cases hsub : can_subscribe sub = true
  swap
  · rw [if_neg hsub]
    exact h
  rw [if_pos hsub, sub_remove]
  cases htokens : sub_topic_tokenise sub with
  | error rc => exact h
  | ok tokens =>
    obtain ⟨topics, _ | sharename⟩ := tokens
    · simp only
      split
      · exact h
      · exact ⟨h.1.sub_remove_recurse, h.2⟩
    · simp only
      split
      · exact h
      · exact ⟨h.1, h.2.sub_remove_recurse⟩

/-- Nor does a clean session that takes one subscription away. -/
theorem NoGarbage.clean_one (h : NoGarbage db) (csub : mosquitto_client_sub) :
    NoGarbage (sub_clean_one context csub db) := by
  obtain ⟨filter, _ | sharename⟩ := csub
  · exact ⟨h.1.sub_remove_recurse, h.2⟩
  · exact ⟨h.1, h.2.sub_remove_recurse⟩

/-- Nor the loop over all of them. -/
theorem NoGarbage.clean_loop (h : NoGarbage db) (csubs : List mosquitto_client_sub) :
    NoGarbage (csubs.foldl (fun db csub => sub_clean_one context csub db) db) := by
  induction csubs generalizing db with
  | nil => exact h
  | cons csub csubs ih => exact ih (h.clean_one csub)

/-- Nor does a message. The trees have to be as all operations leave them. -/
theorem NoGarbage.publish (h : NoGarbage db) (hsubs : Subs db) (m : routed_msg) :
    NoGarbage (sub_step db (.publish m)) := by
  rw [sub_step]
  by_cases hpublish : can_publish m.topic = true
  swap
  · rw [if_neg hpublish]
    exact h
  have hplain := (tokenise_of_can_publish hpublish).2
  obtain ⟨name, topics, hsplit⟩ := exists_split_topics m.topic
  rw [if_pos hpublish, sub_messages_queue_eq hpublish]
  rw [hsplit] at hplain ⊢
  exact ⟨h.1.sub_search_subs hsubs.forest.normal hplain,
    h.2.sub_search_subs hsubs.forest.shared hplain⟩

/-- After any history there are no unused nodes but the first ones of the trees. -/
theorem noGarbage_sub_run (ops : List sub_op) : NoGarbage (sub_run ops) := by
  induction ops using List.reverseRecOn with
  | nil =>
    constructor
    · intro entry hmem
      have hleaf : entry.2 = .node .new [] := by
        revert entry
        simp [sub_run, db_subs]
      rw [hleaf]
      exact Trie.trimmed_leaf _
    · intro entry hmem
      have hleaf : entry.2 = .node .new [] := by
        revert entry
        simp [sub_run, db_subs]
      rw [hleaf]
      exact Trie.trimmed_leaf _
  | append_singleton ops op ih =>
    rw [sub_run, List.foldl_concat, ← sub_run]
    cases op with
    | subscribe context protocol sub qos identifier options => exact ih.subscribe
    | unsubscribe context sub => exact ih.unsubscribe
    | clean context => exact ih.clean_loop _
    | publish m => exact ih.publish (subs_sub_run ops).1 m

/-- A tree to which no filter leads any more has no branches, since unused nodes were taken away
one by one. -/
theorem children_eq_nil_of_node_at (hsubs : SubTrees subs) (htrimmed : AllTrimmed subs)
    (hnode : ∀ filter, node_at subs filter = .new) {entry : Text × mosquitto_subhier}
    (hentry : entry ∈ subs) : entry.2.children = [] := by
  have hempty : mosquitto_subnode.new.unused = true := rfl
  refine Trie.children_eq_nil_of_get hempty (htrimmed entry hentry)
    (hsubs.rooted.distinct entry hentry) fun filter hne => ?_
  have hroot : trie.root .new entry.1 subs = entry.2 :=
    root_of_find (find_eq_some_of_mem hsubs.rooted.keys hentry)
  obtain ⟨first, rest, rfl⟩ := List.exists_cons_of_ne_nil hne
  rw [← hroot]
  by_cases hfirst : first = entry.1
  · rw [← hfirst]
    exact hnode (first :: rest)
  · exact hsubs.rooted.get_root_of_ne fun heq => hfirst (Option.some.inj heq)

/-- The trees consist of their first nodes. -/
def NothingBelow (subs : List (Text × mosquitto_subhier)) : Prop :=
  ∀ entry ∈ subs, entry.2.children = []

/-- When the last subscription is gone, so are all nodes that were added for the subscriptions, but
for the first ones of the trees. It does not matter by which operations the subscriptions went,
whether one by one or with a clean session, nor which others there were in between. -/
theorem children_sub_run (ops : List sub_op)
    (h : ∀ context key, subscriptions ops context key = none) :
    NothingBelow (sub_run ops).normal_subs ∧ NothingBelow (sub_run ops).shared_subs := by
  obtain ⟨hsubs, htable⟩ := subs_sub_run ops
  obtain ⟨hnormal, hshared⟩ := noGarbage_sub_run ops
  have hleaves (key : mosquitto_client_sub) : leaves_at (sub_run ops) key = [] := by
    by_contra hne
    obtain ⟨context, hleaf⟩ := ne_nil_iff_exists_leaf.mp hne
    rw [← htable] at h
    rw [show leaf_of context (leaves_at (sub_run ops) key) = none from h context key] at hleaf
    cases hleaf
  constructor
  · intro entry hmem
    refine children_eq_nil_of_node_at hsubs.forest.normal hnormal (fun filter => ?_) hmem
    exact mosquitto_subnode.ext (hleaves ⟨filter, none⟩) (hsubs.forest.normal_only filter)
  · intro entry hmem
    refine children_eq_nil_of_node_at hsubs.forest.shared hshared (fun filter => ?_) hmem
    refine mosquitto_subnode.ext (hsubs.forest.shared_only filter) ?_
    by_contra hne
    obtain ⟨group, rest, heq⟩ := List.exists_cons_of_ne_nil hne
    have hgroup : group ∈ (node_at (sub_run ops).shared_subs filter).shared :=
      heq ▸ List.mem_cons_self
    have hmembers := (hsubs.forest.groups filter).members group hgroup
    rw [← leaves_at_of_mem hsubs.forest hgroup] at hmembers
    exact hmembers (hleaves _)

private def board_left : List sub_op :=
  [.subscribe (ascii "board") .mosq_p_mqtt311 (ascii "ESP32/+") 1 0 0, .clean (ascii "board")]

theorem children_sub_run_left :
    NothingBelow (sub_run board_left).normal_subs ∧ NothingBelow (sub_run board_left).shared_subs :=
  children_sub_run board_left (by
    intro context key
    by_cases hcontext : context = ascii "board"
    · simp [board_left, subscriptions, Subscriptions.step, hcontext]
    · simp [board_left, subscriptions, Subscriptions.step, hcontext])

end communication_center.mosquitto
