import CommunicationCenter.Mosquitto.SubTable
import Mathlib.Data.List.Rotate

open libc trie wildcard

namespace communication_center.mosquitto

variable {db : mosquitto_subs} {m : routed_msg} {context : Text}

/-- The subscriptions of a client at one node are taken away. -/
theorem SubForest.clean_one (h : SubForest db) {csub : mosquitto_client_sub}
    (hfilter : Filter csub.hier) :
    Altered csub (sub_remove_leaf context) db (sub_clean_one context csub db) := by
  obtain ⟨hier, _ | sharename⟩ := csub
  · exact h.sub_remove_normal hfilter db.subs
  · exact h.sub_remove_shared hfilter db.subs

/-- Taking one subscription away in a clean session leaves the array of the client alone, which the
loop walks through. -/
theorem subs_sub_clean_one (csub : mosquitto_client_sub) :
    (sub_clean_one context csub db).subs = db.subs := by
  obtain ⟨hier, _ | sharename⟩ := csub
  · rfl
  · rfl

/-- The loop over the array of the client takes away its subscriptions, one after the other, and no
others. No entry of the array is there twice. -/
theorem SubForest.clean_loop (h : SubForest db) (context : Text) {csubs : List mosquitto_client_sub}
    (honce : csubs.Nodup) (hfilters : ∀ csub ∈ csubs, Filter csub.hier) :
    SubForest (csubs.foldl (fun db csub => sub_clean_one context csub db) db) ∧
      (csubs.foldl (fun db csub => sub_clean_one context csub db) db).subs = db.subs ∧
      ∀ key, leaves_at (csubs.foldl (fun db csub => sub_clean_one context csub db) db) key =
        if key ∈ csubs then sub_remove_leaf context (leaves_at db key) else leaves_at db key := by
  induction csubs generalizing db with
  | nil => exact ⟨h, rfl, fun key => by simp⟩
  | cons csub csubs ih =>
    obtain ⟨hfresh, hrest⟩ := List.nodup_cons.mp honce
    have haltered : Altered csub (sub_remove_leaf context) db (sub_clean_one context csub db) :=
      h.clean_one (hfilters csub List.mem_cons_self)
    obtain ⟨hforest, hsubs, hleaves⟩ := ih haltered.forest hrest
      fun key hkey => hfilters key (List.mem_cons_of_mem _ hkey)
    refine ⟨hforest, hsubs.trans (subs_sub_clean_one csub), fun key => ?_⟩
    rw [List.foldl_cons, hleaves, haltered.leaves_at]
    by_cases hkey : key = csub
    · subst hkey
      rw [if_neg hfresh, if_pos rfl, if_pos List.mem_cons_self]
    · rw [if_neg hkey]
      simp [hkey]

/-- Where a client has no leaf there is nothing to remove. -/
theorem sub_remove_leaf_of_no_leaf {leaves : List mosquitto_subleaf}
    (h : ¬ has_leaf context leaves = true) : sub_remove_leaf context leaves = leaves := by
  apply List.eraseP_of_forall_not
  intro leaf hmem hcontext
  exact h (List.any_eq_true.mpr ⟨leaf, hmem, hcontext⟩)

/-- All subscriptions of the client are gone, and no others. The loop walks through the array of
the client, which is in line with the trees. -/
theorem Subs.clean (h : Subs db) (context : Text) : Subs (sub_clean_session context db) ∧
    ∀ key, leaves_at (sub_clean_session context db) key =
      sub_remove_leaf context (leaves_at db key) := by
  obtain ⟨hforest, hsubs, hleaves⟩ := h.forest.clean_loop context
    (h.listed_once context) fun csub hmem =>
      h.filters context csub (List.reduceOption_mem_iff.mp hmem)
  have hremoved (key : mosquitto_client_sub) : leaves_at (sub_clean_session context db) key =
      sub_remove_leaf context (leaves_at db key) := by
    refine (hleaves key).trans ?_
    by_cases hkey : key ∈ (db.subs context).reduceOption
    · rw [if_pos hkey]
    · rw [if_neg hkey, sub_remove_leaf_of_no_leaf]
      intro hhas
      exact hkey (List.reduceOption_mem_iff.mpr ((h.listed context key).mpr hhas))
  have hkept : (sub_clean_session context db).subs = Function.update db.subs context [] := by
    rw [← hsubs]
    rfl
  have hmem (other : Text) (key : mosquitto_client_sub) :
      some key ∈ (sub_clean_session context db).subs other ↔
        other ≠ context ∧ some key ∈ db.subs other := by
    rw [hkept]
    by_cases hother : other = context
    · subst hother
      simp
    · simp [hother]
  refine ⟨⟨⟨hforest.normal, hforest.shared, hforest.normal_only, hforest.shared_only,
    hforest.groups⟩, fun key => ?_, fun other key => ?_, fun other => ?_, fun other key hkey =>
      h.filters other key ((hmem other key).mp hkey).2⟩, hremoved⟩
  · rw [hremoved]
    exact (h.once key).sub_remove_leaf
  · rw [hmem, hremoved, has_leaf_sub_remove_leaf (h.once key), h.listed]
  · rw [hkept]
    by_cases hother : other = context
    · rw [hother, Function.update_self]
      exact List.nodup_nil
    · rw [Function.update_of_ne hother]
      exact h.listed_once other

/-- A message leaves the names of the groups as they are, and their order. -/
theorem names_subs_shared_process (shared : List (Text × List mosquitto_subleaf)) :
    (subs_shared_process m shared).1.map Prod.fst = shared.map Prod.fst := by
  induction shared with
  | nil => rfl
  | cons group shared ih =>
    obtain ⟨name, _ | ⟨leaf, leaves⟩⟩ := group
    · simp [subs_shared_process, ih]
    · simp [subs_shared_process, ih]

/-- In each group the turn goes on by one member, whether the message was handed to it or not. -/
theorem subs_shared_process_eq (shared : List (Text × List mosquitto_subleaf)) :
    (subs_shared_process m shared).1 = shared.map fun group => (group.1, group.2.rotate 1) := by
  induction shared with
  | nil => rfl
  | cons group shared ih =>
    obtain ⟨name, _ | ⟨leaf, leaves⟩⟩ := group
    · simp [subs_shared_process, ih]
    · simp [subs_shared_process, ih, List.rotate_cons_succ]

/-- In each group the first member is served, and no other one. A group without members gets
nothing. -/
theorem deliveries_subs_shared_process (shared : List (Text × List mosquitto_subleaf)) :
    (subs_shared_process m shared).2 =
      shared.flatMap fun group => (group.2.head?.toList).flatMap (subs_send · m) := by
  induction shared with
  | nil => rfl
  | cons group shared ih =>
    obtain ⟨name, _ | ⟨leaf, leaves⟩⟩ := group
    · simp [subs_shared_process, ih]
    · simp [subs_shared_process, ih]

/-- And the first member goes to the end of its group, which keeps all of its members. -/
theorem sub_group_subs_process (sharename : Text) (node : mosquitto_subnode) :
    sub_group sharename (subs_process m node).1 = (sub_group sharename node).rotate 1 := by
  have hshared : (subs_process m node).1.shared =
      node.shared.map fun group => (group.1, group.2.rotate 1) := subs_shared_process_eq node.shared
  rw [sub_group, hshared, find_map_snd fun leaves : List mosquitto_subleaf => leaves.rotate 1,
    sub_group]
  cases find sharename node.shared with
  | none => rfl
  | some leaves => rfl

/-- The groups of a node stay as they should be: none is empty, and no name is there twice. -/
theorem Groups.subs_process {node : mosquitto_subnode} (h : Groups node) :
    Groups (subs_process m node).1 where
  names := by
    rw [mosquitto.subs_process, names_subs_shared_process]
    exact h.names
  members := by
    intro group hmem
    rw [mosquitto.subs_process, subs_shared_process_eq] at hmem
    obtain ⟨old, hold, rfl⟩ := List.mem_map.mp hmem
    simpa using h.members old hold

/-- A node without groups is not changed by a message. -/
theorem subs_process_normal {node : mosquitto_subnode} (h : node.shared = []) :
    (subs_process m node).1 = node := by
  rw [subs_process, h]
  exact mosquitto_subnode.ext rfl h.symm

/-- Whose turn it is goes on in the groups of the filters that match, and nothing
else changes. -/
theorem SubForest.queue (h : SubForest db) {name : Text} {topics : List Text}
    (hplain : Plain wildcards (name :: topics)) :
    SubForest (sub_messages_queue_subs m (name :: topics) db).1 ∧
      ∀ key, leaves_at (sub_messages_queue_subs m (name :: topics) db).1 key =
        if key.shared.isSome ∧ key.hier ∈ matching wildcards (name :: topics) then
          (leaves_at db key).rotate 1
        else leaves_at db key := by
  have hnormal := sub_search_subs_searched (m := m) h.normal hplain
  have hshared := sub_search_subs_searched (m := m) h.shared hplain
  have hnormalNode (filter : List Text) :
      node_at (sub_messages_queue_subs m (name :: topics) db).1.normal_subs filter =
        node_at db.normal_subs filter := by
    refine (hnormal.node_at filter).trans ?_
    split
    · exact subs_process_normal (h.normal_only filter)
    · rfl
  have hsharedNode (filter : List Text) :
      node_at (sub_messages_queue_subs m (name :: topics) db).1.shared_subs filter =
        if filter ∈ matching wildcards (name :: topics) then
          (subs_process m (node_at db.shared_subs filter)).1
        else node_at db.shared_subs filter := hshared.node_at filter
  refine ⟨⟨hnormal.trees, hshared.trees, fun filter => ?_, fun filter => ?_, fun filter => ?_⟩, ?_⟩
  · rw [hnormalNode]
    exact h.normal_only filter
  · rw [hsharedNode]
    split
    · exact h.shared_only filter
    · exact h.shared_only filter
  · rw [hsharedNode]
    split
    · exact (h.groups filter).subs_process
    · exact h.groups filter
  · rintro ⟨filter, _ | sharename⟩
    · simp only [leaves_at, hnormalNode, Option.isSome_none, Bool.false_eq_true, false_and, if_false]
    · simp only [leaves_at, hsharedNode, Option.isSome_some, true_and]
      split
      · exact sub_group_subs_process sharename _
      · rfl

/-- The order of the leaves has no part in there being one for each client. -/
theorem Once.rotate {leaves : List mosquitto_subleaf} (h : Once leaves) (n : Nat) :
    Once (leaves.rotate n) := by
  rw [Once, List.map_rotate]
  exact List.nodup_rotate.mpr h

/-- The search for one list of levels keeps what is asked of the trees. The levels must not be
wildcards. -/
theorem Subs.queue (h : Subs db) {name : Text} {topics : List Text}
    (hplain : Plain wildcards (name :: topics)) :
    Subs (sub_messages_queue_subs m (name :: topics) db).1 := by
  obtain ⟨hforest, hleaves⟩ := h.forest.queue (m := m) hplain
  refine ⟨hforest, fun key => ?_, fun other key => ?_, h.listed_once, h.filters⟩
  · rw [hleaves]
    split
    · exact (h.once key).rotate 1
    · exact h.once key
  · refine (h.listed other key).trans ?_
    rw [hleaves]
    split
    · simp [has_leaf]
    · exact Iff.rfl

/-- Each leaf is handed the message, where reading the topic is allowed, with its own QoS and
options. -/
theorem flatMap_subs_send
    (hread : mosquitto_acl_check m.topic .MOSQ_ACL_READ = .MOSQ_ERR_SUCCESS)
    (leaves : List mosquitto_subleaf) :
    leaves.flatMap (subs_send · m) = leaves.map (delivery_to · m) := by
  induction leaves with
  | nil => rfl
  | cons leaf leaves ih =>
    rw [List.flatMap_cons, ih, subs_send, if_pos hread]
    rfl

/-- At one node, a client gets the message by its own subscription only, and not at all if it wants
none of its own messages. -/
theorem filter_deliveries_normal {node : mosquitto_subnode} (h : Once node.subs)
    (hnode : node.shared = []) (hsource : m.source_id.isSome = true)
    (hread : mosquitto_acl_check m.topic .MOSQ_ACL_READ = .MOSQ_ERR_SUCCESS) (context : Text) :
    (subs_process m node).2.deliveries.filter (fun delivery => delivery.context = context) =
      (((leaf_of context node.subs).filter fun leaf => !is_local m leaf).map
        (delivery_to · m)).toList := by
  have hcontext (leaf : mosquitto_subleaf) : (delivery_to leaf m).context = leaf.context := rfl
  rw [subs_process, hnode, if_pos hsource, flatMap_subs_send hread]
  simp only [subs_shared_process, List.nil_append, List.filter_map, Function.comp_def, hcontext]
  rw [List.filter_comm, filter_context h]
  cases leaf_of context node.subs with
  | none => rfl
  | some leaf =>
    by_cases hlocal : is_local m leaf = true
    · simp [hlocal]
    · simp [Option.filter_some, hlocal]

/-- The groups that a message is for. -/
def groups_of (db : mosquitto_subs) (filters : List (List Text)) : List mosquitto_client_sub :=
  filters.flatMap fun filter =>
    (node_at db.shared_subs filter).shared.map fun group => ⟨filter, some group.1⟩

/-- The members of a group that a node has are the leaves of its key. -/
theorem leaves_at_of_mem (h : SubForest db) {filter : List Text}
    {group : Text × List mosquitto_subleaf}
    (hgroup : group ∈ (node_at db.shared_subs filter).shared) :
    leaves_at db ⟨filter, some group.1⟩ = group.2 := by
  rw [leaves_at_some, sub_group, find_eq_some_of_mem (h.groups filter).names hgroup]
  rfl

/-- The groups at some filters are the shared keys with one of these filters and a member. -/
theorem mem_groups_of (h : SubForest db) {filters : List (List Text)} (key : mosquitto_client_sub) :
    key ∈ groups_of db filters ↔
      key.shared.isSome = true ∧ key.hier ∈ filters ∧ leaves_at db key ≠ [] := by
  rw [groups_of, List.mem_flatMap]
  constructor
  · rintro ⟨filter, hfilter, hkey⟩
    obtain ⟨group, hgroup, rfl⟩ := List.mem_map.mp hkey
    refine ⟨rfl, hfilter, ?_⟩
    rw [leaves_at_of_mem h hgroup]
    exact (h.groups filter).members group hgroup
  · obtain ⟨filter, sharename⟩ := key
    rintro ⟨hshared, hfilter, hleaves⟩
    obtain ⟨sharename, rfl⟩ := Option.isSome_iff_exists.mp hshared
    refine ⟨filter, hfilter, ?_⟩
    rw [leaves_at_some, sub_group] at hleaves
    cases hfind : find sharename (node_at db.shared_subs filter).shared with
    | none =>
      rw [hfind] at hleaves
      exact absurd rfl hleaves
    | some leaves => exact List.mem_map.mpr ⟨(sharename, leaves), mem_of_find hfind, rfl⟩

/-- None of them is there twice if no filter is, since a group belongs to one filter. -/
theorem nodup_groups_of (h : SubForest db) {filters : List (List Text)} (hfilters : filters.Nodup) :
    (groups_of db filters).Nodup := by
  rw [groups_of, List.nodup_flatMap]
  constructor
  · intro filter _
    have hnames := (h.groups filter).names
    rw [show (fun group : Text × List mosquitto_subleaf =>
      (⟨filter, some group.1⟩ : mosquitto_client_sub)) =
        (fun name => ⟨filter, some name⟩) ∘ Prod.fst from rfl, ← List.map_map]
    apply hnames.map
    intro first second heq
    simpa using heq
  · refine hfilters.imp ?_
    intro first second hne key hfirst hsecond
    obtain ⟨_, _, rfl⟩ := List.mem_map.mp hfirst
    obtain ⟨_, _, heq⟩ := List.mem_map.mp hsecond
    exact hne (congrArg mosquitto_client_sub.hier heq).symm

/-- Each group gets the message once, by the member whose turn it is, in the order in which the
nodes are searched. -/
theorem deliveries_shared (h : SubForest db)
    (hread : mosquitto_acl_check m.topic .MOSQ_ACL_READ = .MOSQ_ERR_SUCCESS)
    (filters : List (List Text)) :
    (filters.flatMap fun filter => (subs_process m (node_at db.shared_subs filter)).2.deliveries) =
      (groups_of db filters).filterMap fun key => (leaves_at db key).head?.map (delivery_to · m) := by
  rw [groups_of, List.filterMap_flatMap]
  apply List.flatMap_congr
  intro filter _
  rw [List.filterMap_map, subs_process, h.shared_only filter, deliveries_subs_shared_process]
  simp only [List.filter_nil, List.flatMap_nil, ite_self, List.append_nil]
  rw [List.filterMap_eq_flatMap_toList]
  apply List.flatMap_congr
  intro group hgroup
  rw [flatMap_subs_send hread, Function.comp_apply, leaves_at_of_mem h hgroup]
  cases group.2.head? with
  | none => rfl
  | some leaf => rfl

end communication_center.mosquitto
