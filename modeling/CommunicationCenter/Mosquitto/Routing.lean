import CommunicationCenter.Mosquitto.Subscribers

open libc trie wildcard

namespace communication_center.mosquitto

/-- What the clients do with the subscriptions, and the messages that are published. -/
inductive sub_op where
  | subscribe (context : Text) (protocol : mosquitto_protocol) (sub : Text) (qos : UInt8)
      (identifier : UInt32) (options : UInt8)
  | unsubscribe (context sub : Text)
  | clean (context : Text)
  | publish (m : routed_msg)

/-- The filters that the handlers of SUBSCRIBE and UNSUBSCRIBE let through. -/
def can_subscribe (sub : Text) : Bool :=
  sub ≠ [] && mosquitto_sub_topic_check sub = .MOSQ_ERR_SUCCESS

/-- The topics that the handler of PUBLISH lets through, and besides them those below
`$CONTROL/`, which it refuses only after these checks. -/
def can_publish (topic : Text) : Bool :=
  topic ≠ [] && mosquitto_pub_topic_check topic = .MOSQ_ERR_SUCCESS &&
    mosquitto_acl_check topic .MOSQ_ACL_WRITE = .MOSQ_ERR_SUCCESS

def sub_messages_queue (m : routed_msg) (db : mosquitto_subs) : mosquitto_subs × search_result :=
  match sub_topic_tokenise m.topic with
  | .error _ => (db, .nothing)
  | .ok (topics, _) => sub_messages_queue_subs m topics db

def sub_step (db : mosquitto_subs) : sub_op → mosquitto_subs
  | .subscribe context protocol sub qos identifier options =>
    if can_subscribe sub then (sub_add context protocol sub qos identifier options db).2 else db
  | .unsubscribe context sub =>
    if can_subscribe sub then (sub_remove context sub 0 db).2.2 else db
  | .clean context => sub_clean_session context db
  | .publish m => if can_publish m.topic then (sub_messages_queue m db).1 else db

def sub_run (ops : List sub_op) : mosquitto_subs :=
  ops.foldl sub_step db_subs

/-- The node and group that a filter stands for. -/
def csub_of (sub : Text) : Option mosquitto_client_sub :=
  match sub_topic_tokenise sub with
  | .ok (topics, sharename) => if can_subscribe sub then some ⟨topics, sharename⟩ else none
  | .error _ => none

/-- Who is subscribed to what. -/
abbrev Subscriptions := Text → mosquitto_client_sub → Option mosquitto_subleaf

/-- Subscribing, unsubscribing and leaving, without trees. A subscription that is made again
gets the new QoS and identifier, but keeps no_local and retain_as_published of the first
SUBSCRIBE, as the code has it. -/
def Subscriptions.step (table : Subscriptions) : sub_op → Subscriptions
  | .subscribe context _ sub qos identifier options => fun other key =>
    if other = context ∧ some key = csub_of sub then
      some (sub_renewed context qos identifier options (table context key))
    else table other key
  | .unsubscribe context sub => fun other key =>
    if other = context ∧ some key = csub_of sub then none else table other key
  | .clean context => fun other key => if other = context then none else table other key
  | .publish _ => table

def subscriptions (ops : List sub_op) : Subscriptions :=
  ops.foldl Subscriptions.step fun _ _ => none

/-- The table that is kept in the trees. -/
def table_of (db : mosquitto_subs) : Subscriptions :=
  fun context key => leaf_of context (leaves_at db key)

/-- A text that begins with a dollar has no first level of one other character. -/
theorem head?_levels_ne {c : UInt8} (hdollar : c ≠ dollar) {text : Text}
    (h : text.head? = some dollar) : (text.splitOn separator).head? ≠ some [c] := by
  obtain ⟨rest, hlevel⟩ := level_of_dollar h
  rw [splitOn_eq, hlevel, List.head?_cons]
  intro heq
  exact hdollar (List.cons.inj (Option.some.inj heq)).1.symm

/-- No level of a text is longer than the text. -/
theorem length_of_mem_levels {level text : Text} (h : level ∈ text.splitOn separator) :
    level.length ≤ text.length := by
  obtain ⟨before, after, heq⟩ := exists_of_mem_levels h
  rw [List.intercalate_splitOn] at heq
  rw [heq, List.length_append, List.length_append]
  omega

/-- What stands in a later part of a list, but not at its end, stands in the list but not at its
end. -/
theorem mem_dropLast_of_drop {T : Type} {x : T} {list : List T} {n : Nat}
    (h : x ∈ (list.drop n).dropLast) : x ∈ list.dropLast := by
  induction list generalizing n with
  | nil => simp at h
  | cons y list ih =>
    cases n with
    | zero => exact h
    | succ n =>
      have hmem := ih h
      cases list with
      | nil => exact absurd hmem List.not_mem_nil
      | cons z list => exact List.mem_cons_of_mem _ hmem

/-- The filters that can be subscribed to are those that are not empty and pass the check of the
broker. -/
theorem can_subscribe_iff (sub : Text) : can_subscribe sub = true ↔
    sub ≠ [] ∧ mosquitto_sub_topic_check sub = .MOSQ_ERR_SUCCESS := by
  simp [can_subscribe]

/-- The topics that can be published on are those that are not empty and pass both checks of the
broker, for wildcards and for access. -/
theorem can_publish_iff (topic : Text) : can_publish topic = true ↔
    topic ≠ [] ∧ mosquitto_pub_topic_check topic = .MOSQ_ERR_SUCCESS ∧
      mosquitto_acl_check topic .MOSQ_ACL_WRITE = .MOSQ_ERR_SUCCESS := by
  simp [can_publish, and_assoc]

/-- A filter with its wildcards in their places has a hash at most as its last level. -/
theorem hash_notMem_split_topics {sub : Text} (h : WellPlaced 0 sub) :
    [hash] ∉ (split_topics sub).dropLast := by
  have hlevels := h.hash_notMem
  unfold split_topics
  split
  · exact hlevels
  · rw [splitOn_eq] at hlevels ⊢
    rw [List.dropLast_cons_cons]
    rintro (_ | ⟨_, hmem⟩)
    exact hlevels hmem

/-- The first part of a text is never a wildcard, as the level in front of it is empty or has the
dollar. -/
theorem head?_split_topics_ne {c : UInt8} (hdollar : c ≠ dollar) (text : Text) :
    (split_topics text).head? ≠ some [c] := by
  unfold split_topics
  split
  · rename_i h
    exact head?_levels_ne hdollar h
  · simp

/-- Every text is split into at least one part. -/
theorem split_topics_ne_nil (text : Text) : split_topics text ≠ [] := by
  unfold split_topics
  rw [splitOn_eq]
  split
  · exact List.cons_ne_nil _ _
  · exact List.cons_ne_nil _ _

/-- The levels of a text of at most 65535 bytes fit the nodes, which keep their lengths in 16 bits.
-/
theorem fits_hier_split_topics {text level : Text} (h : text.length ≤ 65535)
    (hmem : level ∈ split_topics text) : fits_hier level = true := by
  have hfits (level : Text) (hlevel : level ∈ text.splitOn separator) : fits_hier level = true :=
    decide_eq_true ((length_of_mem_levels hlevel).trans h)
  unfold split_topics at hmem
  split at hmem
  · exact hfits level hmem
  · obtain rfl | hlevel := List.mem_cons.mp hmem
    · rfl
    · exact hfits level hlevel

/-- The levels of a filter, and the group of a shared one. A filter with `$share` as its first
level is a shared one in any case. -/
theorem sub_topic_tokenise_cases {subtopic : Text} {topics : List Text} {sharename : Option Text}
    (h : sub_topic_tokenise subtopic = .ok (topics, sharename)) :
    topics = split_topics subtopic ∧ sharename = none ∧
        (split_topics subtopic).head? ≠ some (ascii "$share") ∨
      topics = [] :: (split_topics subtopic).drop 2 ∧
        (split_topics subtopic).head? = some (ascii "$share") := by
  unfold sub_topic_tokenise at h
  split at h
  · cases h
  · split at h
    · rename_i hshare
      split at h
      · cases h
      · obtain ⟨rfl, -⟩ := Prod.mk.inj (Except.ok.inj h)
        exact Or.inr ⟨rfl, hshare⟩
    · rename_i hshare
      obtain ⟨rfl, rfl⟩ := Prod.mk.inj (Except.ok.inj h)
      exact Or.inl ⟨rfl, rfl, hshare⟩

/-- What a filter that can be subscribed to leads to: levels with the wildcards in their places,
each short enough for a node. It may be a shared one. -/
theorem filter_of_tokenise {sub : Text} {topics : List Text} {sharename : Option Text}
    (h : sub_topic_tokenise sub = .ok (topics, sharename)) (hsub : can_subscribe sub = true) :
    Filter topics ∧ topics.all fits_hier = true := by
  obtain ⟨-, hcheck⟩ := (can_subscribe_iff sub).mp hsub
  obtain ⟨hplaced, hlength, -⟩ := (mosquitto_sub_topic_check_iff sub).mp hcheck
  have hlast := hash_notMem_split_topics hplaced
  have hplus : plus ≠ dollar := by decide
  have hhash : hash ≠ dollar := by decide
  obtain ⟨rfl, -, -⟩ | ⟨rfl, -⟩ := sub_topic_tokenise_cases h
  · refine ⟨⟨split_topics_ne_nil sub, ⟨head?_split_topics_ne hplus sub, head?_split_topics_ne hhash sub⟩,
      hlast⟩, ?_⟩
    apply List.all_eq_true.mpr
    exact fun level hmem => fits_hier_split_topics hlength hmem
  · refine ⟨⟨List.cons_ne_nil _ _, by simp, fun hmem => ?_⟩, ?_⟩
    · apply hlast
      cases hrest : (split_topics sub).drop 2 with
      | nil =>
        rw [hrest] at hmem
        exact absurd hmem List.not_mem_nil
      | cons first rest =>
        rw [hrest, List.dropLast_cons_cons, ← hrest] at hmem
        obtain heq | hmem := List.mem_cons.mp hmem
        · cases heq
        · exact mem_dropLast_of_drop hmem
    · apply List.all_eq_true.mpr
      intro level hmem
      obtain rfl | hmem := List.mem_cons.mp hmem
      · rfl
      · exact fits_hier_split_topics hlength (List.mem_of_mem_drop hmem)

/-- A topic that can be published on has only plain levels, and no group, so that its levels are
those at which the trees look. -/
theorem tokenise_of_can_publish {topic : Text} (h : can_publish topic = true) :
    sub_topic_tokenise topic = .ok (split_topics topic, none) ∧
      Plain wildcards (split_topics topic) := by
  obtain ⟨hne, hcheck, hwrite⟩ := (can_publish_iff topic).mp h
  obtain ⟨hplus, hhash, -⟩ := (mosquitto_pub_topic_check_iff topic).mp hcheck
  have hplain := plain_levels hplus hhash
  have hshare : (split_topics topic).head? ≠ some (ascii "$share") := by
    intro hhead
    unfold split_topics at hhead
    split at hhead
    · rw [splitOn_eq, List.head?_cons] at hhead
      have htopic := List.takeWhile_append_dropWhile (p := (· ≠ separator)) (l := topic)
      rw [← level, Option.some.inj hhead] at htopic
      exact ne_share_of_write hwrite htopic.symm
    · cases hhead
  constructor
  · rw [sub_topic_tokenise, if_neg hne, if_neg hshare]
  · unfold split_topics
    split
    · exact hplain
    · refine ⟨fun hmem => ?_, fun hmem => ?_⟩
      · obtain heq | hmem := List.mem_cons.mp hmem
        · cases heq
        · exact hplain.1 hmem
      · obtain heq | hmem := List.mem_cons.mp hmem
        · cases heq
        · exact hplain.2 hmem

/-- Where there is no tree for the first part of a filter, nobody is subscribed to it. -/
theorem node_at_of_find_none {subs : List (Text × mosquitto_subhier)} {filter : List Text}
    (h : find (filter.headD []) subs = none) : node_at subs filter = .new := by
  rw [node_at, sub_root, root_of_find_none h, Trie.get_leaf]

/-- Trees of single new nodes with distinct names meet what is asked of the subscription trees. -/
theorem subTrees_of_leaves {subs : List (Text × mosquitto_subhier)}
    (hkeys : (subs.map Prod.fst).Nodup) (hplain : Plain wildcards (subs.map Prod.fst))
    (hleaves : ∀ entry ∈ subs, entry.2 = .node .new []) : SubTrees subs where
  rooted := rooted_of_leaves hkeys hleaves
  plain := hplain
  terminal := by
    intro entry hmem
    rw [hleaves entry hmem]
    exact Trie.terminal_leaf _ _

/-- In trees of single new nodes nobody is subscribed to anything. -/
theorem node_at_of_leaves {subs : List (Text × mosquitto_subhier)}
    (hleaves : ∀ entry ∈ subs, entry.2 = .node .new []) (filter : List Text) :
    node_at subs filter = .new :=
  get_root_of_leaves hleaves _ filter

/-- After the start nobody is subscribed to anything, for no filter and no group. -/
theorem leaves_at_db_subs (key : mosquitto_client_sub) : leaves_at db_subs key = [] := by
  have hnormal (filter : List Text) : node_at db_subs.normal_subs filter = .new :=
    node_at_of_leaves (by simp [db_subs]) filter
  have hshared (filter : List Text) : node_at db_subs.shared_subs filter = .new :=
    node_at_of_leaves (by simp [db_subs]) filter
  obtain ⟨filter, _ | sharename⟩ := key
  · rw [leaves_at_none, hnormal]
    rfl
  · rw [leaves_at_some, hshared]
    rfl

/-- At the start nobody is subscribed to anything, and the trees and arrays are in order. -/
theorem subs_db_subs : Subs db_subs where
  forest :=
    { normal := subTrees_of_leaves (by decide) ⟨by decide, by decide⟩ (by simp [db_subs])
      shared := subTrees_of_leaves (by decide) ⟨by decide, by decide⟩ (by simp [db_subs])
      normal_only := fun filter => by
        rw [node_at_of_leaves (by simp [db_subs])]
        rfl
      shared_only := fun filter => by
        rw [node_at_of_leaves (by simp [db_subs])]
        rfl
      groups := fun filter => by
        rw [node_at_of_leaves (by simp [db_subs])]
        exact ⟨List.nodup_nil, fun _ hmem => nomatch hmem⟩ }
  once := fun key => by
    rw [leaves_at_db_subs]
    exact List.nodup_nil
  listed := fun context key => by
    rw [leaves_at_db_subs]
    simp [db_subs, has_leaf]
  listed_once := fun context => List.nodup_nil
  filters := fun context key hmem => nomatch hmem

variable {db : mosquitto_subs} {context sub : Text} {protocol : mosquitto_protocol}
  {qos options : UInt8} {identifier : UInt32}

/-- The subscription of a filter is what `sub__topic_tokenise` makes of it, with the group of a
shared one. -/
theorem csub_of_eq {topics : List Text} {sharename : Option Text}
    (h : sub_topic_tokenise sub = .ok (topics, sharename)) (hsub : can_subscribe sub = true) :
    csub_of sub = some ⟨topics, sharename⟩ := by
  rw [csub_of, h]
  exact if_pos hsub

/-- A filter that cannot be split is no subscription. -/
theorem csub_of_error {rc : mosq_err_t} (h : sub_topic_tokenise sub = .error rc) :
    csub_of sub = none := by
  rw [csub_of, h]

/-- Nor is one that the broker refuses. -/
theorem csub_of_not (h : ¬ can_subscribe sub = true) : csub_of sub = none := by
  rw [csub_of]
  split
  · rw [if_neg h]
  · rfl

/-- The table after the subscribers of one filter and group were changed: it is changed there only,
for all clients. -/
theorem table_of_altered {csub : mosquitto_client_sub}
    {f : List mosquitto_subleaf → List mosquitto_subleaf} {altered : mosquitto_subs}
    (h : Altered csub f db altered) (other : Text) (key : mosquitto_client_sub) :
    table_of altered other key =
      if key = csub then leaf_of other (f (leaves_at db csub)) else table_of db other key := by
  rw [table_of, h.leaves_at]
  split
  · rfl
  · rfl

/-- A SUBSCRIBE for one filter keeps what is asked of the trees, and changes the table of
subscriptions as the table's own step says. -/
theorem Subs.subscribe (h : Subs db) :
    Subs (sub_step db (.subscribe context protocol sub qos identifier options)) ∧
      table_of (sub_step db (.subscribe context protocol sub qos identifier options)) =
        (table_of db).step (.subscribe context protocol sub qos identifier options) := by
  by_cases hsub : can_subscribe sub = true
  swap
  · rw [sub_step, if_neg hsub]
    refine ⟨h, ?_⟩
    funext other key
    simp [Subscriptions.step, csub_of_not hsub]
  rw [sub_step, if_pos hsub, sub_add]
  cases htokens : sub_topic_tokenise sub with
  | error rc =>
    refine ⟨h, ?_⟩
    funext other key
    simp [Subscriptions.step, csub_of_error htokens]
  | ok tokens =>
    obtain ⟨topics, sharename⟩ := tokens
    obtain ⟨hfilter, hfits⟩ := filter_of_tokenise htokens hsub
    have hfirst : fits_hier (topics.headD []) = true := by
      apply List.all_eq_true.mp hfits
      exact List.mem_of_mem_head? hfilter.head?_eq
    simp only [hfirst, hfits, Bool.not_true, Bool.false_eq_true, if_false]
    have hadded (added : mosquitto_subs) (haltered : Altered ⟨topics, sharename⟩
        (fun leaves => (sub_add_leaf context qos identifier options leaves).1) db added)
        (hsubs : added.subs = sub_add_csub context ⟨topics, sharename⟩
          (sub_add_leaf context qos identifier options (leaves_at db ⟨topics, sharename⟩)).2 db.subs) :
        Subs added ∧ table_of added =
          (table_of db).step (.subscribe context protocol sub qos identifier options) := by
      refine ⟨h.add hfilter haltered hsubs, ?_⟩
      funext other key
      rw [table_of_altered haltered, Subscriptions.step, csub_of_eq htokens hsub,
        leaf_of_sub_add_leaf]
      by_cases hkey : key = ⟨topics, sharename⟩
      · subst hkey
        simp only [if_true, and_true, table_of]
      · simp only [Option.some.injEq, hkey, and_false, if_false]
    cases sharename with
    | none => exact hadded _ (h.forest.sub_add_normal hfilter) rfl
    | some sharename => exact hadded _ (h.forest.sub_add_shared hfilter) rfl

/-- Where there is no tree for a key, there are no subscriptions with it. -/
theorem leaves_at_of_find_none {topics : List Text} {sharename : Option Text}
    (h : find (topics.headD []) (if sharename.isSome then db.shared_subs else db.normal_subs) = none) :
    leaves_at db ⟨topics, sharename⟩ = [] := by
  cases sharename with
  | none =>
    have hnew : node_at db.normal_subs topics = .new := node_at_of_find_none h
    rw [leaves_at_none, hnew]
    rfl
  | some sharename =>
    have hnew : node_at db.shared_subs topics = .new := node_at_of_find_none h
    rw [leaves_at_some, hnew]
    rfl

/-- An UNSUBSCRIBE for one filter does the same. It takes the subscription away, if there was one,
with all nodes that it leaves empty. -/
theorem Subs.unsubscribe (h : Subs db) :
    Subs (sub_step db (.unsubscribe context sub)) ∧
      table_of (sub_step db (.unsubscribe context sub)) =
        (table_of db).step (.unsubscribe context sub) := by
  by_cases hsub : can_subscribe sub = true
  swap
  · rw [sub_step, if_neg hsub]
    refine ⟨h, ?_⟩
    funext other key
    simp [Subscriptions.step, csub_of_not hsub]
  rw [sub_step, if_pos hsub, sub_remove]
  cases htokens : sub_topic_tokenise sub with
  | error rc =>
    refine ⟨h, ?_⟩
    funext other key
    simp [Subscriptions.step, csub_of_error htokens]
  | ok tokens =>
    obtain ⟨topics, sharename⟩ := tokens
    obtain ⟨hfilter, -⟩ := filter_of_tokenise htokens hsub
    have hmissing (hnone : leaves_at db ⟨topics, sharename⟩ = []) :
        Subs db ∧ table_of db = (table_of db).step (.unsubscribe context sub) := by
      refine ⟨h, ?_⟩
      funext other key
      rw [Subscriptions.step, csub_of_eq htokens hsub]
      by_cases hkey : key = ⟨topics, sharename⟩
      · subst hkey
        simp [table_of, hnone]
      · simp only [Option.some.injEq, hkey, and_false, if_false]
    have hremoved (removed : mosquitto_subs)
        (haltered : Altered ⟨topics, sharename⟩ (sub_remove_leaf context) db removed)
        (hsubs : removed.subs = if has_leaf context (leaves_at db ⟨topics, sharename⟩) then
          sub_remove_csub context ⟨topics, sharename⟩ db.subs else db.subs) :
        Subs removed ∧ table_of removed = (table_of db).step (.unsubscribe context sub) := by
      refine ⟨h.remove haltered hsubs, ?_⟩
      funext other key
      rw [table_of_altered haltered, Subscriptions.step, csub_of_eq htokens hsub,
        leaf_of_sub_remove_leaf (h.once _)]
      by_cases hkey : key = ⟨topics, sharename⟩
      · subst hkey
        simp only [if_true, and_true, table_of]
      · simp only [Option.some.injEq, hkey, and_false, if_false]
    cases sharename with
    | none =>
      simp only
      split
      · rename_i hnone
        exact hmissing (leaves_at_of_find_none (by simpa using hnone))
      · exact hremoved _ (h.forest.sub_remove_normal hfilter _) rfl
    | some sharename =>
      simp only
      split
      · rename_i hnone
        exact hmissing (leaves_at_of_find_none (by simpa using hnone))
      · exact hremoved _ (h.forest.sub_remove_shared hfilter _) rfl

/-- The order of the leaves does not matter for the one of a client, as each client has at most
one. -/
theorem leaf_of_rotate {leaves : List mosquitto_subleaf} (h : Once leaves) (n : Nat)
    (context : Text) : leaf_of context (leaves.rotate n) = leaf_of context leaves := by
  ext leaf
  rw [leaf_of_eq_some_iff (h.rotate n), leaf_of_eq_some_iff h, List.mem_rotate]

/-- A message goes to the subscribers of the filters that match its topic. -/
theorem sub_messages_queue_eq {m : routed_msg} (h : can_publish m.topic = true) :
    sub_messages_queue m db = sub_messages_queue_subs m (split_topics m.topic) db := by
  rw [sub_messages_queue, (tokenise_of_can_publish h).1]

/-- The parts of a topic are a first one and the others. -/
theorem exists_split_topics (topic : Text) :
    ∃ name topics, split_topics topic = name :: topics :=
  List.exists_cons_of_ne_nil (split_topics_ne_nil topic)

/-- A message keeps what is asked of the trees and everybody's subscriptions. Only the order in the
groups changes. -/
theorem Subs.publish (h : Subs db) (m : routed_msg) : Subs (sub_step db (.publish m)) ∧
    table_of (sub_step db (.publish m)) = (table_of db).step (.publish m) := by
  rw [sub_step]
  by_cases hpublish : can_publish m.topic = true
  swap
  · rw [if_neg hpublish]
    exact ⟨h, rfl⟩
  have hplain := (tokenise_of_can_publish hpublish).2
  obtain ⟨name, topics, hsplit⟩ := exists_split_topics m.topic
  rw [if_pos hpublish, sub_messages_queue_eq hpublish]
  rw [hsplit] at hplain ⊢
  refine ⟨h.queue hplain, ?_⟩
  obtain ⟨-, hleaves⟩ := h.forest.queue (m := m) hplain
  funext other key
  rw [table_of, hleaves]
  split
  · exact leaf_of_rotate (h.once key) 1 other
  · rfl

/-- The table after the start is empty. -/
theorem table_of_db_subs : table_of db_subs = fun _ _ => none := by
  funext context key
  rw [table_of, leaves_at_db_subs]
  rfl

/-- The step lemma of the refinement: whatever the operation, the trees stay as they should be, and
the table read from them moves as the abstract table does. -/
theorem Subs.step (h : Subs db) (op : sub_op) :
    Subs (sub_step db op) ∧ table_of (sub_step db op) = (table_of db).step op := by
  cases op with
  | subscribe context protocol sub qos identifier options => exact h.subscribe
  | unsubscribe context sub => exact h.unsubscribe
  | publish m => exact h.publish m
  | clean context =>
    obtain ⟨hcleaned, hleaves⟩ := h.clean context
    refine ⟨hcleaned, ?_⟩
    funext other key
    change leaf_of other (leaves_at (sub_clean_session context db) key) = _
    rw [hleaves, leaf_of_sub_remove_leaf (h.once key)]
    rfl

/-- The trees hold the subscriptions that the clients have made, after any history of operations,
accepted or not. -/
theorem subs_sub_run (ops : List sub_op) :
    Subs (sub_run ops) ∧ table_of (sub_run ops) = subscriptions ops := by
  induction ops using List.reverseRecOn with
  | nil => exact ⟨subs_db_subs, table_of_db_subs⟩
  | append_singleton ops op ih =>
    obtain ⟨hsubs, htable⟩ := ih
    rw [sub_run, subscriptions, List.foldl_concat, List.foldl_concat, ← sub_run, ← subscriptions,
      ← htable]
    exact hsubs.step op

/-- The member of a group whose turn it is. -/
def turn (db : mosquitto_subs) (key : mosquitto_client_sub) : Option mosquitto_subleaf :=
  (leaves_at db key).head?

/-- What is queued for a message, by the table of the subscriptions: for each
client the filters of its own that match, and for each group with members the one
whose turn it is. -/
structure Routed (table : Subscriptions) (turn : mosquitto_client_sub → Option mosquitto_subleaf)
    (m : routed_msg) (normal shared : List delivery) : Prop where
  normal : ∀ context, normal.filter (fun delivery => delivery.context = context) =
    (matching wildcards (split_topics m.topic)).filterMap fun filter =>
      ((table context ⟨filter, none⟩).filter fun leaf => !is_local m leaf).map (delivery_to · m)
  member : ∀ key leaf, turn key = some leaf → table leaf.context key = some leaf
  shared : ∃ groups : List mosquitto_client_sub, groups.Nodup ∧
    (∀ key, key ∈ groups ↔ key.shared.isSome = true ∧
      key.hier ∈ matching wildcards (split_topics m.topic) ∧ ∃ context, (table context key).isSome) ∧
    groups.map (fun key => (turn key).map (delivery_to · m)) = shared.map some

/-- A list of leaves has one exactly if some client has a leaf in it. -/
theorem ne_nil_iff_exists_leaf {leaves : List mosquitto_subleaf} :
    leaves ≠ [] ↔ ∃ context, (leaf_of context leaves).isSome := by
  constructor
  · intro hne
    obtain ⟨leaf, rest, rfl⟩ := List.exists_cons_of_ne_nil hne
    exact ⟨leaf.context, by rw [leaf_of_cons_self rfl]; rfl⟩
  · rintro ⟨context, hleaf⟩ rfl
    cases hleaf

/-- A list on which a partial function is defined everywhere is mapped to what the function gives.
-/
theorem map_eq_map_some_filterMap {S T : Type} (g : S → Option T) (list : List S)
    (h : ∀ x ∈ list, (g x).isSome) : list.map g = (list.filterMap g).map some := by
  induction list with
  | nil => rfl
  | cons x list ih =>
    obtain ⟨y, hy⟩ := Option.isSome_iff_exists.mp (h x List.mem_cons_self)
    rw [List.map_cons, List.filterMap_cons_some hy, List.map_cons, hy,
      ih fun z hz => h z (List.mem_cons_of_mem _ hz)]

/-- In trees that are as they should be, a message goes where the table says. It has to have a
source, and a topic that can be published on. -/
theorem Subs.routed (h : Subs db) {m : routed_msg} (hsource : m.source_id.isSome = true)
    (hpublish : can_publish m.topic = true) :
    ∃ normal shared, (sub_messages_queue m db).2.deliveries = normal ++ shared ∧
      Routed (table_of db) (turn db) m normal shared := by
  obtain ⟨-, -, hwrite⟩ := (can_publish_iff m.topic).mp hpublish
  have hread := mosquitto_acl_check_read hwrite
  have hplain := (tokenise_of_can_publish hpublish).2
  obtain ⟨name, topics, hsplit⟩ := exists_split_topics m.topic
  rw [sub_messages_queue_eq hpublish]
  rw [hsplit] at hplain ⊢
  have hnormal := (sub_search_subs_searched (m := m) h.forest.normal hplain).deliveries
  have hshared := (sub_search_subs_searched (m := m) h.forest.shared hplain).deliveries
  rw [deliveries_shared h.forest hread] at hshared
  refine ⟨_, _, rfl, ⟨fun context => ?_, fun key leaf hturn => ?_, ?_⟩⟩
  · rw [hnormal, List.filter_flatMap, hsplit, List.filterMap_eq_flatMap_toList]
    apply List.flatMap_congr
    intro filter _
    exact filter_deliveries_normal (h.once ⟨filter, none⟩) (h.forest.normal_only filter) hsource
      hread context
  · exact (leaf_of_eq_some_iff (h.once key)).mpr ⟨List.mem_of_mem_head? hturn, rfl⟩
  · refine ⟨groups_of db (matching wildcards (name :: topics)),
      nodup_groups_of h.forest (nodup_matching hplain), fun key => ?_, ?_⟩
    · rw [mem_groups_of h.forest, hsplit, ne_nil_iff_exists_leaf]
      rfl
    · rw [hshared, map_eq_map_some_filterMap]
      · rfl
      · intro key hkey
        obtain ⟨-, -, hne⟩ := (mem_groups_of h.forest key).mp hkey
        obtain ⟨leaf, rest, heq⟩ := List.exists_cons_of_ne_nil hne
        rw [turn, heq]
        rfl

/-- After any history of subscriptions, a message goes to all whose filters match its topic, once
for each filter, and to nobody else. The message has a source, and its topic is one that can be
published on; nothing is assumed of the history. What goes to a client is handed on by
`subs__send`: whether the client gets it, with its limits and its connection, is no part of this.
-/
theorem routed_sub_run (ops : List sub_op) {m : routed_msg} (hsource : m.source_id.isSome = true)
    (hpublish : can_publish m.topic = true) :
    ∃ normal shared, (sub_messages_queue m (sub_run ops)).2.deliveries = normal ++ shared ∧
      Routed (subscriptions ops) (turn (sub_run ops)) m normal shared := by
  obtain ⟨hsubs, htable⟩ := subs_sub_run ops
  rw [← htable]
  exact hsubs.routed hsource hpublish

private def window_message : routed_msg :=
  ⟨some (ascii "publisher"), ascii "ESP32/window", 1, true⟩

private def board_subscriptions : List sub_op :=
  [.subscribe (ascii "board") .mosq_p_mqtt311 (ascii "ESP32/+") 1 0 0,
    .subscribe (ascii "logger") .mosq_p_mqtt5 (ascii "$share/log/#") 0 0 0]

theorem routed_sub_run_board :
    ∃ normal shared, (sub_messages_queue window_message (sub_run board_subscriptions)).2.deliveries =
        normal ++ shared ∧
      Routed (subscriptions board_subscriptions) (turn (sub_run board_subscriptions)) window_message
        normal shared :=
  routed_sub_run board_subscriptions rfl (by decide)

/-- The text matcher and the search of the trees agree on which filters match, by the levels of the
filter's text. Both the filter and the topic are ones that the broker accepts, and hold no NUL. A
filter that begins with `$share/` is kept at other levels, without its group, and is not what is
compared here. -/
theorem topic_matches_sub_eq_matching {sub topic : Text} (hsub : can_subscribe sub = true)
    (hnonzero : (0 : UInt8) ∉ sub) (htopic : can_publish topic = true) :
    mosquitto_topic_matches_sub sub topic =
      .ok (decide (split_topics sub ∈ matching wildcards (split_topics topic))) := by
  obtain ⟨hsubNe, hcheck⟩ := (can_subscribe_iff sub).mp hsub
  obtain ⟨hplaced, -⟩ := (mosquitto_sub_topic_check_iff sub).mp hcheck
  obtain ⟨htopicNe, hcheck, -⟩ := (can_publish_iff topic).mp htopic
  obtain ⟨hplus, hhash, -⟩ := (mosquitto_pub_topic_check_iff topic).mp hcheck
  obtain ⟨result, heq, hresult⟩ :=
    mosquitto_topic_matches_sub_iff hplaced hnonzero hplus hhash hsubNe htopicNe
  rw [heq]
  congr 1
  rw [Bool.eq_iff_iff, hresult, decide_eq_true_iff,
    mem_matching_iff (tokenise_of_can_publish htopic).2]
  exact ⟨fun hmatch => ⟨split_topics_ne_nil sub, hmatch⟩, And.right⟩

theorem topic_matches_sub_eq_matching_window :
    mosquitto_topic_matches_sub (ascii "ESP32/+/#") (ascii "ESP32/window") =
      .ok (decide (split_topics (ascii "ESP32/+/#") ∈
        matching wildcards (split_topics (ascii "ESP32/window")))) :=
  topic_matches_sub_eq_matching (by decide) (by decide) (by decide)

/-- Messages reach somebody exactly where a filter matches that somebody has, in a group or alone.
That alone decides whether the publisher is told that there are no subscribers. -/
theorem Subs.have_subscribers (h : Subs db) {m : routed_msg} (hpublish : can_publish m.topic = true) :
    (sub_messages_queue m db).2.have_subscribers = true ↔
      ∃ context key, key.hier ∈ matching wildcards (split_topics m.topic) ∧
        (table_of db context key).isSome := by
  have hplain := (tokenise_of_can_publish hpublish).2
  obtain ⟨name, topics, hsplit⟩ := exists_split_topics m.topic
  rw [sub_messages_queue_eq hpublish]
  rw [hsplit] at hplain ⊢
  have hnormal := (sub_search_subs_searched (m := m) h.forest.normal hplain).have_subscribers
  have hshared := (sub_search_subs_searched (m := m) h.forest.shared hplain).have_subscribers
  have hused (node : mosquitto_subnode) : (subs_process m node).2.have_subscribers = true ↔
      node.subs ≠ [] ∨ node.shared ≠ [] := by
    simp [subs_process, mosquitto_subnode.unused]
  change (_ || _) = true ↔ _
  rw [Bool.or_eq_true, hnormal, hshared, List.any_eq_true, List.any_eq_true]
  constructor
  · rintro (⟨filter, hfilter, hfound⟩ | ⟨filter, hfilter, hfound⟩)
    · have hne := ((hused _).mp hfound).resolve_right (not_not_intro (h.forest.normal_only filter))
      obtain ⟨context, hleaf⟩ := ne_nil_iff_exists_leaf.mp hne
      exact ⟨context, ⟨filter, none⟩, hfilter, hleaf⟩
    · have hne := ((hused _).mp hfound).resolve_left (not_not_intro (h.forest.shared_only filter))
      obtain ⟨group, rest, heq⟩ := List.exists_cons_of_ne_nil hne
      have hgroup : group ∈ (node_at db.shared_subs filter).shared := heq ▸ List.mem_cons_self
      have hleaves : leaves_at db ⟨filter, some group.1⟩ ≠ [] := by
        rw [leaves_at_of_mem h.forest hgroup]
        exact (h.forest.groups filter).members group hgroup
      obtain ⟨context, hleaf⟩ := ne_nil_iff_exists_leaf.mp hleaves
      exact ⟨context, ⟨filter, some group.1⟩, hfilter, hleaf⟩
  · rintro ⟨context, ⟨filter, sharename⟩, hfilter, hleaf⟩
    have hne := ne_nil_iff_exists_leaf.mpr ⟨context, hleaf⟩
    cases sharename with
    | none => exact Or.inl ⟨filter, hfilter, (hused _).mpr (Or.inl hne)⟩
    | some sharename =>
      refine Or.inr ⟨filter, hfilter, (hused _).mpr (Or.inr fun hshared => hne ?_)⟩
      rw [leaves_at_some, sub_group, hshared]
      rfl

/-- Whose turn it is at each of several messages. -/
def turns (key : mosquitto_client_sub) : mosquitto_subs → List routed_msg →
    List (Option mosquitto_subleaf)
  | _, [] => []
  | db, m :: ms => turn db key :: turns key (sub_step db (.publish m)) ms

/-- A message that is routed to a group. -/
def IsFor (key : mosquitto_client_sub) (m : routed_msg) : Prop :=
  can_publish m.topic = true ∧ key.hier ∈ matching wildcards (split_topics m.topic)

/-- A message for a group moves the first member of the group to its end. -/
theorem Subs.leaves_at_publish (h : Subs db) {key : mosquitto_client_sub} {m : routed_msg}
    (hshared : key.shared.isSome = true) (hm : IsFor key m) :
    leaves_at (sub_step db (.publish m)) key = (leaves_at db key).rotate 1 := by
  obtain ⟨hpublish, hmatch⟩ := hm
  have hplain := (tokenise_of_can_publish hpublish).2
  obtain ⟨name, topics, hsplit⟩ := exists_split_topics m.topic
  rw [sub_step, if_pos hpublish, sub_messages_queue_eq hpublish]
  rw [hsplit] at hplain hmatch ⊢
  rw [(h.forest.queue hplain).2, if_pos ⟨hshared, hmatch⟩]

/-- So while messages come for a group, its members have their turns in the order of the list, from
the first one on. -/
theorem Subs.turns_eq (h : Subs db) {key : mosquitto_client_sub} {ms : List routed_msg}
    (hshared : key.shared.isSome = true) (hms : ∀ m ∈ ms, IsFor key m) :
    turns key db ms = (List.range ms.length).map fun n => ((leaves_at db key).rotate n).head? := by
  induction ms generalizing db with
  | nil => rfl
  | cons m ms ih =>
    have hnext := h.leaves_at_publish hshared (hms m List.mem_cons_self)
    rw [turns, ih (h.publish m).1 fun m hm => hms m (List.mem_cons_of_mem _ hm), hnext,
      List.length_cons, List.range_succ_eq_map, List.map_cons, List.map_map, List.rotate_zero, turn]
    congr 1
    apply List.map_congr_left
    intro n _
    rw [Function.comp_apply, List.rotate_rotate, Nat.add_comm]

/-- While as many messages come for a group as it has members, each member gets one of them. The
messages may be any whose topic the filter of the group matches, and the group may have been left
and joined at any time before. Only the group itself does not change meanwhile. -/
theorem turns_sub_run (ops : List sub_op) {key : mosquitto_client_sub} {ms : List routed_msg}
    (hshared : key.shared.isSome = true) (hms : ∀ m ∈ ms, IsFor key m)
    (hlength : ms.length = (leaves_at (sub_run ops) key).length) :
    ∃ members : List mosquitto_subleaf, turns key (sub_run ops) ms = members.map some ∧
      ∀ context, members.filter (fun leaf => leaf.context = context) =
        (subscriptions ops context key).toList := by
  obtain ⟨hsubs, htable⟩ := subs_sub_run ops
  refine ⟨leaves_at (sub_run ops) key, ?_, fun context => ?_⟩
  · rw [hsubs.turns_eq hshared hms, hlength]
    apply List.ext_getElem?
    intro n
    rw [List.getElem?_map, List.getElem?_map]
    by_cases hn : n < (leaves_at (sub_run ops) key).length
    · rw [List.getElem?_range hn, List.getElem?_eq_getElem hn, Option.map_some, Option.map_some,
        List.head?_rotate hn, List.getElem?_eq_getElem hn]
    · rw [List.getElem?_eq_none (by simpa using hn), List.getElem?_eq_none (by simpa using hn)]
      rfl
  · rw [← htable]
    exact filter_context (hsubs.once key) context

private def log_group : mosquitto_client_sub :=
  ⟨[[], ascii "#"], some (ascii "log")⟩

-- The three members of the group have joined it after the first message.
private def log_subscriptions : List sub_op :=
  [.subscribe (ascii "board") .mosq_p_mqtt311 (ascii "ESP32/+") 1 0 0, .publish window_message,
    .subscribe (ascii "logger") .mosq_p_mqtt5 (ascii "$share/log/#") 0 0 0,
    .subscribe (ascii "second") .mosq_p_mqtt311 (ascii "$share/log/#") 1 0 0, .publish window_message,
    .subscribe (ascii "third") .mosq_p_mqtt5 (ascii "$share/log/#") 2 0 0]

private def fan_message : routed_msg :=
  ⟨some (ascii "publisher"), ascii "ESP32/fan", 1, true⟩

theorem turns_sub_run_board :
    ∃ members : List mosquitto_subleaf,
      turns log_group (sub_run log_subscriptions) [window_message, fan_message, window_message] =
          members.map some ∧
        ∀ context, members.filter (fun leaf => leaf.context = context) =
          (subscriptions log_subscriptions context log_group).toList := by
  have hwindow : IsFor log_group window_message := ⟨by decide, by decide⟩
  have hfan : IsFor log_group fan_message := ⟨by decide, by decide⟩
  have hms : ∀ m ∈ [window_message, fan_message, window_message], IsFor log_group m :=
    List.forall_mem_cons.mpr ⟨hwindow, List.forall_mem_cons.mpr
      ⟨hfan, List.forall_mem_singleton.mpr hwindow⟩⟩
  exact turns_sub_run log_subscriptions rfl hms (by decide)

end communication_center.mosquitto
