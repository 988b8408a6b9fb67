import CommunicationCenter.Mosquitto.Retain

open libc trie wildcard

namespace communication_center.mosquitto

/-- What is done with the retained messages: a message is published, or a client
subscribes at a time. -/
inductive retain_op where
  | publish (stored : mosquitto_msg_store)
  | subscribe (context sub : Text) (sub_qos : UInt8) (subscription_identifier : UInt32)
      (now_real_s : Int)

def retain_step (retains : List (Text × mosquitto_retainhier)) :
    retain_op → List (Text × mosquitto_retainhier)
  | .publish stored =>
    if can_publish stored.topic && stored.retain then
      retain_store stored (split_topics stored.topic) retains
    else retains
  | .subscribe context sub sub_qos subscription_identifier now_real_s =>
    if can_subscribe sub then
      (retain_queue context sub sub_qos subscription_identifier now_real_s retains).1
    else retains

def retain_run (ops : List retain_op) : List (Text × mosquitto_retainhier) :=
  ops.foldl retain_step retain_init

/-- The last retained message of each topic. -/
abbrev RetainedTable := Text → Option mosquitto_msg_store

def RetainedTable.step (table : RetainedTable) : retain_op → RetainedTable
  | .publish stored => fun topic =>
    if (can_publish stored.topic && stored.retain) = true ∧ topic = stored.topic then
      if stored.payload ≠ [] then some stored else none
    else table topic
  | .subscribe _ _ _ _ _ => table

def retained_table (ops : List retain_op) : RetainedTable :=
  ops.foldl RetainedTable.step fun _ => none

/-- When a client looks at the messages. -/
def retain_time : retain_op → Option Int
  | .publish _ => none
  | .subscribe _ _ _ _ now_real_s => some now_real_s

def retained_node (retains : List (Text × mosquitto_retainhier)) (topics : List Text) :
    Option mosquitto_msg_store :=
  (root none (topics.headD []) retains).get none topics

/-- The trees hold the messages of the table, but for some that have expired. -/
structure Retained (now_real_s : Int) (table : RetainedTable)
    (retains : List (Text × mosquitto_retainhier)) : Prop where
  rooted : Rooted none retains
  stored : ∀ topics stored, retained_node retains topics = some stored →
    topics = split_topics stored.topic ∧ table stored.topic = some stored
  topic : ∀ topic stored, table topic = some stored →
    stored.topic = topic ∧ can_publish topic = true
  kept : ∀ topic stored, table topic = some stored →
    retained_node retains (split_topics topic) = some stored ∨ retain_expired now_real_s stored = true

/-- A topic can be told from its parts, empty levels and a separator at its end included. -/
theorem split_topics_injective {first second : Text} (h : split_topics first = split_topics second) :
    first = second := by
  have hjoin {first second : Text} (h : first.splitOn separator = second.splitOn separator) :
      first = second := by
    have hfirst : [separator].intercalate (first.splitOn separator) = first :=
      List.intercalate_splitOn separator
    rw [← hfirst, h, List.intercalate_splitOn]
  have hmixed {first second : Text} (hfirst : first.head? = some dollar)
      (h : first.splitOn separator = [] :: second.splitOn separator) : False := by
    obtain ⟨rest, hrest⟩ := level_of_dollar hfirst
    rw [splitOn_eq, hrest] at h
    cases (List.cons.inj h).1
  unfold split_topics at h
  split at h
  · split at h
    · exact hjoin h
    · exact absurd h fun heq => hmixed ‹_› heq
  · split at h
    · exact absurd h.symm fun heq => hmixed ‹_› heq
    · exact hjoin (List.cons.inj h).2

/-- Every topic has a first part. -/
theorem split_topics_head? (topic : Text) :
    (split_topics topic).head? = some ((split_topics topic).headD []) := by
  obtain ⟨name, topics, heq⟩ := exists_split_topics topic
  rw [heq]
  rfl

/-- At the start there is no retained message for any topic. -/
theorem retained_node_init (topics : List Text) : retained_node retain_init topics = none :=
  get_root_of_leaves (by simp [retain_init]) _ topics

/-- The tree at the start stands for the empty table, at any time of the clock. -/
theorem retained_init (now_real_s : Int) : Retained now_real_s (fun _ => none) retain_init where
  rooted := rooted_of_leaves (by decide) (by simp [retain_init])
  stored := by
    intro topics stored heq
    rw [retained_node_init] at heq
    cases heq
  topic := fun _ _ heq => nomatch heq
  kept := fun _ _ heq => nomatch heq

variable {now_real_s : Int} {table : RetainedTable} {retains : List (Text × mosquitto_retainhier)}

/-- One message is stored for its topic, or takes away what was there if it is empty. All other
topics keep their messages, and the trees stay as they should be. -/
theorem rooted_retain_store (h : Rooted none retains) (stored : mosquitto_msg_store) :
    Rooted none (retain_store stored (split_topics stored.topic) retains) ∧
      ∀ topics, retained_node (retain_store stored (split_topics stored.topic) retains) topics =
        if topics = split_topics stored.topic then
          if stored.payload ≠ [] then some stored else none
        else retained_node retains topics := by
  have hhead := split_topics_head? stored.topic
  have hempty (value : Option mosquitto_msg_store) (hnone : value.isNone = true) : value = none :=
    Option.isNone_iff_eq_none.mp hnone
  by_cases hpayload : stored.payload ≠ []
  · have hadded := h.update (fun _ => some stored) hhead
    rw [retain_store, if_pos hpayload, if_pos hpayload]
    refine ⟨hadded, fun topics => ?_⟩
    rw [retained_node, get_root_update h]
    simp only [headD_eq_and_eq_iff]
    rfl
  · have hadded := h.update (fun _ => none) hhead
    rw [retain_store, if_neg hpayload, if_neg hpayload]
    refine ⟨hadded.prune hempty rfl hhead, fun topics => ?_⟩
    rw [retained_node, get_root_prune hadded hempty rfl, get_root_update h, get_root_update h]
    simp only [headD_eq_and_eq_iff, and_self, if_true, id_eq]
    split
    · rfl
    · rfl

/-- A message that is to be retained changes the tree as it changes the table: it is there for its
topic, or, if it is empty, nothing is any more. -/
theorem Retained.publish (h : Retained now_real_s table retains) (stored : mosquitto_msg_store) :
    Retained now_real_s (table.step (.publish stored)) (retain_step retains (.publish stored)) := by
  rw [retain_step]
  by_cases hretain : (can_publish stored.topic && stored.retain) = true
  swap
  · rw [if_neg hretain]
    have htable : table.step (.publish stored) = table := by
      funext topic
      exact if_neg fun hboth => hretain hboth.1
    rw [htable]
    exact h
  obtain ⟨hpublish, -⟩ := Bool.and_eq_true_iff.mp hretain
  obtain ⟨hrooted, hnode⟩ := rooted_retain_store h.rooted stored
  have htable (topic : Text) : table.step (.publish stored) topic =
      if topic = stored.topic then if stored.payload ≠ [] then some stored else none
      else table topic := by
    simp only [RetainedTable.step, hretain, true_and]
  rw [if_pos hretain]
  refine ⟨hrooted, fun topics other heq => ?_, fun topic other heq => ?_, fun topic other heq => ?_⟩
  · rw [hnode] at heq
    by_cases htopics : topics = split_topics stored.topic
    · rw [if_pos htopics] at heq
      by_cases hpayload : stored.payload ≠ []
      · rw [if_pos hpayload] at heq
        obtain rfl := Option.some.inj heq
        exact ⟨htopics, by rw [htable, if_pos rfl, if_pos hpayload]⟩
      · rw [if_neg hpayload] at heq
        cases heq
    · rw [if_neg htopics] at heq
      obtain ⟨hother, hold⟩ := h.stored topics other heq
      refine ⟨hother, ?_⟩
      rw [htable, if_neg fun hsame => htopics (hother.trans (congrArg split_topics hsame))]
      exact hold
  · rw [htable] at heq
    by_cases htopic : topic = stored.topic
    · rw [if_pos htopic] at heq
      by_cases hpayload : stored.payload ≠ []
      · rw [if_pos hpayload] at heq
        obtain rfl := Option.some.inj heq
        exact ⟨htopic.symm, htopic ▸ hpublish⟩
      · rw [if_neg hpayload] at heq
        cases heq
    · rw [if_neg htopic] at heq
      exact h.topic topic other heq
  · rw [htable] at heq
    rw [hnode]
    by_cases htopic : topic = stored.topic
    · rw [if_pos htopic] at heq
      rw [htopic, if_pos rfl]
      exact Or.inl heq
    · rw [if_neg htopic] at heq
      rw [if_neg fun hsame => htopic (split_topics_injective hsame)]
      exact h.kept topic other heq

def process_branches (now_real_s : Int) (found : List (List Text × mosquitto_msg_store))
    (retainhier : mosquitto_retainhier) : mosquitto_retainhier :=
  found.foldl (fun retainhier message => retain_process_branch now_real_s message retainhier)
    retainhier

/-- Whether one of the messages is at this path and has expired. -/
def expired_at (now_real_s : Int) (found : List (List Text × mosquitto_msg_store))
    (path : List Text) : Bool :=
  found.any fun message => message.1 = path && retain_expired now_real_s message.2

/-- Processing takes the expired messages away that the search found, and leaves all others where
they are. -/
theorem process_branches_spec (now_real_s : Int) (found : List (List Text × mosquitto_msg_store))
    {retainhier : mosquitto_retainhier} (h : retainhier.Distinct) :
    (process_branches now_real_s found retainhier).Distinct ∧
      ∀ path, (process_branches now_real_s found retainhier).get none path =
        if expired_at now_real_s found path then none else retainhier.get none path := by
  induction found generalizing retainhier with
  | nil => exact ⟨h, fun path => rfl⟩
  | cons message found ih =>
    rw [process_branches, List.foldl_cons, retain_process_branch, ← process_branches]
    have hcons (path : List Text) : expired_at now_real_s (message :: found) path =
        (message.1 = path && retain_expired now_real_s message.2 ||
          expired_at now_real_s found path) := rfl
    by_cases hexpired : retain_expired now_real_s message.2 = true
    · rw [if_pos hexpired]
      obtain ⟨hdistinct, hget⟩ := ih (h.update (f := fun _ => none) message.1)
      refine ⟨hdistinct, fun path => ?_⟩
      rw [hget, Trie.get_update h, hcons]
      by_cases hpath : path = message.1
      · rw [if_pos hpath, ite_self]
        simp [hpath, hexpired]
      · rw [if_neg hpath]
        simp [Ne.symm hpath]
    · rw [if_neg hexpired]
      obtain ⟨hdistinct, hget⟩ := ih h
      refine ⟨hdistinct, fun path => ?_⟩
      rw [hget, hcons]
      simp [hexpired]

/-- The messages that a search from the start finds. -/
def found_for (sub : Text) (retains : List (Text × mosquitto_retainhier)) :
    List (List Text × mosquitto_msg_store) :=
  (retain_search (split_topics sub) 0 (root none ((split_topics sub).headD []) retains)).1

/-- A filter that is not that of a shared subscription. -/
def NotShared (sub : Text) : Prop :=
  (split_topics sub).head? ≠ some (ascii "$share")

instance (sub : Text) : Decidable (NotShared sub) :=
  inferInstanceAs (Decidable (_ ≠ _))

/-- A filter that is not shared is split into its parts, without a group. -/
theorem NotShared.tokenise {sub : Text} (h : NotShared sub) (hsub : can_subscribe sub = true) :
    sub_topic_tokenise sub = .ok (split_topics sub, none) := by
  obtain ⟨hne, -⟩ := (can_subscribe_iff sub).mp hsub
  rw [sub_topic_tokenise, if_neg hne, if_neg h]

/-- A filter that is not shared does not begin with `$share/`, so that no group is taken off it. -/
theorem NotShared.take_ne {sub : Text} (h : NotShared sub) : sub.take 7 ≠ ascii "$share/" := by
  intro htake
  apply h
  have hsub := List.take_append_drop 7 sub
  have hslash : ascii "$share/" = ascii "$share" ++ [separator] := by decide
  have hgroup : (ascii "$share").all (fun c => c ≠ separator) = true := by decide
  have hhead : (ascii "$share").head? = some dollar := by decide
  rw [htake, hslash, List.append_assoc] at hsub
  have hdollar : sub.head? = some dollar := by
    rw [← hsub, List.head?_append, hhead]
    rfl
  have hlevel : level sub = ascii "$share" := by
    rw [← hsub, level, List.takeWhile_append_of_pos (List.all_eq_true.mp hgroup)]
    simp
  rw [split_topics, if_pos hdollar, splitOn_eq, hlevel, List.head?_cons]

/-- A search finds nothing in a tree of one empty node, whatever levels are left of the filter. -/
theorem retain_search_leaf (topics : List Text) (level : Nat) :
    (retain_search topics level (.node none [])).1 = [] := by
  cases topics with
  | nil => rfl
  | cons name topics =>
    rw [retain_search]
    split
    · simp
    · simp [Trie.child]

/-- The messages that are inserted for a new subscription: those that are found for its filter,
without the expired ones, each with the subscription's own options. -/
theorem snd_retain_queue {context sub : Text} {sub_qos : UInt8} {identifier : UInt32}
    (hsub : can_subscribe sub = true) (hshared : NotShared sub) :
    (retain_queue context sub sub_qos identifier now_real_s retains).2 =
      (((found_for sub retains).map Prod.snd).filter (retain_process now_real_s)).map fun retained =>
        (retained, retain_delivery context sub_qos identifier retained) := by
  rw [retain_queue, if_neg hshared.take_ne, hshared.tokenise hsub, found_for]
  cases hfind : find ((split_topics sub).headD []) retains with
  | none =>
    rw [root_of_find_none hfind, retain_search_leaf]
    simp only [hfind]
    rfl
  | some retainhier =>
    rw [root_of_find hfind]
    simp only [hfind]

/-- A path has expired if a message on it has that the search found. -/
theorem exists_of_expired_at {found : List (List Text × mosquitto_msg_store)} {path : List Text}
    (h : expired_at now_real_s found path = true) :
    ∃ stored, (path, stored) ∈ found ∧ retain_expired now_real_s stored = true := by
  obtain ⟨⟨other, stored⟩, hmem, hboth⟩ := List.any_eq_true.mp h
  obtain ⟨hpath, hexpired⟩ := Bool.and_eq_true_iff.mp hboth
  exact ⟨stored, of_decide_eq_true hpath ▸ hmem, hexpired⟩

/-- A subscription leaves the messages that have not expired, and takes away only some that have.
The filter is one that the broker accepts. -/
theorem rooted_retain_queue (h : Rooted none retains) {sub : Text} (hsub : can_subscribe sub = true)
    (context : Text) (sub_qos : UInt8) (identifier : UInt32) (now_real_s : Int) :
    Rooted none (retain_queue context sub sub_qos identifier now_real_s retains).1 ∧
      ∀ topics, retained_node (retain_queue context sub sub_qos identifier now_real_s retains).1
          topics = retained_node retains topics ∨
        ∃ stored, retained_node retains topics = some stored ∧
          retain_expired now_real_s stored = true ∧
          retained_node (retain_queue context sub sub_qos identifier now_real_s retains).1 topics =
            none := by
  rw [retain_queue]
  split
  · exact ⟨h, fun topics => Or.inl rfl⟩
  cases htokens : sub_topic_tokenise sub with
  | error rc => exact ⟨h, fun topics => Or.inl rfl⟩
  | ok tokens =>
    obtain ⟨filter, sharename⟩ := tokens
    have hlast := (filter_of_tokenise htokens hsub).1.last
    simp only
    cases hfind : find (filter.headD []) retains with
    | none => exact ⟨h, fun topics => Or.inl rfl⟩
    | some retainhier =>
      have hentry := mem_of_find hfind
      have hold := h.distinct _ hentry
      have hfound {path : List Text} {stored : mosquitto_msg_store}
          (hmem : (path, stored) ∈ (retain_search filter 0 retainhier).1) :
          retainhier.get none path = some stored := ((mem_retain_search hold hlast).mp hmem).2.1
      obtain ⟨hdistinct, hget⟩ := process_branches_spec now_real_s
        (retain_search filter 0 retainhier).1 hold
      constructor
      · apply h.alter
        intro processed heq
        obtain rfl := Option.some.inj heq
        refine ⟨hdistinct, fun path hne => h.rooted _ hentry path fun hnone => hne ?_⟩
        refine (hget path).trans ?_
        rw [hnone, ite_self]
      · intro topics
        have hnode : retained_node (alter (filter.headD []) (fun _ =>
            some (process_branches now_real_s (retain_search filter 0 retainhier).1 retainhier))
              retains) topics =
            if topics.headD [] = filter.headD [] ∧
                expired_at now_real_s (retain_search filter 0 retainhier).1 topics = true then none
            else retained_node retains topics := by
          rw [retained_node, root_alter h.keys, retained_node]
          by_cases hfirst : topics.headD [] = filter.headD []
          · rw [if_pos hfirst, Option.getD_some, hget, hfirst, root_of_find hfind]
            simp
          · rw [if_neg hfirst, if_neg fun hboth => hfirst hboth.1]
        by_cases hexpired : topics.headD [] = filter.headD [] ∧
            expired_at now_real_s (retain_search filter 0 retainhier).1 topics = true
        · right
          obtain ⟨stored, hmem, hold⟩ := exists_of_expired_at hexpired.2
          refine ⟨stored, ?_, hold, hnode.trans (if_pos hexpired)⟩
          rw [retained_node, hexpired.1, root_of_find hfind]
          exact hfound hmem
        · exact Or.inl (hnode.trans (if_neg hexpired))

/-- What has expired stays so. -/
theorem retain_expired_mono {earlier later : Int} (hle : earlier ≤ later)
    {stored : mosquitto_msg_store} (h : retain_expired earlier stored = true) :
    retain_expired later stored = true := by
  simp only [retain_expired, Bool.and_eq_true, decide_eq_true_eq] at h ⊢
  omega

/-- The tree stands for the table at a later time too. Messages that expire meanwhile may be in
both or in the table only. -/
theorem Retained.later (h : Retained now_real_s table retains) {later : Int}
    (hle : now_real_s ≤ later) : Retained later table retains where
  rooted := h.rooted
  stored := h.stored
  topic := h.topic
  kept := fun topic stored heq => (h.kept topic stored heq).imp_right (retain_expired_mono hle)

/-- A search takes messages from the tree only if they have expired, so that it stands for the
table that stays as it is. -/
theorem Retained.subscribe (h : Retained now_real_s table retains) (context sub : Text)
    (sub_qos : UInt8) (identifier : UInt32) :
    Retained now_real_s (table.step (.subscribe context sub sub_qos identifier now_real_s))
      (retain_step retains (.subscribe context sub sub_qos identifier now_real_s)) := by
  rw [retain_step]
  by_cases hsub : can_subscribe sub = true
  swap
  · rw [if_neg hsub]
    exact h
  rw [if_pos hsub]
  obtain ⟨hrooted, hnode⟩ :=
    rooted_retain_queue h.rooted hsub context sub_qos identifier now_real_s
  refine ⟨hrooted, fun topics stored heq => ?_, h.topic, fun topic stored heq => ?_⟩
  · obtain hsame | ⟨_, -, -, hnone⟩ := hnode topics
    · exact h.stored topics stored (hsame.symm.trans heq)
    · rw [hnone] at heq
      cases heq
  · obtain hold | hexpired := h.kept topic stored heq
    · obtain hsame | ⟨other, hother, hexpired, -⟩ := hnode (split_topics topic)
      · exact Or.inl (hsame.trans hold)
      · obtain rfl := Option.some.inj (hold.symm.trans hother)
        exact Or.inr hexpired
    · exact Or.inr hexpired

/-- Time does not go back. -/
def InOrder (ops : List retain_op) (now_real_s : Int) : Prop :=
  (ops.filterMap retain_time ++ [now_real_s]).Pairwise (· ≤ ·)

instance (ops : List retain_op) (now_real_s : Int) : Decidable (InOrder ops now_real_s) :=
  inferInstanceAs (Decidable (List.Pairwise _ _))

/-- Without its last operation a history is in order too, up to the time of that operation if it
has one. -/
theorem InOrder.before {ops : List retain_op} {op : retain_op} (h : InOrder (ops ++ [op]) now_real_s) :
    match retain_time op with
    | none => InOrder ops now_real_s
    | some time => InOrder ops time ∧ time ≤ now_real_s := by
  unfold InOrder at h ⊢
  rw [List.filterMap_append] at h
  cases htime : retain_time op with
  | none => simpa [htime] using h
  | some time =>
    simp only [List.filterMap_cons, htime, List.filterMap_nil] at h
    obtain ⟨hbefore, -, hlast⟩ := List.pairwise_append.mp h
    exact ⟨hbefore, hlast time (by simp) now_real_s (by simp)⟩

/-- The trees hold the last retained messages, after any history in which time does not go back.
Messages that were cleared are not there any more. -/
theorem retained_run (ops : List retain_op) (hordered : InOrder ops now_real_s) :
    Retained now_real_s (retained_table ops) (retain_run ops) := by
  induction ops using List.reverseRecOn generalizing now_real_s with
  | nil => exact retained_init now_real_s
  | append_singleton ops op ih =>
    have hbefore := hordered.before
    rw [retained_table, retain_run, List.foldl_concat, List.foldl_concat, ← retained_table,
      ← retain_run]
    cases op with
    | publish stored => exact (ih hbefore).publish stored
    | subscribe context sub sub_qos identifier time =>
      obtain ⟨hordered, hle⟩ := hbefore
      exact ((ih hordered).subscribe context sub sub_qos identifier).later hle

/-- A filter for all that is below "$foo", and the topic "$foo". -/
def IsParent (sub topic : Text) : Prop :=
  ∃ name key, split_topics sub = [name, [hash]] ∧ split_topics topic = [key]

/-- A filter is in the tree of the topics that it matches, since both begin with the level that
tells the trees apart. -/
theorem headD_of_matches {filter topics : List Text} (hfilter : Filter filter) (htopics : topics ≠ [])
    (hmatch : Matches wildcards filter topics) : filter.headD [] = topics.headD [] := by
  obtain ⟨name, rest, rfl⟩ := List.exists_cons_of_ne_nil hfilter.nonempty
  obtain ⟨key, topics, rfl⟩ := List.exists_cons_of_ne_nil htopics
  obtain ⟨hplus, hhash⟩ := hfilter.first_ne
  obtain ⟨hname, -⟩ | ⟨hname | hname, -⟩ := hmatch
  · exact absurd hname hhash
  · exact absurd hname hplus
  · exact hname

/-- What is inserted of the messages of the table for a subscription: those whose topics match
and that have not expired, and each once. -/
theorem Retained.queue (h : Retained now_real_s table retains) {context sub : Text}
    {sub_qos : UInt8} {identifier : UInt32} (hsub : can_subscribe sub = true)
    (hshared : NotShared sub) :
    ∃ inserted : List mosquitto_msg_store,
      (retain_queue context sub sub_qos identifier now_real_s retains).2 =
        inserted.map (fun stored =>
          (stored, retain_delivery context sub_qos identifier stored)) ∧
      (inserted.map mosquitto_msg_store.topic).Nodup ∧
      (∀ stored ∈ inserted, table stored.topic = some stored) ∧
      ∀ stored, ¬ IsParent sub stored.topic → (stored ∈ inserted ↔
        table stored.topic = some stored ∧ retain_expired now_real_s stored = false ∧
          Matches wildcards (split_topics sub) (split_topics stored.topic)) := by
  have hlast := (filter_of_tokenise (hshared.tokenise hsub) hsub).1.last
  have hdistinct := h.rooted.root_distinct ((split_topics sub).headD [])
  have hfound {path : List Text} {stored : mosquitto_msg_store}
      (hmem : (path, stored) ∈ found_for sub retains) : path = split_topics stored.topic ∧
        table stored.topic = some stored := by
    obtain ⟨hne, hget, -⟩ := (mem_retain_search hdistinct hlast).mp hmem
    have hhead := h.rooted.head?_eq (by rw [hget]; simp)
    apply h.stored
    rw [retained_node, ← hget]
    obtain ⟨rest, rfl⟩ := List.head?_eq_some_iff.mp hhead
    rfl
  refine ⟨_, snd_retain_queue hsub hshared, ?_, fun stored hmem => ?_, fun stored hparent => ?_⟩
  · have hpaths := @nodup_retain_search _ _ 0 hdistinct hlast
    have htopics : (((found_for sub retains).map Prod.snd).map
        mosquitto_msg_store.topic).map split_topics = (found_for sub retains).map Prod.fst := by
      rw [List.map_map, List.map_map]
      apply List.map_congr_left
      intro message hmem
      exact (hfound hmem).1.symm
    apply List.Nodup.sublist (List.filter_sublist.map _)
    apply List.Nodup.of_map split_topics
    rw [htopics]
    exact hpaths
  · obtain ⟨⟨path, _⟩, hin, rfl⟩ := List.mem_map.mp (List.mem_of_mem_filter hmem)
    exact (hfound hin).2
  · rw [List.mem_filter]
    constructor
    · rintro ⟨hmem, hprocess⟩
      obtain ⟨⟨path, _⟩, hin, rfl⟩ := List.mem_map.mp hmem
      obtain ⟨hpath, htable⟩ := hfound hin
      obtain ⟨-, -, hmatch, -⟩ := (mem_retain_search hdistinct hlast).mp hin
      obtain ⟨hexpired, -⟩ := Bool.and_eq_true_iff.mp hprocess
      exact ⟨htable, by simpa using hexpired, hpath ▸ hmatch⟩
    · rintro ⟨htable, hexpired, hmatch⟩
      obtain ⟨-, hpublish⟩ := h.topic _ _ htable
      obtain ⟨-, -, hwrite⟩ := (can_publish_iff stored.topic).mp hpublish
      have hnode := (h.kept _ _ htable).resolve_right (by simp [hexpired])
      constructor
      · apply List.mem_map.mpr
        refine ⟨(split_topics stored.topic, stored), ?_, rfl⟩
        apply (mem_retain_search hdistinct hlast).mpr
        refine ⟨split_topics_ne_nil _, ?_, hmatch, ?_⟩
        · rw [headD_of_matches (filter_of_tokenise (hshared.tokenise hsub) hsub).1 (split_topics_ne_nil _) hmatch]
          exact hnode
        · rintro ⟨-, name, key, _, hfilter, hpath, -⟩
          exact hparent ⟨name, key, hfilter, hpath⟩
      · simp [retain_process, hexpired, mosquitto_acl_check_read hwrite]

/-- After any calls of `retain__store` and `retain__queue` in which time does not go back, the
messages that `retain__queue` hands to `db__message_insert` for a subscription are the last
ones of the topics that its filter matches, without those that were cleared or have expired,
and each is handed over once. The filter is not shared, and is not the one for all that is
below a topic of one level where the message is on that topic itself. Nothing is said about
the messages that `db__message_insert` drops for a client, nor about the subscriptions for
which a client of version 5 wants no retained messages. -/
theorem retain_queue_run (ops : List retain_op) (hordered : InOrder ops now_real_s)
    {context sub : Text} {sub_qos : UInt8} {identifier : UInt32} (hsub : can_subscribe sub = true)
    (hshared : NotShared sub) :
    ∃ inserted : List mosquitto_msg_store,
      (retain_queue context sub sub_qos identifier now_real_s (retain_run ops)).2 =
        inserted.map (fun stored =>
          (stored, retain_delivery context sub_qos identifier stored)) ∧
      (inserted.map mosquitto_msg_store.topic).Nodup ∧
      ∀ stored, ¬ IsParent sub stored.topic → (stored ∈ inserted ↔
        retained_table ops stored.topic = some stored ∧ retain_expired now_real_s stored = false ∧
          Matches wildcards (split_topics sub) (split_topics stored.topic)) := by
  obtain ⟨inserted, hqueue, hnodup, -, hinserted⟩ := (retained_run ops hordered).queue hsub hshared
  exact ⟨inserted, hqueue, hnodup, hinserted⟩

private def window_stored : mosquitto_msg_store :=
  { source_id := ascii "publisher"
    topic := ascii "ESP32/window"
    payload := ascii "1"
    qos := 1
    retain := true
    message_expiry_time := 0 }

theorem retain_queue_run_window :
    ∃ inserted : List mosquitto_msg_store,
      (retain_queue (ascii "board") (ascii "ESP32/+") 1 0 5
          (retain_run [.publish window_stored])).2 =
        inserted.map (fun stored => (stored, retain_delivery (ascii "board") 1 0 stored)) ∧
      (inserted.map mosquitto_msg_store.topic).Nodup ∧
      ∀ stored, ¬ IsParent (ascii "ESP32/+") stored.topic → (stored ∈ inserted ↔
        retained_table [.publish window_stored] stored.topic = some stored ∧
          retain_expired 5 stored = false ∧
          Matches wildcards (split_topics (ascii "ESP32/+")) (split_topics stored.topic)) :=
  retain_queue_run [.publish window_stored] (by decide) (by decide) (by decide)

end communication_center.mosquitto
