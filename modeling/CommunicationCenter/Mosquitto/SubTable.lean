import CommunicationCenter.Mosquitto.SubLeaves

open libc trie wildcard

namespace communication_center.mosquitto

/-- The subscribers at a node, or those in one of its groups, in the order in
which they are served. -/
def leaves_at (db : mosquitto_subs) (csub : mosquitto_client_sub) : List mosquitto_subleaf :=
  match csub.shared with
  | some sharename => sub_group sharename (node_at db.shared_subs csub.hier)
  | none => (node_at db.normal_subs csub.hier).subs

/-- The groups of a node differ, and have members. -/
structure Groups (node : mosquitto_subnode) : Prop where
  names : (node.shared.map Prod.fst).Nodup
  members : ∀ group ∈ node.shared, group.2 ≠ []

/-- Normal and shared subscriptions are kept in trees of their own. -/
structure SubForest (db : mosquitto_subs) : Prop where
  normal : SubTrees db.normal_subs
  shared : SubTrees db.shared_subs
  normal_only : ∀ filter, (node_at db.normal_subs filter).shared = []
  shared_only : ∀ filter, (node_at db.shared_subs filter).subs = []
  groups : ∀ filter, Groups (node_at db.shared_subs filter)

/-- The subscribers of one filter and group are changed. -/
structure Altered (csub : mosquitto_client_sub)
    (f : List mosquitto_subleaf → List mosquitto_subleaf) (db altered : mosquitto_subs) : Prop where
  forest : SubForest altered
  leaves_at : ∀ key, leaves_at altered key =
    if key = csub then f (leaves_at db csub) else leaves_at db key

variable {db : mosquitto_subs} {topics : List Text} {sharename : Text}
  {f : List mosquitto_subleaf → List mosquitto_subleaf}

/-- The leaves of a shared key are the members of its group. -/
theorem leaves_at_some (filter : List Text) (sharename : Text) :
    leaves_at db ⟨filter, some sharename⟩ = sub_group sharename (node_at db.shared_subs filter) := rfl

/-- The leaves of a normal key are those of its node. -/
theorem leaves_at_none (filter : List Text) :
    leaves_at db ⟨filter, none⟩ = (node_at db.normal_subs filter).subs := rfl

/-- The normal subscribers at one node are changed, and those at all other keys stay. The trees are
assumed to be as they should be afterwards. -/
theorem SubForest.alter_normal (h : SubForest db) {normal_subs : List (Text × mosquitto_subhier)}
    (subs : Text → List (Option mosquitto_client_sub)) (htrees : SubTrees normal_subs)
    (hnode : ∀ filter, node_at normal_subs filter =
      if filter = topics then
        { node_at db.normal_subs topics with subs := f (node_at db.normal_subs topics).subs }
      else node_at db.normal_subs filter) :
    Altered ⟨topics, none⟩ f db { db with normal_subs := normal_subs, subs := subs } where
  forest :=
    { normal := htrees
      shared := h.shared
      shared_only := h.shared_only
      groups := h.groups
      normal_only := by
        intro filter
        rw [hnode]
        split
        · exact h.normal_only topics
        · exact h.normal_only filter }
  leaves_at := by
    rintro ⟨filter, _ | group⟩
    · simp only [mosquitto.leaves_at, hnode, mosquitto_client_sub.mk.injEq, and_true]
      split
      · rfl
      · rfl
    · simp only [mosquitto.leaves_at, mosquitto_client_sub.mk.injEq, reduceCtorEq, and_false,
        if_false]

/-- A group at one node is changed, and is deleted where nothing is left of it. Those at all other
keys stay, the other groups of the node among them. -/
theorem SubForest.alter_shared (h : SubForest db) {shared_subs : List (Text × mosquitto_subhier)}
    {g : Option (List mosquitto_subleaf) → Option (List mosquitto_subleaf)}
    (subs : Text → List (Option mosquitto_client_sub)) (htrees : SubTrees shared_subs)
    (hg : ∀ leaves, (g leaves).getD [] = f (leaves.getD []))
    (hkept : ∀ leaves members, g leaves = some members → members ≠ [])
    (hnode : ∀ filter, node_at shared_subs filter =
      if filter = topics then
        { node_at db.shared_subs topics with
          shared := alter sharename g (node_at db.shared_subs topics).shared }
      else node_at db.shared_subs filter) :
    Altered ⟨topics, some sharename⟩ f db { db with shared_subs := shared_subs, subs := subs } where
  forest :=
    { normal := h.normal
      shared := htrees
      normal_only := h.normal_only
      shared_only := by
        intro filter
        rw [hnode]
        split
        · exact h.shared_only topics
        · exact h.shared_only filter
      groups := by
        intro filter
        rw [hnode]
        split
        · refine ⟨keys_alter_nodup (h.groups topics).names, fun group hmem => ?_⟩
          obtain hold | ⟨-, hnew⟩ := mem_alter hmem
          · exact (h.groups topics).members group hold
          · exact hkept _ _ hnew
        · exact h.groups filter }
  leaves_at := by
    rintro ⟨filter, _ | group⟩
    · simp only [mosquitto.leaves_at, mosquitto_client_sub.mk.injEq, reduceCtorEq, and_false,
        if_false]
    · simp only [mosquitto.leaves_at, hnode, mosquitto_client_sub.mk.injEq, Option.some.injEq,
        sub_group]
      by_cases hfilter : filter = topics
      · subst hfilter
        rw [if_pos rfl, find_alter (h.groups filter).names]
        by_cases hgroup : group = sharename
        · rw [if_pos hgroup, if_pos ⟨rfl, hgroup⟩, hg]
        · rw [if_neg hgroup, if_neg fun hboth => hgroup hboth.2]
      · rw [if_neg hfilter, if_neg fun hboth => hfilter hboth.1]

variable {context : Text} {qos options : UInt8} {identifier : UInt32}

/-- A normal subscription adds a leaf at its key and changes nothing else that is subscribed. -/
theorem SubForest.sub_add_normal (h : SubForest db) (htopics : Filter topics) :
    Altered ⟨topics, none⟩ (fun leaves => (sub_add_leaf context qos identifier options leaves).1) db
      (sub_add_normal context qos identifier options topics db).2 :=
  h.alter_normal _ (h.normal.sub_update htopics) (node_at_sub_update h.normal)

/-- So does a shared one, in its group. The groups of a node do not disturb each other. -/
theorem SubForest.sub_add_shared (h : SubForest db) (htopics : Filter topics) :
    Altered ⟨topics, some sharename⟩
      (fun leaves => (sub_add_leaf context qos identifier options leaves).1) db
      (sub_add_shared context qos identifier options topics sharename db).2 := by
  apply h.alter_shared _ (h.shared.sub_update htopics) _ _ (node_at_sub_update h.shared)
  · exact fun leaves => rfl
  · intro leaves members heq
    obtain rfl := Option.some.inj heq
    exact sub_add_leaf_ne_nil

/-- A new node has no leaf to remove. -/
theorem sub_remove_normal_leaf_new : sub_remove_normal_leaf context .new = .new := rfl

/-- Nor a member of a group. -/
theorem sub_remove_shared_leaf_new : sub_remove_shared_leaf context sharename .new = .new := rfl

/-- Taking a normal subscription away removes the leaf of the client at its key, and nothing else
that is subscribed. -/
theorem SubForest.sub_remove_normal (h : SubForest db) (htopics : Filter topics)
    (subs : Text → List (Option mosquitto_client_sub)) :
    Altered ⟨topics, none⟩ (sub_remove_leaf context) db
      { db with
        normal_subs := sub_remove_recurse (sub_remove_normal_leaf context) topics db.normal_subs,
        subs := subs } :=
  h.alter_normal _ (h.normal.sub_remove_recurse htopics sub_remove_normal_leaf_new)
    (node_at_sub_remove_recurse h.normal sub_remove_normal_leaf_new)

/-- So does taking away a shared one, in its group. A group without members is taken away with it.
-/
theorem SubForest.sub_remove_shared (h : SubForest db) (htopics : Filter topics)
    (subs : Text → List (Option mosquitto_client_sub)) :
    Altered ⟨topics, some sharename⟩ (sub_remove_leaf context) db
      { db with
        shared_subs := sub_remove_recurse (sub_remove_shared_leaf context sharename) topics
          db.shared_subs,
        subs := subs } := by
  apply h.alter_shared _ (h.shared.sub_remove_recurse htopics sub_remove_shared_leaf_new) _ _
    (node_at_sub_remove_recurse h.shared sub_remove_shared_leaf_new)
  · intro leaves
    cases leaves with
    | none => rfl
    | some leaves =>
      rw [Option.map_some, Option.filter_some, Option.getD_some]
      split
      · rfl
      · rename_i hempty
        simpa using hempty
  · intro leaves members heq
    obtain ⟨-, hkept⟩ := Option.filter_eq_some_iff.mp heq
    simpa using hkept

/-- The trees, and the subscriptions that each context keeps, are of the same
subscriptions. -/
structure Subs (db : mosquitto_subs) : Prop where
  forest : SubForest db
  once : ∀ csub, Once (leaves_at db csub)
  listed : ∀ context csub,
    some csub ∈ db.subs context ↔ has_leaf context (leaves_at db csub) = true
  listed_once : ∀ context, (db.subs context).reduceOption.Nodup
  filters : ∀ context csub, some csub ∈ db.subs context → Filter csub.hier

/-- Those with a leaf are the same as before and the client. -/
theorem has_leaf_sub_add_leaf {leaves : List mosquitto_subleaf} (other : Text) :
    has_leaf other (sub_add_leaf context qos identifier options leaves).1 = true ↔
      other = context ∨ has_leaf other leaves = true := by
  rw [has_leaf_iff, leaf_of_sub_add_leaf, has_leaf_iff]
  by_cases hother : other = context
  · simp [hother]
  · simp [hother]

/-- Those with a leaf are the same as before without the client. -/
theorem has_leaf_sub_remove_leaf {leaves : List mosquitto_subleaf} (h : Once leaves) (other : Text) :
    has_leaf other (sub_remove_leaf context leaves) = true ↔
      other ≠ context ∧ has_leaf other leaves = true := by
  rw [has_leaf_iff, leaf_of_sub_remove_leaf h, has_leaf_iff]
  by_cases hother : other = context
  · simp [hother]
  · simp [hother]

/-- A subscription is added to a node and to the array of its context, which keeps both in line:
the array has exactly the keys at which the client has a leaf, each once. -/
theorem Subs.add (h : Subs db) {csub : mosquitto_client_sub} (hfilter : Filter csub.hier)
    {added : mosquitto_subs}
    (haltered : Altered csub (fun leaves => (sub_add_leaf context qos identifier options leaves).1)
      db added)
    (hsubs : added.subs = sub_add_csub context csub
      (sub_add_leaf context qos identifier options (leaves_at db csub)).2 db.subs) :
    Subs added := by
  have hmem (other : Text) (key : mosquitto_client_sub) : some key ∈ added.subs other ↔
      other = context ∧ key = csub ∨ some key ∈ db.subs other := by
    rw [hsubs, sub_add_csub, snd_sub_add_leaf]
    by_cases hhas : has_leaf context (leaves_at db csub) = true
    · rw [if_pos hhas, if_pos rfl]
      constructor
      · exact Or.inr
      · rintro (⟨rfl, rfl⟩ | hold)
        · exact (h.listed other key).mpr hhas
        · exact hold
    · rw [if_neg hhas, if_neg (by simp)]
      by_cases hother : other = context
      · subst hother
        rw [Function.update_self, mem_sub_add_client_sub]
        simp
      · rw [Function.update_of_ne hother]
        simp [hother]
  refine ⟨haltered.forest, fun key => ?_, fun other key => ?_, fun other => ?_,
    fun other key hkey => ?_⟩
  · rw [haltered.leaves_at]
    split
    · exact (h.once csub).sub_add_leaf
    · exact h.once key
  · rw [hmem, haltered.leaves_at, h.listed]
    by_cases hkey : key = csub
    · rw [if_pos hkey, has_leaf_sub_add_leaf, hkey]
      simp
    · rw [if_neg hkey]
      simp [hkey]
  · rw [hsubs, sub_add_csub, snd_sub_add_leaf]
    by_cases hhas : has_leaf context (leaves_at db csub) = true
    · rw [if_pos hhas, if_pos rfl]
      exact h.listed_once other
    · rw [if_neg hhas, if_neg (by simp)]
      by_cases hother : other = context
      · rw [hother, Function.update_self]
        exact nodup_sub_add_client_sub (h.listed_once context) fun hold => hhas ((h.listed _ _).mp hold)
      · rw [Function.update_of_ne hother]
        exact h.listed_once other
  · obtain ⟨-, rfl⟩ | hold := (hmem other key).mp hkey
    · exact hfilter
    · exact h.filters other key hold

/-- A subscription is removed from both, if it is there, which keeps them in line. The key need not
be one that the client has. -/
theorem Subs.remove (h : Subs db) {csub : mosquitto_client_sub} {removed : mosquitto_subs}
    (haltered : Altered csub (sub_remove_leaf context) db removed)
    (hsubs : removed.subs =
      if has_leaf context (leaves_at db csub) then sub_remove_csub context csub db.subs
      else db.subs) : Subs removed := by
  have hmem (other : Text) (key : mosquitto_client_sub) : some key ∈ removed.subs other ↔
      some key ∈ db.subs other ∧ ¬ (other = context ∧ key = csub) := by
    rw [hsubs]
    by_cases hhas : has_leaf context (leaves_at db csub) = true
    · rw [if_pos hhas, sub_remove_csub]
      by_cases hother : other = context
      · subst hother
        rw [Function.update_self, mem_sub_remove_client_sub (h.listed_once other)]
        simp
      · rw [Function.update_of_ne hother]
        simp [hother]
    · rw [if_neg hhas]
      refine ⟨fun hold => ⟨hold, ?_⟩, fun hold => hold.1⟩
      rintro ⟨rfl, rfl⟩
      exact hhas ((h.listed other key).mp hold)
  refine ⟨haltered.forest, fun key => ?_, fun other key => ?_, fun other => ?_,
    fun other key hkey => h.filters other key ((hmem other key).mp hkey).1⟩
  · rw [haltered.leaves_at]
    split
    · exact (h.once csub).sub_remove_leaf
    · exact h.once key
  · rw [hmem, haltered.leaves_at, h.listed]
    by_cases hkey : key = csub
    · rw [if_pos hkey, has_leaf_sub_remove_leaf (h.once csub), hkey]
      simp [and_comm]
    · rw [if_neg hkey]
      simp [hkey]
  · rw [hsubs]
    split
    · rw [sub_remove_csub]
      by_cases hother : other = context
      · rw [hother, Function.update_self]
        exact nodup_sub_remove_client_sub (h.listed_once context)
      · rw [Function.update_of_ne hother]
        exact h.listed_once other
    · exact h.listed_once other

end communication_center.mosquitto
