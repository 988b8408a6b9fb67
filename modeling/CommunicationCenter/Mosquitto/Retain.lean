import CommunicationCenter.Mosquitto.Properties
import CommunicationCenter.Mosquitto.Routing
import CommunicationCenter.Trie.Descendants

open libc trie wildcard

namespace communication_center.mosquitto

/-- A message as the broker stores it, with the properties of its PUBLISH that are kept for
its receivers. An expiry time of 0 stands for none, and so does an identifier of 0. -/
structure mosquitto_msg_store where
  source_id : Text
  topic : Text
  payload : List UInt8
  qos : UInt8
  retain : Bool
  message_expiry_time : Int
  source_mid : UInt16 := 0
  properties : List mosquitto_property := []
  deriving DecidableEq

/-- Retained messages, by the levels of their topics. -/
abbrev mosquitto_retainhier := Trie Text (Option mosquitto_msg_store)

def retain_init : List (Text × mosquitto_retainhier) :=
  [([], .node none []), (ascii "$SYS", .node none [])]

/-- A message without payload takes the retained one away, with the nodes that are
not needed any more. -/
def retain_store (stored : mosquitto_msg_store) (split_topics : List Text)
    (retains : List (Text × mosquitto_retainhier)) : List (Text × mosquitto_retainhier) :=
  let retained := if stored.payload ≠ [] then some stored else none
  let added := alter (split_topics.headD []) (fun retainhier =>
    some ((retainhier.getD (.node none [])).update none (fun _ => retained) split_topics)) retains
  if stored.payload ≠ [] then added
  else
    alter (split_topics.headD []) (fun retainhier =>
      retainhier.map (Trie.prune Option.isNone id split_topics)) added

/-- The retained message of a node, under the path that leads to it. -/
def retained_at (path : List Text) (retained : Option mosquitto_msg_store) :
    List (List Text × mosquitto_msg_store) :=
  (retained.map fun stored => (path, stored)).toList

/-- The messages that are processed, in order, and the flag that stands for -1. It
says that a message on "foo" is sought as well for "foo/#". -/
def retain_search : List Text → Nat → mosquitto_retainhier →
    List (List Text × mosquitto_msg_store) × Bool
  | [], _, _ => ([], false)
  | name :: split_topics, level, retainhier =>
    if name = [hash] ∧ split_topics = [] then
      ((descendants retainhier.children).flatMap fun entry => retained_at entry.1 entry.2,
        !retainhier.children.isEmpty)
    else
      let branches := if name = [plus] then retainhier.children
        else ((retainhier.child name).map fun branch => (name, branch)).toList
      (branches.flatMap fun entry =>
        let found := retain_search split_topics (level + 1) entry.2
        let here := split_topics = [] ∨ found.2 = true ∨
          split_topics.head? = some [hash] ∧ level > 0
        (found.1 ++ if here then retained_at [] entry.2.value else []).map fun message =>
          (entry.1 :: message.1, message.2),
        false)

def retain_expired (now_real_s : Int) (retained : mosquitto_msg_store) : Bool :=
  retained.message_expiry_time > 0 && now_real_s ≥ retained.message_expiry_time

/-- A retained message as a subscription asks for it. -/
def retain_delivery (context : Text) (sub_qos : UInt8) (subscription_identifier : UInt32)
    (retained : mosquitto_msg_store) : delivery where
  context := context
  qos := if retained.qos > sub_qos then sub_qos else retained.qos
  retain := true
  identifier := subscription_identifier

/-- What is left of a message when it is processed: an expired one is taken away. -/
def retain_process_branch (now_real_s : Int) (message : List Text × mosquitto_msg_store)
    (retainhier : mosquitto_retainhier) : mosquitto_retainhier :=
  if retain_expired now_real_s message.2 then retainhier.update none (fun _ => none) message.1
  else retainhier

/-- Whether a message is handed to `db__message_insert` when it is processed. -/
def retain_process (now_real_s : Int) (retained : mosquitto_msg_store) : Bool :=
  !retain_expired now_real_s retained &&
    mosquitto_acl_check retained.topic .MOSQ_ACL_READ = .MOSQ_ERR_SUCCESS

/-- The messages that are handed to `db__message_insert` for a subscription. There are none
for a shared one. What becomes of them there is up to the client's quota and queue. -/
def retain_queue (context sub : Text) (sub_qos : UInt8) (subscription_identifier : UInt32)
    (now_real_s : Int) (retains : List (Text × mosquitto_retainhier)) :
    List (Text × mosquitto_retainhier) × List (mosquitto_msg_store × delivery) :=
  if sub.take 7 = ascii "$share/" then (retains, [])
  else match sub_topic_tokenise sub with
    | .error _ => (retains, [])
    | .ok (split_topics, _) =>
      match find (split_topics.headD []) retains with
      | none => (retains, [])
      | some retainhier =>
        let found := (retain_search split_topics 0 retainhier).1
        let processed := found.foldl (fun retainhier message =>
          retain_process_branch now_real_s message retainhier) retainhier
        (alter (split_topics.headD []) (fun _ => some processed) retains,
          ((found.map Prod.snd).filter (retain_process now_real_s)).map fun retained =>
            (retained, retain_delivery context sub_qos subscription_identifier retained))

variable {retainhier : mosquitto_retainhier} {path split_topics : List Text} {level : Nat}
  {stored : mosquitto_msg_store}

/-- What is retained at a path is the message there, if there is one. -/
theorem mem_retained_at {retained : Option mosquitto_msg_store} {other : List Text} :
    (path, stored) ∈ retained_at other retained ↔ path = other ∧ retained = some stored := by
  cases retained with
  | none => simp [retained_at]
  | some retained => simp [retained_at, eq_comm]

/-- What is found below a node are the messages at all paths that go on from it. -/
theorem mem_flatMap_descendants (h : retainhier.Distinct) :
    (path, stored) ∈ ((descendants retainhier.children).flatMap fun entry =>
        retained_at entry.1 entry.2) ↔ path ≠ [] ∧ retainhier.get none path = some stored := by
  rw [← mem_descendants_iff h, List.mem_flatMap]
  constructor
  · rintro ⟨entry, hentry, hmem⟩
    obtain ⟨rfl, hretained⟩ := mem_retained_at.mp hmem
    rw [← hretained]
    exact hentry
  · intro hmem
    exact ⟨_, hmem, mem_retained_at.mpr ⟨rfl, rfl⟩⟩

/-- The search asks for the node itself to be looked at only for a filter that is the hash alone,
at a node with branches. -/
theorem snd_retain_search (split_topics : List Text) (level : Nat)
    (retainhier : mosquitto_retainhier) : (retain_search split_topics level retainhier).2 = true ↔
      split_topics = [[hash]] ∧ retainhier.children ≠ [] := by
  cases split_topics with
  | nil => simp [retain_search]
  | cons name split_topics =>
    rw [retain_search]
    by_cases hlast : name = [hash] ∧ split_topics = []
    · obtain ⟨rfl, rfl⟩ := hlast
      simp
    · rw [if_neg hlast]
      simp [hlast]

/-- The message on "$foo" is not found for "$foo/#" where nothing is below it. -/
def Hidden (level : Nat) (split_topics : List Text) (retainhier : mosquitto_retainhier)
    (path : List Text) : Prop :=
  level = 0 ∧ ∃ name key branch, split_topics = [name, [hash]] ∧ path = [key] ∧
    retainhier.child key = some branch ∧ branch.children = []

/-- The branches that one level of a filter leads to: all of them for a plus, and at most one for a
name. -/
theorem mem_branches_iff (h : retainhier.Distinct) {name key : Text}
    {branch : mosquitto_retainhier} :
    (key, branch) ∈ (if name = [plus] then retainhier.children
        else ((retainhier.child name).map fun branch => (name, branch)).toList) ↔
      (name = [plus] ∨ name = key) ∧ retainhier.child key = some branch := by
  by_cases hplus : name = [plus]
  · rw [if_pos hplus, Trie.mem_children_iff h]
    simp [hplus]
  · rw [if_neg hplus, Option.mem_toList, Option.map_eq_some_iff]
    constructor
    · rintro ⟨other, hother, heq⟩
      obtain ⟨rfl, rfl⟩ := Prod.mk.inj heq
      exact ⟨Or.inr rfl, hother⟩
    · rintro ⟨hname | rfl, hchild⟩
      · exact absurd hname hplus
      · exact ⟨branch, hchild, rfl⟩

/-- What is found in one branch: the search goes on in the branch of the name, or in all of them at
a plus, and takes the message of the branch itself where the filter ends with it. -/
theorem mem_retain_search_cons (h : retainhier.Distinct) {name : Text}
    (hlast : ¬ (name = [hash] ∧ split_topics = [])) :
    (path, stored) ∈ (retain_search (name :: split_topics) level retainhier).1 ↔
      ∃ key rest branch, path = key :: rest ∧ (name = [plus] ∨ name = key) ∧
        retainhier.child key = some branch ∧
        ((rest, stored) ∈ (retain_search split_topics (level + 1) branch).1 ∨
          rest = [] ∧ branch.value = some stored ∧ (split_topics = [] ∨
            (split_topics = [[hash]] ∧ branch.children ≠ []) ∨
            split_topics.head? = some [hash] ∧ level > 0)) := by
  rw [retain_search, if_neg hlast, List.mem_flatMap]
  constructor
  · rintro ⟨⟨key, branch⟩, hbranch, hmem⟩
    obtain ⟨hname, hchild⟩ := (mem_branches_iff h).mp hbranch
    obtain ⟨⟨rest, message⟩, hfound, heq⟩ := List.mem_map.mp hmem
    obtain ⟨rfl, rfl⟩ := Prod.mk.inj heq
    refine ⟨key, rest, branch, rfl, hname, hchild, ?_⟩
    obtain hbelow | hhere := List.mem_append.mp hfound
    · exact Or.inl hbelow
    · split at hhere
      · rename_i hcond
        obtain ⟨rfl, hvalue⟩ := mem_retained_at.mp hhere
        rw [snd_retain_search] at hcond
        exact Or.inr ⟨rfl, hvalue, hcond⟩
      · cases hhere
  · rintro ⟨key, rest, branch, rfl, hname, hchild, hfound⟩
    refine ⟨(key, branch), (mem_branches_iff h).mpr ⟨hname, hchild⟩, ?_⟩
    apply List.mem_map.mpr
    refine ⟨(rest, stored), List.mem_append.mpr ?_, rfl⟩
    obtain hbelow | ⟨rfl, hvalue, hcond⟩ := hfound
    · exact Or.inl hbelow
    · rw [← snd_retain_search split_topics (level + 1)] at hcond
      right
      rw [if_pos hcond]
      exact mem_retained_at.mpr ⟨rfl, hvalue⟩

/-- The topic that ends here is matched by the filter that does, and by the hash. -/
theorem matches_nil_iff {filter : List Text} :
    Matches wildcards filter [] ↔ filter = [] ∨ filter = [[hash]] := by
  have hmulti : wildcards.multi = [hash] := rfl
  cases filter with
  | nil => simp [Matches]
  | cons name filter => simp [Matches, hmulti]

/-- The search finds the retained messages whose topics match, but for the hidden ones. The filter
has the hash only as its last level, as all filters do that are let through. -/
theorem mem_retain_search (h : retainhier.Distinct) (hlast : [hash] ∉ split_topics.dropLast) :
    (path, stored) ∈ (retain_search split_topics level retainhier).1 ↔
      path ≠ [] ∧ retainhier.get none path = some stored ∧ Matches wildcards split_topics path ∧
        ¬ Hidden level split_topics retainhier path := by
  induction split_topics generalizing level retainhier path with
  | nil =>
    rw [retain_search]
    refine ⟨fun hmem => absurd hmem List.not_mem_nil, ?_⟩
    rintro ⟨hne, -, hmatch, -⟩
    exact absurd hmatch hne
  | cons name split_topics ih =>
    by_cases hmulti : name = [hash] ∧ split_topics = []
    · obtain ⟨rfl, rfl⟩ := hmulti
      have hmatch : Matches wildcards [[hash]] path := by
        cases path with
        | nil => exact ⟨rfl, rfl⟩
        | cons key path => exact Or.inl ⟨rfl, rfl⟩
      have hhidden : ¬ Hidden level [[hash]] retainhier path := by
        rintro ⟨-, _, _, _, heq, -⟩
        cases heq
      rw [retain_search, if_pos ⟨rfl, rfl⟩, mem_flatMap_descendants h]
      simp only [hmatch, hhidden, not_false_eq_true, and_true]
    rw [mem_retain_search_cons h hmulti]
    have hrest : [hash] ∉ split_topics.dropLast := by
      intro hmem
      apply hlast
      cases split_topics with
      | nil => exact absurd hmem List.not_mem_nil
      | cons next rest => exact List.mem_cons_of_mem _ hmem
    constructor
    · rintro ⟨key, rest, branch, rfl, hname, hchild, hfound⟩
      have hbranch := Trie.All.child h hchild
      rw [Trie.get_of_child hchild]
      obtain hbelow | ⟨rfl, hvalue, hcond⟩ := hfound
      · obtain ⟨hne, hget, hmatch, -⟩ := (ih hbranch hrest).mp hbelow
        refine ⟨List.cons_ne_nil _ _, hget, Or.inr ⟨hname, hmatch⟩, ?_⟩
        rintro ⟨-, _, _, _, -, hpath, -⟩
        exact hne (List.cons.inj hpath).2
      · have hend : split_topics = [] ∨ split_topics = [[hash]] := by
          obtain hnil | ⟨hhash, -⟩ | ⟨hhead, -⟩ := hcond
          · exact Or.inl hnil
          · exact Or.inr hhash
          · obtain ⟨rest, rfl⟩ := List.head?_eq_some_iff.mp hhead
            cases rest with
            | nil => exact Or.inr rfl
            | cons next rest => exact absurd List.mem_cons_self hrest
        refine ⟨List.cons_ne_nil _ _, hvalue, Or.inr ⟨hname, matches_nil_iff.mpr hend⟩, ?_⟩
        rintro ⟨hlevel, _, key', branch', htopics, hpath, hchild', hchildren⟩
        obtain ⟨-, rfl⟩ := List.cons.inj htopics
        obtain ⟨rfl, -⟩ := List.cons.inj hpath
        obtain rfl := Option.some.inj (hchild.symm.trans hchild')
        obtain hnil | ⟨-, hne⟩ | ⟨-, hpos⟩ := hcond
        · cases hnil
        · exact hne hchildren
        · omega
    · rintro ⟨hne, hget, hmatch, hhidden⟩
      obtain ⟨key, rest, rfl⟩ := List.exists_cons_of_ne_nil hne
      obtain ⟨hname, hmatch⟩ := Or.resolve_left hmatch hmulti
      cases hchild : retainhier.child key with
      | none =>
        rw [Trie.get_of_no_child hchild] at hget
        cases hget
      | some branch =>
        rw [Trie.get_of_child hchild] at hget
        refine ⟨key, rest, branch, rfl, hname, hchild, ?_⟩
        by_cases hrestNil : rest = []
        · subst hrestNil
          refine Or.inr ⟨rfl, hget, ?_⟩
          obtain hnil | hhash := matches_nil_iff.mp hmatch
          · exact Or.inl hnil
          · by_cases hchildren : branch.children = []
            · refine Or.inr (Or.inr ⟨by rw [hhash]; rfl, Nat.pos_of_ne_zero fun hlevel => ?_⟩)
              exact hhidden ⟨hlevel, name, key, branch, by rw [hhash], rfl, hchild, hchildren⟩
            · exact Or.inr (Or.inl ⟨hhash, hchildren⟩)
        · left
          apply (ih (Trie.All.child h hchild) hrest).mpr
          refine ⟨hrestNil, hget, hmatch, ?_⟩
          rintro ⟨hlevel, -⟩
          omega

/-- Below a node no path is found twice, with the message that is retained there. -/
theorem nodup_map_retained_at (h : retainhier.Distinct) :
    (((descendants retainhier.children).flatMap fun entry =>
      retained_at entry.1 entry.2).map Prod.fst).Nodup := by
  rw [List.map_flatMap]
  have hpaths := nodup_descendants h
  generalize descendants retainhier.children = entries at hpaths
  induction entries with
  | nil => exact List.nodup_nil
  | cons entry entries ih =>
    obtain ⟨hfresh, hrest⟩ := List.nodup_cons.mp hpaths
    rw [List.flatMap_cons]
    apply List.Nodup.append _ (ih hrest)
    · intro path hfirst hlater
      have hfst (entry : List Text × Option mosquitto_msg_store) (path : List Text)
          (hmem : path ∈ (retained_at entry.1 entry.2).map Prod.fst) : path = entry.1 := by
        obtain ⟨message, hmessage, rfl⟩ := List.mem_map.mp hmem
        exact (mem_retained_at.mp hmessage).1
      obtain ⟨other, hother, hmem⟩ := List.mem_flatMap.mp hlater
      have heq := (hfst entry path hfirst).symm.trans (hfst other path hmem)
      apply hfresh
      rw [heq]
      exact List.mem_map_of_mem hother
    · cases entry.2 with
      | none => exact List.nodup_nil
      | some stored => exact List.nodup_singleton _

/-- No message is processed twice, although the search looks at a node in more than one place. The
filter has the hash only as its last level. -/
theorem nodup_retain_search (h : retainhier.Distinct) (hlast : [hash] ∉ split_topics.dropLast) :
    ((retain_search split_topics level retainhier).1.map Prod.fst).Nodup := by
  induction split_topics generalizing level retainhier with
  | nil => exact List.nodup_nil
  | cons name split_topics ih =>
    rw [retain_search]
    by_cases hmulti : name = [hash] ∧ split_topics = []
    · rw [if_pos hmulti]
      exact nodup_map_retained_at h
    have hrest : [hash] ∉ split_topics.dropLast := by
      intro hmem
      apply hlast
      cases split_topics with
      | nil => exact absurd hmem List.not_mem_nil
      | cons next rest => exact List.mem_cons_of_mem _ hmem
    rw [if_neg hmulti, List.map_flatMap]
    apply List.nodup_flatMap.mpr
    constructor
    · rintro ⟨key, branch⟩ hbranch
      obtain ⟨-, hchild⟩ := (mem_branches_iff h).mp hbranch
      have hdistinct := Trie.All.child h hchild
      rw [List.map_map]
      have hcons : (Prod.fst ∘ fun message : List Text × mosquitto_msg_store =>
          ((key, branch).1 :: message.1, message.2)) = (key :: ·) ∘ Prod.fst := rfl
      rw [hcons, ← List.map_map]
      apply List.Nodup.map List.cons_injective
      rw [List.map_append]
      apply List.Nodup.append (ih hdistinct hrest)
      · split
        · cases branch.value with
          | none => exact List.nodup_nil
          | some stored => exact List.nodup_singleton _
        · exact List.nodup_nil
      · intro path hfound hhere
        obtain ⟨message, hmessage, rfl⟩ := List.mem_map.mp hfound
        have hne := ((mem_retain_search hdistinct hrest).mp hmessage).1
        split at hhere
        · obtain ⟨other, hother, heq⟩ := List.mem_map.mp hhere
          exact hne (heq.symm.trans (mem_retained_at.mp hother).1)
        · cases hhere
    · have hkeys : ((if name = [plus] then retainhier.children
          else ((retainhier.child name).map fun branch => (name, branch)).toList).map
            Prod.fst).Nodup := by
        split
        · exact h.here
        · cases retainhier.child name with
          | none => exact List.nodup_nil
          | some branch => exact List.nodup_singleton _
      refine (List.pairwise_map.mp hkeys).imp fun {first second} hne path hfirst hsecond => ?_
      obtain ⟨_, hmem, rfl⟩ := List.mem_map.mp hfirst
      obtain ⟨_, -, rfl⟩ := List.mem_map.mp hmem
      obtain ⟨_, hmem', heq⟩ := List.mem_map.mp hsecond
      obtain ⟨_, -, rfl⟩ := List.mem_map.mp hmem'
      exact hne (List.cons.inj heq).1.symm

end communication_center.mosquitto
