import CommunicationCenter.Mosquitto.SubTrees
import Mathlib.Data.List.ReduceOption

open libc trie

namespace communication_center.mosquitto

variable {context other : Text} {leaves : List mosquitto_subleaf} {qos options : UInt8}
  {identifier : UInt32} {csub : mosquitto_client_sub} {subs : List (Option mosquitto_client_sub)}

/-- The subscription that a context has in a list. -/
def leaf_of (context : Text) (leaves : List mosquitto_subleaf) : Option mosquitto_subleaf :=
  leaves.find? fun leaf => leaf.context = context

/-- No context has two subscriptions in a list. -/
def Once (leaves : List mosquitto_subleaf) : Prop :=
  (leaves.map mosquitto_subleaf.context).Nodup

/-- What a subscription becomes when its context subscribes again, and what it is
the first time. -/
def sub_renewed (context : Text) (qos : UInt8) (identifier : UInt32) (options : UInt8) :
    Option mosquitto_subleaf → mosquitto_subleaf
  | some leaf => { leaf with qos := qos, identifier := identifier }
  | none =>
    { context := context
      qos := qos
      identifier := identifier
      no_local := options &&& MQTT_SUB_OPT_NO_LOCAL != 0
      retain_as_published := options &&& MQTT_SUB_OPT_RETAIN_AS_PUBLISHED != 0 }

@[simp] theorem leaf_of_nil (context : Text) : leaf_of context [] = none := rfl

/-- The first leaf of a client is the one that counts. -/
theorem leaf_of_cons_self {leaf : mosquitto_subleaf} (h : leaf.context = context) :
    leaf_of context (leaf :: leaves) = some leaf := by
  simp [leaf_of, h]

/-- The leaves of other clients are passed over. -/
theorem leaf_of_cons_of_ne {leaf : mosquitto_subleaf} (h : leaf.context ≠ context) :
    leaf_of context (leaf :: leaves) = leaf_of context leaves := by
  simp [leaf_of, h]

/-- A client has no leaf exactly if it is not among the clients of the leaves. -/
theorem leaf_of_eq_none_iff :
    leaf_of context leaves = none ↔ context ∉ leaves.map mosquitto_subleaf.context := by
  simp [leaf_of]

/-- Whether a client has a leaf is whether one is found for it. -/
theorem has_leaf_iff : has_leaf context leaves = true ↔ (leaf_of context leaves).isSome = true := by
  simp [has_leaf, leaf_of]

/-- Adding a leaf for a client that has one renews it, and does nothing to the leaves of the
others. -/
theorem leaf_of_sub_add_leaf (other : Text) :
    leaf_of other (sub_add_leaf context qos identifier options leaves).1 =
      if other = context then
        some (sub_renewed context qos identifier options (leaf_of context leaves))
      else leaf_of other leaves := by
  induction leaves with
  | nil =>
    rw [sub_add_leaf]
    by_cases hother : other = context
    · rw [if_pos hother, leaf_of_cons_self hother.symm]
      rfl
    · rw [if_neg hother, leaf_of_cons_of_ne (Ne.symm hother)]
  | cons leaf leaves ih =>
    rw [sub_add_leaf]
    by_cases hcontext : leaf.context = context
    · rw [if_pos hcontext, leaf_of_cons_self hcontext]
      by_cases hother : other = context
      · rw [if_pos hother]
        exact leaf_of_cons_self (hcontext.trans hother.symm)
      · have hne : leaf.context ≠ other := fun heq => hother (heq.symm.trans hcontext)
        rw [if_neg hother, leaf_of_cons_of_ne hne]
        exact leaf_of_cons_of_ne hne
    · rw [if_neg hcontext, leaf_of_cons_of_ne hcontext]
      by_cases hleaf : leaf.context = other
      · have hother : other ≠ context := fun heq => hcontext (hleaf.trans heq)
        rw [if_neg hother, leaf_of_cons_self hleaf, leaf_of_cons_self hleaf]
      · rw [leaf_of_cons_of_ne hleaf, ih, leaf_of_cons_of_ne hleaf]

/-- The result says whether the client was subscribed before, and nothing else: in both cases the
client has a leaf then. -/
theorem snd_sub_add_leaf :
    (sub_add_leaf context qos identifier options leaves).2 =
      if has_leaf context leaves then .MOSQ_ERR_SUB_EXISTS else .MOSQ_ERR_SUCCESS := by
  induction leaves with
  | nil => simp [sub_add_leaf, has_leaf]
  | cons leaf leaves ih =>
    rw [sub_add_leaf]
    by_cases hcontext : leaf.context = context
    · rw [if_pos hcontext]
      simp [has_leaf, hcontext]
    · rw [if_neg hcontext, ih]
      simp [has_leaf, hcontext]

/-- A client that is new comes to the end, and one that is not keeps its place. -/
theorem contexts_sub_add_leaf :
    (sub_add_leaf context qos identifier options leaves).1.map mosquitto_subleaf.context =
      if has_leaf context leaves then leaves.map mosquitto_subleaf.context
      else leaves.map mosquitto_subleaf.context ++ [context] := by
  induction leaves with
  | nil => simp [sub_add_leaf, has_leaf]
  | cons leaf leaves ih =>
    rw [sub_add_leaf]
    by_cases hcontext : leaf.context = context
    · rw [if_pos hcontext]
      simp [has_leaf, hcontext]
    · have hhas : has_leaf context (leaf :: leaves) = has_leaf context leaves := by
        simp [has_leaf, hcontext]
      rw [if_neg hcontext, List.map_cons, ih, hhas]
      split
      · rfl
      · rfl

/-- No client gets a second leaf: a renewed subscription changes the leaf that is there. -/
theorem Once.sub_add_leaf (h : Once leaves) :
    Once (sub_add_leaf context qos identifier options leaves).1 := by
  rw [Once, contexts_sub_add_leaf]
  split
  · exact h
  · rename_i hhas
    apply List.Nodup.append h (List.nodup_singleton context)
    intro other hmem hnew
    obtain rfl := List.mem_singleton.mp hnew
    rw [has_leaf_iff, Option.isSome_iff_ne_none, not_not] at hhas
    exact leaf_of_eq_none_iff.mp hhas hmem

/-- There is a leaf afterwards in any case. -/
theorem sub_add_leaf_ne_nil : (sub_add_leaf context qos identifier options leaves).1 ≠ [] := by
  cases leaves with
  | nil => simp [sub_add_leaf]
  | cons leaf leaves =>
    rw [sub_add_leaf]
    split <;> simp

/-- Nor does removing a leaf give anybody a second one. -/
theorem Once.sub_remove_leaf (h : Once leaves) : Once (sub_remove_leaf context leaves) :=
  h.sublist (List.Sublist.map _ (List.eraseP_sublist))

/-- The client has no leaf afterwards, and the others have theirs. The client may have had none
before. -/
theorem leaf_of_sub_remove_leaf (h : Once leaves) (other : Text) :
    leaf_of other (sub_remove_leaf context leaves) =
      if other = context then none else leaf_of other leaves := by
  induction leaves with
  | nil => simp [sub_remove_leaf]
  | cons leaf leaves ih =>
    obtain ⟨hfresh, hrest⟩ := List.nodup_cons.mp h
    rw [sub_remove_leaf, List.eraseP_cons]
    by_cases hcontext : leaf.context = context
    · simp only [hcontext, decide_true, cond_true]
      by_cases hother : other = context
      · rw [if_pos hother, hother, ← hcontext]
        exact leaf_of_eq_none_iff.mpr hfresh
      · have hne : leaf.context ≠ other := fun heq => hother (heq.symm.trans hcontext)
        rw [if_neg hother, leaf_of_cons_of_ne hne]
    · simp only [hcontext, decide_false, cond_false]
      by_cases hleaf : leaf.context = other
      · have hother : other ≠ context := fun heq => hcontext (hleaf.trans heq)
        rw [if_neg hother, leaf_of_cons_self hleaf, leaf_of_cons_self hleaf]
      · rw [leaf_of_cons_of_ne hleaf, leaf_of_cons_of_ne hleaf]
        exact ih hrest

/-- Where no client has two leaves, the leaf of a client is the one with its name. -/
theorem leaf_of_eq_some_iff (h : Once leaves) {leaf : mosquitto_subleaf} :
    leaf_of context leaves = some leaf ↔ leaf ∈ leaves ∧ leaf.context = context := by
  induction leaves with
  | nil => simp
  | cons first leaves ih =>
    obtain ⟨hfresh, hrest⟩ := List.nodup_cons.mp h
    by_cases hcontext : first.context = context
    · rw [leaf_of_cons_self hcontext, Option.some.injEq, List.mem_cons]
      constructor
      · rintro rfl
        exact ⟨Or.inl rfl, hcontext⟩
      · rintro ⟨rfl | hmem, hleaf⟩
        · rfl
        · exact absurd (List.mem_map.mpr ⟨leaf, hmem, hleaf.trans hcontext.symm⟩) hfresh
    · rw [leaf_of_cons_of_ne hcontext, ih hrest, List.mem_cons]
      constructor
      · rintro ⟨hmem, hleaf⟩
        exact ⟨Or.inr hmem, hleaf⟩
      · rintro ⟨rfl | hmem, hleaf⟩
        · exact absurd hleaf hcontext
        · exact ⟨hmem, hleaf⟩

/-- A context's subscriptions in a list are the one that it has, or none. -/
theorem filter_context (h : Once leaves) (context : Text) :
    leaves.filter (fun leaf => leaf.context = context) = (leaf_of context leaves).toList := by
  induction leaves with
  | nil => rfl
  | cons leaf leaves ih =>
    obtain ⟨hfresh, hrest⟩ := List.nodup_cons.mp h
    by_cases hcontext : leaf.context = context
    · have hnone : leaf_of context leaves = none := by
        rw [← hcontext]
        exact leaf_of_eq_none_iff.mpr hfresh
      rw [List.filter_cons_of_pos (by simpa using hcontext), ih hrest, leaf_of_cons_self hcontext,
        hnone]
      rfl
    · rw [List.filter_cons_of_neg (by simpa using hcontext), ih hrest,
        leaf_of_cons_of_ne hcontext]

/-- A new entry in the array of a client is there afterwards, in a free place or at the end, and
all others still are. -/
theorem mem_sub_add_client_sub (other : mosquitto_client_sub) :
    some other ∈ sub_add_client_sub csub subs ↔ other = csub ∨ some other ∈ subs := by
  induction subs with
  | nil => simp [sub_add_client_sub]
  | cons first subs ih =>
    cases first with
    | none => simp [sub_add_client_sub]
    | some first =>
      rw [sub_add_client_sub, List.mem_cons, ih, List.mem_cons]
      tauto

/-- An entry that is not in the array yet does not become double, whether a free place is used for
it or a new one. -/
theorem nodup_sub_add_client_sub (h : subs.reduceOption.Nodup) (hnew : some csub ∉ subs) :
    (sub_add_client_sub csub subs).reduceOption.Nodup := by
  induction subs with
  | nil => simp [sub_add_client_sub]
  | cons first subs ih =>
    rw [List.mem_cons, not_or] at hnew
    cases first with
    | none =>
      rw [sub_add_client_sub, List.reduceOption_cons_of_some]
      apply List.nodup_cons.mpr
      exact ⟨fun hmem => hnew.2 (List.reduceOption_mem_iff.mp hmem), h⟩
    | some first =>
      rw [List.reduceOption_cons_of_some] at h
      obtain ⟨hfresh, hrest⟩ := List.nodup_cons.mp h
      rw [sub_add_client_sub, List.reduceOption_cons_of_some]
      apply List.nodup_cons.mpr
      refine ⟨fun hmem => ?_, ih hrest hnew.2⟩
      obtain heq | hold := (mem_sub_add_client_sub _).mp (List.reduceOption_mem_iff.mp hmem)
      · exact hnew.1 (congrArg some heq.symm)
      · exact hfresh (List.reduceOption_mem_iff.mpr hold)

/-- The removed entry is not in the array any more, and all others are. No entry may have been
double. -/
theorem mem_sub_remove_client_sub (h : subs.reduceOption.Nodup) (other : mosquitto_client_sub) :
    some other ∈ sub_remove_client_sub csub subs ↔ some other ∈ subs ∧ other ≠ csub := by
  induction subs with
  | nil => simp [sub_remove_client_sub]
  | cons first subs ih =>
    rw [sub_remove_client_sub]
    by_cases hfirst : first = some csub
    · subst hfirst
      rw [List.reduceOption_cons_of_some] at h
      have hfresh := (List.nodup_cons.mp h).1
      rw [List.reduceOption_mem_iff] at hfresh
      rw [if_pos rfl, List.mem_cons, List.mem_cons]
      constructor
      · rintro (heq | hmem)
        · cases heq
        · exact ⟨Or.inr hmem, fun heq => hfresh (heq ▸ hmem)⟩
      · rintro ⟨heq | hmem, hne⟩
        · exact absurd (Option.some.inj heq) hne
        · exact Or.inr hmem
    · have hrest : subs.reduceOption.Nodup := by
        cases first with
        | none => exact h
        | some first => exact (List.nodup_cons.mp h).2
      rw [if_neg hfirst, List.mem_cons, ih hrest, List.mem_cons]
      constructor
      · rintro (heq | ⟨hmem, hne⟩)
        · exact ⟨Or.inl heq, fun hsame => hfirst (hsame ▸ heq).symm⟩
        · exact ⟨Or.inr hmem, hne⟩
      · rintro ⟨heq | hmem, hne⟩
        · exact Or.inl heq
        · exact Or.inr ⟨hmem, hne⟩

/-- Removing an entry makes none double: its place becomes free, or nothing changes. -/
theorem nodup_sub_remove_client_sub (h : subs.reduceOption.Nodup) :
    (sub_remove_client_sub csub subs).reduceOption.Nodup := by
  induction subs with
  | nil => exact List.nodup_nil
  | cons first subs ih =>
    rw [sub_remove_client_sub]
    cases first with
    | none =>
      rw [if_neg (by simp)]
      exact ih h
    | some first =>
      rw [List.reduceOption_cons_of_some] at h
      obtain ⟨hfresh, hrest⟩ := List.nodup_cons.mp h
      split
      · exact hrest
      · rw [List.reduceOption_cons_of_some]
        apply List.nodup_cons.mpr
        refine ⟨fun hmem => hfresh ?_, ih hrest⟩
        rw [List.reduceOption_mem_iff, mem_sub_remove_client_sub hrest] at hmem
        exact List.reduceOption_mem_iff.mpr hmem.1

end communication_center.mosquitto
