import CommunicationCenter.HttpServer.ScheduleLoop
import Mathlib.Data.List.Infix

open libc communication_center.system_state

namespace communication_center.http_server

/-- How often the key occurs in the text. -/
def start_count (text : Text) : Nat :=
  (text.tails.filter start_key.isPrefixOf).length

/-- The first key of every stretch of the text up to a closing brace, and of the
stretch behind the last one. The flag says that the stretch has had its key. -/
def object_starts : Bool → Text → List Text
  | _, [] => []
  | seen, c :: text =>
    if c = brace then object_starts false text
    else if !seen && start_key.isPrefixOf (c :: text) then (c :: text) :: object_starts true text
    else object_starts seen text

/-- A key that no closing brace follows. -/
def Unterminated (text : Text) : Prop :=
  ∃ found, found <:+ text ∧ start_key <+: found ∧ brace ∉ found

/-- The periods that scan at one of the keys with a closing brace behind it. -/
def closed_periods (starts : List Text) : List schedule_period_t :=
  starts.filterMap fun found => if brace ∈ found then scan_period found else none

/-- The starts of objects are some of the places where the key is, in the order of the text.
Further keys in an object are left out. -/
theorem object_starts_sublist (seen : Bool) (text : Text) :
    (object_starts seen text).Sublist (text.tails.filter start_key.isPrefixOf) := by
  induction text generalizing seen with
  | nil => exact List.nil_sublist _
  | cons c text ih =>
    rw [object_starts, List.tails_cons]
    split
    · exact (ih false).trans (List.Sublist.filter _ (List.sublist_cons_self _ _))
    · split
      · next hkey =>
        rw [List.filter_cons_of_pos (Bool.and_eq_true_iff.mp hkey).2]
        exact (ih true).cons_cons _
      · exact (ih seen).trans (List.Sublist.filter _ (List.sublist_cons_self _ _))

/-- So there are at most as many as keys. -/
theorem object_starts_length_le (text : Text) :
    (object_starts false text).length ≤ start_count text :=
  (object_starts_sublist false text).length_le

/-- Behind a key the search goes on at the next closing brace, if there is one. -/
theorem object_starts_seen (text : Text) :
    object_starts true text =
      ((strchr brace text).map fun p => object_starts false p.tail).getD [] := by
  induction text with
  | nil => rfl
  | cons c text ih =>
    rw [object_starts, strchr]
    split
    · rfl
    · simpa using ih

/-- The stretches are visited as the loop visits them: find the key, then go on
behind the next closing brace. -/
theorem object_starts_eq (text : Text) :
    object_starts false text =
      match strstr start_key text with
      | none => []
      | some found => found :: object_starts true found.tail := by
  induction text with
  | nil => rfl
  | cons c text ih =>
    rw [object_starts, strstr]
    by_cases hkey : start_key.isPrefixOf (c :: text) = true
    · have hne : c ≠ brace := by
        rintro rfl
        exact absurd (List.cons_prefix_cons.mp (List.isPrefixOf_iff_prefix.mp hkey)).1 (by decide)
      rw [if_neg hne, if_pos hkey]
      simp [hkey]
    · rw [if_neg hkey]
      simp [hkey, ih]

/-- Where some key stays without a closing brace, so does a start of an object, from a place behind
a key as well as from one behind a brace. -/
theorem object_starts_of_unterminated {seen : Bool} {text : Text}
    (hseen : seen = true → brace ∈ text) (h : Unterminated text) :
    ∃ found ∈ object_starts seen text, brace ∉ found := by
  obtain ⟨found, hsuffix, hkey, hbrace⟩ := h
  induction text generalizing seen with
  | nil =>
    obtain rfl := List.suffix_nil.mp hsuffix
    exact absurd (List.prefix_nil.mp hkey) (by decide)
  | cons c text ih =>
    rw [object_starts]
    split
    · next hc =>
      rcases List.suffix_cons_iff.mp hsuffix with rfl | htail
      · exact absurd (by simp [hc]) hbrace
      · exact ih (by simp) htail
    · next hc =>
      split
      · by_cases hopen : brace ∈ c :: text
        · have htext : brace ∈ text := (List.mem_cons.mp hopen).resolve_left (Ne.symm hc)
          rcases List.suffix_cons_iff.mp hsuffix with rfl | htail
          · exact absurd hopen hbrace
          · obtain ⟨last, hmem, hlast⟩ := ih (fun _ => htext) htail
            exact ⟨last, List.mem_cons_of_mem _ hmem, hlast⟩
        · exact ⟨c :: text, by simp, hopen⟩
      · next hskip =>
        rcases List.suffix_cons_iff.mp hsuffix with rfl | htail
        · have hseen' : seen = true := by
            by_contra hnot
            exact hskip (by simp [Bool.not_eq_true _ ▸ hnot, List.isPrefixOf_iff_prefix.mpr hkey])
          exact absurd (hseen hseen') hbrace
        · refine ih (fun hs => ?_) htail
          exact (List.mem_cons.mp (hseen hs)).resolve_left (Ne.symm hc)

/-- A text is unterminated exactly if some start of an object in it has no closing brace behind it.
-/
theorem unterminated_iff (text : Text) :
    Unterminated text ↔ ∃ found ∈ object_starts false text, brace ∉ found := by
  refine ⟨object_starts_of_unterminated (by simp), ?_⟩
  rintro ⟨found, hmem, hbrace⟩
  have htails := (object_starts_sublist false text).subset hmem
  rw [List.mem_filter, List.mem_tails] at htails
  exact ⟨found, htails.1, List.isPrefixOf_iff_prefix.mp htails.2, hbrace⟩

end communication_center.http_server
