import CommunicationCenter.Libc.Text

namespace libc

/-- The first position of `needle` in the text; `none` is the NULL result. -/
def strstr (needle : Text) : Text → Option Text
  | [] => if needle = [] then some [] else none
  | c :: text => if needle.isPrefixOf (c :: text) then some (c :: text) else strstr needle text

/-- The first position of a byte other than NUL. -/
def strchr (byte : UInt8) : Text → Option Text
  | [] => none
  | c :: text => if c = byte then some (c :: text) else strchr byte text

/-- One step of a `char *`. Stepping off the NUL has no result. -/
def next_char : Text → Option Text
  | [] => none
  | _ :: text => some text

/-- The difference of the first two bytes that differ among the first `n`,
where the shorter text contributes its NUL. -/
def strncmp : Text → Text → Nat → Int
  | _, _, 0 => 0
  | [], [], _ + 1 => 0
  | [], b :: _, _ + 1 => -(b.toNat : Int)
  | a :: _, [], _ + 1 => (a.toNat : Int)
  | a :: s, b :: t, n + 1 => if a = b then strncmp s t n else (a.toNat : Int) - (b.toNat : Int)

theorem strstr_of_prefix {needle text : Text} (h : needle <+: text) :
    strstr needle text = some text := by
  cases text with
  | nil => simp [strstr, List.prefix_nil.mp h]
  | cons c text => rw [strstr, if_pos (List.isPrefixOf_iff_prefix.mpr h)]

theorem strstr_suffix {needle text found : Text} (h : strstr needle text = some found) :
    found <:+ text := by
  induction text with
  | nil =>
    simp only [strstr, Option.ite_none_right_eq_some, Option.some.injEq] at h
    exact h.2 ▸ List.suffix_rfl
  | cons c text ih =>
    rw [strstr] at h
    split at h
    · exact Option.some.inj h ▸ List.suffix_rfl
    · exact (ih h).trans (List.suffix_cons _ _)

theorem prefix_of_strstr {needle text found : Text} (h : strstr needle text = some found) :
    needle <+: found := by
  induction text with
  | nil =>
    simp only [strstr, Option.ite_none_right_eq_some, Option.some.injEq] at h
    exact h.1 ▸ List.nil_prefix
  | cons c text ih =>
    rw [strstr] at h
    split at h
    · next hprefix => exact Option.some.inj h ▸ List.isPrefixOf_iff_prefix.mp hprefix
    · exact ih h

/-- Bytes that differ from the needle's first one cannot start an occurrence, so that the search
can begin behind them. -/
theorem strstr_append_of_notMem {first : UInt8} {needle before : Text} (h : first ∉ before)
    (text : Text) :
    strstr (first :: needle) (before ++ text) = strstr (first :: needle) text := by
  induction before with
  | nil => rfl
  | cons c before ih =>
    obtain ⟨hne, htail⟩ := not_or.mp (List.mem_cons.not.mp h)
    have hprefix : ¬ (first :: needle) <+: c :: (before ++ text) := by
      intro hpre
      exact hne (List.cons_prefix_cons.mp hpre).1
    rw [List.cons_append, strstr, if_neg fun hp => hprefix (List.isPrefixOf_iff_prefix.mp hp),
      ih htail]

theorem strchr_eq_none_iff {byte : UInt8} {text : Text} :
    strchr byte text = none ↔ byte ∉ text := by
  induction text with
  | nil => simp [strchr]
  | cons c text ih =>
    rw [strchr]
    split
    · next heq => simp [heq]
    · next hne => rw [ih, List.mem_cons, not_or, and_iff_right (Ne.symm hne)]

theorem strchr_suffix {byte : UInt8} {text found : Text} (h : strchr byte text = some found) :
    ∃ rest, found = byte :: rest ∧ found <:+ text := by
  induction text with
  | nil => cases h
  | cons c text ih =>
    rw [strchr] at h
    split at h
    · next heq =>
      obtain rfl := Option.some.inj h
      exact ⟨text, by rw [heq], List.suffix_rfl⟩
    · obtain ⟨rest, hfound, hsuffix⟩ := ih h
      exact ⟨rest, hfound, hsuffix.trans (List.suffix_cons _ _)⟩

/-- Two C strings compare equal in their first `n` bytes exactly when these
bytes agree and neither ends earlier than the other. -/
theorem strncmp_eq_zero_iff {s t : Text} (hs : (0 : UInt8) ∉ s) (ht : (0 : UInt8) ∉ t) (n : Nat) :
    strncmp s t n = 0 ↔ s.take n = t.take n := by
  induction n generalizing s t with
  | zero => simp [strncmp]
  | succ n ih =>
    cases s with
    | nil =>
      cases t with
      | nil => simp [strncmp]
      | cons b t =>
        have hb : b.toNat ≠ 0 := fun h => ht (by simp [← UInt8.toNat_inj, h])
        simp [strncmp, hb]
    | cons a s =>
      cases t with
      | nil =>
        have ha : a.toNat ≠ 0 := fun h => hs (by simp [← UInt8.toNat_inj, h])
        simp [strncmp, ha]
      | cons b t =>
        rw [strncmp, List.take_succ_cons, List.take_succ_cons, List.cons.injEq]
        split
        · next heq =>
          rw [ih (fun h => hs (List.mem_cons_of_mem _ h)) fun h => ht (List.mem_cons_of_mem _ h)]
          simp [heq]
        · next hne =>
          have hbytes : a.toNat ≠ b.toNat := fun h => hne (UInt8.toNat_inj.mp h)
          simp only [hne, false_and, iff_false]
          omega

end libc
