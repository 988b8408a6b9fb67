import CommunicationCenter.Libc.Printf
import Mathlib.Data.List.GetD

namespace libc

variable {n : Nat}

/-- The assignment `buffer[i] = c`; `none` is a write outside the array. -/
def store (buffer : Vector UInt8 n) (i : Nat) (c : UInt8) : Option (Vector UInt8 n) :=
  if h : i < n then some (buffer.set i c h) else none

/-- Assignments to the elements from an index on. -/
def store_all (buffer : Vector UInt8 n) (i : Nat) : List UInt8 → Option (Vector UInt8 n)
  | [] => some buffer
  | c :: bytes => do
    let buffer ← store buffer i c
    store_all buffer (i + 1) bytes

/-- `vsnprintf(buffer + offset, size, ...)` for a format that, with its arguments,
stands for the given bytes. -/
def vsnprintf (buffer : Vector UInt8 n) (offset size : Nat) (bytes : List UInt8) :
    Option (Vector UInt8 n) :=
  if size = 0 then some buffer else store_all buffer offset (bytes.take (size - 1) ++ [0])

/-- The string in an array. -/
def string (buffer : Vector UInt8 n) : Text :=
  cstr buffer.toList

def Terminated (buffer : Vector UInt8 n) : Prop :=
  0 ∈ buffer.toList

instance (buffer : Vector UInt8 n) : Decidable (Terminated buffer) :=
  inferInstanceAs (Decidable (_ ∈ _))

/-- The string that is read from an array; without a NUL, the read leaves the array. -/
def read_string (buffer : Vector UInt8 n) : Option CString :=
  if Terminated buffer then some ⟨string buffer, zero_notMem_cstr _⟩ else none

theorem read_string_of_terminated {buffer : Vector UInt8 n} (h : Terminated buffer) :
    read_string buffer = some ⟨string buffer, zero_notMem_cstr _⟩ :=
  if_pos h

/-- What comes behind a NUL does not belong to the string. -/
theorem cstr_append_zero (text rest : List UInt8) : cstr (text ++ 0 :: rest) = cstr text := by
  induction text with
  | nil => rfl
  | cons c text ih =>
    unfold cstr at ih ⊢
    rw [List.cons_append, List.takeWhile_cons, List.takeWhile_cons, ih]

theorem cstr_append {text : List UInt8} (h : (0 : UInt8) ∉ text) (rest : List UInt8) :
    cstr (text ++ rest) = text ++ cstr rest := by
  unfold cstr
  apply List.takeWhile_append_of_pos
  intro c hc
  have hne : c ≠ 0 := fun heq => h (heq ▸ hc)
  simpa using hne

theorem cstr_string (buffer : Vector UInt8 n) : cstr (string buffer) = string buffer :=
  cstr_eq_self (zero_notMem_cstr buffer.toList)

theorem cstr_take (text : List UInt8) (k : Nat) : cstr (text.take k) = (cstr text).take k :=
  List.take_takeWhile.symm

/-- A string and its NUL fit the array that holds them. Nothing is said about the bytes behind the
NUL. -/
theorem string_length_lt {buffer : Vector UInt8 n} (h : Terminated buffer) :
    (string buffer).length < n := by
  have hsplit := List.takeWhile_append_dropWhile (p := (· ≠ (0 : UInt8))) (l := buffer.toList)
  have hlength := congrArg List.length hsplit
  rw [List.length_append, Vector.length_toList] at hlength
  have hrest : (buffer.toList.dropWhile (· ≠ (0 : UInt8))) ≠ [] := by
    intro hnil
    have hall := List.dropWhile_eq_nil_iff.mp hnil 0 h
    simp at hall
  have hpositive := List.length_pos_iff.mpr hrest
  rw [string, cstr]
  omega

/-- The elements in front of the string's end are those of the string. -/
theorem take_string (buffer : Vector UInt8 n) :
    buffer.toList.take (string buffer).length = string buffer :=
  (List.prefix_iff_eq_take.mp (List.takeWhile_prefix _)).symm

/-- Inside the array, the stored bytes replace what was there, and nothing else
changes. -/
theorem store_all_eq (buffer : Vector UInt8 n) (i : Nat) (bytes : List UInt8)
    (h : i + bytes.length ≤ n) : ∃ stored, store_all buffer i bytes = some stored ∧
      stored.toList = buffer.toList.take i ++ (bytes ++ buffer.toList.drop (i + bytes.length)) := by
  induction bytes generalizing buffer i with
  | nil => exact ⟨buffer, rfl, by simp⟩
  | cons c bytes ih =>
    rw [List.length_cons] at h
    have hi : i < n := by omega
    have hlength : i < buffer.toList.length := by simpa using hi
    obtain ⟨stored, hstored, htext⟩ := ih (buffer.set i c hi) (i + 1) (by omega)
    refine ⟨stored, ?_, ?_⟩
    · rw [store_all, store, dif_pos hi]
      exact hstored
    · have htake : (buffer.toList.set i c).take (i + 1) = buffer.toList.take i ++ [c] := by
        rw [List.take_succ_eq_append_getElem (by simpa using hlength), List.take_set_of_le (Nat.le_refl i),
          List.getElem_set_self]
      have hindex : i + 1 + bytes.length = i + (bytes.length + 1) := by omega
      rw [htext, Vector.toList_set, htake, List.drop_set_of_lt (by omega), List.length_cons, hindex]
      simp

theorem store_eq (buffer : Vector UInt8 n) {i : Nat} (h : i < n) (c : UInt8) :
    ∃ stored, store buffer i c = some stored ∧
      stored.toList = buffer.toList.take i ++ c :: buffer.toList.drop (i + 1) := by
  obtain ⟨stored, hstored, htext⟩ := store_all_eq buffer i [c] h
  refine ⟨stored, ?_, by simpa using htext⟩
  rw [store_all] at hstored
  simpa [store_all] using hstored

/-- Behind the bytes in front of its offset a call leaves as much of the text as
the size allows. -/
theorem vsnprintf_eq (buffer : Vector UInt8 n) {front : Text} {size : Nat} (hnul : (0 : UInt8) ∉ front)
    (hfront : buffer.toList.take front.length = front) (hsize : 0 < size)
    (hfits : front.length + size ≤ n) (bytes : List UInt8) :
    ∃ printed, vsnprintf buffer front.length size bytes = some printed ∧ Terminated printed ∧
      string printed = front ++ (cstr bytes).take (size - 1) := by
  have hlength : (bytes.take (size - 1) ++ [0]).length ≤ size := by
    rw [List.length_append, List.length_take, List.length_singleton]
    omega
  obtain ⟨printed, hprinted, htext⟩ := store_all_eq buffer front.length (bytes.take (size - 1) ++ [0])
    (by omega)
  refine ⟨printed, ?_, ?_, ?_⟩
  · rw [vsnprintf, if_neg (Nat.ne_of_gt hsize), hprinted]
  · rw [Terminated, htext]
    simp
  · rw [string, htext, hfront, List.append_assoc, List.singleton_append, cstr_append hnul,
      cstr_append_zero, cstr_take]

/-- A byte and a new NUL take the place of the NUL at the end of a string. -/
theorem store_at_end_eq (buffer : Vector UInt8 n) (hroom : (string buffer).length + 1 < n) (c : UInt8) :
    ∃ longer ended, store buffer (string buffer).length c = some longer ∧
      store longer ((string buffer).length + 1) 0 = some ended ∧
      ended.toList.take ((string buffer).length + 1) = string buffer ++ [c] := by
  obtain ⟨longer, hlonger, hlongerText⟩ := store_eq buffer (Nat.lt_of_succ_lt hroom) c
  obtain ⟨ended, hended, hendedText⟩ := store_eq longer hroom 0
  have htake : longer.toList.take ((string buffer).length + 1) = string buffer ++ [c] := by
    rw [hlongerText, take_string, List.take_length_add_append]
    rfl
  refine ⟨longer, ended, hlonger, hended, ?_⟩
  rw [hendedText, htake, List.take_append_of_le_length (by simp)]
  exact List.take_of_length_le (by simp)

/-- An array that is initialised by a string literal; its other elements are zero. -/
def initialised (literal : Text) : Vector UInt8 n :=
  Vector.ofFn fun i => literal.getD i 0

theorem toList_initialised {literal : Text} (h : literal.length ≤ n) :
    (initialised literal : Vector UInt8 n).toList =
      literal ++ List.replicate (n - literal.length) 0 := by
  apply List.ext_getElem
  · rw [Vector.length_toList, List.length_append, List.length_replicate]
    omega
  · intro i hi hi'
    rw [Vector.getElem_toList, List.getElem_append]
    unfold initialised
    rw [Vector.getElem_ofFn]
    split
    · next hlt => rw [List.getD_eq_getElem _ _ hlt]
    · next hge => rw [List.getD_eq_default _ _ (Nat.le_of_not_lt hge), List.getElem_replicate]

/-- An array with room for the NUL of the literal holds it as its string. -/
theorem string_initialised {literal : Text} (h : literal.length < n) (hnul : (0 : UInt8) ∉ literal) :
    Terminated (initialised literal : Vector UInt8 n) ∧
      string (initialised literal : Vector UInt8 n) = literal := by
  have hlist := toList_initialised h.le
  obtain ⟨rest, hrest⟩ : ∃ rest, n - literal.length = rest + 1 :=
    ⟨n - literal.length - 1, by omega⟩
  rw [hrest, List.replicate_succ] at hlist
  rw [Terminated, string, hlist]
  constructor
  · simp
  · rw [cstr_append_zero, cstr_eq_self hnul]

end libc
