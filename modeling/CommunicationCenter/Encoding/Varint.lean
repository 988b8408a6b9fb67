import Mathlib.Algebra.Order.Group.Nat
import Mathlib.Tactic.Ring

namespace encoding

/-- Numbers in base 128 from the lowest digit on. A byte of the upper half says
that more of them follow. -/
inductive Varint : List UInt8 → Nat → Prop where
  | last {byte : UInt8} (low : byte < 0x80) : Varint [byte] byte.toNat
  | more {byte : UInt8} {bytes : List UInt8} {n : Nat} (high : ¬ byte < 0x80)
      (rest : Varint bytes n) : Varint (byte :: bytes) (byte.toNat - 128 + 128 * n)

/-- The highest digit is not zero, unless it is the only one. -/
def Shortest (bytes : List UInt8) : Prop :=
  bytes.length ≤ 1 ∨ bytes.getLast? ≠ some 0

theorem Varint.ne_nil {bytes : List UInt8} {n : Nat} (h : Varint bytes n) : bytes ≠ [] := by
  cases h with
  | last _ => exact List.cons_ne_nil _ _
  | more _ _ => exact List.cons_ne_nil _ _

theorem Varint.length_pos {bytes : List UInt8} {n : Nat} (h : Varint bytes n) : 0 < bytes.length :=
  List.length_pos_iff.mpr h.ne_nil

/-- A number is read up to its last byte, whatever follows: texts that begin with two numbers and
agree have the same number in front and the same rest. The encodings need not be shortest. -/
theorem Varint.append_inj {first second rest other : List UInt8} {n m : Nat} (h : Varint first n)
    (hsecond : Varint second m) (heq : first ++ rest = second ++ other) :
    first = second ∧ n = m ∧ rest = other := by
  induction h generalizing second m with
  | last hlow =>
    cases hsecond with
    | last _ =>
      obtain ⟨rfl, rfl⟩ := List.cons.inj heq
      exact ⟨rfl, rfl, rfl⟩
    | more hhigh _ =>
      obtain ⟨rfl, -⟩ := List.cons.inj heq
      exact absurd hlow hhigh
  | more hhigh _ ih =>
    cases hsecond with
    | last hlow =>
      obtain ⟨rfl, -⟩ := List.cons.inj heq
      exact absurd hlow hhigh
    | more _ hsecond =>
      obtain ⟨rfl, htail⟩ := List.cons.inj heq
      obtain ⟨rfl, rfl, rfl⟩ := ih hsecond htail
      exact ⟨rfl, rfl, rfl⟩

theorem Varint.lt {bytes : List UInt8} {n : Nat} (h : Varint bytes n) : n < 128 ^ bytes.length := by
  induction h with
  | last hlow =>
    rw [UInt8.lt_iff_toNat_lt] at hlow
    exact hlow
  | @more byte bytes n _ _ ih =>
    have hbyte := UInt8.toNat_lt byte
    rw [List.length_cons, Nat.pow_succ]
    omega

/-- With no digit to spare, the number needs all of them. A single byte is left out, since the
number zero has one as well. -/
theorem Varint.le {bytes : List UInt8} {n : Nat} (h : Varint bytes n) (hshortest : Shortest bytes)
    (hlength : 1 < bytes.length) : 128 ^ (bytes.length - 1) ≤ n := by
  have hlast : bytes.getLast? ≠ some 0 := hshortest.resolve_left (Nat.not_le.mpr hlength)
  clear hshortest
  induction h with
  | last _ => exact absurd hlength (lt_irrefl 1)
  | @more byte bytes n _ hrest ih =>
    cases hrest with
    | @last digit _ =>
      have hne : digit.toNat ≠ 0 := fun hzero => hlast (by
        rw [List.getLast?_cons_cons, List.getLast?_singleton, ← UInt8.ofNat_toNat (x := digit), hzero]
        rfl)
      rw [List.length_cons, List.length_singleton]
      omega
    | @more digit digits m _ hrest =>
      rw [List.getLast?_cons_cons] at hlast
      have hbelow := ih (by simp [hrest.length_pos]) hlast
      simp only [List.length_cons, Nat.add_sub_cancel] at hbelow ⊢
      rw [Nat.pow_succ]
      omega

/-- A number has one shortest encoding: two encodings of it without needless digits are the same
bytes. Nothing is assumed of the size of the number. -/
theorem Varint.eq_of_shortest {first second : List UInt8} {n : Nat} (h : Varint first n)
    (hsecond : Varint second n) (hshortest : Shortest first) (hshortest' : Shortest second) :
    first = second := by
  have hlength {first second : List UInt8} (h : Varint first n) (hsecond : Varint second n)
      (hshortest : Shortest second) : second.length ≤ first.length := by
    by_contra! hlt
    have hpos := h.length_pos
    have hbelow := hsecond.le hshortest (by omega)
    have hpow : 128 ^ first.length ≤ 128 ^ (second.length - 1) :=
      Nat.pow_le_pow_right (by decide) (by omega)
    have habove := h.lt
    omega
  have heq : first.length = second.length :=
    Nat.le_antisymm (hlength hsecond h hshortest) (hlength h hsecond hshortest')
  clear hlength hshortest hshortest'
  induction h generalizing second with
  | @last byte _ =>
    generalize hn : byte.toNat = n at hsecond
    cases hsecond with
    | last _ => rw [UInt8.toNat_inj.mp hn]
    | more _ hrest => exact absurd (by simpa using heq) hrest.ne_nil
  | @more byte bytes m hhigh hrest ih =>
    generalize hn : byte.toNat - 128 + 128 * m = n at hsecond
    cases hsecond with
    | last _ => simp [hrest.ne_nil] at heq
    | @more other others k hother hothers =>
      rw [UInt8.lt_iff_toNat_lt, Nat.not_lt] at hhigh hother
      change 128 ≤ _ at hhigh hother
      have hbyte := UInt8.toNat_lt byte
      have hotherByte := UInt8.toNat_lt other
      obtain rfl : m = k := by omega
      obtain rfl : byte = other := UInt8.toNat_inj.mp (by omega)
      rw [ih hothers (by simpa using heq)]

/-- What the digits stand for. -/
def value : List UInt8 → Nat
  | [] => 0
  | byte :: bytes => byte.toNat % 128 + 128 * value bytes

theorem value_concat (bytes : List UInt8) (byte : UInt8) :
    value (bytes ++ [byte]) = value bytes + byte.toNat % 128 * 128 ^ bytes.length := by
  induction bytes with
  | nil => simp [value]
  | cons first bytes ih =>
    rw [List.cons_append, value, ih, value, List.length_cons, Nat.pow_succ]
    ring

/-- All bytes say that more of them follow. -/
def High (bytes : List UInt8) : Prop :=
  ∀ byte ∈ bytes, ¬ byte < 0x80

theorem High.concat {bytes : List UInt8} {byte : UInt8} (h : High bytes) (hbyte : ¬ byte < 0x80) :
    High (bytes ++ [byte]) := by
  intro other hmem
  obtain hmem | hmem := List.mem_append.mp hmem
  · exact h other hmem
  · exact List.mem_singleton.mp hmem ▸ hbyte

theorem High.varint {bytes : List UInt8} {byte : UInt8} (h : High bytes) (hbyte : byte < 0x80) :
    Varint (bytes ++ [byte]) (value (bytes ++ [byte])) := by
  induction bytes with
  | nil =>
    have hvalue : value [byte] = byte.toNat := by
      have hlt := UInt8.lt_iff_toNat_lt.mp hbyte
      simp only [value]
      exact Nat.mod_eq_of_lt hlt
    rw [List.nil_append, hvalue]
    exact .last hbyte
  | cons first bytes ih =>
    have hfirst := h first List.mem_cons_self
    have hdigit : first.toNat % 128 = first.toNat - 128 := by
      have hlt := UInt8.toNat_lt first
      have hle : 128 ≤ first.toNat := Nat.not_lt.mp fun hlt => hfirst (UInt8.lt_iff_toNat_lt.mpr hlt)
      omega
    rw [List.cons_append, value, hdigit]
    exact .more hfirst (ih fun other hmem => h other (List.mem_cons_of_mem _ hmem))

/-- Bytes that all say that more follow are not all of a number: the number goes on behind them, in
what comes next. -/
theorem Varint.high_prefix {encoded tail bytes rest : List UInt8} {n : Nat} (h : Varint encoded n)
    (hhigh : High bytes) (heq : encoded ++ tail = bytes ++ rest) :
    ∃ more, more ≠ [] ∧ encoded = bytes ++ more ∧ rest = more ++ tail := by
  induction bytes generalizing encoded n with
  | nil => exact ⟨encoded, h.ne_nil, rfl, heq.symm⟩
  | cons byte bytes ih =>
    have hbyte := hhigh byte List.mem_cons_self
    cases h with
    | last hlow =>
      obtain ⟨rfl, -⟩ := List.cons.inj heq
      exact absurd hlow hbyte
    | more _ hrest =>
      obtain ⟨rfl, htail⟩ := List.cons.inj heq
      obtain ⟨more, hne, rfl, rfl⟩ :=
        ih hrest (fun other hmem => hhigh other (List.mem_cons_of_mem _ hmem)) htail
      exact ⟨more, hne, rfl, rfl⟩

end encoding
