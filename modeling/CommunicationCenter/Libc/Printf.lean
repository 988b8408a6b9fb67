import CommunicationCenter.Libc.Float

namespace libc

inductive Arg (F : Type) where
  | float (value : F)
  | uint (value : Nat)

variable {F : Type} [CFloat F]

/-- The text that a format and its arguments stand for. The conversions in use
are `%.<digit>f` and `%u`; every other byte is copied. -/
def format : Text → List (Arg F) → Text
  | 37 :: 46 :: digit :: 102 :: text, .float value :: args =>
    CFloat.fixed (digit.toNat - 48) value ++ format text args
  | 37 :: 117 :: text, .uint value :: args => decimal value ++ format text args
  | c :: text, args => c :: format text args
  | [], _ => []

/-- Text without conversions is copied, and the arguments are left for the conversions that come
behind it. -/
theorem format_append_of_notMem {plain : Text} (h : (37 : UInt8) ∉ plain) (text : Text)
    (args : List (Arg F)) : format (plain ++ text) args = plain ++ format text args := by
  induction plain with
  | nil => rfl
  | cons c plain ih =>
    have hc : c ≠ 37 := fun heq => h (by simp [heq])
    have hcopy : format (c :: (plain ++ text)) args = c :: format (plain ++ text) args := by
      rw [format.eq_3]
      · simp [hc]
      · simp [hc]
    rw [List.cons_append, hcopy, ih fun hmem => h (List.mem_cons_of_mem _ hmem), List.cons_append]

/-- A byte that no printed number contains comes from the format. Digits are left out, since any
number may have them. -/
theorem notMem_format {c : UInt8} (hfixed : ∀ decimals (x : F), c ∉ CFloat.fixed decimals x)
    (hdigit : isdigit c = false) {fmt : Text} (h : c ∉ fmt) (args : List (Arg F)) :
    c ∉ format fmt args := by
  fun_induction format fmt args with
  | case1 digit text value args ih =>
    simp only [List.mem_cons, not_or] at h
    rw [List.mem_append, not_or]
    exact ⟨hfixed _ _, ih h.2.2.2.2⟩
  | case2 text value args ih =>
    simp only [List.mem_cons, not_or] at h
    rw [List.mem_append, not_or]
    refine ⟨fun hmem => ?_, ih h.2.2⟩
    rw [isdigit_of_mem_decimal hmem] at hdigit
    cases hdigit
  | case3 d text args _ _ ih =>
    simp only [List.mem_cons, not_or] at h ⊢
    exact ⟨h.1, ih h.2⟩
  | case4 args => simp

/-- What `snprintf` leaves in a buffer of the given size. -/
def snprintf (size : Nat) (text : Text) : Text :=
  text.take (size - 1)

end libc
