import CommunicationCenter.Libc.Text

open libc

namespace json

/-- The bytes encode characters. -/
def Utf8 (text : Text) : Prop :=
  ∃ characters : List Char, text = characters.flatMap String.utf8EncodeChar

/-- The bytes of a character are one of the lower half, or are all of the upper half. -/
theorem utf8EncodeChar_bytes (character : Char) :
    (∃ c : UInt8, String.utf8EncodeChar character = [c]) ∨
      ∀ c ∈ String.utf8EncodeChar character, ¬ c < 0x80 := by
  have hupper {n m : Nat} (hn : n < m) (hm : m ≤ 128) (base : Nat) (hbase : base + m ≤ 256)
      (hhigh : 128 ≤ base) : ¬ UInt8.ofNat (n + base) < 0x80 := by
    rw [UInt8.lt_iff_toNat_lt, UInt8.toNat_ofNat_of_lt' (show n + base < 256 by omega)]
    exact Nat.not_lt.mpr (Nat.le_add_left_of_le hhigh)
  have hcontinuation (n : Nat) : ¬ UInt8.ofNat (n % 0x40 + 0x80) < 0x80 :=
    hupper (Nat.mod_lt n (by decide)) (by decide) 0x80 (by decide) (by decide)
  unfold String.utf8EncodeChar
  dsimp only
  split
  · exact Or.inl ⟨_, rfl⟩
  · right
    split
    · simp only [List.forall_mem_cons, List.not_mem_nil, false_implies, implies_true, and_true]
      exact ⟨hupper (Nat.mod_lt _ (by decide)) (by decide) 0xc0 (by decide) (by decide),
        hcontinuation _⟩
    · split
      · simp only [List.forall_mem_cons, List.not_mem_nil, false_implies, implies_true, and_true]
        exact ⟨hupper (Nat.mod_lt _ (by decide)) (by decide) 0xe0 (by decide) (by decide),
          hcontinuation _, hcontinuation _⟩
      · simp only [List.forall_mem_cons, List.not_mem_nil, false_implies, implies_true, and_true]
        exact ⟨hupper (Nat.mod_lt _ (by decide)) (by decide) 0xf0 (by decide) (by decide),
          hcontinuation _, hcontinuation _, hcontinuation _⟩

theorem utf8_nil : Utf8 [] :=
  ⟨[], rfl⟩

/-- Two texts in UTF-8 are one. -/
theorem Utf8.append {first second : Text} (hfirst : Utf8 first) (hsecond : Utf8 second) :
    Utf8 (first ++ second) := by
  obtain ⟨before, rfl⟩ := hfirst
  obtain ⟨after, rfl⟩ := hsecond
  exact ⟨before ++ after, List.flatMap_append.symm⟩

/-- A character of ASCII is in UTF-8. -/
theorem utf8_singleton {c : UInt8} (h : c < 0x80) : Utf8 [c] := by
  have hall : ∀ n : Fin 128, String.utf8EncodeChar (Char.ofNat n.val) = [n.val.toUInt8] := by
    decide +kernel
  have hc := hall ⟨c.toNat, UInt8.lt_iff_toNat_lt.mp h⟩
  simp only [Nat.toUInt8, UInt8.ofNat_toNat] at hc
  exact ⟨[Char.ofNat c.toNat], by simp [hc]⟩

/-- A byte of the lower half is a character of its own, so that a text can be checked in front of
it and behind it. -/
theorem utf8_append_cons_iff {c : UInt8} (h : c < 0x80) (before after : Text) :
    Utf8 (before ++ c :: after) ↔ Utf8 before ∧ Utf8 after := by
  constructor
  · rintro ⟨characters, hcharacters⟩
    induction characters generalizing before with
    | nil => simp at hcharacters
    | cons character characters ih =>
      rw [List.flatMap_cons] at hcharacters
      rcases List.append_eq_append_iff.mp hcharacters with
        ⟨middle, hencoded, hmiddle⟩ | ⟨behind, hbefore, hbehind⟩
      · cases middle with
        | nil =>
          have hrest := ih [] hmiddle
          rw [List.append_nil] at hencoded
          exact ⟨⟨[character], by simp [hencoded]⟩, hrest.2⟩
        | cons d middle =>
          rw [List.cons_append] at hmiddle
          obtain ⟨rfl, hafter⟩ := List.cons.inj hmiddle
          rcases utf8EncodeChar_bytes character with ⟨byte, hbyte⟩ | hupper
          · rw [hbyte] at hencoded
            -- the byte is the whole first character
            obtain ⟨rfl, hnil⟩ : before = [] ∧ middle = [] := by
              cases before with
              | nil => exact ⟨rfl, (List.cons.inj hencoded).2.symm⟩
              | cons => simp at hencoded
            exact ⟨utf8_nil, characters, by rw [hafter, hnil, List.nil_append]⟩
          · exact absurd h (hupper c (by simp [hencoded]))
      · obtain ⟨hfront, hafter⟩ := ih behind hbehind.symm
        rw [hbefore]
        exact ⟨Utf8.append ⟨[character], by simp⟩ hfront, hafter⟩
  · rintro ⟨hbefore, hafter⟩
    exact hbefore.append ((utf8_singleton h).append hafter)

/-- A character of ASCII in front changes nothing about a text being in UTF-8. -/
theorem utf8_cons_iff {c : UInt8} (h : c < 0x80) (after : Text) : Utf8 (c :: after) ↔ Utf8 after := by
  have hcons := utf8_append_cons_iff h [] after
  rwa [List.nil_append, and_iff_right utf8_nil] at hcons

/-- All bytes are of the lower half. -/
def all_ascii (text : Text) : Bool :=
  text.all fun c => c < 0x80

/-- Nor does a text of ASCII. -/
theorem utf8_append_iff_of_ascii {before : Text} (h : all_ascii before = true) (after : Text) :
    Utf8 (before ++ after) ↔ Utf8 after := by
  induction before with
  | nil => rfl
  | cons c before ih =>
    obtain ⟨hc, hrest⟩ := Bool.and_eq_true_iff.mp h
    rw [List.cons_append, utf8_cons_iff (of_decide_eq_true hc), ih hrest]

/-- A text of ASCII is in UTF-8. -/
theorem utf8_of_ascii {text : Text} (h : all_ascii text = true) : Utf8 text := by
  have happend := utf8_append_iff_of_ascii h []
  rw [List.append_nil] at happend
  exact happend.mpr utf8_nil

end json
