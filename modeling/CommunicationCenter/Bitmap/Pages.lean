import Mathlib.Data.Nat.Bitwise

namespace bitmap

/-- A picture in which each byte holds eight pixels of a column, and the bytes of
a page of eight rows stand side by side. -/
abbrev Picture (width pages : Nat) := Vector UInt8 (width * pages)

variable {width pages : Nat}

theorem index_lt {x y : Nat} (hx : x < width) (hy : y < 8 * pages) :
    x + y / 8 * width < width * pages := by
  have hpage : y / 8 + 1 ≤ pages := by omega
  have hle := Nat.mul_le_mul_right width hpage
  rw [Nat.add_mul, Nat.one_mul, Nat.mul_comm pages] at hle
  omega

/-- Two pixels share a byte exactly when they share column and page. The column has to be inside of
the picture, since the bytes of a page follow those of the page before. -/
theorem index_eq_iff {x y x' y' : Nat} (hx : x < width) (hx' : x' < width) :
    x + y / 8 * width = x' + y' / 8 * width ↔ x = x' ∧ y / 8 = y' / 8 := by
  constructor
  · intro h
    have hcolumn := congrArg (· % width) h
    have hpage := congrArg (· / width) h
    simp only [Nat.add_mul_mod_self_right, Nat.mod_eq_of_lt hx, Nat.mod_eq_of_lt hx'] at hcolumn
    simp only [Nat.add_mul_div_right _ _ (Nat.zero_lt_of_lt hx), Nat.div_eq_of_lt hx,
      Nat.div_eq_of_lt hx', Nat.zero_add] at hpage
    exact ⟨hcolumn, hpage⟩
  · rintro ⟨rfl, hpage⟩
    rw [hpage]

/-- Pixels outside of the picture are off. -/
def pixel (b : Picture width pages) (x y : Nat) : Bool :=
  (b.toList.getD (x + y / 8 * width) 0).toNat.testBit (y % 8)

theorem pixel_eq {b : Picture width pages} {x y : Nat} (h : x + y / 8 * width < width * pages) :
    pixel b x y = (b[x + y / 8 * width]).toNat.testBit (y % 8) := by
  have hlength : x + y / 8 * width < b.toList.length := by simpa using h
  rw [pixel, List.getD_eq_getElem _ _ hlength, Vector.getElem_toList]

/-- A byte with one bit set or cleared. -/
def write_bit (byte : UInt8) (k : Nat) (on : Bool) : UInt8 :=
  let mask : UInt8 := (1 <<< k).toUInt8
  if on then byte ||| mask else byte &&& ~~~mask

/-- Writing one bit of a byte sets that bit and leaves the seven others as they were, whatever the
byte holds. -/
theorem testBit_write_bit (byte : UInt8) (k : Nat) {j : Nat} (hj : j < 8) (on : Bool) :
    (write_bit byte k on).toNat.testBit j = if j = k then on else byte.toNat.testBit j := by
  have hmask : ((1 <<< k).toUInt8).toBitVec.getLsbD j = decide (k = j) := by
    have hone : (1 : Nat) <<< k = 2 ^ k := Nat.one_shiftLeft k
    change (BitVec.ofNat 8 (1 <<< k)).getLsbD j = decide (k = j)
    rw [BitVec.getLsbD_ofNat, hone, Nat.testBit_two_pow]
    simp [hj]
  have hbits (c : UInt8) : c.toNat.testBit j = c.toBitVec.getLsbD j := rfl
  unfold write_bit
  dsimp only
  split
  · next hon =>
    rw [hbits, hbits, UInt8.toBitVec_or, BitVec.getLsbD_or, hmask, hon]
    by_cases heq : j = k
    · simp [heq]
    · simp [heq, Ne.symm heq]
  · next hoff =>
    rw [hbits, hbits, UInt8.toBitVec_and, UInt8.toBitVec_not, BitVec.getLsbD_and,
      BitVec.getLsbD_not, hmask, Bool.eq_false_iff.mpr hoff]
    by_cases heq : j = k
    · simp [heq]
    · simp [heq, hj, Ne.symm heq]

/-- Set or clear one pixel; `none` is a write outside the array. -/
def write_pixel (b : Picture width pages) (x y : Nat) (on : Bool) : Option (Picture width pages) :=
  let index := x + y / 8 * width
  if h : index < width * pages then some (b.set index (write_bit b[index] (y % 8) on) h) else none

/-- Inside of the picture the write succeeds, the pixel is written, and no other pixel of the
picture changes, although a byte holds eight of them. -/
theorem write_pixel_eq (b : Picture width pages) {x y : Nat} (hx : x < width) (hy : y < 8 * pages)
    (on : Bool) : ∃ written, write_pixel b x y on = some written ∧
      ∀ x' < width, ∀ y' < 8 * pages,
        pixel written x' y' = if x' = x ∧ y' = y then on else pixel b x' y' := by
  refine ⟨_, dif_pos (index_lt hx hy), fun x' hx' y' hy' => ?_⟩
  have hbit : y' % 8 < 8 := Nat.mod_lt _ (by decide)
  rw [pixel_eq (index_lt hx' hy'), pixel_eq (index_lt hx' hy')]
  by_cases hshared : x = x' ∧ y / 8 = y' / 8
  · obtain ⟨rfl, hpage⟩ := hshared
    have hrow : y' = y ↔ y' % 8 = y % 8 := by omega
    simp only [← hpage, Vector.getElem_set_self, testBit_write_bit _ _ hbit, true_and, hrow]
  · have hother : x + y / 8 * width ≠ x' + y' / 8 * width := fun h =>
      hshared ((index_eq_iff hx hx').mp h)
    rw [Vector.getElem_set_ne _ _ hother, if_neg]
    rintro ⟨rfl, rfl⟩
    exact hshared ⟨rfl, rfl⟩

/-- A picture is determined by its pixels: there are no bytes, and no bits of a byte, that no pixel
stands for. -/
theorem picture_ext {b b' : Picture width pages}
    (h : ∀ x < width, ∀ y < 8 * pages, pixel b x y = pixel b' x y) : b = b' := by
  apply Vector.ext
  intro i hi
  apply UInt8.toNat_inj.mp
  apply Nat.eq_of_testBit_eq
  intro j
  by_cases hj : j < 8
  · have hwidth : 0 < width := Nat.pos_of_mul_pos_right (Nat.zero_lt_of_lt hi)
    have hpage : i / width < pages := Nat.div_lt_of_lt_mul hi
    have hrow : (8 * (i / width) + j) / 8 = i / width ∧ (8 * (i / width) + j) % 8 = j := by omega
    have hindex : i % width + (8 * (i / width) + j) / 8 * width = i := by
      rw [hrow.1, Nat.mul_comm]
      exact Nat.mod_add_div i width
    have hpixel := h (i % width) (Nat.mod_lt _ hwidth) (8 * (i / width) + j) (by omega)
    rw [pixel_eq (by omega), pixel_eq (by omega)] at hpixel
    simpa only [hindex, hrow.2] using hpixel
  · have hpow : 2 ^ 8 ≤ 2 ^ j := Nat.pow_le_pow_right (by decide) (by omega)
    rw [Nat.testBit_lt_two_pow ((UInt8.toNat_lt _).trans_le hpow),
      Nat.testBit_lt_two_pow ((UInt8.toNat_lt _).trans_le hpow)]

end bitmap
