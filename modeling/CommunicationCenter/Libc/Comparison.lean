import CommunicationCenter.Libc.Digits
import CommunicationCenter.Libc.Float

namespace libc

/-- The comparison `<=`, which fails on NaN as `>` does. -/
def Binary32.le (x y : Binary32) : Bool :=
  x ≠ .nan && y ≠ .nan && !x.gt y

theorem pow2_nonneg (e : Int) : 0 ≤ pow2 e := by
  unfold pow2
  split
  · exact pow_nonneg (by norm_num) _
  · exact div_nonneg zero_le_one (pow_nonneg (by norm_num) _)

theorem round_magnitude_nonneg {precision : Nat} {emin emax : Int} {q rounded : ℚ}
    (h : round_magnitude precision emin emax q = some rounded) : 0 ≤ rounded := by
  unfold round_magnitude at h
  split at h
  · exact (Option.some.inj h).le
  · dsimp only at h
    split at h
    · obtain rfl := Option.some.inj h
      exact mul_nonneg (Nat.cast_nonneg _) (pow2_nonneg _)
    · cases h

/-- A negative value does not exceed a nonnegative one, however it is rounded. The value may become
an infinity or a zero in the rounding. -/
theorem Binary32.not_gt_of_negative {q limit : ℚ} (hlimit : 0 ≤ limit) :
    (Binary32.ofExact true q).gt (.finite false limit) = false := by
  unfold Binary32.ofExact
  cases hround : round_magnitude 24 (-126) 127 q with
  | none => rfl
  | some rounded =>
    have hrounded := round_magnitude_nonneg hround
    simp only [Option.map_some, Option.getD_some, Binary32.gt, signed, if_true,
      Bool.false_eq_true, if_false, decide_eq_false_iff_not]
    linarith

/-- A difference above a limit that is not negative orders the two values, although it was rounded.
The values may be any floats, also infinite ones. -/
theorem Binary32.gt_of_sub_gt {x y : Binary32} {limit : ℚ} (hlimit : 0 ≤ limit)
    (h : (x.sub y).gt (.finite false limit) = true) : x.gt y = true := by
  cases x with
  | nan => cases h
  | infinite n =>
    cases y with
    | nan => cases h
    | infinite m =>
      revert h
      cases n <;> cases m <;> simp [Binary32.sub, Binary32.gt]
    | finite m q => simpa [Binary32.sub, Binary32.gt] using h
  | finite n p =>
    cases y with
    | nan => cases h
    | infinite m => simpa [Binary32.sub, Binary32.gt] using h
    | finite m q =>
      by_contra hle
      have hexact : signed n p - signed m q ≤ 0 := by
        have hle : ¬ signed m q < signed n p := by simpa [Binary32.gt] using hle
        linarith
      simp only [Binary32.sub] at h
      rcases hexact.lt_or_eq with hneg | hzero
      · rw [if_neg hneg.ne, decide_eq_true hneg, if_pos hneg,
          Binary32.not_gt_of_negative hlimit] at h
        cases h
      · rw [if_pos hzero] at h
        have hlt : limit < signed (n && !m) 0 := by simpa [Binary32.gt, signed] using h
        simp [signed] at hlt
        linarith

/-- A printed number has no characters but digits, the point, the minus and the letters of `nan`
and `inf`, whatever its value and the number of decimals are. -/
theorem Binary32.notMem_fixed {c : UInt8} (hdigit : isdigit c = false)
    (hother : c ∉ ascii "-.naif") (decimals : Nat) (x : Binary32) : c ∉ x.fixed decimals := by
  have hdigits {text : Text} (h : ∀ d ∈ text, isdigit d = true) : c ∉ text := fun hmem => by
    rw [h c hmem] at hdigit
    cases hdigit
  simp only [show ascii "-.naif" = [45, 46, 110, 97, 105, 102] from rfl, List.mem_cons, not_or] at hother
  obtain ⟨hminus, hpoint, hn, ha, hi, hf, _⟩ := hother
  have hsign (negative : Bool) : c ∉ minus negative := by
    cases negative <;> simp [minus, hminus]
  cases x with
  | nan => simp [Binary32.fixed, show ascii "nan" = [110, 97, 110] from rfl, hn, ha]
  | infinite negative =>
    simp [Binary32.fixed, hsign, show ascii "inf" = [105, 110, 102] from rfl, hn, hi, hf]
  | finite negative magnitude =>
    have hwhole (n : Nat) := hdigits (fun d (hd : d ∈ decimal n) => isdigit_of_mem_decimal hd)
    have hfraction (n : Nat) :=
      hdigits (fun d (hd : d ∈ padded decimals n) => isdigit_of_mem_padded hd)
    simp only [Binary32.fixed, List.mem_append, not_or]
    refine ⟨⟨hsign negative, hwhole _⟩, ?_⟩
    split
    · simp
    · simp [hpoint, hfraction]

end libc
