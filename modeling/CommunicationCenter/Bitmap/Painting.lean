import CommunicationCenter.Bitmap.Pages

namespace bitmap

variable {width pages : Nat}

/-- The pixels that are written, with what is written to them. -/
abbrev Image := Nat → Nat → Option Bool

/-- Drawing on a picture; `none` is a write outside the array. -/
abbrev Painter (width pages : Nat) := Picture width pages → Option (Picture width pages)

/-- Whatever was there before, the drawing succeeds with the pixels of the image,
and all others are left. -/
def Paints (draw : Painter width pages) (image : Image) : Prop :=
  ∀ b, ∃ painted, draw b = some painted ∧
    ∀ x < width, ∀ y < 8 * pages, pixel painted x y = (image x y).getD (pixel b x y)

theorem paints_nothing : Paints (some : Painter width pages) fun _ _ => none :=
  fun b => ⟨b, rfl, fun _ _ _ _ => rfl⟩

/-- Only the image inside of the picture counts. -/
theorem Paints.congr {draw : Painter width pages} {image other : Image} (h : Paints draw image)
    (hsame : ∀ x < width, ∀ y < 8 * pages, image x y = other x y) : Paints draw other := by
  intro b
  obtain ⟨painted, hdraw, hpixels⟩ := h b
  refine ⟨painted, hdraw, fun x hx y hy => ?_⟩
  rw [hpixels x hx y hy, hsame x hx y hy]

/-- What is drawn later lies over what was drawn before. Where it leaves a pixel alone, the earlier
drawing shows, or the old picture. -/
theorem Paints.bind {first second : Painter width pages} {image other : Image}
    (hfirst : Paints first image) (hsecond : Paints second other) :
    Paints (fun b => first b >>= second) fun x y => (other x y).or (image x y) := by
  intro b
  obtain ⟨mid, hmid, hmidPixels⟩ := hfirst b
  obtain ⟨painted, hpainted, hpixels⟩ := hsecond mid
  refine ⟨painted, ?_, fun x hx y hy => ?_⟩
  · change (first b >>= second) = some painted
    rw [hmid]
    exact hpainted
  · rw [hpixels x hx y hy, hmidPixels x hx y hy]
    dsimp only
    cases other x y with
    | none => rfl
    | some on => rfl

/-- Drawings that write no common pixel can be made in either order. It is enough that they have
none in common inside of the picture. -/
theorem Paints.comm {first second : Painter width pages} {image other : Image}
    (hfirst : Paints first image) (hsecond : Paints second other)
    (hdisjoint : ∀ x < width, ∀ y < 8 * pages, image x y = none ∨ other x y = none)
    (b : Picture width pages) : (first b >>= second) = (second b >>= first) := by
  obtain ⟨painted, hpainted, hpixels⟩ := hfirst.bind hsecond b
  obtain ⟨painted', hpainted', hpixels'⟩ := hsecond.bind hfirst b
  have hsame : painted = painted' := by
    apply picture_ext
    intro x hx y hy
    rw [hpixels x hx y hy, hpixels' x hx y hy]
    dsimp only
    rcases hdisjoint x hx y hy with hnone | hnone
    · rw [hnone, Option.or_none, Option.none_or]
    · rw [hnone, Option.or_none, Option.none_or]
  exact hpainted.trans (hsame ▸ hpainted'.symm)

/-- Drawings that agree with one image, made one after the other, draw the first part that has
something to say about a pixel. The parts need not cover the image, and may overlap. -/
theorem paints_foldlM_findSome {ι : Type} {parts : List ι} {draw : ι → Painter width pages}
    {part : ι → Image} {image : Image} (hdraw : ∀ i ∈ parts, Paints (draw i) (part i))
    (hpart : ∀ i ∈ parts, ∀ x y on, part i x y = some on → image x y = some on) :
    Paints (fun b => parts.foldlM (fun b i => draw i b) b) fun x y =>
      parts.findSome? fun i => part i x y := by
  induction parts with
  | nil => exact paints_nothing
  | cons i parts ih =>
    have hrest := ih (fun j hj => hdraw j (List.mem_cons_of_mem _ hj))
      fun j hj => hpart j (List.mem_cons_of_mem _ hj)
    have hboth := (hdraw i (by simp)).bind hrest
    simp only [List.foldlM_cons]
    apply hboth.congr
    intro x _ y _
    cases hi : part i x y with
    | none => rw [Option.or_none, List.findSome?_cons, hi]
    | some on =>
      rw [List.findSome?_cons, hi]
      -- a later part that covers the pixel writes the same there
      cases hlater : parts.findSome? fun j => part j x y with
      | none => rfl
      | some on' =>
        obtain ⟨j, hj, hon'⟩ := List.exists_of_findSome?_eq_some hlater
        have heq := hpart i (by simp) x y on hi
        rw [hpart j (List.mem_cons_of_mem _ hj) x y on' hon'] at heq
        exact heq

/-- Drawings of parts of one image, made one after the other, draw all of it, if every pixel of the
image is in some part. The order of the parts does not matter. -/
theorem paints_foldlM {ι : Type} {parts : List ι} {draw : ι → Painter width pages}
    {part : ι → Image} {image : Image} (hdraw : ∀ i ∈ parts, Paints (draw i) (part i))
    (hpart : ∀ i ∈ parts, ∀ x y on, part i x y = some on → image x y = some on)
    (hcover : ∀ x y on, image x y = some on → ∃ i ∈ parts, part i x y = some on) :
    Paints (fun b => parts.foldlM (fun b i => draw i b) b) image := by
  apply (paints_foldlM_findSome hdraw hpart).congr
  intro x _ y _
  cases himage : image x y with
  | none =>
    apply List.findSome?_eq_none_iff.mpr
    intro i hi
    cases hwritten : part i x y with
    | none => rfl
    | some on =>
      rw [hpart i hi x y on hwritten] at himage
      cases himage
  | some on =>
    obtain ⟨i, hi, hwritten⟩ := hcover x y on himage
    have hsome : (parts.findSome? fun i => part i x y).isSome := by
      rw [List.isSome_findSome?, List.any_eq_true]
      exact ⟨i, hi, by rw [hwritten]; rfl⟩
    obtain ⟨on', hon'⟩ := Option.isSome_iff_exists.mp hsome
    obtain ⟨j, hj, hlater⟩ := List.exists_of_findSome?_eq_some hon'
    rw [hon', ← himage, hpart j hj x y on' hlater]

end bitmap
