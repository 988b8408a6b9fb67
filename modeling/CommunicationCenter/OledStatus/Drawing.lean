import CommunicationCenter.Bitmap.Painting
import CommunicationCenter.OledStatus.Glyphs

open libc bitmap

namespace communication_center.oled_status

def OLED_STATUS_WIDTH : Nat := 128

def OLED_STATUS_HEIGHT : Nat := 64

def OLED_CHAR_WIDTH : Nat := 4

def OLED_LINE_PITCH : Nat := 8

def OLED_LINES : Nat := 8

def OLED_LINE_CHARS : Nat := OLED_STATUS_WIDTH / OLED_CHAR_WIDTH

/-- The array `oled_buffer`. -/
abbrev Framebuffer := Picture OLED_STATUS_WIDTH (OLED_STATUS_HEIGHT / 8)

/-- `none` is a write outside the array. -/
def oled_set_pixel (x y : Int) (on : Bool) (oled_buffer : Framebuffer) : Option Framebuffer :=
  if x < 0 ∨ x ≥ OLED_STATUS_WIDTH ∨ y < 0 ∨ y ≥ OLED_STATUS_HEIGHT then some oled_buffer
  else
    let index := x.toNat + y.toNat / 8 * OLED_STATUS_WIDTH
    let mask : UInt8 := (1 <<< (y.toNat % 8)).toUInt8
    if h : index < OLED_STATUS_WIDTH * (OLED_STATUS_HEIGHT / 8) then
      if on then some (oled_buffer.set index (oled_buffer[index] ||| mask) h)
      else some (oled_buffer.set index (oled_buffer[index] &&& ~~~mask) h)
    else none

def oled_draw_char (x y : Int) (c : UInt8) (oled_buffer : Framebuffer) : Option Framebuffer :=
  let rows := lookup_glyph (toupper c)
  (List.finRange 5).foldlM (fun oled_buffer row =>
    (List.finRange 3).foldlM (fun oled_buffer col =>
      oled_set_pixel (x + col.val) (y + row.val)
        (((rows[row].toNat >>> (2 - col.val)) &&& 1) ≠ 0) oled_buffer) oled_buffer) oled_buffer

/-- The loop of `oled_draw_text_line`. -/
def oled_draw_text_loop (y : Int) : Text → Int → Nat → Framebuffer → Option Framebuffer
  | [], _, _, oled_buffer => some oled_buffer
  | c :: text, x, count, oled_buffer =>
    if count < OLED_LINE_CHARS then do
      let oled_buffer ← oled_draw_char x y c oled_buffer
      oled_draw_text_loop y text (x + OLED_CHAR_WIDTH) (count + 1) oled_buffer
    else some oled_buffer

/-- `none` is the NULL text. The product may overflow for a line that is out of range,
where nothing uses it. -/
def oled_draw_text_line (line : Int) (text : Option Text) (oled_buffer : Framebuffer) :
    Option Framebuffer :=
  let y := line * OLED_LINE_PITCH
  if line < 0 ∨ line ≥ OLED_LINES then some oled_buffer
  else match text with
    | none => some oled_buffer
    | some text => oled_draw_text_loop y text 0 0 oled_buffer

/-- Bit `2 - col` of a row. -/
def glyph_pixel (rows : Vector UInt8 5) (row col : Nat) : Bool :=
  (rows.toList.getD row 0).toNat.testBit (2 - col)

theorem glyph_pixel_eq (rows : Vector UInt8 5) (row : Fin 5) (col : Nat) :
    glyph_pixel rows row.val col = decide (((rows[row].toNat >>> (2 - col)) &&& 1) ≠ 0) := by
  have hlength : row.val < rows.toList.length := by simp
  rw [glyph_pixel, List.getD_eq_getElem _ _ hlength, Vector.getElem_toList, Nat.testBit,
    Nat.and_comm, Fin.getElem_fin]
  rw [Bool.eq_iff_iff, bne_iff_ne, decide_eq_true_iff]

/-- The bounds check keeps every write inside of the array: a pixel on the display is set, one
outside is ignored, and no other pixel is changed. -/
theorem paints_oled_set_pixel (x y : Nat) (on : Bool) :
    Paints (oled_set_pixel x y on) fun x' y' => if x' = x ∧ y' = y then some on else none := by
  intro b
  by_cases hinside : x < OLED_STATUS_WIDTH ∧ y < 8 * (OLED_STATUS_HEIGHT / 8)
  · obtain ⟨hx, hy⟩ := hinside
    have hheight : 8 * (OLED_STATUS_HEIGHT / 8) = OLED_STATUS_HEIGHT := rfl
    have hcheck : ¬((x : Int) < 0 ∨ (x : Int) ≥ OLED_STATUS_WIDTH ∨ (y : Int) < 0 ∨
        (y : Int) ≥ OLED_STATUS_HEIGHT) := by omega
    have hwrite : oled_set_pixel x y on b = write_pixel b x y on := by
      rw [oled_set_pixel, if_neg hcheck, write_pixel]
      cases on <;> rfl
    obtain ⟨painted, hpainted, hpixels⟩ := write_pixel_eq b hx hy on
    refine ⟨painted, hwrite.trans hpainted, fun x' hx' y' hy' => ?_⟩
    rw [hpixels x' hx' y' hy']
    dsimp only
    split <;> rfl
  · have hheight : 8 * (OLED_STATUS_HEIGHT / 8) = OLED_STATUS_HEIGHT := rfl
    have hcheck : (x : Int) < 0 ∨ (x : Int) ≥ OLED_STATUS_WIDTH ∨ (y : Int) < 0 ∨
        (y : Int) ≥ OLED_STATUS_HEIGHT := by omega
    refine ⟨b, if_pos hcheck, fun x' hx' y' hy' => ?_⟩
    dsimp only
    rw [if_neg]
    · rfl
    · rintro ⟨rfl, rfl⟩
      exact hinside ⟨hx', hy'⟩

/-- The cell of a character, three columns wide and five rows high. -/
def char_image (x y : Nat) (c : UInt8) : Image := fun x' y' =>
  if x ≤ x' ∧ x' < x + 3 ∧ y ≤ y' ∧ y' < y + 5 then
    some (glyph_pixel (lookup_glyph (toupper c)) (y' - y) (x' - x))
  else none

/-- One row of the cell. -/
def row_image (x y : Nat) (rows : Vector UInt8 5) (row : Nat) : Image := fun x' y' =>
  if x ≤ x' ∧ x' < x + 3 ∧ y' = y + row then some (glyph_pixel rows row (x' - x)) else none

theorem paints_row (x y : Nat) (rows : Vector UInt8 5) (row : Fin 5) :
    Paints (fun b => (List.finRange 3).foldlM (fun b col =>
      oled_set_pixel ((x : Int) + col.val) ((y : Int) + row.val)
        (((rows[row].toNat >>> (2 - col.val)) &&& 1) ≠ 0) b) b) (row_image x y rows row.val) := by
  apply paints_foldlM (fun col _ => paints_oled_set_pixel (x + col.val) (y + row.val) _)
  · intro col _ x' y' on hon
    obtain ⟨⟨rfl, rfl⟩, hvalue⟩ := Option.ite_none_right_eq_some.mp hon
    have hcol := col.isLt
    rw [row_image, if_pos (by omega), Nat.add_sub_cancel_left, glyph_pixel_eq, hvalue]
  · intro x' y' on hon
    obtain ⟨⟨hle, hlt, rfl⟩, hvalue⟩ := Option.ite_none_right_eq_some.mp hon
    have hcol : x' - x < 3 := by omega
    refine ⟨⟨x' - x, hcol⟩, List.mem_finRange _, ?_⟩
    rw [if_pos (by dsimp only; omega), ← glyph_pixel_eq, hvalue]

theorem paints_oled_draw_char (x y : Nat) (c : UInt8) :
    Paints (oled_draw_char x y c) (char_image x y c) := by
  apply paints_foldlM fun row _ => paints_row x y (lookup_glyph (toupper c)) row
  · intro row _ x' y' on hon
    obtain ⟨⟨hle, hlt, rfl⟩, hvalue⟩ := Option.ite_none_right_eq_some.mp hon
    have hrow := row.isLt
    rw [char_image, if_pos (by omega), Nat.add_sub_cancel_left, hvalue]
  · intro x' y' on hon
    obtain ⟨⟨hle, hlt, hle', hlt'⟩, hvalue⟩ := Option.ite_none_right_eq_some.mp hon
    have hrow : y' - y < 5 := by omega
    refine ⟨⟨y' - y, hrow⟩, List.mem_finRange _, ?_⟩
    rw [row_image, if_pos (by dsimp only; omega), hvalue]

/-- The cells of a text from a position on: the columns of a cell are `4 * k` to
`4 * k + 2`, and its rows the first five of the line. -/
def text_image (line count : Nat) (text : Text) : Image := fun x' y' =>
  if y' / 8 = line ∧ y' % 8 < 5 ∧ x' % 4 < 3 ∧ count ≤ x' / 4 ∧ x' / 4 < OLED_LINE_CHARS then
    (text[x' / 4 - count]?).map fun c => glyph_pixel (lookup_glyph (toupper c)) (y' % 8) (x' % 4)
  else none

/-- The image of a text is the first cell, and the cells of the other characters behind it. There
is room for the first one. -/
theorem text_image_cons {line count : Nat} (hroom : count < OLED_LINE_CHARS) (c : UInt8) (text : Text)
    (x' y' : Nat) : text_image line count (c :: text) x' y' =
      (text_image line (count + 1) text x' y').or (char_image (4 * count) (8 * line) c x' y') := by
  by_cases hcell : x' / 4 = count
  · have hrest : text_image line (count + 1) text x' y' = none := by
      rw [text_image, if_neg (by omega)]
    have hcolumn : x' - 4 * count = x' % 4 := by omega
    rw [hrest, Option.none_or, text_image, char_image]
    by_cases hinside : y' / 8 = line ∧ y' % 8 < 5 ∧ x' % 4 < 3
    · have hrow : y' - 8 * line = y' % 8 := by omega
      rw [if_pos (by omega), if_pos (by omega), hcell, Nat.sub_self, List.getElem?_cons_zero,
        Option.map_some, hrow, hcolumn]
    · rw [if_neg (by omega), if_neg (by omega)]
  · have hfirst : char_image (4 * count) (8 * line) c x' y' = none := by
      rw [char_image, if_neg (by omega)]
    rw [hfirst, Option.or_none, text_image, text_image]
    by_cases hinside : y' / 8 = line ∧ y' % 8 < 5 ∧ x' % 4 < 3 ∧ count + 1 ≤ x' / 4 ∧
        x' / 4 < OLED_LINE_CHARS
    · have hindex : x' / 4 - count = (x' / 4 - (count + 1)) + 1 := by omega
      rw [if_pos (by omega), if_pos hinside, hindex, List.getElem?_cons_succ]
    · rw [if_neg (by omega), if_neg hinside]

/-- The loop draws the characters of a text side by side, as many as there is room for, and touches
no pixel outside of their cells. -/
theorem paints_oled_draw_text_loop (line : Nat) (text : Text) (count : Nat) :
    Paints (oled_draw_text_loop (8 * line : Nat) text (4 * count : Nat) count)
      (text_image line count text) := by
  induction text generalizing count with
  | nil =>
    apply paints_nothing.congr
    intro x' _ y' _
    rw [text_image, List.getElem?_nil, Option.map_none, ite_self]
  | cons c text ih =>
    by_cases hroom : count < OLED_LINE_CHARS
    · have hloop : oled_draw_text_loop (8 * line : Nat) (c :: text) (4 * count : Nat) count =
          fun b => oled_draw_char (4 * count : Nat) (8 * line : Nat) c b >>=
            oled_draw_text_loop (8 * line : Nat) text (4 * (count + 1) : Nat) (count + 1) := by
        funext b
        rw [oled_draw_text_loop, if_pos hroom]
        rfl
      rw [hloop]
      apply ((paints_oled_draw_char _ _ c).bind (ih (count + 1))).congr
      exact fun x' _ y' _ => (text_image_cons hroom c text x' y').symm
    · have hloop : oled_draw_text_loop (8 * line : Nat) (c :: text) (4 * count : Nat) count = some := by
        funext b
        rw [oled_draw_text_loop, if_neg hroom]
      rw [hloop]
      apply paints_nothing.congr
      intro x' _ y' _
      rw [text_image, if_neg]
      omega

/-- The pixels that drawing a text on a line writes. -/
def line_image (line : Int) (text : Option Text) : Image := fun x' y' =>
  if (y' / 8 : Nat) = line then text_image (y' / 8) 0 (text.getD []) x' y' else none

/-- Outside of the lines, and without a text, nothing is drawn, and no byte of the framebuffer is
touched. -/
theorem paints_nothing_on_line {line : Int} {text : Option Text}
    (h : (line < 0 ∨ line ≥ OLED_LINES) ∨ text = none) :
    Paints (oled_draw_text_line line text) (line_image line text) := by
  have hdraw : oled_draw_text_line line text = some := by
    funext b
    rcases h with hrange | rfl
    · exact if_pos hrange
    · exact ite_self _
  rw [hdraw]
  apply paints_nothing.congr
  intro x' _ y' hy'
  rw [line_image]
  split
  · next hline =>
    rcases h with hrange | rfl
    · have hheight : 8 * (OLED_STATUS_HEIGHT / 8) = 64 := rfl
      have hlines : (OLED_LINES : Int) = 8 := rfl
      omega
    · rw [text_image, Option.getD_none, List.getElem?_nil, Option.map_none, ite_self]
  · rfl

theorem paints_text_on_line {n : Nat} (h : ¬((n : Int) < 0 ∨ (n : Int) ≥ OLED_LINES)) (text : Text) :
    Paints (oled_draw_text_line n (some text)) (line_image n (some text)) := by
  have hpitch : (n : Int) * OLED_LINE_PITCH = (8 * n : Nat) := by
    rw [Nat.mul_comm]
    rfl
  have hdraw : oled_draw_text_line n (some text) =
      oled_draw_text_loop (8 * n : Nat) text (4 * 0 : Nat) 0 := by
    funext b
    rw [oled_draw_text_line, hpitch]
    exact if_neg h
  rw [hdraw]
  apply (paints_oled_draw_text_loop n text 0).congr
  intro x' _ y' _
  rw [line_image]
  by_cases hline : y' / 8 = n
  · rw [if_pos (by exact_mod_cast hline), hline]
    rfl
  · rw [if_neg (by exact_mod_cast hline), text_image, if_neg fun h => hline h.1]

theorem paints_oled_draw_text_line (line : Int) (text : Option Text) :
    Paints (oled_draw_text_line line text) (line_image line text) := by
  by_cases hrange : line < 0 ∨ line ≥ OLED_LINES
  · exact paints_nothing_on_line (Or.inl hrange)
  · cases text with
    | none => exact paints_nothing_on_line (Or.inr rfl)
    | some text =>
      obtain ⟨n, rfl⟩ := Int.eq_ofNat_of_zero_le (show 0 ≤ line by omega)
      exact paints_text_on_line hrange text

/-- The framebuffer after a text was drawn on a line: the cells of its first
characters show their glyphs, and nothing else has changed. -/
structure Renders (line : Int) (text : Text) (oled_buffer drawn : Framebuffer) : Prop where
  cells : ∀ (k : Nat) (c : UInt8), k < OLED_LINE_CHARS → text[k]? = some c →
    ∃ rows, GlyphRows (toupper c) rows ∧ ∀ col row y : Nat, col < 3 → row < 5 →
      (y : Int) = 8 * line + row → y < OLED_STATUS_HEIGHT →
        pixel drawn (4 * k + col) y = glyph_pixel rows row col
  frame : ∀ x < OLED_STATUS_WIDTH, ∀ y < OLED_STATUS_HEIGHT,
    (∀ k col row : Nat, k < min text.length OLED_LINE_CHARS → col < 3 → row < 5 →
      ¬(x = 4 * k + col ∧ (y : Int) = 8 * line + row)) → pixel drawn x y = pixel oled_buffer x y
  other_lines : ∀ x < OLED_STATUS_WIDTH, ∀ y < OLED_STATUS_HEIGHT, ((y / 8 : Nat) : Int) ≠ line →
    pixel drawn x y = pixel oled_buffer x y

/-- A framebuffer renders a text in a line if its pixels are those of the text's image there and
the old ones elsewhere. -/
theorem renders_of_pixels {line : Int} {text : Text} {oled_buffer drawn : Framebuffer}
    (h : ∀ x < OLED_STATUS_WIDTH, ∀ y < 8 * (OLED_STATUS_HEIGHT / 8),
      pixel drawn x y = (line_image line (some text) x y).getD (pixel oled_buffer x y)) :
    Renders line text oled_buffer drawn where
  cells := by
    intro k c hk hc
    refine ⟨lookup_glyph (toupper c), (lookup_glyph_eq_iff _ _).mp rfl, ?_⟩
    intro col row y hcol hrow hy hheight
    have hchars : OLED_LINE_CHARS = 32 := rfl
    have hwidth : 4 * k + col < OLED_STATUS_WIDTH := by
      have hsize : OLED_STATUS_WIDTH = 128 := rfl
      omega
    have hline : ((y / 8 : Nat) : Int) = line := by omega
    have hcolumn : (4 * k + col) / 4 = k ∧ (4 * k + col) % 4 = col := by omega
    have hrowOf : y % 8 = row := by omega
    rw [h _ hwidth y hheight, line_image, if_pos hline, text_image, hcolumn.1, hcolumn.2, hrowOf,
      if_pos (by omega), Nat.sub_zero, Option.getD_some, hc, Option.map_some, Option.getD_some]
  frame := by
    intro x hx y hy houtside
    have hnone : line_image line (some text) x y = none := by
      rw [line_image]
      split
      · next hline =>
        rw [text_image, Option.getD_some]
        split
        · next hinside =>
          have hmissing : text[x / 4 - 0]? = none := by
            apply List.getElem?_eq_none
            by_contra hlength
            exact houtside (x / 4) (x % 4) (y % 8) (by omega) (by omega) (by omega) (by omega)
          rw [hmissing, Option.map_none]
        · rfl
      · rfl
    rw [h x hx y hy, hnone, Option.getD_none]
  other_lines := by
    intro x hx y hy hline
    rw [h x hx y hy, line_image, if_neg hline, Option.getD_none]

/-- Drawing a text never leaves the framebuffer and renders it in the cells of its line. Two lines
can be drawn in either order. The line may be any number, also one that is not on the display, the
text may have any length and any bytes, and the buffer may hold anything. -/
theorem oled_draw_text_line_renders :
    (∀ (line : Int) (text : Text) (oled_buffer : Framebuffer),
      ∃ drawn, oled_draw_text_line line (some text) oled_buffer = some drawn ∧
        Renders line text oled_buffer drawn) ∧
    ∀ (line line' : Int) (text text' : Option Text) (oled_buffer : Framebuffer), line ≠ line' →
      (oled_draw_text_line line text oled_buffer >>= oled_draw_text_line line' text') =
        (oled_draw_text_line line' text' oled_buffer >>= oled_draw_text_line line text) := by
  constructor
  · intro line text oled_buffer
    obtain ⟨drawn, hdrawn, hpixels⟩ := paints_oled_draw_text_line line (some text) oled_buffer
    exact ⟨drawn, hdrawn, renders_of_pixels hpixels⟩
  · intro line line' text text' oled_buffer hne
    apply (paints_oled_draw_text_line line text).comm (paints_oled_draw_text_line line' text')
    intro x _ y _
    by_cases hline : ((y / 8 : Nat) : Int) = line
    · right
      rw [line_image, if_neg fun h => hne (hline.symm.trans h)]
    · left
      rw [line_image, if_neg hline]

end communication_center.oled_status
