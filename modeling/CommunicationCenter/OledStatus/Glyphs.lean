import CommunicationCenter.Libc.Number
import Mathlib.Data.List.Nodup

open libc

namespace communication_center.oled_status

/-- The bits 2 to 0 of a row are its pixels from left to right. -/
structure glyph_t where
  c : UInt8
  rows : Vector UInt8 5
  deriving DecidableEq

def glyph (c : Char) (rows : Vector UInt8 5) : glyph_t where
  c := c.toNat.toUInt8
  rows := rows

def glyphs : Vector glyph_t 43 := #v[
  glyph ' ' #v[0x0, 0x0, 0x0, 0x0, 0x0],
  glyph '-' #v[0x0, 0x0, 0x7, 0x0, 0x0],
  glyph '.' #v[0x0, 0x0, 0x0, 0x0, 0x2],
  glyph ':' #v[0x0, 0x2, 0x0, 0x2, 0x0],
  glyph '/' #v[0x1, 0x1, 0x2, 0x4, 0x4],
  glyph '_' #v[0x0, 0x0, 0x0, 0x0, 0x7],
  glyph '?' #v[0x6, 0x1, 0x2, 0x0, 0x2],
  glyph '0' #v[0x7, 0x5, 0x5, 0x5, 0x7],
  glyph '1' #v[0x2, 0x6, 0x2, 0x2, 0x7],
  glyph '2' #v[0x7, 0x1, 0x7, 0x4, 0x7],
  glyph '3' #v[0x7, 0x1, 0x3, 0x1, 0x7],
  glyph '4' #v[0x5, 0x5, 0x7, 0x1, 0x1],
  glyph '5' #v[0x7, 0x4, 0x7, 0x1, 0x7],
  glyph '6' #v[0x7, 0x4, 0x7, 0x5, 0x7],
  glyph '7' #v[0x7, 0x1, 0x1, 0x1, 0x1],
  glyph '8' #v[0x7, 0x5, 0x7, 0x5, 0x7],
  glyph '9' #v[0x7, 0x5, 0x7, 0x1, 0x7],
  glyph 'A' #v[0x2, 0x5, 0x7, 0x5, 0x5],
  glyph 'B' #v[0x6, 0x5, 0x6, 0x5, 0x6],
  glyph 'C' #v[0x3, 0x4, 0x4, 0x4, 0x3],
  glyph 'D' #v[0x6, 0x5, 0x5, 0x5, 0x6],
  glyph 'E' #v[0x7, 0x4, 0x6, 0x4, 0x7],
  glyph 'F' #v[0x7, 0x4, 0x6, 0x4, 0x4],
  glyph 'G' #v[0x3, 0x4, 0x5, 0x5, 0x3],
  glyph 'H' #v[0x5, 0x5, 0x7, 0x5, 0x5],
  glyph 'I' #v[0x7, 0x2, 0x2, 0x2, 0x7],
  glyph 'J' #v[0x1, 0x1, 0x1, 0x5, 0x2],
  glyph 'K' #v[0x5, 0x5, 0x6, 0x5, 0x5],
  glyph 'L' #v[0x4, 0x4, 0x4, 0x4, 0x7],
  glyph 'M' #v[0x5, 0x7, 0x7, 0x5, 0x5],
  glyph 'N' #v[0x5, 0x7, 0x7, 0x7, 0x5],
  glyph 'O' #v[0x2, 0x5, 0x5, 0x5, 0x2],
  glyph 'P' #v[0x6, 0x5, 0x6, 0x4, 0x4],
  glyph 'Q' #v[0x2, 0x5, 0x5, 0x2, 0x1],
  glyph 'R' #v[0x6, 0x5, 0x6, 0x5, 0x5],
  glyph 'S' #v[0x3, 0x4, 0x2, 0x1, 0x6],
  glyph 'T' #v[0x7, 0x2, 0x2, 0x2, 0x2],
  glyph 'U' #v[0x5, 0x5, 0x5, 0x5, 0x7],
  glyph 'V' #v[0x5, 0x5, 0x5, 0x5, 0x2],
  glyph 'W' #v[0x5, 0x5, 0x7, 0x7, 0x5],
  glyph 'X' #v[0x5, 0x5, 0x2, 0x5, 0x5],
  glyph 'Y' #v[0x5, 0x5, 0x2, 0x2, 0x2],
  glyph 'Z' #v[0x7, 0x1, 0x2, 0x4, 0x7]]

/-- The first entry for the byte, and the question mark for a byte without one. -/
def lookup_glyph (c : UInt8) : Vector UInt8 5 :=
  match glyphs.toList.find? fun g => g.c = c with
  | some g => g.rows
  | none => glyphs[6].rows

/-- The table lists these rows for the byte, or it does not list the byte and these
are the rows of the question mark. -/
def GlyphRows (c : UInt8) (rows : Vector UInt8 5) : Prop :=
  ⟨c, rows⟩ ∈ glyphs.toList ∨
    ((∀ g ∈ glyphs.toList, g.c ≠ c) ∧ glyph '?' rows ∈ glyphs.toList)

theorem glyphs_nodup : (glyphs.toList.map glyph_t.c).Nodup := by
  decide +kernel

theorem eq_of_mem_glyphs {g h : glyph_t} (hg : g ∈ glyphs.toList) (hh : h ∈ glyphs.toList)
    (hc : g.c = h.c) : g = h :=
  List.inj_on_of_nodup_map glyphs_nodup hg hh hc

/-- The search finds what the table says: the rows of the entry for the byte, and those of the
question mark where there is no entry. There is one entry for a byte. -/
theorem lookup_glyph_eq_iff (c : UInt8) (rows : Vector UInt8 5) :
    lookup_glyph c = rows ↔ GlyphRows c rows := by
  have hquestion : glyph '?' glyphs[6].rows ∈ glyphs.toList := by decide +kernel
  unfold lookup_glyph
  split
  · next g hfound =>
    have hmem := List.mem_of_find?_eq_some hfound
    have hc : g.c = c := by simpa using List.find?_some hfound
    constructor
    · rintro rfl
      left
      rw [← hc]
      exact hmem
    · rintro (hlisted | ⟨habsent, _⟩)
      · rw [eq_of_mem_glyphs hmem hlisted hc]
      · exact absurd hc (habsent g hmem)
  · next hnone =>
    have habsent : ∀ g ∈ glyphs.toList, g.c ≠ c := by
      intro g hg
      simpa using List.find?_eq_none.mp hnone g hg
    constructor
    · rintro rfl
      exact Or.inr ⟨habsent, hquestion⟩
    · rintro (hlisted | ⟨_, hrows⟩)
      · exact absurd rfl (habsent _ hlisted)
      · exact congrArg glyph_t.rows (eq_of_mem_glyphs hquestion hrows rfl)

end communication_center.oled_status
