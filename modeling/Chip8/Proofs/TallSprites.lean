import Chip8.Proofs.CheckedAccess
import Chip8.Proofs.SpriteBits

set_option autoImplicit false

/-! Drawing a sprite of any height anywhere. What becomes of a pixel and whether
anything collides is told by the number of set bits on each pixel of the screen
that wraps around. A sprite taller than the screen can put several bits on one
pixel, and then collides with itself. -/

namespace Chip8

theorem Cell.wrap_congr (leftColumn rightColumn leftRow rightRow : Nat)
    (columns : leftColumn % 64 = rightColumn % 64) (rows : leftRow % 32 = rightRow % 32) :
    Cell.wrap leftColumn leftRow = Cell.wrap rightColumn rightRow := by
  simp only [Cell.wrap, columns, rows]

theorem spriteRowCells_congr (leftColumn rightColumn leftRow rightRow : Nat) (bits : Byte)
    (columns : leftColumn % 64 = rightColumn % 64) (rows : leftRow % 32 = rightRow % 32) :
    spriteRowCells leftColumn leftRow bits = spriteRowCells rightColumn rightRow bits := by
  unfold spriteRowCells
  apply List.map_congr_left
  intro place _inRow
  exact Cell.wrap_congr _ _ _ _ (by omega) rows

theorem spriteCells_congr (leftColumn rightColumn leftRow rightRow : Nat) (sprite : List Byte)
    (columns : leftColumn % 64 = rightColumn % 64) (rows : leftRow % 32 = rightRow % 32) :
    spriteCells leftColumn leftRow sprite = spriteCells rightColumn rightRow sprite := by
  induction sprite generalizing leftRow rightRow with
  | nil => rfl
  | cons bits rest ih =>
      rw [spriteCells, spriteCells, ih (leftRow + 1) (rightRow + 1) (by omega),
        spriteRowCells_congr leftColumn rightColumn leftRow rightRow bits columns rows]

def ScreenShaped (rows : List (List Bool)) : Prop :=
  rows.length = 32 ∧ ∀ pixels ∈ rows, pixels.length = 64

namespace Raster

theorem screenShaped_pixelRows (raster : Raster) : ScreenShaped raster.pixelRows := by
  refine ⟨raster.length_pixelRows, ?_⟩
  intro pixels member
  obtain ⟨row, _inRaster, same⟩ := List.mem_map.mp member
  rw [← same, raster.length_rowPixels]

theorem exists_pixelRows_eq (rows : List (List Bool)) (shaped : ScreenShaped rows) :
    ∃ raster : Raster, raster.pixelRows = rows := by
  obtain ⟨height, widths⟩ := shaped
  let raster : Raster :=
    ⟨Vector.ofFn (fun place => (rows.getD (place.val / 64) []).getD (place.val % 64) false)⟩
  refine ⟨raster, List.ext_getElem? fun row => ?_⟩
  rw [raster.getElem?_pixelRows]
  by_cases inRows : row < 32
  · have inList : row < rows.length := by omega
    have width := widths rows[row] (List.getElem_mem inList)
    rw [if_pos inRows, List.getElem?_eq_getElem inList, Option.some.injEq]
    apply List.ext_getElem?
    intro column
    rw [raster.getElem?_rowPixels]
    by_cases inColumns : column < 64
    · have inRow : column < rows[row].length := by omega
      have atRow : (64 * row + column) / 64 = row := by omega
      have atColumn : (64 * row + column) % 64 = column := by omega
      rw [if_pos inColumns, List.getElem?_eq_getElem inRow]
      simp [raster, pixel, isOn, Cell.wrap, Cell.place, Nat.mod_eq_of_lt inRows,
        Nat.mod_eq_of_lt inColumns, atRow, atColumn, inList, inRow]
    · rw [if_neg inColumns, List.getElem?_eq_none (by omega)]
  · rw [if_neg inRows, List.getElem?_eq_none (by omega)]

theorem blit_mod (raster : Raster) (column row : Nat) (sprite : List Byte) :
    raster.blit (column % 64) (row % 32) sprite = raster.blit column row sprite := by
  rw [blit_eq_flipAll, blit_eq_flipAll,
    spriteCells_congr _ _ _ _ sprite (Nat.mod_mod column 64) (Nat.mod_mod row 32)]

/-- With every access to a list and every sum checked, drawing goes wrong nowhere
as long as the coordinates of its last pixel are numbers of sixty four bits. -/
theorem plain_blit (raster : Raster) (column row : Nat) (sprite : List Byte)
    (columnFits : column + 7 < 2 ^ 64) (rowFits : row + sprite.length < 2 ^ 64) :
    (Drawing.start raster).plain.flipRows column row 0 sprite =
      .ok (raster.blit column row sprite).plain :=
  Drawing.plain_flipRows (.start raster) column row 0 sprite columnFits rowFits

/-- A pixel changes if an odd number of bits lies on it. A drawing collides if a bit
lies on a pixel that was on, or if two lie on one pixel, which needs more rows than
the screen has. Only the place around the screen counts, and the screen keeps its
shape. -/
theorem drawing_is_told_by_bits_on_pixels (raster : Raster) (column row : Nat)
    (sprite : List Byte) :
    let drawn := raster.blit column row sprite
    let covering := bitsOn column row sprite.length (fun line => sprite.getD line 0)
    (∀ cell, drawn.raster.isOn cell =
        (raster.isOn cell ^^ decide (covering cell % 2 = 1))) ∧
      (drawn.collision = true ↔
        ∃ cell, (1 ≤ covering cell ∧ raster.isOn cell = true) ∨ 2 ≤ covering cell) ∧
      (∀ cell, 2 ≤ covering cell → 32 < sprite.length) ∧
      raster.blit (column % 64) (row % 32) sprite = drawn ∧
      (column + 7 < 2 ^ 64 → row + sprite.length < 2 ^ 64 →
        ∀ rows, ScreenShaped rows → ∃ before : Raster, before.pixelRows = rows ∧
          CheckedDrawing.flipRows ⟨rows, false⟩ column row 0 sprite =
            .ok (before.blit column row sprite).plain ∧
          ScreenShaped (before.blit column row sprite).plain.rows) := by
  intro drawn covering
  refine ⟨raster.isOn_blit column row sprite, raster.collision_blit_iff column row sprite, ?_,
    raster.blit_mod column row sprite, ?_⟩
  · intro cell twice
    by_contra fits
    have once := bitsOn_le_one_of_low column row sprite (Nat.le_of_not_lt fits) cell
    exact absurd (Nat.le_trans twice once) (by decide)
  · intro columnFits rowFits rows shaped
    obtain ⟨before, same⟩ := exists_pixelRows_eq rows shaped
    refine ⟨before, same, ?_, screenShaped_pixelRows _⟩
    rw [← same]
    exact before.plain_blit column row sprite columnFits rowFits

example : bitsOn 3 0 33 (fun line => (List.replicate 33 0x80).getD line 0) ⟨3, 0⟩ = 2 := by
  decide +kernel

end Raster

end Chip8
