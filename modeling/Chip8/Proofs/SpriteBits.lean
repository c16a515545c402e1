import Chip8.Raster
import Mathlib.Algebra.Ring.Nat
import Mathlib.Data.List.Nodup

set_option autoImplicit false

/-! Sprites counted bit by bit. The cells that drawing turns over are, with their
multiplicity, the cells that the set bits of the sprite lie on. A sprite no
taller than the raster puts no two bits on one cell, so nothing that it turns on
is turned off again by itself. -/

namespace Chip8

/-- A set bit lies on a cell. Lines are the rows of the sprite, and places are
the bits of a line from the most significant one on. -/
def BitOn (column row : Nat) (lineBits : Nat → Byte) (cell : Cell) (line place : Nat) : Prop :=
  (lineBits line).toNat.testBit (7 - place) = true ∧
    (column + place) % 64 = cell.column.val ∧ (row + line) % 32 = cell.row.val

instance (column row : Nat) (lineBits : Nat → Byte) (cell : Cell) (line place : Nat) :
    Decidable (BitOn column row lineBits cell line place) :=
  inferInstanceAs (Decidable (_ ∧ _))

/-- The number of pairs of a line and a place whose bit lies on a cell. -/
def bitsOn (column row height : Nat) (lineBits : Nat → Byte) (cell : Cell) : Nat :=
  ((List.range height).map (fun line =>
    (List.range 8).countP (fun place => BitOn column row lineBits cell line place))).sum

theorem Cell.wrap_eq_iff (column row : Nat) (cell : Cell) :
    Cell.wrap column row = cell ↔
      column % 64 = cell.column.val ∧ row % 32 = cell.row.val := by
  cases cell with
  | mk cellColumn cellRow => simp only [Cell.wrap, Cell.mk.injEq, Fin.ext_iff]

theorem bitsOn_succ (column row height : Nat) (lineBits : Nat → Byte) (cell : Cell) :
    bitsOn column row (height + 1) lineBits cell =
      (List.range 8).countP (fun place => BitOn column row lineBits cell 0 place) +
        bitsOn column (row + 1) height (fun line => lineBits (line + 1)) cell := by
  have lines : List.range (height + 1) = 0 :: (List.range height).map Nat.succ :=
    List.range_succ_eq_map
  unfold bitsOn
  rw [lines, List.map_cons, List.sum_cons, List.map_map]
  congr 2
  apply List.map_congr_left
  intro line _member
  apply List.countP_congr
  intro place _member
  have shifted : row + (line + 1) = row + 1 + line := by omega
  rw [decide_eq_true_iff, decide_eq_true_iff]
  change _ ∧ _ ∧ (row + (line + 1)) % 32 = _ ↔ _
  rw [shifted]
  rfl

theorem bitsOn_congr (column row height : Nat) (left right : Nat → Byte) (cell : Cell)
    (same : ∀ line, line < height → left line = right line) :
    bitsOn column row height left cell = bitsOn column row height right cell := by
  unfold bitsOn
  congr 1
  apply List.map_congr_left
  intro line member
  apply List.countP_congr
  intro place _member
  rw [decide_eq_true_iff, decide_eq_true_iff, BitOn, BitOn, same line (List.mem_range.mp member)]

theorem count_spriteRowCells (column row : Nat) (bits : Byte) (cell : Cell) :
    (spriteRowCells column row bits).count cell =
      (List.range 8).countP (fun place => BitOn column row (fun _ => bits) cell 0 place) := by
  unfold spriteRowCells List.count
  rw [List.countP_map, List.countP_filter]
  apply List.countP_congr
  intro place _member
  simp only [BitOn, Function.comp_apply, Bool.and_eq_true, beq_iff_eq, Cell.wrap_eq_iff,
    decide_eq_true_eq, Nat.add_zero, and_comm]

theorem count_spriteCells (column row : Nat) (sprite : List Byte) (cell : Cell) :
    (spriteCells column row sprite).count cell =
      bitsOn column row sprite.length (fun line => sprite.getD line 0) cell := by
  induction sprite generalizing row with
  | nil => rfl
  | cons bits rest ih =>
      rw [spriteCells, List.count_append, ih, count_spriteRowCells, List.length_cons, bitsOn_succ]
      rfl

/-! ### Sprites that fit on the raster -/

theorem row_of_mem_spriteRowCells (column row : Nat) (bits : Byte) (cell : Cell)
    (member : cell ∈ spriteRowCells column row bits) : cell.row.val = row % 32 := by
  obtain ⟨place, _inRow, same⟩ := List.mem_map.mp member
  rw [← same]
  rfl

theorem row_of_mem_spriteCells (column row : Nat) (sprite : List Byte) (cell : Cell)
    (member : cell ∈ spriteCells column row sprite) :
    ∃ line, line < sprite.length ∧ cell.row.val = (row + line) % 32 := by
  induction sprite generalizing row with
  | nil => cases member
  | cons bits rest ih =>
      rcases List.mem_append.mp member with first | later
      · exact ⟨0, Nat.succ_pos _, row_of_mem_spriteRowCells column row bits cell first⟩
      · obtain ⟨line, below, same⟩ := ih (row + 1) later
        refine ⟨line + 1, Nat.succ_lt_succ below, ?_⟩
        rw [same]
        congr 1
        omega

theorem spriteRowCells_nodup (column row : Nat) (bits : Byte) :
    (spriteRowCells column row bits).Nodup := by
  apply List.Nodup.map_on
  · intro left leftMember right rightMember same
    have leftBound := List.mem_range.mp (List.mem_of_mem_filter leftMember)
    have rightBound := List.mem_range.mp (List.mem_of_mem_filter rightMember)
    have columns := ((Cell.wrap_eq_iff _ _ _).mp same).1
    change (column + left) % 64 = (column + right) % 64 at columns
    omega
  · exact List.nodup_range.filter _

theorem spriteCells_nodup (column row : Nat) (sprite : List Byte) (low : sprite.length ≤ 32) :
    (spriteCells column row sprite).Nodup := by
  induction sprite generalizing row with
  | nil => exact List.nodup_nil
  | cons bits rest ih =>
      rw [List.length_cons] at low
      apply List.Nodup.append (spriteRowCells_nodup column row bits) (ih (row + 1) (by omega))
      intro cell first later
      have atRow := row_of_mem_spriteRowCells column row bits cell first
      obtain ⟨line, below, atLine⟩ := row_of_mem_spriteCells column (row + 1) rest cell later
      omega

theorem bitsOn_le_one_of_low (column row : Nat) (sprite : List Byte) (low : sprite.length ≤ 32)
    (cell : Cell) :
    bitsOn column row sprite.length (fun line => sprite.getD line 0) cell ≤ 1 := by
  rw [← count_spriteCells]
  exact List.nodup_iff_count_le_one.mp (spriteCells_nodup column row sprite low) cell

/-! ### Drawing counted by bits -/

namespace Raster

theorem isOn_blit (raster : Raster) (column row : Nat) (sprite : List Byte) (cell : Cell) :
    (raster.blit column row sprite).raster.isOn cell =
      (raster.isOn cell ^^
        decide (bitsOn column row sprite.length (fun line => sprite.getD line 0) cell % 2 = 1)) := by
  rw [blit_eq_flipAll, isOn_flipAll, count_spriteCells]

/-- A sprite collides exactly if one of its bits lies on a pixel that was on, or if
two of them lie on one pixel. -/
theorem collision_blit_iff (raster : Raster) (column row : Nat) (sprite : List Byte) :
    (raster.blit column row sprite).collision = true ↔
      ∃ cell,
        (0 < bitsOn column row sprite.length (fun line => sprite.getD line 0) cell ∧
          raster.isOn cell = true) ∨
        2 ≤ bitsOn column row sprite.length (fun line => sprite.getD line 0) cell := by
  rw [blit_eq_flipAll, collision_flipAll_iff]
  simp only [← List.count_pos_iff, count_spriteCells]

theorem collision_blit_iff_of_low (raster : Raster) (column row : Nat) (sprite : List Byte)
    (low : sprite.length ≤ 32) :
    (raster.blit column row sprite).collision = true ↔
      ∃ cell, 0 < bitsOn column row sprite.length (fun line => sprite.getD line 0) cell ∧
        raster.isOn cell = true := by
  rw [collision_blit_iff]
  constructor
  · rintro ⟨cell, hit | twice⟩
    · exact ⟨cell, hit⟩
    · have once := bitsOn_le_one_of_low column row sprite low cell
      omega
  · rintro ⟨cell, hit⟩
    exact ⟨cell, Or.inl hit⟩

end Raster

end Chip8
