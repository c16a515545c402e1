import Chip8.Proofs.SpriteBits

set_option autoImplicit false

/-! Several drawings one after the other. All that the raster at the end and the
answer whether anything collided depend on is how often each cell is covered, so
the order of the drawings does not matter. Which of them collides does depend on
the order. What no order changes is a sum: with every set bit the lit pixels and
twice the pixels turned off so far grow by one together. -/

namespace Chip8

structure SpritePlacement where
  column : Nat
  row : Nat
  sprite : List Byte
  deriving DecidableEq, Repr

def setBits (bits : Byte) : Nat :=
  (List.range 8).countP (fun place => bits.toNat.testBit place)

theorem length_spriteRowCells (column row : Nat) (bits : Byte) :
    (spriteRowCells column row bits).length = setBits bits := by
  have mirrored : (List.range 8).map (fun place => 7 - place) = (List.range 8).reverse := by
    decide
  unfold spriteRowCells setBits
  rw [List.length_map, ← List.countP_eq_length_filter, ← List.countP_reverse, ← mirrored,
    List.countP_map]
  rfl

theorem length_spriteCells (column row : Nat) (sprite : List Byte) :
    (spriteCells column row sprite).length = (sprite.map setBits).sum := by
  induction sprite generalizing row with
  | nil => rfl
  | cons bits rest ih =>
      rw [spriteCells, List.length_append, ih, length_spriteRowCells, List.map_cons,
        List.sum_cons]

namespace SpritePlacement

def cells (placement : SpritePlacement) : List Cell :=
  spriteCells placement.column placement.row placement.sprite

def setBits (placement : SpritePlacement) : Nat :=
  (placement.sprite.map Chip8.setBits).sum

end SpritePlacement

theorem length_flatMap_cells (placements : List SpritePlacement) :
    (placements.flatMap SpritePlacement.cells).length =
      (placements.map SpritePlacement.setBits).sum := by
  rw [List.length_flatMap]
  congr 2
  funext placement
  exact length_spriteCells placement.column placement.row placement.sprite

namespace Raster

/-! ### Cells turned over in another order -/

theorem flipAll_append (raster : Raster) (first second : List Cell) :
    raster.flipAll (first ++ second) =
      ⟨((raster.flipAll first).raster.flipAll second).raster,
        (raster.flipAll first).collision ||
          ((raster.flipAll first).raster.flipAll second).collision⟩ := by
  rw [← foldl_flip_eq]
  exact List.foldl_append

theorem flipAll_perm (raster : Raster) (cells others : List Cell)
    (reordered : cells.Perm others) : raster.flipAll others = raster.flipAll cells := by
  have sameRaster : (raster.flipAll others).raster = (raster.flipAll cells).raster := by
    apply eq_of_isOn_eq
    intro cell
    rw [isOn_flipAll, isOn_flipAll, reordered.count_eq]
  have sameCollision : (raster.flipAll others).collision = (raster.flipAll cells).collision := by
    rw [Bool.eq_iff_iff, collision_flipAll_iff, collision_flipAll_iff]
    simp only [reordered.count_eq, reordered.mem_iff]
  exact congrArg₂ Drawing.mk sameRaster sameCollision

theorem flipAll_flipAll_of_perm (raster : Raster) (cells others : List Cell)
    (reordered : cells.Perm others) :
    ((raster.flipAll cells).raster.flipAll others).raster = raster := by
  apply eq_of_isOn_eq
  intro cell
  rw [isOn_flipAll, isOn_flipAll, reordered.count_eq, Bool.xor_assoc, Bool.xor_self,
    Bool.xor_false]

/-! ### Lit pixels -/

/-- How often a pixel is turned off while cells are turned over in order. -/
def turnedOff (raster : Raster) : List Cell → Nat
  | [] => 0
  | cell :: later => (raster.isOn cell).toNat + (raster.flip cell).turnedOff later

theorem litCount_flip (raster : Raster) (cell : Cell) :
    (raster.flip cell).litCount + 2 * (raster.isOn cell).toNat = raster.litCount + 1 := by
  have inside : cell.place.val < raster.pixels.toList.length := by
    rw [Vector.length_toList]
    exact cell.place.isLt
  have here : raster.pixels.toList[cell.place.val] = raster.isOn cell := by
    rw [Vector.getElem_toList]
    rfl
  unfold flip put litCount
  rw [Vector.toList_set, List.count_set inside, here]
  cases lit : raster.isOn cell with
  | false => simp
  | true =>
      have counted : 0 < raster.pixels.toList.count true := by
        rw [List.count_pos_iff, ← lit, ← here]
        exact List.getElem_mem inside
      simp only [Bool.not_true, beq_self_eq_true, if_true, Bool.false_beq, Bool.false_eq_true,
        if_false, Bool.toNat_true]
      omega

/-- Every cell turned over adds a lit pixel, or turns one off and so takes one
away that it would have added and one that was there. -/
theorem litCount_flipAll (raster : Raster) (cells : List Cell) :
    (raster.flipAll cells).raster.litCount + 2 * raster.turnedOff cells =
      raster.litCount + cells.length := by
  induction cells generalizing raster with
  | nil => rfl
  | cons cell later ih =>
      have flipped := raster.litCount_flip cell
      have rest := ih (raster.flip cell)
      rw [flipAll_cons, turnedOff, List.length_cons]
      change ((raster.flip cell).flipAll later).raster.litCount + _ = _
      omega

theorem collision_flipAll_iff_turnedOff (raster : Raster) (cells : List Cell) :
    (raster.flipAll cells).collision = true ↔ 0 < raster.turnedOff cells := by
  induction cells generalizing raster with
  | nil => simp [flipAll_nil, Drawing.start, turnedOff]
  | cons cell later ih =>
      rw [flipAll_cons, Bool.or_eq_true, ih, turnedOff]
      cases raster.isOn cell with
      | false => simp
      | true => simp [Nat.add_comm 1]

/-! ### Series of drawings -/

def blitAll (raster : Raster) : List SpritePlacement → Raster
  | [] => raster
  | placement :: later =>
      (raster.blit placement.column placement.row placement.sprite).raster.blitAll later

def collisions (raster : Raster) : List SpritePlacement → List Bool
  | [] => []
  | placement :: later =>
      let drawing := raster.blit placement.column placement.row placement.sprite
      drawing.collision :: drawing.raster.collisions later

theorem blitAll_eq_flipAll (raster : Raster) (placements : List SpritePlacement) :
    raster.blitAll placements =
      (raster.flipAll (placements.flatMap SpritePlacement.cells)).raster := by
  induction placements generalizing raster with
  | nil => rfl
  | cons placement later ih =>
      rw [blitAll, ih, blit_eq_flipAll, List.flatMap_cons, flipAll_append]
      rfl

theorem mem_collisions_iff (raster : Raster) (placements : List SpritePlacement) :
    true ∈ raster.collisions placements ↔
      (raster.flipAll (placements.flatMap SpritePlacement.cells)).collision = true := by
  induction placements generalizing raster with
  | nil => simp [collisions, flipAll_nil, Drawing.start]
  | cons placement later ih =>
      rw [collisions, List.mem_cons, ih, blit_eq_flipAll, List.flatMap_cons, flipAll_append,
        Bool.or_eq_true, eq_comm]
      rfl

/-- Drawings in another order end with the same raster, and something collides in
both orders or in neither; drawn once more in any order they leave what was there
before. Nothing collides exactly if every set bit has lit a pixel. -/
theorem drawings_commute_and_cancel (raster : Raster)
    (placements others : List SpritePlacement) (reordered : placements.Perm others) :
    raster.blitAll others = raster.blitAll placements ∧
      (true ∈ raster.collisions others ↔ true ∈ raster.collisions placements) ∧
      (raster.blitAll placements).blitAll others = raster ∧
      (true ∉ raster.collisions placements ↔
        (raster.blitAll placements).litCount =
          raster.litCount + (placements.map SpritePlacement.setBits).sum) := by
  have covered := reordered.flatMap_right SpritePlacement.cells
  refine ⟨?_, ?_, ?_, ?_⟩
  · rw [blitAll_eq_flipAll, blitAll_eq_flipAll, raster.flipAll_perm _ _ covered]
  · rw [mem_collisions_iff, mem_collisions_iff, raster.flipAll_perm _ _ covered]
  · rw [blitAll_eq_flipAll, blitAll_eq_flipAll, raster.flipAll_flipAll_of_perm _ _ covered]
  · have conserved := raster.litCount_flipAll (placements.flatMap SpritePlacement.cells)
    rw [length_flatMap_cells] at conserved
    rw [mem_collisions_iff, collision_flipAll_iff_turnedOff, blitAll_eq_flipAll]
    omega

/-- Two pixels are lit and turned off by a sprite that covers both. If it comes
before the second of them, both later drawings collide, else only the last. -/
theorem wide_sprite_collides_in_every_order :
    let first : SpritePlacement := ⟨0, 0, [0x80]⟩
    let second : SpritePlacement := ⟨1, 0, [0x80]⟩
    let wide : SpritePlacement := ⟨64, 32, [0xC0]⟩
    blank.collisions [first, second, wide] = [false, false, true] ∧
      blank.collisions [first, wide, second] = [false, true, true] ∧
      blank.blitAll [first, wide, second] = blank.blitAll [first, second, wide] ∧
      (blank.blitAll [first, second, wide]).blitAll [first, wide, second] = blank ∧
      (blank.blitAll [first, second, wide]).litCount ≠ blank.litCount + 4 := by
  intro first second wide
  have inOrder : blank.collisions [first, second, wide] = [false, false, true] := by
    decide +kernel
  have reordered : [first, second, wide].Perm [first, wide, second] :=
    .cons first (.swap wide second [])
  obtain ⟨same, _collides, restored, lit⟩ := drawings_commute_and_cancel blank _ _ reordered
  refine ⟨inOrder, by decide +kernel, same, restored, ?_⟩
  intro claimed
  have bits : ([first, second, wide].map SpritePlacement.setBits).sum = 4 := by decide
  rw [bits] at lit
  exact lit.mpr claimed (by rw [inOrder]; decide)

end Raster

end Chip8
