import Chip8.Word

set_option autoImplicit false

/-! The raster: thirty two rows of sixty four pixels, black or white. A sprite
is exclusive-ored onto it, and a sprite that leaves at one edge comes back at
the opposite one. Drawing is described by the list of cells that the set bits
of a sprite fall on: every cell of the list is turned over, in order, and the
sprite collides if one of them was on at its turn. -/

namespace Chip8

structure Cell where
  column : Fin 64
  row : Fin 32
  deriving DecidableEq, Repr

/-- The cell of coordinates that wrap around on both axes. -/
def Cell.wrap (column row : Nat) : Cell :=
  ⟨⟨column % 64, Nat.mod_lt _ (by decide)⟩, ⟨row % 32, Nat.mod_lt _ (by decide)⟩⟩

def Cell.place (cell : Cell) : Fin 2048 :=
  ⟨64 * cell.row.val + cell.column.val, by
    have inRow := cell.column.isLt
    have inRaster := cell.row.isLt
    omega⟩

theorem Cell.place_inj {left right : Cell} : left.place = right.place ↔ left = right := by
  constructor
  · intro same
    cases left with
    | mk leftColumn leftRow =>
        cases right with
        | mk rightColumn rightRow =>
            have sum : 64 * leftRow.val + leftColumn.val = 64 * rightRow.val + rightColumn.val :=
              congrArg Fin.val same
            have leftBound := leftColumn.isLt
            have rightBound := rightColumn.isLt
            have sameColumn : leftColumn = rightColumn := Fin.ext (by omega)
            have sameRow : leftRow = rightRow := Fin.ext (by omega)
            rw [sameColumn, sameRow]
  · intro same
    rw [same]

/-- The cells that one row of a sprite covers, leftmost first. The most
significant bit is the leftmost one. -/
def spriteRowCells (column row : Nat) (bits : Byte) : List Cell :=
  ((List.range 8).filter (fun place => bits.toNat.testBit (7 - place))).map
    (fun place => Cell.wrap (column + place) row)

/-- The cells that a sprite covers, one for every set bit. A tall sprite can
cover a cell several times. -/
def spriteCells (column row : Nat) : List Byte → List Cell
  | [] => []
  | bits :: rest => spriteRowCells column row bits ++ spriteCells column (row + 1) rest

structure Raster where
  pixels : Vector Bool 2048
  deriving DecidableEq

/-- A drawn raster, and whether a pixel was turned off on the way. -/
structure Drawing where
  raster : Raster
  collision : Bool
  deriving DecidableEq

namespace Raster

def blank : Raster := ⟨Vector.replicate 2048 false⟩

def isOn (raster : Raster) (cell : Cell) : Bool :=
  raster.pixels[cell.place]

def put (raster : Raster) (cell : Cell) (lit : Bool) : Raster :=
  ⟨raster.pixels.set cell.place.val lit cell.place.isLt⟩

def flip (raster : Raster) (cell : Cell) : Raster :=
  raster.put cell (!raster.isOn cell)

end Raster

namespace Drawing

def start (raster : Raster) : Drawing := ⟨raster, false⟩

def flip : Drawing → Cell → Drawing
  | ⟨raster, collision⟩, cell =>
      let wasOn := raster.isOn cell
      ⟨raster.put cell (!wasOn), collision || wasOn⟩

def flipSprite (drawing : Drawing) (column row : Nat) : List Byte → Drawing
  | [] => drawing
  | bits :: rest =>
      ((spriteRowCells column row bits).foldl flip drawing).flipSprite column (row + 1) rest

theorem flipSprite_eq_foldl (drawing : Drawing) (column row : Nat) (sprite : List Byte) :
    drawing.flipSprite column row sprite = (spriteCells column row sprite).foldl flip drawing := by
  induction sprite generalizing drawing row with
  | nil => rfl
  | cons bits rest ih => rw [flipSprite, ih, spriteCells, List.foldl_append]

end Drawing

namespace Raster

def flipAll (raster : Raster) (cells : List Cell) : Drawing :=
  cells.foldl Drawing.flip (.start raster)

def blit (raster : Raster) (column row : Nat) (sprite : List Byte) : Drawing :=
  (Drawing.start raster).flipSprite column row sprite

theorem blit_eq_flipAll (raster : Raster) (column row : Nat) (sprite : List Byte) :
    raster.blit column row sprite = raster.flipAll (spriteCells column row sprite) :=
  Drawing.flipSprite_eq_foldl (.start raster) column row sprite

def pixel (raster : Raster) (column row : Nat) : Bool :=
  raster.isOn (Cell.wrap column row)

def litCount (raster : Raster) : Nat :=
  raster.pixels.toList.count true

def isBlank (raster : Raster) : Bool :=
  raster.pixels.toList.all (fun lit => !lit)

/-! ### What drawing does to a pixel -/

theorem eq_of_isOn_eq (left right : Raster)
    (same : ∀ cell, left.isOn cell = right.isOn cell) : left = right := by
  cases left with
  | mk leftPixels =>
      cases right with
      | mk rightPixels =>
          congr 1
          apply Vector.ext
          intro number inside
          have row : number / 64 < 32 := by omega
          have column : number % 64 < 64 := Nat.mod_lt _ (by decide)
          have sameCell := same ⟨⟨number % 64, column⟩, ⟨number / 64, row⟩⟩
          simpa only [isOn, Cell.place, Fin.getElem_fin, Nat.div_add_mod] using sameCell

theorem isOn_blank (cell : Cell) : blank.isOn cell = false := by
  simp [isOn, blank]

theorem isOn_put (raster : Raster) (cell asked : Cell) (lit : Bool) :
    (raster.put cell lit).isOn asked = if cell = asked then lit else raster.isOn asked := by
  by_cases same : cell = asked
  · subst asked
    simp [put, isOn]
  · have different : cell.place.val ≠ asked.place.val :=
      fun equal => same (Cell.place_inj.mp (Fin.ext equal))
    simp [put, isOn, same, different]

theorem isOn_flip (raster : Raster) (cell asked : Cell) :
    (raster.flip cell).isOn asked =
      if cell = asked then !raster.isOn asked else raster.isOn asked := by
  unfold flip
  rw [isOn_put]
  by_cases same : cell = asked
  · rw [if_pos same, if_pos same, same]
  · rw [if_neg same, if_neg same]

theorem flipAll_nil (raster : Raster) : raster.flipAll [] = .start raster := rfl

theorem foldl_flip_eq (raster : Raster) (collision : Bool) (cells : List Cell) :
    cells.foldl Drawing.flip ⟨raster, collision⟩ =
      ⟨(raster.flipAll cells).raster, collision || (raster.flipAll cells).collision⟩ := by
  unfold flipAll Drawing.start
  induction cells generalizing raster collision with
  | nil => simp only [List.foldl_nil, Bool.or_false]
  | cons cell rest ih =>
      simp only [List.foldl_cons, Drawing.flip, Bool.false_or]
      rw [ih _ (collision || raster.isOn cell), ih _ (raster.isOn cell), Bool.or_assoc]

theorem flipAll_cons (raster : Raster) (cell : Cell) (rest : List Cell) :
    raster.flipAll (cell :: rest) =
      ⟨((raster.flip cell).flipAll rest).raster,
        raster.isOn cell || ((raster.flip cell).flipAll rest).collision⟩ := by
  have step : raster.flipAll (cell :: rest) =
      rest.foldl Drawing.flip ⟨raster.flip cell, raster.isOn cell⟩ := by
    unfold flipAll Drawing.start
    simp only [List.foldl_cons, Drawing.flip, Bool.false_or, flip]
  rw [step, foldl_flip_eq]

/-- A pixel changes if it is covered an odd number of times. -/
theorem isOn_flipAll (raster : Raster) (cells : List Cell) (asked : Cell) :
    (raster.flipAll cells).raster.isOn asked =
      (raster.isOn asked ^^ decide (cells.count asked % 2 = 1)) := by
  induction cells generalizing raster with
  | nil => simp [flipAll_nil, Drawing.start]
  | cons cell rest ih =>
      rw [flipAll_cons, ih, isOn_flip, List.count_cons]
      by_cases same : cell = asked
      · subst asked
        have parity : decide ((rest.count cell + 1) % 2 = 1) =
            !decide (rest.count cell % 2 = 1) := by
          rw [← decide_not]
          congr 1
          apply propext
          omega
        simp only [if_pos, beq_self_eq_true, parity, Bool.not_xor, Bool.xor_not]
      · simp [same]

/-- Something is turned off exactly if a covered pixel was on, or if a pixel is
covered twice. -/
theorem collision_flipAll_iff (raster : Raster) (cells : List Cell) :
    (raster.flipAll cells).collision = true ↔
      ∃ cell, (cell ∈ cells ∧ raster.isOn cell = true) ∨ 2 ≤ cells.count cell := by
  induction cells generalizing raster with
  | nil => simp [flipAll_nil, Drawing.start]
  | cons cell rest ih =>
      rw [flipAll_cons, Bool.or_eq_true, ih]
      constructor
      · rintro (wasOn | ⟨other, ⟨member, on⟩ | twice⟩)
        · exact ⟨cell, Or.inl ⟨List.mem_cons_self, wasOn⟩⟩
        · by_cases same : cell = other
          · subst other
            have once := List.count_pos_iff.mpr member
            exact ⟨cell, Or.inr (by rw [List.count_cons_self]; omega)⟩
          · rw [isOn_flip, if_neg same] at on
            exact ⟨other, Or.inl ⟨List.mem_cons_of_mem cell member, on⟩⟩
        · exact ⟨other, Or.inr (Nat.le_trans twice (List.count_le_count_cons))⟩
      · rintro ⟨other, ⟨member, on⟩ | twice⟩
        · by_cases same : cell = other
          · subst other
            exact Or.inl on
          · have later := (List.mem_cons.mp member).resolve_left (fun equal => same equal.symm)
            exact Or.inr ⟨other, Or.inl ⟨later, by rw [isOn_flip, if_neg same]; exact on⟩⟩
        · by_cases same : cell = other
          · subst other
            rw [List.count_cons_self] at twice
            cases wasOn : raster.isOn cell with
            | true => exact Or.inl rfl
            | false =>
                have member : cell ∈ rest := List.count_pos_iff.mp (by omega)
                have nowOn : (raster.flip cell).isOn cell = true := by
                  rw [isOn_flip, if_pos rfl, wasOn]
                  rfl
                exact Or.inr ⟨cell, Or.inl ⟨member, nowOn⟩⟩
          · rw [List.count_cons_of_ne same] at twice
            exact Or.inr ⟨other, Or.inr twice⟩

end Raster

end Chip8
