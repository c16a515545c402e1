import Chip8.CheckedMachine

set_option autoImplicit false

/-! Accesses that stay inside a list succeed, and on the bytes of a memory and the
rows of a raster they do what the typed operations do. -/

namespace Chip8

namespace Checked

theorem ok_bind {Value Result : Type} (value : Value) (continuation : Value → Checked Result) :
    ((.ok value : Checked Value) >>= continuation) = continuation value := rfl

variable {Item : Type}

theorem get_of_getElem? (items : List Item) (place : Nat) (item : Item)
    (found : items[place]? = some item) : get items place = .ok item := by
  unfold get
  rw [found]

theorem set_of_lt (items : List Item) (place : Nat) (item : Item)
    (inside : place < items.length) : set items place item = .ok (items.set place item) := by
  unfold set
  rw [if_pos inside]

theorem range_of_le (items : List Item) (start length : Nat)
    (inside : start + length ≤ items.length) :
    range items start (start + length) = .ok ((items.drop start).take length) := by
  unfold range
  rw [if_pos ⟨Nat.le_add_right start length, inside⟩, Nat.add_sub_cancel_left]

theorem copy_of_le (items : List Item) (start : Nat) (source : List Item)
    (inside : start + source.length ≤ items.length) :
    copy items start (start + source.length) source =
      .ok (items.take start ++ source ++ items.drop (start + source.length)) := by
  have room : ((items.drop start).take source.length).length = source.length := by
    rw [List.length_take, List.length_drop]
    omega
  unfold copy
  rw [range_of_le items start source.length inside, ok_bind, if_pos room]

theorem sum_of_lt (limit left right : Nat) (fits : left + right < limit) :
    sum limit left right = .ok (left + right) := by
  unfold sum
  rw [if_pos fits]

theorem wordSum_of_lt (left right : Nat) (fits : left + right < 0x10000) :
    wordSum left right = .ok (left + right) :=
  sum_of_lt _ left right fits

theorem placeSum_of_lt (left right : Nat) (fits : left + right < 0x10000000000000000) :
    placeSum left right = .ok (left + right) :=
  sum_of_lt _ left right fits

end Checked

/-! ### Memory -/

namespace Memory

theorem getElem?_plain (memory : Memory) (address : Nat) :
    memory.plain[address]? = if address < 4096 then some (memory.byteAt address) else none := by
  unfold plain byteAt
  by_cases inside : address < 4096
  · simp [inside]
  · simp [inside]

theorem length_plain (memory : Memory) : memory.plain.length = 4096 := by
  simp [plain]

theorem plain_blank : blank.plain = List.replicate 4096 0 := by
  unfold plain blank
  rw [Vector.toList_replicate]

theorem range_plain (memory : Memory) (start length : Nat) (inside : start + length ≤ 4096) :
    (memory.plain.drop start).take length = memory.bytesAt start length := by
  apply List.ext_getElem?
  intro place
  rw [List.getElem?_take, List.getElem?_drop, getElem?_plain]
  unfold bytesAt
  by_cases within : place < length
  · have reached : start + place < 4096 := by omega
    simp [within, reached]
  · simp [within]

theorem copy_plain (memory : Memory) (start : Nat) (content : List Byte)
    (inside : start + content.length ≤ 4096) :
    memory.plain.take start ++ content ++ memory.plain.drop (start + content.length) =
      (memory.overwrite start content).plain := by
  have startLength : (memory.plain.take start).length = start := by
    rw [List.length_take, length_plain]
    omega
  apply List.ext_getElem?
  intro place
  rw [getElem?_plain, byteAt_overwrite, List.append_assoc]
  by_cases before : place < start
  · have inMemory : place < 4096 := by omega
    have outside : ¬ (start ≤ place ∧ place < 4096) := by omega
    rw [List.getElem?_append_left (by omega), List.getElem?_take_of_lt before, getElem?_plain,
      if_neg outside]
  · rw [List.getElem?_append_right (by omega), startLength]
    by_cases within : place < start + content.length
    · have inMemory : place < 4096 := by omega
      have inContent : place - start < content.length := by omega
      rw [List.getElem?_append_left inContent, if_pos inMemory,
        if_pos ⟨Nat.le_of_not_lt before, inMemory⟩, List.getElem?_eq_getElem inContent]
      rfl
    · have beyond : content.length ≤ place - start := by omega
      have samePlace : start + content.length + (place - start - content.length) = place := by
        omega
      rw [List.getElem?_append_right beyond, List.getElem?_drop, samePlace, getElem?_plain,
        List.getElem?_eq_none beyond, Option.getD_none, ite_self]

theorem replace_plain (memory : Memory) (address : Nat) (content : List Byte) :
    Checked.replace memory.plain address content.length (.ok content) =
      .ok ((memory.load address content).map plain) := by
  unfold Checked.replace load checkRange size
  rw [length_plain]
  by_cases inside : address + content.length ≤ 4096
  · have inList : address + content.length ≤ memory.plain.length := by
      rw [length_plain]
      exact inside
    rw [if_pos inside, if_pos inside, Checked.placeSum_of_lt _ _ (by omega), Checked.ok_bind,
      Checked.ok_bind, Checked.copy_of_le _ _ _ inList, copy_plain _ _ _ inside]
    rfl
  · rw [if_neg inside, if_neg inside]
    rfl

end Memory

/-! ### The raster -/

namespace Raster

theorem getElem?_pixelRows (raster : Raster) (row : Nat) :
    raster.pixelRows[row]? = if row < 32 then some (raster.rowPixels row) else none := by
  unfold pixelRows
  by_cases inside : row < 32
  · simp [inside]
  · simp [inside]

theorem getElem?_rowPixels (raster : Raster) (column row : Nat) :
    (raster.rowPixels row)[column]? =
      if column < 64 then some (raster.pixel column row) else none := by
  unfold rowPixels
  by_cases inside : column < 64
  · simp [inside]
  · simp [inside]

theorem length_pixelRows (raster : Raster) : raster.pixelRows.length = 32 := by
  simp [pixelRows]

theorem length_rowPixels (raster : Raster) (row : Nat) : (raster.rowPixels row).length = 64 := by
  simp [rowPixels]

theorem pixelRows_blank :
    blank.pixelRows = List.replicate 32 (List.replicate 64 false) := by
  have row : blank.rowPixels = fun _ => List.replicate 64 false := by
    funext number
    simp only [rowPixels, pixel, isOn_blank, List.map_const', List.length_range]
  rw [pixelRows, row, List.map_const', List.length_range]

theorem pixel_put (raster : Raster) (column row : Nat) (lit : Bool) (askedColumn askedRow : Nat)
    (inColumns : askedColumn < 64) (inRows : askedRow < 32) :
    (raster.put (Cell.wrap column row) lit).pixel askedColumn askedRow =
      if column % 64 = askedColumn ∧ row % 32 = askedRow then lit
      else raster.pixel askedColumn askedRow := by
  unfold pixel
  rw [isOn_put]
  simp only [Cell.wrap, Cell.mk.injEq, Fin.mk.injEq, Nat.mod_eq_of_lt inColumns,
    Nat.mod_eq_of_lt inRows]

theorem rowPixels_put (raster : Raster) (column row : Nat) (lit : Bool) (asked : Nat)
    (inRows : asked < 32) :
    (raster.put (Cell.wrap column row) lit).rowPixels asked =
      if row % 32 = asked then (raster.rowPixels asked).set (column % 64) lit
      else raster.rowPixels asked := by
  apply List.ext_getElem?
  intro place
  rw [getElem?_rowPixels]
  by_cases inColumns : place < 64
  · rw [if_pos inColumns, pixel_put raster column row lit place asked inColumns inRows]
    by_cases sameRow : row % 32 = asked
    · rw [if_pos sameRow, List.getElem?_set, getElem?_rowPixels, length_rowPixels,
        if_pos inColumns]
      by_cases sameColumn : column % 64 = place
      · have inRow : column % 64 < 64 := Nat.mod_lt _ (by decide)
        rw [if_pos ⟨sameColumn, sameRow⟩, if_pos sameColumn, if_pos inRow]
      · rw [if_neg (fun both => sameColumn both.1), if_neg sameColumn]
    · rw [if_neg (fun both => sameRow both.2), if_neg sameRow, getElem?_rowPixels,
        if_pos inColumns]
  · rw [if_neg inColumns, List.getElem?_eq_none]
    split <;> simp [length_rowPixels] <;> omega

theorem pixelRows_put (raster : Raster) (column row : Nat) (lit : Bool) :
    raster.pixelRows.set (row % 32) ((raster.rowPixels (row % 32)).set (column % 64) lit) =
      (raster.put (Cell.wrap column row) lit).pixelRows := by
  apply List.ext_getElem?
  intro asked
  rw [List.getElem?_set, getElem?_pixelRows, getElem?_pixelRows, length_pixelRows]
  by_cases inRows : asked < 32
  · rw [if_pos inRows, if_pos inRows, rowPixels_put raster column row lit asked inRows]
    by_cases sameRow : row % 32 = asked
    · rw [if_pos sameRow, if_pos sameRow, if_pos (sameRow ▸ inRows), sameRow]
    · rw [if_neg sameRow, if_neg sameRow]
  · have different : row % 32 ≠ asked := by omega
    simp only [if_neg different, if_neg inRows]

end Raster

namespace Drawing

theorem plain_flip (drawing : Drawing) (column row : Nat) :
    drawing.plain.flip (column % 64) (row % 32) =
      .ok (drawing.flip (Cell.wrap column row)).plain := by
  have inColumns : column % 64 < 64 := Nat.mod_lt _ (by decide)
  have inRows : row % 32 < 32 := Nat.mod_lt _ (by decide)
  have pixels := drawing.raster.getElem?_pixelRows (row % 32)
  rw [if_pos inRows] at pixels
  have wasOn := drawing.raster.getElem?_rowPixels (column % 64) (row % 32)
  rw [if_pos inColumns] at wasOn
  have pixelEq : drawing.raster.pixel (column % 64) (row % 32) =
      drawing.raster.isOn (Cell.wrap column row) := by
    simp only [Raster.pixel, Cell.wrap, Nat.mod_mod]
  unfold CheckedDrawing.flip
  simp only [plain]
  rw [Checked.get_of_getElem? _ _ _ pixels, Checked.ok_bind,
    Checked.get_of_getElem? _ _ _ wasOn, Checked.ok_bind,
    Checked.set_of_lt _ _ _ (by rw [Raster.length_rowPixels]; exact inColumns), Checked.ok_bind,
    Checked.set_of_lt _ _ _ (by rw [Raster.length_pixelRows]; exact inRows),
    Checked.ok_bind, pixelEq, Raster.pixelRows_put]
  rfl

theorem plain_flipRow (drawing : Drawing) (column row : Nat) (bits : Byte) (places : List Nat)
    (fits : ∀ place ∈ places, column + place < 0x10000000000000000) :
    drawing.plain.flipRow column (row % 32) bits places =
      .ok (((places.filter (fun place => bits.toNat.testBit (7 - place))).map
        (fun place => Cell.wrap (column + place) row)).foldl flip drawing).plain := by
  induction places generalizing drawing with
  | nil => rfl
  | cons place later ih =>
      have laterFits : ∀ other ∈ later, column + other < 0x10000000000000000 :=
        fun other member => fits other (List.mem_cons_of_mem place member)
      rw [CheckedDrawing.flipRow]
      by_cases lit : bits.toNat.testBit (7 - place) = true
      · rw [if_pos lit, Checked.placeSum_of_lt column place (fits place List.mem_cons_self),
          Checked.ok_bind, plain_flip, Checked.ok_bind, ih _ laterFits, List.filter_cons,
          if_pos lit]
        rfl
      · rw [if_neg lit, ih drawing laterFits, List.filter_cons, if_neg lit]

theorem plain_flipRows (drawing : Drawing) (column row number : Nat) (sprite : List Byte)
    (columnFits : column + 7 < 0x10000000000000000)
    (rowFits : row + number + sprite.length < 0x10000000000000000) :
    drawing.plain.flipRows column row number sprite =
      .ok (drawing.flipSprite column (row + number) sprite).plain := by
  induction sprite generalizing drawing number with
  | nil => rfl
  | cons bits rest ih =>
      rw [List.length_cons] at rowFits
      have placesFit : ∀ place ∈ List.range 8, column + place < 0x10000000000000000 := by
        intro place member
        have bound := List.mem_range.mp member
        omega
      rw [CheckedDrawing.flipRows, Checked.placeSum_of_lt row number (by omega), Checked.ok_bind,
        plain_flipRow drawing column (row + number) bits (List.range 8) placesFit,
        Checked.ok_bind, ih _ (number + 1) (by omega)]
      rfl

end Drawing

end Chip8
