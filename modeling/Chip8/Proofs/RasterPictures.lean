import Chip8.PictureReader
import Chip8.Proofs.CheckedAccess
import Chip8.Proofs.DumpRoundTrip
import Mathlib.Data.List.DropRight

set_option autoImplicit false

/-! Both pictures of the raster show every pixel. The plain picture has a line for each
row, which is the row once the blanks that were dropped at its end are put back; the
compact picture has a line for every two rows. Each of them is read back as the raster,
so each can be made from the other. -/

namespace Chip8

/-! ### Lines without the blanks at their end -/

theorem trimBlanks_eq (line : List Char) : trimBlanks line = line.rdropWhile (· = ' ') := rfl

theorem getLast?_trimBlanks_ne (line : List Char) : (trimBlanks line).getLast? ≠ some ' ' := by
  intro last
  rw [trimBlanks_eq] at last
  have filled : line.rdropWhile (· = ' ') ≠ [] := by
    intro empty
    rw [empty] at last
    cases last
  rw [List.getLast?_eq_some_getLast filled] at last
  exact List.rdropWhile_last_not _ _ filled (decide_eq_true (Option.some.inj last))

theorem rightpad_trimBlanks (line : List Char) :
    (trimBlanks line).rightpad line.length ' ' = line := by
  have split : trimBlanks line ++ line.rtakeWhile (· = ' ') = line :=
    List.rdropWhile_append_rtakeWhile
  have lengths := congrArg List.length split
  rw [List.length_append] at lengths
  have blanks : line.rtakeWhile (· = ' ') =
      List.replicate (line.length - (trimBlanks line).length) ' ' := by
    apply List.eq_replicate_iff.mpr
    refine ⟨by omega, fun character listed => ?_⟩
    have dropped := List.mem_rtakeWhile_imp listed
    exact of_decide_eq_true dropped
  rw [List.rightpad, ← blanks]
  exact split

theorem mem_of_mem_trimBlanks (line : List Char) (character : Char)
    (listed : character ∈ trimBlanks line) : character ∈ line :=
  (List.rdropWhile_prefix _ line).subset listed

theorem getElem?_rightpad_eq_some_iff (text : List Char) (width column : Nat) (character : Char)
    (other : character ≠ ' ') :
    (text.rightpad width ' ')[column]? = some character ↔ text[column]? = some character := by
  rw [List.rightpad, List.getElem?_append]
  by_cases inside : column < text.length
  · rw [if_pos inside]
  · rw [if_neg inside, List.getElem?_eq_none (Nat.le_of_not_lt inside), List.getElem?_replicate]
    constructor
    · intro blank
      split at blank
      · exact absurd (Option.some.inj blank).symm other
      · cases blank
    · intro impossible
      cases impossible

/-! ### Rows taken in pairs -/

/-- Each row that has an even number, with the row below it if there is one. -/
def rowPairs : List (List Bool) → List (List Bool × Option (List Bool))
  | [] => []
  | [upper] => [(upper, none)]
  | upper :: lower :: rest => (upper, some lower) :: rowPairs rest

/-- The line for a pair of rows, walked along the upper one. What is missing below is off. -/
def pairLine (pair : List Bool × Option (List Bool)) : List Char :=
  pair.1.zipIdx.map (fun (lit, column) =>
    halfBlockCharacter lit ((pair.2.bind (fun lower => lower[column]?)).getD false))

theorem rowPairs_range (rows : Nat → List Bool) (first count : Nat) :
    rowPairs ((List.range' (2 * first) (2 * count)).map rows) =
      (List.range' first count).map (fun line => (rows (2 * line), some (rows (2 * line + 1)))) := by
  induction count generalizing first with
  | zero => rfl
  | succ count ih =>
      have next := ih (first + 1)
      have behind : 2 * (first + 1) = 2 * first + 1 + 1 := by omega
      rw [behind] at next
      rw [Nat.mul_succ, List.range'_succ (n := 2 * count + 1), List.range'_succ, List.range'_succ,
        List.map_cons, List.map_cons, List.map_cons, rowPairs, ← next]

namespace Raster

/-! ### The plain picture -/

/-- A text of thirty two lines, none with a blank at its end. Filled up with blanks, each
line has a full block for every pixel of its row that is on, and is blank elsewhere. -/
structure PlainlyShown (raster : Raster) (text : String) : Prop where
  height : (linesOf text).length = 32
  trimmed : ∀ line ∈ linesOf text, line.toList.getLast? ≠ some ' '
  width : ∀ line ∈ linesOf text, (line.toList.rightpad 64 ' ').length = 64
  pixels : ∀ row line, (linesOf text)[row]? = some line → ∀ column, column < 64 →
    (line.toList.rightpad 64 ' ')[column]? = some (if raster.pixel column row then '█' else ' ')

variable (raster : Raster)

theorem toList_plainLine (row : Nat) :
    (raster.plainLine row).toList = trimBlanks ((raster.rowPixels row).map blockCharacter) :=
  String.toList_ofList

theorem rightpad_plainLine (row : Nat) :
    (raster.plainLine row).toList.rightpad 64 ' ' = (raster.rowPixels row).map blockCharacter := by
  have filled := rightpad_trimBlanks ((raster.rowPixels row).map blockCharacter)
  rw [List.length_map, raster.length_rowPixels row] at filled
  rw [toList_plainLine]
  exact filled

theorem lineEnd_not_mem_plainLine (row : Nat) : '\n' ∉ (raster.plainLine row).toList := by
  intro listed
  rw [toList_plainLine] at listed
  obtain ⟨lit, _inRow, same⟩ := List.mem_map.mp (mem_of_mem_trimBlanks _ _ listed)
  cases lit <;> revert same <;> decide

theorem linesOf_plainPicture :
    linesOf raster.plainPicture = (List.range 32).map raster.plainLine := by
  apply linesOf_joinLines
  · exact mt List.map_eq_nil_iff.mp (by decide)
  · exact List.forall_mem_map.mpr (fun row _listed => raster.lineEnd_not_mem_plainLine row)

theorem plainlyShown_plainPicture : raster.PlainlyShown raster.plainPicture := by
  constructor <;> rw [linesOf_plainPicture]
  case height => rw [List.length_map, List.length_range]
  case trimmed =>
    refine List.forall_mem_map.mpr (fun row _listed => ?_)
    rw [toList_plainLine]
    exact getLast?_trimBlanks_ne _
  case width =>
    refine List.forall_mem_map.mpr (fun row _listed => ?_)
    rw [rightpad_plainLine, List.length_map, length_rowPixels]
  case pixels =>
    intro row line found column inRow
    rw [List.getElem?_map] at found
    obtain ⟨number, listed, same⟩ := Option.map_eq_some_iff.mp found
    obtain ⟨_inRaster, place⟩ := List.getElem?_eq_some_iff.mp listed
    rw [List.getElem_range] at place
    rw [← same, ← place, rightpad_plainLine, List.getElem?_map, getElem?_rowPixels, if_pos inRow]
    rfl

/-! ### The compact picture -/

/-- Sixteen lines of sixty four characters, of which each fills the halves of its cell
whose pixels are on. -/
structure CompactlyShown (raster : Raster) (lines : List String) : Prop where
  height : lines.length = 16
  width : ∀ line ∈ lines, line.toList.length = 64
  pixels : ∀ number line, lines[number]? = some line → ∀ column, column < 64 →
    line.toList[column]? = some
      (if raster.pixel column (2 * number) then
        if raster.pixel column (2 * number + 1) then '█' else '▀'
      else if raster.pixel column (2 * number + 1) then '▄' else ' ')

theorem halfBlockCharacter_eq (upper lower : Bool) :
    halfBlockCharacter upper lower =
      if upper then if lower then '█' else '▀' else if lower then '▄' else ' ' := by
  cases upper <;> cases lower <;> rfl

theorem getElem?_compactLine (line column : Nat) (inRow : column < 64) :
    (raster.compactLine line).toList[column]? = some (halfBlockCharacter
      (raster.pixel column (2 * line)) (raster.pixel column (2 * line + 1))) := by
  unfold compactLine
  rw [String.toList_ofList, List.getElem?_map, List.getElem?_range inRow]
  rfl

theorem compactlyShown_compactPicture : raster.CompactlyShown raster.compactPicture := by
  constructor <;> unfold compactPicture
  case height => rw [List.length_map, List.length_range]
  case width =>
    refine List.forall_mem_map.mpr (fun line _listed => ?_)
    unfold compactLine
    rw [String.toList_ofList, List.length_map, List.length_range]
  case pixels =>
    intro number line found column inRow
    rw [List.getElem?_map] at found
    obtain ⟨listedNumber, listed, same⟩ := Option.map_eq_some_iff.mp found
    obtain ⟨_inPicture, place⟩ := List.getElem?_eq_some_iff.mp listed
    rw [List.getElem_range] at place
    rw [← same, ← place, raster.getElem?_compactLine number column inRow, halfBlockCharacter_eq]

theorem pairLine_rowPixels (line : Nat) :
    String.ofList (pairLine (raster.rowPixels (2 * line), some (raster.rowPixels (2 * line + 1)))) =
      raster.compactLine line := by
  apply congrArg String.ofList
  apply List.ext_getElem?
  intro column
  unfold pairLine
  rw [List.getElem?_map, List.getElem?_zipIdx, getElem?_rowPixels, List.getElem?_map]
  by_cases inRow : column < 64
  · rw [if_pos inRow, List.getElem?_range inRow]
    simp [getElem?_rowPixels, inRow]
  · rw [if_neg inRow, List.getElem?_eq_none (by simpa using inRow)]
    rfl

/-- The compact picture is made from the rows, two at a time. -/
theorem compactPicture_eq_rowPairs :
    raster.compactPicture =
      (rowPairs raster.pixelRows).map (fun pair => String.ofList (pairLine pair)) := by
  have pairs := rowPairs_range raster.rowPixels 0 16
  rw [← List.range_eq_range', ← List.range_eq_range'] at pairs
  change _ = (rowPairs ((List.range (2 * 16)).map raster.rowPixels)).map _
  rw [pairs, List.map_map]
  exact List.map_congr_left (fun line _listed => (raster.pairLine_rowPixels line).symm)

/-! ### Pictures read back -/

theorem isOn_ofPixels (lit : Nat → Nat → Bool) (cell : Cell) :
    (ofPixels lit).isOn cell = lit cell.column.val cell.row.val := by
  have inRow := cell.column.isLt
  have column : cell.place.val % 64 = cell.column.val := by
    simp only [Cell.place]
    omega
  have row : cell.place.val / 64 = cell.row.val := by
    simp only [Cell.place]
    omega
  simp [isOn, ofPixels, column, row]

theorem pixel_of_cell (cell : Cell) :
    raster.pixel cell.column.val cell.row.val = raster.isOn cell := by
  unfold pixel Cell.wrap
  simp only [Nat.mod_eq_of_lt cell.column.isLt, Nat.mod_eq_of_lt cell.row.isLt]

theorem eq_ofPixels (lit : Nat → Nat → Bool)
    (same : ∀ column row, column < 64 → row < 32 → lit column row = raster.pixel column row) :
    ofPixels lit = raster := by
  apply eq_of_isOn_eq
  intro cell
  rw [isOn_ofPixels, same _ _ cell.column.isLt cell.row.isLt, pixel_of_cell]

theorem ofPlainPicture_plainPicture : ofPlainPicture raster.plainPicture = raster := by
  apply eq_ofPixels
  intro column row inRow inRaster
  have line : (linesOf raster.plainPicture)[row]? = some (raster.plainLine row) := by
    rw [linesOf_plainPicture, List.getElem?_map, List.getElem?_range inRaster, Option.map_some]
  have shown := raster.plainlyShown_plainPicture.pixels row _ line column inRow
  have block : characterAt? (linesOf raster.plainPicture) column row = some '█' ↔
      raster.pixel column row = true := by
    rw [characterAt?, line, Option.bind_some,
      ← getElem?_rightpad_eq_some_iff _ 64 column '█' (by decide), shown]
    cases raster.pixel column row <;> simp
  rw [Bool.eq_iff_iff, decide_eq_true_iff]
  exact block

theorem fillsUpperHalf_halfBlockCharacter (upper lower : Bool) :
    fillsUpperHalf (halfBlockCharacter upper lower) = upper := by
  cases upper <;> cases lower <;> decide

theorem fillsLowerHalf_halfBlockCharacter (upper lower : Bool) :
    fillsLowerHalf (halfBlockCharacter upper lower) = lower := by
  cases upper <;> cases lower <;> decide

theorem ofCompactPicture_compactPicture : ofCompactPicture raster.compactPicture = raster := by
  apply eq_ofPixels
  intro column row inRow inRaster
  have inPicture : row / 2 < 16 := by omega
  have character : characterAt? raster.compactPicture column (row / 2) =
      some (halfBlockCharacter (raster.pixel column (2 * (row / 2)))
        (raster.pixel column (2 * (row / 2) + 1))) := by
    rw [characterAt?, compactPicture, List.getElem?_map, List.getElem?_range inPicture]
    exact raster.getElem?_compactLine (row / 2) column inRow
  rw [character, Option.any_some]
  by_cases even : row % 2 = 0
  · have upper : 2 * (row / 2) = row := by omega
    rw [if_pos even, fillsUpperHalf_halfBlockCharacter, upper]
  · have lower : 2 * (row / 2) + 1 = row := by omega
    rw [if_neg even, fillsLowerHalf_halfBlockCharacter, lower]

/-- Both pictures are faithful. They show every pixel in its place, the compact one taking
the rows two at a time; each of them is read back as the raster, tells it apart from all
others, and gives the other picture. -/
theorem pictures_are_faithful :
    raster.PlainlyShown raster.plainPicture ∧
      raster.CompactlyShown raster.compactPicture ∧
      raster.compactPicture =
        (rowPairs raster.pixelRows).map (fun pair => String.ofList (pairLine pair)) ∧
      ofPlainPicture raster.plainPicture = raster ∧
      ofCompactPicture raster.compactPicture = raster ∧
      (ofPlainPicture raster.plainPicture).compactPicture = raster.compactPicture ∧
      (ofCompactPicture raster.compactPicture).plainPicture = raster.plainPicture ∧
      ∀ other : Raster,
        (other.plainPicture = raster.plainPicture ↔ other = raster) ∧
          (other.compactPicture = raster.compactPicture ↔ other = raster) := by
  have plain := raster.ofPlainPicture_plainPicture
  have compact := raster.ofCompactPicture_compactPicture
  refine ⟨raster.plainlyShown_plainPicture, raster.compactlyShown_compactPicture,
    raster.compactPicture_eq_rowPairs, plain, compact, by rw [plain], by rw [compact], ?_⟩
  intro other
  constructor
  · constructor
    · intro same
      rw [← other.ofPlainPicture_plainPicture, same, plain]
    · intro same
      rw [same]
  · constructor
    · intro same
      rw [← other.ofCompactPicture_compactPicture, same, compact]
    · intro same
      rw [same]

example : ((blank.blit 0 0 [0xC0, 0xA0]).raster.compactLine 0).toList.take 4 =
    ['█', '▀', '▄', ' '] := by
  decide +kernel

end Raster

end Chip8
