import Chip8.Raster

set_option autoImplicit false

/-! Two pictures of the raster as text. The plain picture has a full block for
every pixel that is on and drops the blanks at the end of a line. The compact
picture puts two rows of pixels into one line, by characters that fill the
upper half, the lower half or all of their cell. -/

namespace Chip8

/-- A line without the blanks at its end. -/
def trimBlanks (line : List Char) : List Char :=
  (line.reverse.dropWhile (fun character => character = ' ')).reverse

def blockCharacter (lit : Bool) : Char :=
  if lit then '█' else ' '

def halfBlockCharacter (upper lower : Bool) : Char :=
  match upper, lower with
  | true, true => '█'
  | true, false => '▀'
  | false, true => '▄'
  | false, false => ' '

namespace Raster

def rowPixels (raster : Raster) (row : Nat) : List Bool :=
  (List.range 64).map (fun column => raster.pixel column row)

def pixelRows (raster : Raster) : List (List Bool) :=
  (List.range 32).map raster.rowPixels

def plainLine (raster : Raster) (row : Nat) : String :=
  String.ofList (trimBlanks ((raster.rowPixels row).map blockCharacter))

/-- The plain picture, without a line end after the last line. -/
def plainPicture (raster : Raster) : String :=
  String.intercalate "\n" ((List.range 32).map raster.plainLine)

def compactLine (raster : Raster) (line : Nat) : String :=
  String.ofList ((List.range 64).map (fun column =>
    halfBlockCharacter (raster.pixel column (2 * line)) (raster.pixel column (2 * line + 1))))

def compactPicture (raster : Raster) : List String :=
  (List.range 16).map raster.compactLine

end Raster

end Chip8
