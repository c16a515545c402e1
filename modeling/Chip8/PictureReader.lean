import Chip8.DumpReader
import Chip8.RasterPicture

set_option autoImplicit false

/-! Pictures of the raster read back, pixel by pixel. A cell that a text has no character
for is off, so a line may be shorter than a row. -/

namespace Chip8

def fillsUpperHalf (character : Char) : Bool :=
  character = '█' ∨ character = '▀'

def fillsLowerHalf (character : Char) : Bool :=
  character = '█' ∨ character = '▄'

/-- The character at a place of a picture. -/
def characterAt? (lines : List String) (column line : Nat) : Option Char :=
  lines[line]?.bind (fun text => text.toList[column]?)

namespace Raster

def ofPixels (lit : Nat → Nat → Bool) : Raster :=
  ⟨Vector.ofFn (fun place => lit (place.val % 64) (place.val / 64))⟩

def ofPlainPicture (text : String) : Raster :=
  ofPixels (fun column row => characterAt? (linesOf text) column row = some '█')

def ofCompactPicture (lines : List String) : Raster :=
  ofPixels (fun column row =>
    (characterAt? lines column (row / 2)).any
      (if row % 2 = 0 then fillsUpperHalf else fillsLowerHalf))

end Raster

end Chip8
