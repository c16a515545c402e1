import Chip8.HexadecimalText
import Chip8.Machine

set_option autoImplicit false

/-! The line that a front end shows below the raster. -/

namespace Chip8

/-- A decimal number with blanks before it, so that it takes three places at
least. -/
def alignedNumber (value : Nat) : String :=
  String.ofList (List.replicate (3 - (toString value).length) ' ') ++ toString value

def Status.line (status : Status) : String :=
  "PC " ++ hexText 4 status.programCounter.toNat ++
    "  DT " ++ alignedNumber status.delay.toNat ++
    "  ST " ++ alignedNumber status.sound.toNat

end Chip8
