import Chip8.Word

set_option autoImplicit false

/-! Random bytes as an endless stream and the place reached in it. Every request
uses up exactly one byte. -/

namespace Chip8

structure RandomSource where
  stream : Nat → Byte
  position : Nat

namespace RandomSource

/-- The bytes of a list over and over, and zeros for an empty list. -/
def repeating (bytes : Array Byte) : RandomSource :=
  { stream := fun position => bytes.getD (position % bytes.size) 0
    position := 0 }

def next (source : RandomSource) : Byte :=
  source.stream source.position

def advance (source : RandomSource) : RandomSource :=
  { source with position := source.position + 1 }

end RandomSource

end Chip8
