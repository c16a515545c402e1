import Chip8.Word

set_option autoImplicit false

/-! How an instruction moves the program counter. Addresses are sixteen bits
wide and a move past the last one starts again at zero. -/

namespace Chip8

inductive ProgramMove where
  | stay
  | next
  | skip
  | jump (target : Word)
  deriving DecidableEq, Repr

namespace ProgramMove

def skipIf (condition : Bool) : ProgramMove :=
  if condition then .skip else .next

def apply (programCounter : Word) : ProgramMove → Word
  | stay => programCounter
  | next => programCounter + 2
  | skip => programCounter + 4
  | jump target => target

theorem toNat_apply_skipIf (programCounter : Word) (condition : Bool) :
    ((skipIf condition).apply programCounter).toNat =
      (programCounter.toNat + if condition then 4 else 2) % 65536 := by
  cases condition <;> simp [skipIf, apply, UInt16.toNat_add]

end ProgramMove

end Chip8
