import Chip8.HexadecimalText
import Chip8.Instruction

set_option autoImplicit false

/-! The assembler text of an instruction: a name and the operands it is written
with. Several instructions share a name and differ in the kinds of their
operands only, so the operands are typed here before they become text. -/

namespace Chip8

inductive Operand where
  | register (register : Register)
  | byte (value : Byte)
  | word (value : Word)
  | address (target : Address)
  /-- A sprite height, the only number written in decimal. -/
  | height (rows : Nibble)
  | index
  | indexed
  | delayTimer
  | soundTimer
  | key
  | glyph
  | decimal
  deriving DecidableEq, Repr

namespace Operand

def text : Operand → String
  | register number => "V" ++ hexDigitText number.val
  | byte value => hexText 2 value.toNat
  | word value => hexText 4 value.toNat
  | address target => hexText 3 target.val
  | height rows => toString rows.val
  | index => "I"
  | indexed => "[I]"
  | delayTimer => "DT"
  | soundTimer => "ST"
  | key => "K"
  | glyph => "F"
  | decimal => "B"

end Operand

structure Statement where
  name : String
  operands : List Operand
  deriving DecidableEq, Repr

namespace Statement

def text (statement : Statement) : String :=
  match statement.operands with
  | [] => statement.name
  | operands => statement.name ++ " " ++ String.intercalate ", " (operands.map Operand.text)

end Statement

namespace Instruction

open Operand in
def statement : Instruction → Statement
  | machineRoutine target => ⟨"SYS", [address target]⟩
  | clearScreen => ⟨"CLS", []⟩
  | returnFromCall => ⟨"RET", []⟩
  | jump target => ⟨"JP", [address target]⟩
  | call target => ⟨"CALL", [address target]⟩
  | skipIfByte left value => ⟨"SE", [register left, byte value]⟩
  | skipUnlessByte left value => ⟨"SNE", [register left, byte value]⟩
  | skipIfSame left right => ⟨"SE", [register left, register right]⟩
  | setByte target value => ⟨"LD", [register target, byte value]⟩
  | addByte target value => ⟨"ADD", [register target, byte value]⟩
  | copy target source => ⟨"LD", [register target, register source]⟩
  | bitOr target source => ⟨"OR", [register target, register source]⟩
  | bitAnd target source => ⟨"AND", [register target, register source]⟩
  | bitXor target source => ⟨"XOR", [register target, register source]⟩
  | add target source => ⟨"ADD", [register target, register source]⟩
  | subtract target source => ⟨"SUB", [register target, register source]⟩
  | shiftRight target ignored => ⟨"SHR", [register target, register ignored]⟩
  | subtractFrom target source => ⟨"SUBN", [register target, register source]⟩
  | shiftLeft target ignored => ⟨"SHL", [register target, register ignored]⟩
  | skipUnlessSame left right => ⟨"SNE", [register left, register right]⟩
  | setIndex target => ⟨"LD", [index, address target]⟩
  | jumpOffset base => ⟨"JP", [register 0, address base]⟩
  | random target mask => ⟨"RND", [register target, byte mask]⟩
  | draw column row rows => ⟨"DRW", [register column, register row, height rows]⟩
  | skipIfDown tested => ⟨"SKP", [register tested]⟩
  | skipUnlessDown tested => ⟨"SKNP", [register tested]⟩
  | readDelay target => ⟨"LD", [register target, delayTimer]⟩
  | awaitKey target => ⟨"LD", [register target, key]⟩
  | writeDelay source => ⟨"LD", [delayTimer, register source]⟩
  | writeSound source => ⟨"LD", [soundTimer, register source]⟩
  | addToIndex source => ⟨"ADD", [index, register source]⟩
  | pointAtGlyph source => ⟨"LD", [glyph, register source]⟩
  | storeDecimal source => ⟨"LD", [decimal, register source]⟩
  | storeRegisters last => ⟨"LD", [indexed, register last]⟩
  | loadRegisters last => ⟨"LD", [register last, indexed]⟩

end Instruction

open Operand in
def Statement.instruction? : Statement → Option Instruction
  | ⟨"SYS", [address target]⟩ => some (.machineRoutine target)
  | ⟨"CLS", []⟩ => some .clearScreen
  | ⟨"RET", []⟩ => some .returnFromCall
  | ⟨"JP", [address target]⟩ => some (.jump target)
  | ⟨"JP", [register 0, address base]⟩ => some (.jumpOffset base)
  | ⟨"CALL", [address target]⟩ => some (.call target)
  | ⟨"SE", [register left, byte value]⟩ => some (.skipIfByte left value)
  | ⟨"SE", [register left, register right]⟩ => some (.skipIfSame left right)
  | ⟨"SNE", [register left, byte value]⟩ => some (.skipUnlessByte left value)
  | ⟨"SNE", [register left, register right]⟩ => some (.skipUnlessSame left right)
  | ⟨"ADD", [register target, byte value]⟩ => some (.addByte target value)
  | ⟨"ADD", [register target, register source]⟩ => some (.add target source)
  | ⟨"ADD", [index, register source]⟩ => some (.addToIndex source)
  | ⟨"OR", [register target, register source]⟩ => some (.bitOr target source)
  | ⟨"AND", [register target, register source]⟩ => some (.bitAnd target source)
  | ⟨"XOR", [register target, register source]⟩ => some (.bitXor target source)
  | ⟨"SUB", [register target, register source]⟩ => some (.subtract target source)
  | ⟨"SHR", [register target, register ignored]⟩ => some (.shiftRight target ignored)
  | ⟨"SUBN", [register target, register source]⟩ => some (.subtractFrom target source)
  | ⟨"SHL", [register target, register ignored]⟩ => some (.shiftLeft target ignored)
  | ⟨"RND", [register target, byte mask]⟩ => some (.random target mask)
  | ⟨"DRW", [register column, register row, height rows]⟩ => some (.draw column row rows)
  | ⟨"SKP", [register tested]⟩ => some (.skipIfDown tested)
  | ⟨"SKNP", [register tested]⟩ => some (.skipUnlessDown tested)
  | ⟨"LD", [register target, byte value]⟩ => some (.setByte target value)
  | ⟨"LD", [register target, register source]⟩ => some (.copy target source)
  | ⟨"LD", [index, address target]⟩ => some (.setIndex target)
  | ⟨"LD", [register target, delayTimer]⟩ => some (.readDelay target)
  | ⟨"LD", [register target, key]⟩ => some (.awaitKey target)
  | ⟨"LD", [delayTimer, register source]⟩ => some (.writeDelay source)
  | ⟨"LD", [soundTimer, register source]⟩ => some (.writeSound source)
  | ⟨"LD", [glyph, register source]⟩ => some (.pointAtGlyph source)
  | ⟨"LD", [decimal, register source]⟩ => some (.storeDecimal source)
  | ⟨"LD", [indexed, register last]⟩ => some (.storeRegisters last)
  | ⟨"LD", [register last, indexed]⟩ => some (.loadRegisters last)
  | _ => none

namespace Instruction

def mnemonic (instruction : Instruction) : String :=
  instruction.statement.text

end Instruction

end Chip8
