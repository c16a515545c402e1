import Chip8.Word

set_option autoImplicit false

/-! The instruction set. Thirty five forms cover part of the sixteen bit words;
the other words stand for no instruction, and `decode` says which they are. A
register operand is one digit, so an instruction never names a register that
does not exist, and a jump target is one of the twelve bit addresses. -/

namespace Chip8

inductive Instruction where
  /-- A routine in native machine code, which is skipped. -/
  | machineRoutine (target : Address)
  | clearScreen
  | returnFromCall
  | jump (target : Address)
  | call (target : Address)
  | skipIfByte (register : Register) (value : Byte)
  | skipUnlessByte (register : Register) (value : Byte)
  | skipIfSame (left right : Register)
  | setByte (register : Register) (value : Byte)
  | addByte (register : Register) (value : Byte)
  | copy (target source : Register)
  | bitOr (target source : Register)
  | bitAnd (target source : Register)
  | bitXor (target source : Register)
  | add (target source : Register)
  | subtract (target source : Register)
  /-- The second register is named by the word and has no part in the shift. -/
  | shiftRight (target ignored : Register)
  | subtractFrom (target source : Register)
  | shiftLeft (target ignored : Register)
  | skipUnlessSame (left right : Register)
  | setIndex (target : Address)
  | jumpOffset (base : Address)
  | random (register : Register) (mask : Byte)
  | draw (column row : Register) (height : Nibble)
  | skipIfDown (register : Register)
  | skipUnlessDown (register : Register)
  | readDelay (register : Register)
  | awaitKey (register : Register)
  | writeDelay (register : Register)
  | writeSound (register : Register)
  | addToIndex (register : Register)
  | pointAtGlyph (register : Register)
  | storeDecimal (register : Register)
  | storeRegisters (last : Register)
  | loadRegisters (last : Register)
  deriving DecidableEq, Repr

namespace Instruction

def decodeArithmetic (word : Word) : Option Instruction :=
  match word.digit.val with
  | 0x0 => some (.copy word.first word.second)
  | 0x1 => some (.bitOr word.first word.second)
  | 0x2 => some (.bitAnd word.first word.second)
  | 0x3 => some (.bitXor word.first word.second)
  | 0x4 => some (.add word.first word.second)
  | 0x5 => some (.subtract word.first word.second)
  | 0x6 => some (.shiftRight word.first word.second)
  | 0x7 => some (.subtractFrom word.first word.second)
  | 0xE => some (.shiftLeft word.first word.second)
  | _ => none

/-- The last family is told apart by the low byte. -/
def decodeMiscellany (word : Word) : Option Instruction :=
  match word.lowByte.toNat with
  | 0x07 => some (.readDelay word.first)
  | 0x0A => some (.awaitKey word.first)
  | 0x15 => some (.writeDelay word.first)
  | 0x18 => some (.writeSound word.first)
  | 0x1E => some (.addToIndex word.first)
  | 0x29 => some (.pointAtGlyph word.first)
  | 0x33 => some (.storeDecimal word.first)
  | 0x55 => some (.storeRegisters word.first)
  | 0x65 => some (.loadRegisters word.first)
  | _ => none

def decode (word : Word) : Option Instruction :=
  match word.family.val with
  | 0x0 =>
      if word.address.val = 0x0E0 then some .clearScreen
      else if word.address.val = 0x0EE then some .returnFromCall
      else some (.machineRoutine word.address)
  | 0x1 => some (.jump word.address)
  | 0x2 => some (.call word.address)
  | 0x3 => some (.skipIfByte word.first word.lowByte)
  | 0x4 => some (.skipUnlessByte word.first word.lowByte)
  | 0x5 => if word.digit.val = 0 then some (.skipIfSame word.first word.second) else none
  | 0x6 => some (.setByte word.first word.lowByte)
  | 0x7 => some (.addByte word.first word.lowByte)
  | 0x8 => decodeArithmetic word
  | 0x9 => if word.digit.val = 0 then some (.skipUnlessSame word.first word.second) else none
  | 0xA => some (.setIndex word.address)
  | 0xB => some (.jumpOffset word.address)
  | 0xC => some (.random word.first word.lowByte)
  | 0xD => some (.draw word.first word.second word.digit)
  | 0xE =>
      if word.lowByte.toNat = 0x9E then some (.skipIfDown word.first)
      else if word.lowByte.toNat = 0xA1 then some (.skipUnlessDown word.first)
      else none
  | 0xF => decodeMiscellany word
  | _ => none

/-! ### The word of an instruction -/

def addressWord (family : Nat) (target : Address) : Word :=
  UInt16.ofNat (4096 * family + target.val)

def byteWord (family : Nat) (register : Register) (value : Byte) : Word :=
  UInt16.ofNat (4096 * family + 256 * register.val + value.toNat)

def pairWord (family : Nat) (left right : Register) (digit : Nat) : Word :=
  UInt16.ofNat (4096 * family + 256 * left.val + 16 * right.val + digit)

def encode : Instruction → Word
  | machineRoutine target => addressWord 0x0 target
  | clearScreen => 0x00E0
  | returnFromCall => 0x00EE
  | jump target => addressWord 0x1 target
  | call target => addressWord 0x2 target
  | skipIfByte register value => byteWord 0x3 register value
  | skipUnlessByte register value => byteWord 0x4 register value
  | skipIfSame left right => pairWord 0x5 left right 0x0
  | setByte register value => byteWord 0x6 register value
  | addByte register value => byteWord 0x7 register value
  | copy target source => pairWord 0x8 target source 0x0
  | bitOr target source => pairWord 0x8 target source 0x1
  | bitAnd target source => pairWord 0x8 target source 0x2
  | bitXor target source => pairWord 0x8 target source 0x3
  | add target source => pairWord 0x8 target source 0x4
  | subtract target source => pairWord 0x8 target source 0x5
  | shiftRight target ignored => pairWord 0x8 target ignored 0x6
  | subtractFrom target source => pairWord 0x8 target source 0x7
  | shiftLeft target ignored => pairWord 0x8 target ignored 0xE
  | skipUnlessSame left right => pairWord 0x9 left right 0x0
  | setIndex target => addressWord 0xA target
  | jumpOffset base => addressWord 0xB base
  | random register mask => byteWord 0xC register mask
  | draw column row height => pairWord 0xD column row height.val
  | skipIfDown register => byteWord 0xE register 0x9E
  | skipUnlessDown register => byteWord 0xE register 0xA1
  | readDelay register => byteWord 0xF register 0x07
  | awaitKey register => byteWord 0xF register 0x0A
  | writeDelay register => byteWord 0xF register 0x15
  | writeSound register => byteWord 0xF register 0x18
  | addToIndex register => byteWord 0xF register 0x1E
  | pointAtGlyph register => byteWord 0xF register 0x29
  | storeDecimal register => byteWord 0xF register 0x33
  | storeRegisters last => byteWord 0xF last 0x55
  | loadRegisters last => byteWord 0xF last 0x65

private theorem eq_addressWord (word : Word) (family : Nat)
    (atFamily : word.family.val = family) : word = addressWord family word.address := by
  apply UInt16.toNat_inj.mp
  have bound := word.toNat_lt
  have digits := word.toNat_eq_family_address
  simp only [addressWord, UInt16.toNat_ofNat', ← atFamily]
  omega

private theorem eq_byteWord (word : Word) (family : Nat)
    (atFamily : word.family.val = family) :
    word = byteWord family word.first word.lowByte := by
  apply UInt16.toNat_inj.mp
  have bound := word.toNat_lt
  have low := word.lowByte_toNat
  simp only [byteWord, UInt16.toNat_ofNat', low, ← atFamily, Word.family, Word.first]
  omega

private theorem eq_pairWord (word : Word) (family digit : Nat)
    (atFamily : word.family.val = family) (atDigit : word.digit.val = digit) :
    word = pairWord family word.first word.second digit := by
  apply UInt16.toNat_inj.mp
  have bound := word.toNat_lt
  have digits := word.toNat_eq_digits
  simp only [pairWord, UInt16.toNat_ofNat', ← atFamily, ← atDigit]
  omega

private theorem eq_byteWord_of_low (word : Word) (family low : Nat)
    (atFamily : word.family.val = family) (atLow : word.lowByte.toNat = low) :
    word = byteWord family word.first (UInt8.ofNat low) := by
  have same := eq_byteWord word family atFamily
  rw [← atLow, UInt8.ofNat_toNat]
  exact same

/-- A word stands for one instruction at most, and that instruction is written
as this word: nothing about the word is lost by decoding it. -/
theorem encode_of_decode (word : Word) (instruction : Instruction)
    (decoded : decode word = some instruction) : instruction.encode = word := by
  unfold decode at decoded
  split at decoded
  case h_9 atFamily =>
    unfold decodeArithmetic at decoded
    split at decoded
    case h_10 => cases decoded
    all_goals
      rename_i atDigit
      cases decoded
      exact (eq_pairWord word _ _ atFamily atDigit).symm
  case h_1 atFamily =>
    split at decoded
    · rename_i atAddress
      cases decoded
      apply UInt16.toNat_inj.mp
      rw [word.toNat_eq_family_address, atFamily, atAddress]
      rfl
    · split at decoded
      · rename_i atAddress
        cases decoded
        apply UInt16.toNat_inj.mp
        rw [word.toNat_eq_family_address, atFamily, atAddress]
        rfl
      · cases decoded
        exact (eq_addressWord word _ atFamily).symm
  case h_6 atFamily =>
    split at decoded
    · rename_i atDigit
      cases decoded
      exact (eq_pairWord word _ _ atFamily atDigit).symm
    · cases decoded
  case h_10 atFamily =>
    split at decoded
    · rename_i atDigit
      cases decoded
      exact (eq_pairWord word _ _ atFamily atDigit).symm
    · cases decoded
  case h_14 atFamily =>
    cases decoded
    exact (eq_pairWord word _ _ atFamily rfl).symm
  case h_15 atFamily =>
    split at decoded
    · rename_i atLow
      cases decoded
      exact (eq_byteWord_of_low word _ _ atFamily atLow).symm
    · split at decoded
      · rename_i atLow
        cases decoded
        exact (eq_byteWord_of_low word _ _ atFamily atLow).symm
      · cases decoded
  case h_17 => cases decoded
  case h_16 atFamily =>
    unfold decodeMiscellany at decoded
    split at decoded
    case h_10 => cases decoded
    all_goals
      rename_i atLow
      cases decoded
      exact (eq_byteWord_of_low word _ _ atFamily atLow).symm
  case h_2 atFamily => cases decoded; exact (eq_addressWord word _ atFamily).symm
  case h_3 atFamily => cases decoded; exact (eq_addressWord word _ atFamily).symm
  case h_4 atFamily => cases decoded; exact (eq_byteWord word _ atFamily).symm
  case h_5 atFamily => cases decoded; exact (eq_byteWord word _ atFamily).symm
  case h_7 atFamily => cases decoded; exact (eq_byteWord word _ atFamily).symm
  case h_8 atFamily => cases decoded; exact (eq_byteWord word _ atFamily).symm
  case h_11 atFamily => cases decoded; exact (eq_addressWord word _ atFamily).symm
  case h_12 atFamily => cases decoded; exact (eq_addressWord word _ atFamily).symm
  case h_13 atFamily => cases decoded; exact (eq_byteWord word _ atFamily).symm

end Instruction

end Chip8
