import Chip8.Machine
import Chip8.ProgramCounter

set_option autoImplicit false

/-! What each instruction does. An instruction is executed on the whole state and
leaves a state behind whether it succeeds or fails; how the program counter
moves is left to the step. Every instruction that can fail checks before it
writes, so the state that a failure leaves is the one it found. -/

namespace Chip8

inductive Operation where
  | quiet
  | wait
  | draw
  deriving DecidableEq, Repr

structure Progress where
  move : ProgramMove
  operation : Operation
  deriving DecidableEq, Repr

structure Effect (Pad : Type) where
  /-- The state the instruction leaves, also if it failed. -/
  machine : Machine Pad
  outcome : Except FaultCause Progress
  journal : List JournalEntry

namespace Effect

variable {Pad : Type}

def next (machine : Machine Pad) : Effect Pad :=
  ⟨machine, .ok ⟨.next, .quiet⟩, []⟩

def skipIf (machine : Machine Pad) (condition : Bool) : Effect Pad :=
  ⟨machine, .ok ⟨.skipIf condition, .quiet⟩, []⟩

def jump (machine : Machine Pad) (target : Word) (journal : List JournalEntry) : Effect Pad :=
  ⟨machine, .ok ⟨.jump target, .quiet⟩, journal⟩

def fail (machine : Machine Pad) (cause : FaultCause) : Effect Pad :=
  ⟨machine, .error cause, []⟩

/-- The effect of an instruction that needs a range of the memory: what is to be
done once the range was granted. -/
def onRange {Granted : Type} (machine : Machine Pad) (asked : Except OutOfRange Granted)
    (effect : Granted → Effect Pad) : Effect Pad :=
  match asked with
  | .error range => .fail machine (.outOfRange range)
  | .ok granted => effect granted

end Effect

/-! ### Byte arithmetic with flags -/

def flagByte (condition : Bool) : Byte :=
  if condition then 1 else 0

def decimalDigits (value : Byte) : List Byte :=
  [value / 100, value / 10 % 10, value % 10]

def Address.toWord (address : Address) : Word :=
  UInt16.ofNat address.val

def glyphAddress (value : Byte) : Word :=
  UInt16.ofNat (glyphSize * (value.toNat % 16))

namespace Machine

variable {Pad : Type}

def firstRegisters (machine : Machine Pad) (last : Register) : List Byte :=
  machine.registers.toList.take (last.val + 1)

def setFirstRegisters (machine : Machine Pad) (values : List Byte) : Machine Pad :=
  { machine with
    registers := Vector.ofFn (fun number : Register =>
      (values[number.val]?).getD (machine.register number)) }

def store (machine : Machine Pad) (content : List Byte) : Effect Pad :=
  .onRange machine (machine.memory.load machine.index.toNat content)
    (fun memory => .next { machine with memory := memory })

def executeReturn (machine : Machine Pad) : Effect Pad :=
  match machine.stack.pop? with
  | none => .fail machine .stackEmpty
  | some (target, stack) => .jump { machine with stack := stack } target [.returning target]

/-- The return address is that of the instruction after the call. -/
def executeCall (machine : Machine Pad) (target : Address) : Effect Pad :=
  match machine.stack.push? (ProgramMove.next.apply machine.programCounter) with
  | none => .fail machine .stackFull
  | some stack =>
      .jump { machine with stack := stack } (Address.toWord target)
        [.calling target stack.depth]

/-- The place is read before the flag register is written. -/
def drawSprite (machine : Machine Pad) (column row : Register) (sprite : List Byte) :
    Effect Pad :=
  let drawing := machine.raster.blit
    (machine.register column).toNat (machine.register row).toNat sprite
  let drawn := { machine with raster := drawing.raster }
  ⟨drawn.setRegister flagRegister (flagByte drawing.collision), .ok ⟨.next, .draw⟩, []⟩

def executeDraw (machine : Machine Pad) (column row : Register) (height : Nibble) :
    Effect Pad :=
  .onRange machine (machine.memory.slice machine.index.toNat height.val)
    (machine.drawSprite column row)

def executeLoad (machine : Machine Pad) (last : Register) : Effect Pad :=
  .onRange machine (machine.memory.slice machine.index.toNat (last.val + 1))
    (fun values => .next (machine.setFirstRegisters values))

variable [Keypad Pad]

def executeKeySkip (machine : Machine Pad) (tested : Register) (wanted : Bool) : Effect Pad :=
  let answer := Keypad.isDown machine.keypad (machine.register tested)
  .skipIf { machine with keypad := answer.2 } (answer.1 == wanted)

/-- A press from before the wait does not count and is taken away. -/
def executeAwait (machine : Machine Pad) (target : Register) : Effect Pad :=
  let answer := Keypad.takePress machine.keypad
  { machine := { machine with keypad := answer.2, clock := .awaitingKey target }
    outcome := .ok ⟨.stay, .wait⟩
    journal := [.waitingForKey target] }

def execute (machine : Machine Pad) : Instruction → Effect Pad
  | .machineRoutine target => ⟨machine, .ok ⟨.next, .quiet⟩, [.routineIgnored target]⟩
  | .clearScreen => ⟨{ machine with raster := .blank }, .ok ⟨.next, .draw⟩, []⟩
  | .returnFromCall => machine.executeReturn
  | .jump target => .jump machine (Address.toWord target) []
  | .call target => machine.executeCall target
  | .skipIfByte left value => .skipIf machine (machine.register left == value)
  | .skipUnlessByte left value => .skipIf machine (machine.register left != value)
  | .skipIfSame left right => .skipIf machine (machine.register left == machine.register right)
  | .setByte target value => .next (machine.setRegister target value)
  | .addByte target value => .next (machine.setRegister target (machine.register target + value))
  | .copy target source => .next (machine.setRegister target (machine.register source))
  | .bitOr target source =>
      .next (machine.setRegister target (machine.register target ||| machine.register source))
  | .bitAnd target source =>
      .next (machine.setRegister target (machine.register target &&& machine.register source))
  | .bitXor target source =>
      .next (machine.setRegister target (machine.register target ^^^ machine.register source))
  | .add target source =>
      let left := machine.register target
      let right := machine.register source
      .next (machine.setResult target (left + right)
        (flagByte (256 ≤ left.toNat + right.toNat)))
  | .subtract target source =>
      let left := machine.register target
      let right := machine.register source
      .next (machine.setResult target (left - right) (flagByte (right < left)))
  | .shiftRight target _ =>
      let value := machine.register target
      .next (machine.setResult target (value >>> 1) (value &&& 0x01))
  | .subtractFrom target source =>
      let left := machine.register source
      let right := machine.register target
      .next (machine.setResult target (left - right) (flagByte (right < left)))
  | .shiftLeft target _ =>
      -- The flag is the bit that is shifted out, at its own place.
      let value := machine.register target
      .next (machine.setResult target (value <<< 1) (value &&& 0x80))
  | .skipUnlessSame left right =>
      .skipIf machine (machine.register left != machine.register right)
  | .setIndex target => .next { machine with index := Address.toWord target }
  | .jumpOffset base =>
      let target := Address.toWord base + (machine.register 0).toUInt16
      .jump machine target [.jumping target]
  | .random target mask =>
      let drawn := { machine with random := machine.random.advance }
      .next (drawn.setRegister target (machine.random.next &&& mask))
  | .draw column row height => machine.executeDraw column row height
  | .skipIfDown tested => machine.executeKeySkip tested true
  | .skipUnlessDown tested => machine.executeKeySkip tested false
  | .readDelay target => .next (machine.setRegister target machine.delay.value)
  | .awaitKey target => machine.executeAwait target
  | .writeDelay source => .next { machine with delay := ⟨machine.register source⟩ }
  | .writeSound source => .next { machine with sound := ⟨machine.register source⟩ }
  | .addToIndex source =>
      .next { machine with index := machine.index + (machine.register source).toUInt16 }
  | .pointAtGlyph source =>
      .next { machine with index := glyphAddress (machine.register source) }
  | .storeDecimal source => machine.store (decimalDigits (machine.register source))
  | .storeRegisters last => machine.store (machine.firstRegisters last)
  | .loadRegisters last => machine.executeLoad last

theorem length_firstRegisters {Pad : Type} (machine : Machine Pad) (last : Register) :
    (machine.firstRegisters last).length = last.val + 1 := by
  have bound := last.isLt
  simp only [firstRegisters, List.length_take, Vector.length_toList]
  omega

/-! ### Failures write nothing -/

end Machine

theorem Effect.onRange_of_failed {Pad Granted : Type} (machine : Machine Pad)
    (asked : Except OutOfRange Granted) (effect : Granted → Effect Pad) (cause : FaultCause)
    (succeeds : ∀ granted, ∃ progress, (effect granted).outcome = .ok progress)
    (failed : (Effect.onRange machine asked effect).outcome = .error cause) :
    (Effect.onRange machine asked effect).machine = machine := by
  unfold onRange at failed ⊢
  cases asked with
  | error range => rfl
  | ok granted =>
      obtain ⟨progress, succeeded⟩ := succeeds granted
      rw [succeeded] at failed
      cases failed

namespace Machine

variable {Pad : Type} [Keypad Pad]

theorem execute_of_failed (machine : Machine Pad) (instruction : Instruction) (cause : FaultCause)
    (failed : (machine.execute instruction).outcome = .error cause) :
    (machine.execute instruction).machine = machine := by
  cases instruction
  case returnFromCall =>
    simp only [execute, executeReturn] at failed ⊢
    cases popped : machine.stack.pop? with
    | none => rfl
    | some entry =>
        rw [popped] at failed
        cases failed
  case call target =>
    simp only [execute, executeCall] at failed ⊢
    cases pushed : machine.stack.push? (ProgramMove.next.apply machine.programCounter) with
    | none => rfl
    | some stack =>
        rw [pushed] at failed
        cases failed
  case draw column row height =>
    exact Effect.onRange_of_failed machine _ _ cause (fun _sprite => ⟨_, rfl⟩) failed
  case storeDecimal source =>
    exact Effect.onRange_of_failed machine _ _ cause (fun _memory => ⟨_, rfl⟩) failed
  case storeRegisters last =>
    exact Effect.onRange_of_failed machine _ _ cause (fun _memory => ⟨_, rfl⟩) failed
  case loadRegisters last =>
    exact Effect.onRange_of_failed machine _ _ cause (fun _values => ⟨_, rfl⟩) failed
  all_goals cases failed

end Machine

end Chip8
