import Chip8.MachineHistory
import Chip8.RasterPicture

set_option autoImplicit false

/-! The machine without the help of types: lists of any length, places and
registers that are plain numbers. Every access to a list, every copy into one and
every sum is checked where it happens, and the first that goes wrong is a breach,
after which there is no machine. The executor follows the one on typed states
instruction by instruction and keeps no journal. -/

namespace Chip8

inductive Breach where
  | outsideList (place size : Nat)
  | outsideRange (start stop size : Nat)
  /-- A copy between stretches of different lengths. -/
  | unequalCopy (room length : Nat)
  | wideSum (left right : Nat)
  deriving DecidableEq, Repr

abbrev Checked (Value : Type) := Except Breach Value

namespace Checked

variable {Item : Type}

def get (items : List Item) (place : Nat) : Checked Item :=
  match items[place]? with
  | some item => .ok item
  | none => .error (.outsideList place items.length)

def set (items : List Item) (place : Nat) (item : Item) : Checked (List Item) :=
  if place < items.length then .ok (items.set place item)
  else .error (.outsideList place items.length)

/-- The items from `start` up to but not including `stop`. -/
def range (items : List Item) (start stop : Nat) : Checked (List Item) :=
  if start ≤ stop ∧ stop ≤ items.length then .ok ((items.drop start).take (stop - start))
  else .error (.outsideRange start stop items.length)

def copy (items : List Item) (start stop : Nat) (source : List Item) : Checked (List Item) := do
  let target ← range items start stop
  if target.length = source.length then .ok (items.take start ++ source ++ items.drop stop)
  else .error (.unequalCopy target.length source.length)

def sum (limit left right : Nat) : Checked Nat :=
  if left + right < limit then .ok (left + right) else .error (.wideSum left right)

/-- A sum of sixteen bits, as the program counter has. -/
def wordSum (left right : Nat) : Checked Nat :=
  sum 0x10000 left right

/-- A sum of sixty four bits, as places in a list have. -/
def placeSum (left right : Nat) : Checked Nat :=
  sum 0x10000000000000000 left right

/-- Puts content into a range of a memory, or refuses the range. -/
def replace (memory : List Byte) (start length : Nat) (content : Checked (List Byte)) :
    Checked (Except OutOfRange (List Byte)) :=
  if start + length ≤ memory.length then do
    let stop ← placeSum start length
    return .ok (← copy memory start stop (← content))
  else return .error ⟨start, length⟩

end Checked

/-- Rows of pixels, and whether a pixel was turned off so far. -/
structure CheckedDrawing where
  rows : List (List Bool)
  collision : Bool

namespace CheckedDrawing

def flip (drawing : CheckedDrawing) (column row : Nat) : Checked CheckedDrawing := do
  let pixels ← Checked.get drawing.rows row
  let wasOn ← Checked.get pixels column
  let flipped ← Checked.set pixels column (!wasOn)
  let rows ← Checked.set drawing.rows row flipped
  return ⟨rows, drawing.collision || wasOn⟩

/-- Turns over the pixels under the set bits at some places of a sprite's row. -/
def flipRow (drawing : CheckedDrawing) (column row : Nat) (bits : Byte) :
    List Nat → Checked CheckedDrawing
  | [] => .ok drawing
  | place :: later =>
      if bits.toNat.testBit (7 - place) then do
        let across ← Checked.placeSum column place
        let flipped ← drawing.flip (across % 64) row
        flipped.flipRow column row bits later
      else drawing.flipRow column row bits later

def flipRows (drawing : CheckedDrawing) (column row number : Nat) :
    List Byte → Checked CheckedDrawing
  | [] => .ok drawing
  | bits :: later => do
      let down ← Checked.placeSum row number
      let drawn ← drawing.flipRow column (down % 32) bits (List.range 8)
      drawn.flipRows column row (number + 1) later

end CheckedDrawing

structure CheckedMachine (Pad : Type) where
  lastWord : Word
  memory : List Byte
  registers : List Byte
  index : Word
  programCounter : Word
  stack : List Word
  delay : Countdown
  sound : Countdown
  rows : List (List Bool)
  keypad : Pad
  random : RandomSource
  awaiting : Option Nat

structure CheckedEffect (Pad : Type) where
  machine : CheckedMachine Pad
  outcome : Except FaultCause Progress

structure CheckedTurn (Pad : Type) where
  machine : CheckedMachine Pad
  outcome : Except Fault Operation

namespace CheckedMachine

variable {Pad : Type}

def start (program : List Byte) (keypad : Pad) (random : RandomSource) :
    Checked (Except OutOfRange (CheckedMachine Pad)) := do
  match ← Checked.replace (List.replicate 4096 0) 0 glyphs.length (.ok glyphs) with
  | .error range => return .error range
  | .ok glyphsOnly =>
      match ← Checked.replace glyphsOnly programStart program.length (.ok program) with
      | .error range => return .error range
      | .ok memory =>
          return .ok
            { lastWord := 0
              memory := memory
              registers := List.replicate 16 0
              index := 0
              programCounter := UInt16.ofNat programStart
              stack := []
              delay := ⟨0⟩
              sound := ⟨0⟩
              rows := List.replicate 32 (List.replicate 64 false)
              keypad := keypad
              random := random
              awaiting := none }

/-! ### Effects -/

def next (machine : CheckedMachine Pad) : Checked (CheckedEffect Pad) :=
  .ok ⟨machine, .ok ⟨.next, .quiet⟩⟩

def jump (machine : CheckedMachine Pad) (target : Word) : Checked (CheckedEffect Pad) :=
  .ok ⟨machine, .ok ⟨.jump target, .quiet⟩⟩

def fail (machine : CheckedMachine Pad) (cause : FaultCause) : Checked (CheckedEffect Pad) :=
  .ok ⟨machine, .error cause⟩

def skipIf (machine : CheckedMachine Pad) (condition : Bool) : Checked (CheckedEffect Pad) :=
  .ok ⟨machine, .ok ⟨.skipIf condition, .quiet⟩⟩

/-! ### Registers, memory and the program counter -/

def register (machine : CheckedMachine Pad) (number : Nat) : Checked Byte :=
  Checked.get machine.registers number

def setRegister (machine : CheckedMachine Pad) (number : Nat) (value : Byte) :
    Checked (CheckedMachine Pad) := do
  let registers ← Checked.set machine.registers number value
  return { machine with registers := registers }

def assign (machine : CheckedMachine Pad) (target : Nat) (value : Byte) :
    Checked (CheckedEffect Pad) := do
  let written ← machine.setRegister target value
  written.next

def assignResult (machine : CheckedMachine Pad) (target : Nat) (result flag : Byte) :
    Checked (CheckedEffect Pad) := do
  let written ← machine.setRegister target result
  let flagged ← written.setRegister 15 flag
  flagged.next

def slice (machine : CheckedMachine Pad) (length : Nat) :
    Checked (Except OutOfRange (List Byte)) :=
  let start := machine.index.toNat
  if start + length ≤ machine.memory.length then do
    let stop ← Checked.placeSum start length
    return .ok (← Checked.range machine.memory start stop)
  else return .error ⟨start, length⟩

def store (machine : CheckedMachine Pad) (length : Nat) (content : Checked (List Byte)) :
    Checked (CheckedEffect Pad) := do
  match ← Checked.replace machine.memory machine.index.toNat length content with
  | .error range => machine.fail (.outOfRange range)
  | .ok memory => next { machine with memory := memory }

def onRange (machine : CheckedMachine Pad) (length : Nat)
    (effect : List Byte → Checked (CheckedEffect Pad)) : Checked (CheckedEffect Pad) := do
  match ← machine.slice length with
  | .error range => machine.fail (.outOfRange range)
  | .ok granted => effect granted

def drawSprite (machine : CheckedMachine Pad) (column row : Nat) (sprite : List Byte) :
    Checked (CheckedEffect Pad) := do
  let across ← machine.register column
  let down ← machine.register row
  let start : CheckedDrawing := ⟨machine.rows, false⟩
  let drawn ← start.flipRows across.toNat down.toNat 0 sprite
  let shown := { machine with rows := drawn.rows }
  let flagged ← shown.setRegister 15 (flagByte drawn.collision)
  return ⟨flagged, .ok ⟨.next, .draw⟩⟩

def setFirstRegisters (machine : CheckedMachine Pad) (count : Nat) (values : List Byte) :
    Checked (CheckedEffect Pad) := do
  let registers ← Checked.copy machine.registers 0 count values
  next { machine with registers := registers }

def load (machine : CheckedMachine Pad) (last : Nat) : Checked (CheckedEffect Pad) := do
  let count ← Checked.placeSum last 1
  machine.onRange count (machine.setFirstRegisters count)

def move (machine : CheckedMachine Pad) : ProgramMove → Checked (CheckedMachine Pad)
  | .stay => .ok machine
  | .next => do
      let target ← Checked.wordSum machine.programCounter.toNat 2
      return { machine with programCounter := UInt16.ofNat target }
  | .skip => do
      let target ← Checked.wordSum machine.programCounter.toNat 4
      return { machine with programCounter := UInt16.ofNat target }
  | .jump target => .ok { machine with programCounter := target }

def resume (machine : CheckedMachine Pad) (target : Nat) (key : Byte) :
    Checked (CheckedMachine Pad) := do
  let written ← machine.setRegister target key
  move { written with awaiting := none } .next

def fetch (machine : CheckedMachine Pad) : Checked (Except OutOfRange Word) :=
  let place := machine.programCounter.toNat
  if place + 1 < machine.memory.length then do
    let high ← Checked.get machine.memory place
    let low ← Checked.get machine.memory (place + 1)
    return .ok (Word.ofBytes high low)
  else return .error ⟨place, 2⟩

/-! ### Instructions -/

def call (machine : CheckedMachine Pad) (target : Address) : Checked (CheckedEffect Pad) := do
  let back ← Checked.wordSum machine.programCounter.toNat 2
  if machine.stack.length < 16 then
    jump { machine with stack := UInt16.ofNat back :: machine.stack } (Address.toWord target)
  else machine.fail .stackFull

def returnFromCall (machine : CheckedMachine Pad) : Checked (CheckedEffect Pad) :=
  match machine.stack with
  | [] => machine.fail .stackEmpty
  | target :: earlier => jump { machine with stack := earlier } target

variable [Keypad Pad]

def keySkip (machine : CheckedMachine Pad) (tested : Nat) (wanted : Bool) :
    Checked (CheckedEffect Pad) := do
  let answer := Keypad.isDown machine.keypad (← machine.register tested)
  skipIf { machine with keypad := answer.2 } (answer.1 == wanted)

def execute (machine : CheckedMachine Pad) : Instruction → Checked (CheckedEffect Pad)
  | .machineRoutine _ => machine.next
  | .clearScreen =>
      let blank := machine.rows.map (fun pixels => pixels.map (fun _ => false))
      .ok ⟨{ machine with rows := blank }, .ok ⟨.next, .draw⟩⟩
  | .returnFromCall => machine.returnFromCall
  | .jump target => machine.jump (Address.toWord target)
  | .call target => machine.call target
  | .skipIfByte left value => do machine.skipIf ((← machine.register left) == value)
  | .skipUnlessByte left value => do machine.skipIf ((← machine.register left) != value)
  | .skipIfSame left right => do
      machine.skipIf ((← machine.register left) == (← machine.register right))
  | .setByte target value => machine.assign target value
  | .addByte target value => do machine.assign target ((← machine.register target) + value)
  | .copy target source => do machine.assign target (← machine.register source)
  | .bitOr target source => do
      machine.assign target ((← machine.register target) ||| (← machine.register source))
  | .bitAnd target source => do
      machine.assign target ((← machine.register target) &&& (← machine.register source))
  | .bitXor target source => do
      machine.assign target ((← machine.register target) ^^^ (← machine.register source))
  | .add target source => do
      let left ← machine.register target
      let right ← machine.register source
      machine.assignResult target (left + right) (flagByte (256 ≤ left.toNat + right.toNat))
  | .subtract target source => do
      let left ← machine.register target
      let right ← machine.register source
      machine.assignResult target (left - right) (flagByte (right < left))
  | .shiftRight target _ => do
      let value ← machine.register target
      machine.assignResult target (value >>> 1) (value &&& 0x01)
  | .subtractFrom target source => do
      let left ← machine.register source
      let right ← machine.register target
      machine.assignResult target (left - right) (flagByte (right < left))
  | .shiftLeft target _ => do
      let value ← machine.register target
      machine.assignResult target (value <<< 1) (value &&& 0x80)
  | .skipUnlessSame left right => do
      machine.skipIf ((← machine.register left) != (← machine.register right))
  | .setIndex target => next { machine with index := Address.toWord target }
  | .jumpOffset base => do
      let offset ← machine.register 0
      let target ← Checked.wordSum base.val offset.toNat
      machine.jump (UInt16.ofNat target)
  | .random target mask =>
      { machine with random := machine.random.advance }.assign target
        (machine.random.next &&& mask)
  | .draw column row height => machine.onRange height.val (machine.drawSprite column row)
  | .skipIfDown tested => machine.keySkip tested true
  | .skipUnlessDown tested => machine.keySkip tested false
  | .readDelay target => machine.assign target machine.delay.value
  | .awaitKey target =>
      let answer := Keypad.takePress machine.keypad
      .ok ⟨{ machine with keypad := answer.2, awaiting := some target.val }, .ok ⟨.stay, .wait⟩⟩
  | .writeDelay source => do next { machine with delay := ⟨← machine.register source⟩ }
  | .writeSound source => do next { machine with sound := ⟨← machine.register source⟩ }
  | .addToIndex source => do
      next { machine with index := machine.index + (← machine.register source).toUInt16 }
  | .pointAtGlyph source => do
      let glyph := glyphSize * ((← machine.register source).toNat % 16)
      next { machine with index := UInt16.ofNat (← Checked.placeSum 0 glyph) }
  | .storeDecimal source => do
      machine.store 3 (.ok (decimalDigits (← machine.register source)))
  | .storeRegisters last => do
      let count ← Checked.placeSum last.val 1
      machine.store count (Checked.range machine.registers 0 count)
  | .loadRegisters last => machine.load last

/-! ### Steps -/

def fault (machine : CheckedMachine Pad) (word : Option Word) (cause : FaultCause) : Fault :=
  ⟨machine.programCounter, word, cause⟩

def perform (machine : CheckedMachine Pad) (word : Word) (instruction : Instruction) :
    Checked (CheckedTurn Pad) := do
  let effect ← machine.execute instruction
  match effect.outcome with
  | .error cause => return ⟨effect.machine, .error (machine.fault (some word) cause)⟩
  | .ok progress => return ⟨← effect.machine.move progress.move, .ok progress.operation⟩

def performWord (machine : CheckedMachine Pad) (word : Word) : Checked (CheckedTurn Pad) :=
  let remembering := { machine with lastWord := word }
  match Instruction.decode word with
  | none => return ⟨remembering, .error (machine.fault (some word) (.unsupportedWord word))⟩
  | some instruction => remembering.perform word instruction

def pollKey (machine : CheckedMachine Pad) (target : Nat) : Checked (CheckedTurn Pad) := do
  let answer := Keypad.takePress machine.keypad
  let polled := { machine with keypad := answer.2 }
  match answer.1 with
  | none => return ⟨polled, .ok .wait⟩
  | some key =>
      return ⟨← polled.resume target key, .ok .quiet⟩

def step (machine : CheckedMachine Pad) : Checked (CheckedTurn Pad) := do
  match machine.awaiting with
  | some target => machine.pollKey target
  | none =>
      match ← machine.fetch with
      | .error range => return ⟨machine, .error (machine.fault none (.outOfRange range))⟩
      | .ok word => machine.performWord word

/-! ### Histories -/

def happen (machine : CheckedMachine Pad) : MachineEvent Pad → Checked (CheckedMachine Pad)
  | .step => do return (← machine.step).machine
  | .tickDelay => .ok { machine with delay := machine.delay.tickTimes 1 }
  | .tickSound => .ok { machine with sound := machine.sound.tickTimes 1 }
  | .keypad change => .ok { machine with keypad := change machine.keypad }

def after (machine : CheckedMachine Pad) : List (MachineEvent Pad) → Checked (CheckedMachine Pad)
  | [] => .ok machine
  | event :: later => do (← machine.happen event).after later

end CheckedMachine

/-! ### Typed states as plain ones -/

def Clock.awaiting : Clock → Option Nat
  | .running => none
  | .awaitingKey target => some target.val

def Memory.plain (memory : Memory) : List Byte :=
  memory.bytes.toList

def Drawing.plain (drawing : Drawing) : CheckedDrawing :=
  ⟨drawing.raster.pixelRows, drawing.collision⟩

def Machine.plain {Pad : Type} (machine : Machine Pad) : CheckedMachine Pad :=
  { lastWord := machine.lastWord
    memory := machine.memory.plain
    registers := machine.registers.toList
    index := machine.index
    programCounter := machine.programCounter
    stack := machine.stack.returns
    delay := machine.delay
    sound := machine.sound
    rows := machine.raster.pixelRows
    keypad := machine.keypad
    random := machine.random
    awaiting := machine.clock.awaiting }

def Effect.plain {Pad : Type} (effect : Effect Pad) : CheckedEffect Pad :=
  ⟨effect.machine.plain, effect.outcome⟩

def Turn.plain {Pad : Type} (turn : Turn Pad) : CheckedTurn Pad :=
  ⟨turn.machine.plain, turn.outcome⟩

end Chip8
