import Chip8.CallStack
import Chip8.Countdown
import Chip8.Journal
import Chip8.Keypad
import Chip8.Memory
import Chip8.RandomSource
import Chip8.Raster

set_option autoImplicit false

/-! The state of the machine, and the state it starts in. The keypad and the
random bytes belong to the state, so a step is a function of the machine
alone. -/

namespace Chip8

inductive Clock where
  | running
  | awaitingKey (register : Register)
  deriving DecidableEq, Repr

structure Status where
  programCounter : Word
  delay : Byte
  sound : Byte
  deriving DecidableEq, Repr

structure Machine (Pad : Type) where
  lastWord : Word
  memory : Memory
  registers : Vector Byte 16
  index : Word
  programCounter : Word
  stack : CallStack
  delay : Countdown
  sound : Countdown
  raster : Raster
  keypad : Pad
  random : RandomSource
  clock : Clock

/-- Glyphs of five rows for the sixteen digits. -/
def glyphs : List Byte :=
  [ 0xF0, 0x90, 0x90, 0x90, 0xF0,
    0x20, 0x60, 0x20, 0x20, 0x70,
    0xF0, 0x10, 0xF0, 0x80, 0xF0,
    0xF0, 0x10, 0xF0, 0x10, 0xF0,
    0x90, 0x90, 0xF0, 0x10, 0x10,
    0xF0, 0x80, 0xF0, 0x10, 0xF0,
    0xF0, 0x80, 0xF0, 0x90, 0xF0,
    0xF0, 0x10, 0x20, 0x40, 0x40,
    0xF0, 0x90, 0xF0, 0x90, 0xF0,
    0xF0, 0x90, 0xF0, 0x10, 0xF0,
    0xF0, 0x90, 0xF0, 0x90, 0x90,
    0xE0, 0x90, 0xE0, 0x90, 0xE0,
    0xF0, 0x80, 0x80, 0x80, 0xF0,
    0xE0, 0x90, 0x90, 0x90, 0xE0,
    0xF0, 0x80, 0xF0, 0x80, 0xF0,
    0xF0, 0x80, 0xF0, 0x80, 0x80 ]

def glyphSize : Nat := 5

def programStart : Nat := 0x200

def glyphMemory : Memory :=
  Memory.blank.overwrite 0 glyphs

namespace Machine

variable {Pad : Type}

/-- A machine at the start of a program, or the range that the program would
need. -/
def load (program : List Byte) (keypad : Pad) (random : RandomSource) :
    Except OutOfRange (Machine Pad) :=
  (glyphMemory.load programStart program).map (fun memory =>
    { lastWord := 0
      memory := memory
      registers := Vector.replicate 16 0
      index := 0
      programCounter := UInt16.ofNat programStart
      stack := .empty
      delay := ⟨0⟩
      sound := ⟨0⟩
      raster := .blank
      keypad := keypad
      random := random
      clock := .running })

def loadJournal (program : List Byte) : List JournalEntry :=
  [.programLoaded program.length]

def register (machine : Machine Pad) (number : Register) : Byte :=
  machine.registers[number]

def setRegister (machine : Machine Pad) (number : Register) (value : Byte) : Machine Pad :=
  { machine with registers := machine.registers.set number.val value number.isLt }

def flagRegister : Register := 15

/-- Writes a result and then a flag, so the flag stays if both go to the flag
register. -/
def setResult (machine : Machine Pad) (number : Register) (result flag : Byte) : Machine Pad :=
  (machine.setRegister number result).setRegister flagRegister flag

def status (machine : Machine Pad) : Status :=
  { programCounter := machine.programCounter
    delay := machine.delay.value
    sound := machine.sound.value }

/-! ### Events from outside -/

def tickDelay (machine : Machine Pad) (ticks : Nat) : Machine Pad :=
  { machine with delay := machine.delay.tickTimes ticks }

def tickSound (machine : Machine Pad) (ticks : Nat) : Machine Pad :=
  { machine with sound := machine.sound.tickTimes ticks }

def changeKeypad (machine : Machine Pad) (change : Pad → Pad) : Machine Pad :=
  { machine with keypad := change machine.keypad }

def setTimers (machine : Machine Pad) (delay sound : Byte) : Machine Pad :=
  { machine with delay := ⟨delay⟩, sound := ⟨sound⟩ }

theorem register_setRegister (machine : Machine Pad) (number asked : Register) (value : Byte) :
    (machine.setRegister number value).register asked =
      if number = asked then value else machine.register asked := by
  unfold setRegister register
  by_cases same : number = asked
  · simp [same]
  · have different : number.val ≠ asked.val := fun equal => same (Fin.ext equal)
    simp [same, different]

/-- The flag wins over the result where both go to one register. -/
theorem register_setResult (machine : Machine Pad) (number asked : Register)
    (result flag : Byte) :
    (machine.setResult number result flag).register asked =
      if flagRegister = asked then flag
      else if number = asked then result else machine.register asked := by
  unfold setResult
  rw [register_setRegister, register_setRegister]

theorem load_ok_iff (program : List Byte) (keypad : Pad) (random : RandomSource) :
    (∃ machine, load program keypad random = .ok machine) ↔ program.length ≤ 3584 := by
  unfold load Memory.load checkRange Memory.size programStart
  by_cases fits : program.length ≤ 3584
  · have inside : 512 + program.length ≤ 4096 := by omega
    rw [if_pos inside]
    exact ⟨fun _started => fits, fun _fits => ⟨_, rfl⟩⟩
  · have outside : ¬ (512 + program.length ≤ 4096) := by omega
    rw [if_neg outside]
    constructor
    · intro ⟨machine, impossible⟩
      cases impossible
    · intro claimed
      exact absurd claimed fits

end Machine

end Chip8
