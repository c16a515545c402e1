import Chip8.Machine
import Chip8.MemoryDump

set_option autoImplicit false

/-! The dump of a whole machine, shown after a fault: a section for every part
of the state, the memory last. -/

namespace Chip8

def Clock.text : Clock → String
  | running => "Running"
  | awaitingKey register => "Awaiting key into V" ++ hexDigitText register.val

namespace Machine

variable {Pad : Type}

def timersText (machine : Machine Pad) : String :=
  "Delay " ++ toString machine.delay.value.toNat ++ ", Sound " ++
    toString machine.sound.value.toNat

def registersText (machine : Machine Pad) : String :=
  valueDump 2 (machine.registers.toList.map UInt8.toNat)

def stackText (machine : Machine Pad) : String :=
  match machine.stack.oldestFirst with
  | [] => indentation 2 ++ "empty"
  | returns => valueDump 2 (returns.map UInt16.toNat)

def titled (heading text : String) : List String :=
  [indentation 1 ++ heading ++ " :", text]

def dumpLines (machine : Machine Pad) : List String :=
  ["Chipset \x7b"] ++
  titled "State" (indentation 2 ++ machine.clock.text) ++
  titled "Opcode" (indentation 2 ++ hexText 4 machine.lastWord.toNat) ++
  titled "Program Counter" (indentation 2 ++ hexText 4 machine.programCounter.toNat) ++
  titled "Index Register" (indentation 2 ++ hexText 4 machine.index.toNat) ++
  titled "Timers" (indentation 2 ++ machine.timersText) ++
  titled "Register" machine.registersText ++
  titled "Stack" machine.stackText ++
  titled "Memory" (machine.memory.dump 2) ++
  ["\x7d"]

def dump (machine : Machine Pad) : String :=
  joinLines machine.dumpLines

end Machine

end Chip8
