import Chip8.Keyboard

set_option autoImplicit false

/-! The keypad as the machine sees it: something that can be asked whether a key
is down and for the press that came last. The keyboard is one. Another answers
from a script, and a third passes every question on and writes it down, so that
the questions of a run are data. -/

namespace Chip8

/-- A key is asked for by a whole byte, and a press is answered by a whole
byte. -/
class Keypad (Pad : Type) where
  isDown : Pad → Byte → Bool × Pad
  takePress : Pad → Option Byte × Pad

instance : Keypad Keyboard where
  isDown keyboard key := (keyboard.isDown key.toNat, keyboard)
  takePress keyboard :=
    (keyboard.pendingPress.map (fun key => UInt8.ofNat key.val), keyboard.withoutPress)

structure ScriptedKeypad where
  down : List Byte
  presses : List (Option Byte)
  deriving DecidableEq, Repr

instance : Keypad ScriptedKeypad where
  isDown pad key := (pad.down.contains key, pad)
  takePress pad :=
    match pad.presses with
    | [] => (none, pad)
    | answer :: later => (answer, { pad with presses := later })

inductive KeypadQuestion where
  | isDown (key : Byte)
  | takePress
  deriving DecidableEq, Repr

/-- A keypad together with the questions it was asked, latest first. -/
structure RecordedKeypad (Pad : Type) where
  pad : Pad
  questions : List KeypadQuestion

instance {Pad : Type} [Keypad Pad] : Keypad (RecordedKeypad Pad) where
  isDown recorded key :=
    let answer := Keypad.isDown recorded.pad key
    (answer.1, ⟨answer.2, .isDown key :: recorded.questions⟩)
  takePress recorded :=
    let answer := Keypad.takePress recorded.pad
    (answer.1, ⟨answer.2, .takePress :: recorded.questions⟩)

namespace RecordedKeypad

variable {Pad : Type}

def ofPad (pad : Pad) : RecordedKeypad Pad := ⟨pad, []⟩

def asked (recorded : RecordedKeypad Pad) : List KeypadQuestion :=
  recorded.questions.reverse

def forget (recorded : RecordedKeypad Pad) : RecordedKeypad Pad :=
  ⟨recorded.pad, []⟩

end RecordedKeypad

end Chip8
