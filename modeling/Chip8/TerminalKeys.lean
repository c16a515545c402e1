import Chip8.Keyboard

set_option autoImplicit false

/-! The keyboard of a terminal as the keyboard of the machine. Sixteen letters
and digits lie where the machine has its keys. A terminal tells when a key is
pressed and never when it is let go, so a press holds the key down for a fixed
time, and a repeated press of a key that is held only lengthens the hold. Times
are readings of a clock, which may tick any number of times in a millisecond. -/

namespace Chip8

inductive TerminalKey where
  | character (typed : Char)
  | escape
  | named
  deriving DecidableEq, Repr

def terminalLayout : List (Char × Nibble) :=
  [ ('1', 0x1), ('2', 0x2), ('3', 0x3), ('4', 0xC),
    ('q', 0x4), ('w', 0x5), ('e', 0x6), ('r', 0xD),
    ('a', 0x7), ('s', 0x8), ('d', 0x9), ('f', 0xE),
    ('z', 0xA), ('x', 0x0), ('c', 0xB), ('v', 0xF) ]

/-- The key of the machine that a key of the terminal stands for. Upper and
lower case are the same, for the letters of the English alphabet. -/
def TerminalKey.machineKey? : TerminalKey → Option Nibble
  | character typed => terminalLayout.lookup typed.toLower
  | escape => none
  | named => none

def holdMilliseconds : Nat := 150

structure KeyHold where
  keyboard : Keyboard
  /-- The keys that are held and the times they will be let go. -/
  held : List (Nat × Nat)
  stopped : Bool
  ticksPerMillisecond : Nat
  deriving DecidableEq

namespace KeyHold

def startAt (ticksPerMillisecond : Nat) (keyboard : Keyboard) : KeyHold :=
  ⟨keyboard, [], false, ticksPerMillisecond⟩

def start (keyboard : Keyboard) : KeyHold := startAt 1 keyboard

def releaseTime (hold : KeyHold) (now : Nat) : Nat :=
  now + holdMilliseconds * hold.ticksPerMillisecond

def isHeld (hold : KeyHold) (key : Nat) : Bool :=
  hold.held.any (fun entry => entry.1 == key)

def extend (hold : KeyHold) (key now : Nat) : KeyHold :=
  { hold with
    held := hold.held.map (fun entry =>
      if entry.1 = key then (key, hold.releaseTime now) else entry) }

def press (hold : KeyHold) (key now : Nat) : KeyHold :=
  if hold.isHeld key then hold.extend key now
  else
    { hold with
      keyboard := hold.keyboard.press key
      held := (key, hold.releaseTime now) :: hold.held }

def releaseExpired (hold : KeyHold) (now : Nat) : KeyHold :=
  let expired := hold.held.filter (fun entry => entry.2 ≤ now)
  { hold with
    keyboard := expired.foldl (fun keyboard entry => keyboard.release entry.1) hold.keyboard
    held := hold.held.filter (fun entry => now < entry.2) }

/-- Escape and control with a small c stop; any other key is a press of the key
it stands for. -/
def handle (hold : KeyHold) (key : TerminalKey) (control : Bool) (now : Nat) : KeyHold :=
  if key = .escape ∨ (key = .character 'c' ∧ control = true) then { hold with stopped := true }
  else
    match key.machineKey? with
    | some number => hold.press number.val now
    | none => hold

def withoutPress (hold : KeyHold) : KeyHold :=
  { hold with keyboard := hold.keyboard.withoutPress }

end KeyHold

end Chip8
