import Chip8.Word

set_option autoImplicit false

/-! The keyboard of sixteen keys. Beside the keys that are down it remembers the
latest change of a single key, and the latest press that nobody took yet. A
press is a change from up to down, judged by the state before the change, so
pressing a held key is none. Any number names a key, by its last digit. -/

namespace Chip8

structure KeyChange where
  key : Nibble
  before : Bool
  after : Bool
  deriving DecidableEq, Repr

def KeyChange.isPress (change : KeyChange) : Bool :=
  !change.before && change.after

def keyOf (number : Nat) : Nibble :=
  ⟨number % 16, Nat.mod_lt _ (by decide)⟩

theorem keyOf_val (key : Nibble) : keyOf key.val = key :=
  Fin.ext (Nat.mod_eq_of_lt key.isLt)

structure Keyboard where
  down : Vector Bool 16
  lastChange : Option KeyChange
  pendingPress : Option Nibble
  deriving DecidableEq

namespace Keyboard

def idle : Keyboard :=
  { down := Vector.replicate 16 false
    lastChange := none
    pendingPress := none }

def isDown (keyboard : Keyboard) (number : Nat) : Bool :=
  keyboard.down[keyOf number]

def setKey (keyboard : Keyboard) (number : Nat) (after : Bool) : Keyboard :=
  let key := keyOf number
  let change : KeyChange := ⟨key, keyboard.down[key], after⟩
  { down := keyboard.down.set key.val after key.isLt
    lastChange := some change
    pendingPress := if change.isPress then some key else keyboard.pendingPress }

def press (keyboard : Keyboard) (number : Nat) : Keyboard :=
  keyboard.setKey number true

def release (keyboard : Keyboard) (number : Nat) : Keyboard :=
  keyboard.setKey number false

def toggle (keyboard : Keyboard) (number : Nat) : Keyboard :=
  keyboard.setKey number (!keyboard.isDown number)

/-- Replaces the state of all keys, which must be sixteen. This is no press and
forgets the last one. -/
def setAll? (keys : List Bool) : Option Keyboard :=
  if sixteen : keys.length = 16 then
    some
      { down := ⟨keys.toArray, by rw [List.size_toArray, sixteen]⟩
        lastChange := none
        pendingPress := none }
  else none

def hasPress (keyboard : Keyboard) : Bool :=
  keyboard.pendingPress.isSome

def withoutPress (keyboard : Keyboard) : Keyboard :=
  { keyboard with pendingPress := none }

/-! ### Changes as data -/

end Keyboard

inductive KeyAction where
  | set (number : Nat) (after : Bool)
  | toggle (number : Nat)
  | setAll (keys : List Bool)
  deriving DecidableEq, Repr

namespace Keyboard

/-- The keyboard after a change. A list of other than sixteen keys changes
nothing. -/
def perform (keyboard : Keyboard) : KeyAction → Keyboard
  | .set number after => keyboard.setKey number after
  | .toggle number => keyboard.toggle number
  | .setAll keys => (setAll? keys).getD keyboard

theorem isDown_setKey (keyboard : Keyboard) (number asked : Nat) (after : Bool) :
    (keyboard.setKey number after).isDown asked =
      if keyOf number = keyOf asked then after else keyboard.isDown asked := by
  unfold isDown setKey
  by_cases same : keyOf number = keyOf asked
  · simp [same]
  · have different : (keyOf number).val ≠ (keyOf asked).val :=
      fun equal => same (Fin.ext equal)
    simp [same, different]

theorem pendingPress_setKey (keyboard : Keyboard) (number : Nat) (after : Bool) :
    (keyboard.setKey number after).pendingPress =
      if keyboard.isDown number = false ∧ after = true then some (keyOf number)
      else keyboard.pendingPress := by
  unfold setKey isDown KeyChange.isPress
  cases held : keyboard.down[keyOf number] <;> cases after <;> simp [held]

theorem pendingPress_release (keyboard : Keyboard) (number : Nat) :
    (keyboard.release number).pendingPress = keyboard.pendingPress := by
  unfold release
  rw [pendingPress_setKey]
  simp

end Keyboard

end Chip8
