import Chip8.MachineStep

set_option autoImplicit false

/-! Histories of a machine: steps of its own, ticks of its timers and changes of
its keypad, in any order. A state is reachable if some history leads to it from
a loaded program. -/

namespace Chip8

inductive MachineEvent (Pad : Type) where
  | step
  | tickDelay
  | tickSound
  | keypad (change : Pad → Pad)

namespace Machine

variable {Pad : Type} [Keypad Pad]

def happen (machine : Machine Pad) : MachineEvent Pad → Machine Pad
  | .step => machine.step.machine
  | .tickDelay => machine.tickDelay 1
  | .tickSound => machine.tickSound 1
  | .keypad change => machine.changeKeypad change

def after (machine : Machine Pad) (history : List (MachineEvent Pad)) : Machine Pad :=
  history.foldl happen machine

/-- Steps continue after a fault as they do after any other step. -/
inductive Reachable : Machine Pad → Prop where
  | loaded (program : List Byte) (keypad : Pad) (random : RandomSource) (machine : Machine Pad)
      (started : load program keypad random = .ok machine) : Reachable machine
  | happened (machine : Machine Pad) (event : MachineEvent Pad) (earlier : Reachable machine) :
      Reachable (machine.happen event)

theorem after_nil (machine : Machine Pad) : machine.after [] = machine := rfl

theorem after_cons (machine : Machine Pad) (event : MachineEvent Pad)
    (later : List (MachineEvent Pad)) :
    machine.after (event :: later) = (machine.happen event).after later := rfl

theorem after_append (machine : Machine Pad) (first second : List (MachineEvent Pad)) :
    machine.after (first ++ second) = (machine.after first).after second := by
  unfold after
  rw [List.foldl_append]

end Machine

end Chip8
