import Chip8.MachineStep

set_option autoImplicit false

/-! The part of the state that decides which instruction comes next: the program
counter with the stack, the clock and the word fetched last. Executing an
instruction leaves all of it alone, except that calls and returns change the
stack and that the request for a key stops the clock. -/

namespace Chip8

structure Control where
  lastWord : Word
  programCounter : Word
  stack : CallStack
  clock : Clock

def Machine.control {Pad : Type} (machine : Machine Pad) : Control :=
  ⟨machine.lastWord, machine.programCounter, machine.stack, machine.clock⟩

/-- Whether an instruction changes more of the control state than where the
program counter goes. -/
def Instruction.changesControl : Instruction → Bool
  | .returnFromCall => true
  | .call _ => true
  | .awaitKey _ => true
  | _ => false

/-- `0x10FE` is the farthest that `0xFFF` and the greatest byte add up to. -/
def ProgramMove.Near : ProgramMove → Prop
  | .jump target => target.toNat ≤ 0x10FE
  | _ => True

theorem Address.toNat_toWord (address : Address) : (Address.toWord address).toNat = address.val := by
  unfold Address.toWord
  exact UInt16.toNat_ofNat_of_lt' (Nat.lt_trans address.isLt (by decide))

theorem Effect.onRange_keeps {Pad Granted Part : Type} (part : Machine Pad → Part)
    (machine : Machine Pad) (asked : Except OutOfRange Granted) (effect : Granted → Effect Pad)
    (kept : ∀ granted, part (effect granted).machine = part machine) :
    part (Effect.onRange machine asked effect).machine = part machine := by
  cases asked with
  | error range => rfl
  | ok granted => exact kept granted

theorem Machine.executeReturn_keeps {Pad Part : Type} (part : Machine Pad → Part)
    (machine : Machine Pad)
    (kept : ∀ stack, part { machine with stack := stack } = part machine) :
    part machine.executeReturn.machine = part machine := by
  unfold executeReturn
  cases machine.stack.pop? with
  | none => rfl
  | some popped => exact kept popped.2

theorem Machine.executeCall_keeps {Pad Part : Type} (part : Machine Pad → Part)
    (machine : Machine Pad) (target : Address)
    (kept : ∀ stack, part { machine with stack := stack } = part machine) :
    part (machine.executeCall target).machine = part machine := by
  unfold executeCall
  cases machine.stack.push? (ProgramMove.next.apply machine.programCounter) with
  | none => rfl
  | some stack => exact kept stack

theorem Machine.executeCall_move {Pad : Type} (machine : Machine Pad) (target : Address)
    (progress : Progress) (executed : (machine.executeCall target).outcome = .ok progress) :
    progress.move = .jump (Address.toWord target) := by
  unfold executeCall at executed
  cases pushed : machine.stack.push? (ProgramMove.next.apply machine.programCounter) with
  | none =>
      rw [pushed] at executed
      cases executed
  | some stack =>
      rw [pushed] at executed
      cases executed
      rfl

theorem Effect.onRange_progress {Pad Granted : Type} (machine : Machine Pad)
    (asked : Except OutOfRange Granted) (effect : Granted → Effect Pad)
    (holds : Progress → Prop) (progress : Progress)
    (granted : ∀ granted, (effect granted).outcome = .ok progress → holds progress)
    (executed : (Effect.onRange machine asked effect).outcome = .ok progress) :
    holds progress := by
  cases asked with
  | error range => cases executed
  | ok answer => exact granted answer executed

namespace Machine

variable {Pad : Type} [Keypad Pad]

theorem execute_control (machine : Machine Pad) (instruction : Instruction)
    (ordinary : instruction.changesControl = false) :
    (machine.execute instruction).machine.control = machine.control := by
  cases instruction
  case returnFromCall => cases ordinary
  case call target => cases ordinary
  case awaitKey target => cases ordinary
  case draw column row height =>
    apply Effect.onRange_keeps control
    intro _sprite
    rfl
  case storeDecimal source =>
    apply Effect.onRange_keeps control
    intro _memory
    rfl
  case storeRegisters last =>
    apply Effect.onRange_keeps control
    intro _memory
    rfl
  case loadRegisters last =>
    apply Effect.onRange_keeps control
    intro _values
    simp only [control, Effect.next, setFirstRegisters]
  all_goals rfl

theorem execute_place (machine : Machine Pad) (instruction : Instruction) :
    (machine.execute instruction).machine.lastWord = machine.lastWord ∧
      (machine.execute instruction).machine.programCounter = machine.programCounter := by
  cases ordinary : instruction.changesControl with
  | false =>
      have kept := machine.execute_control instruction ordinary
      exact ⟨congrArg Control.lastWord kept, congrArg Control.programCounter kept⟩
  | true =>
      cases instruction
      case returnFromCall =>
        exact ⟨executeReturn_keeps lastWord machine (fun _stack => rfl),
          executeReturn_keeps programCounter machine (fun _stack => rfl)⟩
      case call target =>
        exact ⟨executeCall_keeps lastWord machine target (fun _stack => rfl),
          executeCall_keeps programCounter machine target (fun _stack => rfl)⟩
      case awaitKey target => exact ⟨rfl, rfl⟩
      all_goals cases ordinary

theorem execute_programCounter (machine : Machine Pad) (instruction : Instruction) :
    (machine.execute instruction).machine.programCounter = machine.programCounter :=
  (machine.execute_place instruction).2

/-- Every jump but a return goes to an address of twelve bits or to one with a
byte added. -/
theorem execute_near (machine : Machine Pad) (instruction : Instruction) (progress : Progress)
    (noReturn : instruction ≠ .returnFromCall)
    (executed : (machine.execute instruction).outcome = .ok progress) :
    progress.move.Near := by
  have near (target : Address) : (ProgramMove.jump (Address.toWord target)).Near := by
    have bound := target.isLt
    change (Address.toWord target).toNat ≤ 0x10FE
    rw [Address.toNat_toWord]
    omega
  have nearSkip (condition : Bool) : (ProgramMove.skipIf condition).Near := by
    cases condition <;> exact trivial
  cases instruction
  case returnFromCall => exact absurd rfl noReturn
  case jump target =>
    cases executed
    exact near target
  case call target =>
    rw [machine.executeCall_move target progress executed]
    exact near target
  case jumpOffset base =>
    have baseBound := base.isLt
    have offsetBound := (machine.register 0).toNat_lt
    cases executed
    change (Address.toWord base + (machine.register 0).toUInt16).toNat ≤ 0x10FE
    rw [UInt16.toNat_add, Address.toNat_toWord, UInt8.toNat_toUInt16]
    omega
  case draw column row height =>
    exact Effect.onRange_progress machine _ _ (fun ended => ended.move.Near) progress
      (fun _sprite drawn => by cases drawn; exact trivial) executed
  case storeDecimal source =>
    exact Effect.onRange_progress machine _ _ (fun ended => ended.move.Near) progress
      (fun _memory stored => by cases stored; exact trivial) executed
  case storeRegisters last =>
    exact Effect.onRange_progress machine _ _ (fun ended => ended.move.Near) progress
      (fun _memory stored => by cases stored; exact trivial) executed
  case loadRegisters last =>
    exact Effect.onRange_progress machine _ _ (fun ended => ended.move.Near) progress
      (fun _values loaded => by cases loaded; exact trivial) executed
  all_goals
    cases executed
    first
      | exact trivial
      | exact nearSkip _

end Machine

end Chip8
