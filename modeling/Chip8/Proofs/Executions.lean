import Chip8.Proofs.ControlState
import Chip8.Proofs.DueFaults
import Mathlib.Data.List.Induction

set_option autoImplicit false

/-! The instructions that a history executes, each with the machine it was
executed on. A step executes an instruction if the machine runs and the step
succeeds. Everything else that happens, a step that fails or asks for a key
among it, leaves the memory, the raster, the stack, the index and the random
bytes alone. -/

namespace Chip8

namespace Instruction

def changesMemory : Instruction → Bool
  | .storeDecimal _ => true
  | .storeRegisters _ => true
  | _ => false

def changesRaster : Instruction → Bool
  | .clearScreen => true
  | .draw _ _ _ => true
  | _ => false

def changesDelay : Instruction → Bool
  | .writeDelay _ => true
  | _ => false

def changesSound : Instruction → Bool
  | .writeSound _ => true
  | _ => false

end Instruction

structure Execution (Pad : Type) where
  machine : Machine Pad
  instruction : Instruction

namespace Machine

variable {Pad : Type}

theorem fresh_of_load (program : List Byte) (keypad : Pad) (random : RandomSource)
    (start : Machine Pad) (started : load program keypad random = .ok start) :
    start =
      { lastWord := 0
        memory := start.memory
        registers := Vector.replicate 16 0
        index := 0
        programCounter := UInt16.ofNat programStart
        stack := .empty
        delay := ⟨0⟩
        sound := ⟨0⟩
        raster := .blank
        keypad := keypad
        random := random
        clock := .running } := by
  unfold load at started
  cases loaded : glyphMemory.load programStart program with
  | error range =>
      rw [loaded] at started
      cases started
  | ok memory =>
      rw [loaded] at started
      cases started
      rfl

theorem raster_of_load (program : List Byte) (keypad : Pad) (random : RandomSource)
    (start : Machine Pad) (started : load program keypad random = .ok start) :
    start.raster = .blank := by
  rw [fresh_of_load program keypad random start started]

variable [Keypad Pad]

/-- The instruction that the next step executes. A step that fails or asks for a
key executes none. -/
def executed? (machine : Machine Pad) : Option Instruction :=
  match machine.clock, machine.step.outcome with
  | .running, .ok _ => Instruction.decode machine.nextWord
  | _, _ => none

theorem executed?_of_executed (machine : Machine Pad) (word : Word) (instruction : Instruction)
    (progress : Progress) (running : machine.clock = .running)
    (fetched : machine.memory.fetch machine.programCounter.toNat = .ok word)
    (decoded : Instruction.decode word = some instruction)
    (executed : ((machine.remember word).execute instruction).outcome = .ok progress) :
    machine.executed? = some instruction := by
  unfold executed?
  rw [running, machine.step_of_fetched word running fetched,
    machine.performWord_of_decoded word instruction decoded,
    perform_of_executed _ word instruction progress executed,
    machine.nextWord_of_fetched word fetched]
  exact decoded

def execution? (machine : Machine Pad) : MachineEvent Pad → Option (Execution Pad)
  | .step => machine.executed?.map (fun instruction => ⟨machine, instruction⟩)
  | _ => none

/-- The executions of a history, latest first. -/
def executions (machine : Machine Pad) : List (MachineEvent Pad) → List (Execution Pad)
  | [] => []
  | event :: later => (machine.happen event).executions later ++ (machine.execution? event).toList

theorem forall_executions_cons (machine : Machine Pad) (event : MachineEvent Pad)
    (later : List (MachineEvent Pad)) (holds : Execution Pad → Prop) :
    (∀ execution ∈ machine.executions (event :: later), holds execution) ↔
      (∀ execution ∈ machine.execution? event, holds execution) ∧
        ∀ execution ∈ (machine.happen event).executions later, holds execution := by
  rw [executions, List.forall_mem_append, and_comm]
  simp only [Option.mem_toList, Option.mem_def]

theorem executions_append_singleton (machine : Machine Pad) (history : List (MachineEvent Pad))
    (event : MachineEvent Pad) :
    machine.executions (history ++ [event]) =
      ((machine.after history).execution? event).toList ++ machine.executions history := by
  induction history generalizing machine with
  | nil => simp only [List.nil_append, executions, after_nil, List.append_nil]
  | cons first later ih =>
      rw [List.cons_append, executions, executions, ih, after_cons, List.append_assoc]

/-! ### What a step does to the state -/

/-- The parts of the state that only some instructions change, and the others keep. -/
structure KeptBy (instruction : Instruction) (before after : Machine Pad) : Prop where
  memory : instruction.changesMemory = false → after.memory = before.memory
  raster : instruction.changesRaster = false → after.raster = before.raster
  delay : instruction.changesDelay = false → after.delay = before.delay
  sound : instruction.changesSound = false → after.sound = before.sound

omit [Keypad Pad] in
theorem onRange_keptBy {Granted : Type} (instruction : Instruction) (machine : Machine Pad)
    (asked : Except OutOfRange Granted) (effect : Granted → Effect Pad)
    (kept : ∀ granted, KeptBy instruction machine (effect granted).machine) :
    KeptBy instruction machine (Effect.onRange machine asked effect).machine := by
  cases asked with
  | error range => constructor <;> intro _other <;> rfl
  | ok granted => exact kept granted

omit [Keypad Pad] in
theorem setFirstRegisters_keptBy (instruction : Instruction) (machine : Machine Pad)
    (values : List Byte) : KeptBy instruction machine (machine.setFirstRegisters values) := by
  constructor <;> intro _other <;> simp only [setFirstRegisters]

theorem execute_keptBy (machine : Machine Pad) (instruction : Instruction) :
    KeptBy instruction machine (machine.execute instruction).machine := by
  cases instruction
  case returnFromCall =>
    simp only [execute, executeReturn]
    cases machine.stack.pop? <;> constructor <;> intro _other <;> rfl
  case call target =>
    simp only [execute, executeCall]
    cases machine.stack.push? (ProgramMove.next.apply machine.programCounter) <;>
      constructor <;> intro _other <;> rfl
  case draw column row height =>
    apply onRange_keptBy
    intro _sprite
    refine ⟨fun _other => rfl, ?_, fun _other => rfl, fun _other => rfl⟩
    intro other
    cases other
  case storeDecimal source =>
    apply onRange_keptBy
    intro _memory
    refine ⟨?_, fun _other => rfl, fun _other => rfl, fun _other => rfl⟩
    intro other
    cases other
  case storeRegisters last =>
    apply onRange_keptBy
    intro _memory
    refine ⟨?_, fun _other => rfl, fun _other => rfl, fun _other => rfl⟩
    intro other
    cases other
  case loadRegisters last =>
    apply onRange_keptBy
    intro values
    exact machine.setFirstRegisters_keptBy _ values
  all_goals
    constructor <;> intro other <;> first | rfl | cases other

/-- All that an executed instruction does: it works on the machine that remembers
its word, and then the program counter moves. -/
theorem step_of_executed (machine : Machine Pad) (instruction : Instruction)
    (executed : machine.executed? = some instruction) :
    ∃ progress,
      ((machine.remember machine.nextWord).execute instruction).outcome = .ok progress ∧
      machine.step.outcome = .ok progress.operation ∧
      machine.step.machine =
        ((machine.remember machine.nextWord).execute instruction).machine.advance
          progress.move := by
  unfold executed? at executed
  cases clock : machine.clock with
  | awaitingKey target =>
      rw [clock] at executed
      cases executed
  | running =>
      by_cases beyond : 0xFFE < machine.programCounter.toNat
      · rw [clock, machine.step_of_refused _ clock (machine.fetch_of_beyond beyond)] at executed
        cases executed
      · have stepped := machine.step_of_inside clock (Nat.le_of_not_lt beyond)
        rw [stepped] at executed ⊢
        cases outcome : (machine.performWord machine.nextWord).outcome with
        | error fault =>
            rw [clock, outcome] at executed
            cases executed
        | ok operation =>
            rw [clock, outcome] at executed
            have performed := machine.performWord_of_decoded _ instruction executed
            rw [performed] at outcome ⊢
            cases effect : ((machine.remember machine.nextWord).execute instruction).outcome with
            | error cause =>
                rw [perform_of_failed _ _ instruction cause effect] at outcome
                cases outcome
            | ok progress =>
                rw [perform_of_executed _ _ instruction progress effect] at outcome ⊢
                exact ⟨progress, rfl, outcome.symm, rfl⟩

theorem exists_executed (machine : Machine Pad) (operation : Operation)
    (running : machine.clock = .running) (succeeded : machine.step.outcome = .ok operation) :
    ∃ instruction, machine.executed? = some instruction ∧
      Instruction.decode machine.nextWord = some instruction := by
  have executes : machine.executed? = Instruction.decode machine.nextWord := by
    unfold executed?
    rw [running, succeeded]
  cases decoded : Instruction.decode machine.nextWord with
  | some instruction => exact ⟨instruction, executes.trans decoded, rfl⟩
  | none =>
      have unsupported : machine.dueFault ≠ none := by
        unfold dueFault Word.failure?
        rw [running, if_pos ((Instruction.decode_eq_none_iff _).mp decoded)]
        split_ifs <;> simp
      obtain ⟨fault, due⟩ := Option.ne_none_iff_exists'.mp unsupported
      rw [(machine.step_outcome_error_iff fault).mpr due] at succeeded
      cases succeeded

/-- A step that executes nothing changes no more than the word fetched last, the
registers, the program counter, the keypad and the clock. -/
theorem step_of_idle (machine : Machine Pad) (idle : machine.executed? = none) :
    ∃ lastWord registers programCounter keypad clock, machine.step.machine =
      { machine with
        lastWord := lastWord
        registers := registers
        programCounter := programCounter
        keypad := keypad
        clock := clock } := by
  cases clock : machine.clock with
  | awaitingKey target =>
      rw [machine.step_of_awaiting target clock]
      cases answered : (Keypad.takePress machine.keypad).1 with
      | none =>
          rw [machine.pollKey_of_unpressed target answered]
          exact ⟨_, _, _, _, _, rfl⟩
      | some key =>
          rw [machine.pollKey_of_pressed target key answered]
          exact ⟨_, _, _, _, _, rfl⟩
  | running =>
      cases outcome : machine.step.outcome with
      | error fault =>
          rw [(machine.step_of_fault fault outcome).1]
          exact ⟨_, _, _, _, _, rfl⟩
      | ok operation =>
          obtain ⟨instruction, executed, _decoded⟩ :=
            machine.exists_executed operation clock outcome
          rw [idle] at executed
          cases executed

theorem happen_of_idle (machine : Machine Pad) (event : MachineEvent Pad)
    (idle : machine.execution? event = none) :
    (machine.happen event).memory = machine.memory ∧
      (machine.happen event).raster = machine.raster ∧
      (machine.happen event).stack = machine.stack := by
  cases event with
  | step =>
      obtain ⟨_, _, _, _, _, same⟩ := machine.step_of_idle (Option.map_eq_none_iff.mp idle)
      change machine.step.machine.memory = _ ∧ machine.step.machine.raster = _ ∧
        machine.step.machine.stack = _
      rw [same]
      exact ⟨rfl, rfl, rfl⟩
  | tickDelay => exact ⟨rfl, rfl, rfl⟩
  | tickSound => exact ⟨rfl, rfl, rfl⟩
  | keypad change => exact ⟨rfl, rfl, rfl⟩

/-- What holds at the start, outlasts everything that executes nothing, and is
carried on by every executed instruction, holds after every history. -/
theorem after_induction (start : Machine Pad)
    (motive : Machine Pad → List (Execution Pad) → Prop) (initial : motive start [])
    (idle : ∀ machine executions event, motive machine executions →
      machine.execution? event = none → motive (machine.happen event) executions)
    (executes : ∀ machine executions instruction, motive machine executions →
      machine.executed? = some instruction →
        motive machine.step.machine (⟨machine, instruction⟩ :: executions))
    (history : List (MachineEvent Pad)) :
    motive (start.after history) (start.executions history) := by
  induction history using List.reverseRecOn with
  | nil => exact initial
  | append_singleton earlier event ih =>
      rw [executions_append_singleton, after_append]
      change motive ((start.after earlier).happen event) _
      cases execution : (start.after earlier).execution? event with
      | none => exact idle _ _ event ih execution
      | some latest =>
          cases event with
          | step =>
              obtain ⟨instruction, executed, same⟩ := Option.map_eq_some_iff.mp execution
              subst latest
              exact executes _ _ instruction ih executed
          | tickDelay => cases execution
          | tickSound => cases execution
          | keypad change => cases execution

end Machine

end Chip8
