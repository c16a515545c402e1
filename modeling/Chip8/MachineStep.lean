import Chip8.MachineExecution

set_option autoImplicit false

/-! One step of the machine. A running machine fetches, decodes and executes one
instruction; a waiting machine asks for a key press. A step that fails changes
nothing but the word fetched last, and that only if there was a word. -/

namespace Chip8

structure Turn (Pad : Type) where
  machine : Machine Pad
  outcome : Except Fault Operation
  journal : List JournalEntry

namespace Machine

variable {Pad : Type}

def remember (machine : Machine Pad) (word : Word) : Machine Pad :=
  { machine with lastWord := word }

def advance (machine : Machine Pad) (move : ProgramMove) : Machine Pad :=
  { machine with programCounter := move.apply machine.programCounter }

def resume (machine : Machine Pad) (target : Register) (key : Byte) : Machine Pad :=
  { (machine.setRegister target key).advance .next with clock := .running }

def fault (machine : Machine Pad) (word : Option Word) (cause : FaultCause) : Fault :=
  { programCounter := machine.programCounter
    word := word
    cause := cause }

variable [Keypad Pad]

def pollKey (machine : Machine Pad) (target : Register) : Turn Pad :=
  let answer := Keypad.takePress machine.keypad
  let polled := { machine with keypad := answer.2 }
  match answer.1 with
  | none => ⟨polled, .ok .wait, []⟩
  | some key => ⟨polled.resume target key, .ok .quiet, [.keyStored key target]⟩

def perform (machine : Machine Pad) (word : Word) (instruction : Instruction) : Turn Pad :=
  let effect := machine.execute instruction
  let journal := .fetched machine.programCounter word instruction :: effect.journal
  match effect.outcome with
  | .error cause => ⟨effect.machine, .error (machine.fault (some word) cause), journal⟩
  | .ok progress => ⟨effect.machine.advance progress.move, .ok progress.operation, journal⟩

def performWord (machine : Machine Pad) (word : Word) : Turn Pad :=
  match Instruction.decode word with
  | none =>
      ⟨machine.remember word, .error (machine.fault (some word) (.unsupportedWord word)), []⟩
  | some instruction => (machine.remember word).perform word instruction

def step (machine : Machine Pad) : Turn Pad :=
  match machine.clock with
  | .awaitingKey target => machine.pollKey target
  | .running =>
      match machine.memory.fetch machine.programCounter.toNat with
      | .error range => ⟨machine, .error (machine.fault none (.outOfRange range)), []⟩
      | .ok word => machine.performWord word

/-! ### The cases of a step -/

theorem step_of_awaiting (machine : Machine Pad) (target : Register)
    (awaiting : machine.clock = .awaitingKey target) :
    machine.step = machine.pollKey target := by
  unfold step
  rw [awaiting]

theorem step_of_refused (machine : Machine Pad) (range : OutOfRange)
    (running : machine.clock = .running)
    (refused : machine.memory.fetch machine.programCounter.toNat = .error range) :
    machine.step = ⟨machine, .error (machine.fault none (.outOfRange range)), []⟩ := by
  unfold step
  rw [running, refused]

theorem step_of_fetched (machine : Machine Pad) (word : Word)
    (running : machine.clock = .running)
    (fetched : machine.memory.fetch machine.programCounter.toNat = .ok word) :
    machine.step = machine.performWord word := by
  unfold step
  rw [running, fetched]

theorem performWord_of_undecoded (machine : Machine Pad) (word : Word)
    (undecoded : Instruction.decode word = none) :
    machine.performWord word =
      ⟨machine.remember word,
        .error (machine.fault (some word) (.unsupportedWord word)), []⟩ := by
  unfold performWord
  rw [undecoded]

theorem performWord_of_decoded (machine : Machine Pad) (word : Word) (instruction : Instruction)
    (decoded : Instruction.decode word = some instruction) :
    machine.performWord word = (machine.remember word).perform word instruction := by
  unfold performWord
  rw [decoded]

theorem perform_of_failed (machine : Machine Pad) (word : Word) (instruction : Instruction)
    (cause : FaultCause) (failed : (machine.execute instruction).outcome = .error cause) :
    machine.perform word instruction =
      ⟨(machine.execute instruction).machine, .error (machine.fault (some word) cause),
        .fetched machine.programCounter word instruction ::
          (machine.execute instruction).journal⟩ := by
  unfold perform
  simp only [failed]

theorem perform_of_executed (machine : Machine Pad) (word : Word) (instruction : Instruction)
    (progress : Progress) (executed : (machine.execute instruction).outcome = .ok progress) :
    machine.perform word instruction =
      ⟨(machine.execute instruction).machine.advance progress.move, .ok progress.operation,
        .fetched machine.programCounter word instruction ::
          (machine.execute instruction).journal⟩ := by
  unfold perform
  simp only [executed]

theorem pollKey_of_unpressed (machine : Machine Pad) (target : Register)
    (unpressed : (Keypad.takePress machine.keypad).1 = none) :
    machine.pollKey target =
      ⟨{ machine with keypad := (Keypad.takePress machine.keypad).2 }, .ok .wait, []⟩ := by
  unfold pollKey
  simp only [unpressed]

theorem pollKey_of_pressed (machine : Machine Pad) (target : Register) (key : Byte)
    (pressed : (Keypad.takePress machine.keypad).1 = some key) :
    machine.pollKey target =
      ⟨{ machine with keypad := (Keypad.takePress machine.keypad).2 }.resume target key,
        .ok .quiet, [.keyStored key target]⟩ := by
  unfold pollKey
  simp only [pressed]

theorem pollKey_succeeds (machine : Machine Pad) (target : Register) :
    ∃ operation, (machine.pollKey target).outcome = .ok operation := by
  cases answered : (Keypad.takePress machine.keypad).1 with
  | none => exact ⟨.wait, by rw [machine.pollKey_of_unpressed target answered]⟩
  | some key => exact ⟨.quiet, by rw [machine.pollKey_of_pressed target key answered]⟩

/-- A step that fails leaves the machine as it was, but for the word fetched
last if there was one. -/
theorem step_of_fault (machine : Machine Pad) (fault : Fault)
    (failed : machine.step.outcome = .error fault) :
    machine.step.machine = machine.remember (fault.word.getD machine.lastWord) ∧
      fault.programCounter = machine.programCounter := by
  cases clock : machine.clock with
  | awaitingKey target =>
      obtain ⟨operation, succeeded⟩ := machine.pollKey_succeeds target
      rw [machine.step_of_awaiting target clock, succeeded] at failed
      cases failed
  | running =>
      cases fetched : machine.memory.fetch machine.programCounter.toNat with
      | error range =>
          rw [machine.step_of_refused range clock fetched] at failed ⊢
          cases failed
          exact ⟨rfl, rfl⟩
      | ok word =>
          rw [machine.step_of_fetched word clock fetched] at failed ⊢
          cases decoded : Instruction.decode word with
          | none =>
              rw [machine.performWord_of_undecoded word decoded] at failed ⊢
              cases failed
              exact ⟨rfl, rfl⟩
          | some instruction =>
              rw [machine.performWord_of_decoded word instruction decoded] at failed ⊢
              cases executed : ((machine.remember word).execute instruction).outcome with
              | error cause =>
                  have unchanged := (machine.remember word).execute_of_failed instruction cause
                    executed
                  rw [perform_of_failed _ word instruction cause executed] at failed ⊢
                  cases failed
                  exact ⟨unchanged, rfl⟩
              | ok progress =>
                  rw [perform_of_executed _ word instruction progress executed] at failed
                  cases failed

end Machine

/-! ### Several steps -/

structure Run (Pad : Type) where
  machine : Machine Pad
  last : Option (Except Fault Operation)
  completed : Nat
  draws : Nat
  waits : Nat
  /-- The report of all steps, latest entry first. -/
  latestFirst : List JournalEntry

namespace Run

variable {Pad : Type}

def start (machine : Machine Pad) : Run Pad :=
  ⟨machine, none, 0, 0, 0, []⟩

def extend (run : Run Pad) (turn : Turn Pad) : Run Pad :=
  { machine := turn.machine
    last := some turn.outcome
    completed := run.completed + (match turn.outcome with | .ok _ => 1 | .error _ => 0)
    draws := run.draws + (match turn.outcome with | .ok .draw => 1 | _ => 0)
    waits := run.waits + (match turn.outcome with | .ok .wait => 1 | _ => 0)
    latestFirst := turn.journal.reverse ++ run.latestFirst }

def journal (run : Run Pad) : List JournalEntry :=
  run.latestFirst.reverse

variable [Keypad Pad]

def continueFor (run : Run Pad) : Nat → Run Pad
  | 0 => run
  | count + 1 =>
      let turn := run.machine.step
      match turn.outcome with
      | .error _ => run.extend turn
      | .ok _ => (run.extend turn).continueFor count

end Run

def Machine.runFor {Pad : Type} [Keypad Pad] (machine : Machine Pad) (count : Nat) : Run Pad :=
  (Run.start machine).continueFor count

end Chip8
