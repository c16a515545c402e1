import Chip8.MachineHistory
import Chip8.Proofs.WordForms

set_option autoImplicit false

/-! When a step fails, and what a failure leaves. The fault that is due in a state
is a function of the clock, the program counter, the memory, the depth of the
stack and the index. A step fails with exactly that fault. Neither the step
itself nor anything that happens to the keypad and the timers moves what the
fault depends on, so it is due for ever. -/

namespace Chip8

/-- The failure of an access to so many bytes. An empty access may start right
behind the last byte, but not beyond. -/
def beyondEnd? (address length : Nat) : Option FaultCause :=
  if 4096 < address + length then some (.outOfRange ⟨address, length⟩) else none

/-- The cause for which a word fails with so many open calls and this index. -/
def Word.failure? (word : Word) (depth index : Nat) : Option FaultCause :=
  if ¬ word.Supported then some (.unsupportedWord word)
  else if word = 0x00EE then if depth = 0 then some .stackEmpty else none
  else if word.family.val = 0x2 then if depth = 16 then some .stackFull else none
  else if word.family.val = 0xD then beyondEnd? index word.digit.val
  else if word.family.val = 0xF then
    if word.lowByte.toNat = 0x33 then beyondEnd? index 3
    else if word.lowByte.toNat = 0x55 ∨ word.lowByte.toNat = 0x65 then
      beyondEnd? index (word.first.val + 1)
    else none
  else none

def Instruction.failure? (depth index : Nat) : Instruction → Option FaultCause
  | .returnFromCall => if depth = 0 then some .stackEmpty else none
  | .call _ => if depth = 16 then some .stackFull else none
  | .draw _ _ height => beyondEnd? index height.val
  | .storeDecimal _ => beyondEnd? index 3
  | .storeRegisters last => beyondEnd? index (last.val + 1)
  | .loadRegisters last => beyondEnd? index (last.val + 1)
  | _ => none

theorem Word.eq_returnWord_iff (word : Word) (atFamily : word.family.val = 0) :
    word = 0x00EE ↔ word.address.val = 0x0EE := by
  rw [← UInt16.toNat_inj, word.toNat_eq_family_address, atFamily]
  simp

theorem Word.supported_of_decode (word : Word) (instruction : Instruction)
    (decoded : Instruction.decode word = some instruction) : word.Supported := by
  apply Decidable.byContradiction
  intro unsupported
  rw [(Instruction.decode_eq_none_iff word).mpr unsupported] at decoded
  cases decoded

theorem Word.failure?_of_decode (word : Word) (instruction : Instruction) (depth index : Nat)
    (decoded : Instruction.decode word = some instruction) :
    word.failure? depth index = instruction.failure? depth index := by
  have supported := word.supported_of_decode instruction decoded
  have notReturn (elsewhere : word.family.val ≠ 0) : word ≠ 0x00EE := by
    intro same
    subst word
    exact elsewhere rfl
  unfold failure?
  rw [if_neg (not_not_intro supported)]
  unfold Instruction.decode at decoded
  split at decoded
  case h_1 atFamily =>
    simp only [word.eq_returnWord_iff atFamily, atFamily]
    split_ifs at decoded with clears returns <;> cases decoded
    · simp [Instruction.failure?, clears]
    · simp [Instruction.failure?, returns]
    · simp [Instruction.failure?, returns]
  case h_9 atFamily =>
    unfold Instruction.decodeArithmetic at decoded
    split at decoded <;> cases decoded <;>
      simp [atFamily, notReturn, Instruction.failure?]
  case h_16 atFamily =>
    unfold Instruction.decodeMiscellany at decoded
    split at decoded <;> cases decoded
    all_goals
      rename_i atLow
      simp [atFamily, atLow, notReturn, Instruction.failure?]
  case h_17 => cases decoded
  all_goals
    rename_i atFamily
    (try split_ifs at decoded) <;> cases decoded <;>
      simp [atFamily, notReturn, Instruction.failure?]

theorem beyondEnd?_eq_some_iff (address length : Nat) (cause : FaultCause) :
    beyondEnd? address length = some cause ↔
      4096 < address + length ∧ cause = .outOfRange ⟨address, length⟩ := by
  unfold beyondEnd?
  by_cases outside : 4096 < address + length
  · rw [if_pos outside, Option.some.injEq, eq_comm, and_iff_right outside]
  · rw [if_neg outside]
    constructor
    · intro impossible
      cases impossible
    · intro claimed
      exact absurd claimed.1 outside

theorem Effect.onRange_outcome_error_iff {Pad Granted : Type} (machine : Machine Pad)
    (asked : Except OutOfRange Granted) (effect : Granted → Effect Pad) (address length : Nat)
    (succeeds : ∀ granted, ∃ progress, (effect granted).outcome = .ok progress)
    (refused : ∀ range, asked = .error range ↔
      4096 < address + length ∧ range = ⟨address, length⟩) (cause : FaultCause) :
    (Effect.onRange machine asked effect).outcome = .error cause ↔
      beyondEnd? address length = some cause := by
  rw [beyondEnd?_eq_some_iff]
  unfold onRange
  cases asked with
  | error range =>
      obtain ⟨outside, same⟩ := (refused range).mp rfl
      subst range
      simp only [fail, Except.error.injEq, and_iff_right outside, eq_comm]
  | ok granted =>
      obtain ⟨progress, succeeded⟩ := succeeds granted
      have inside : ¬ 4096 < address + length := by
        intro outside
        cases (refused ⟨address, length⟩).mpr ⟨outside, rfl⟩
      simp only [succeeded, reduceCtorEq, inside, false_and]

namespace Machine

variable {Pad : Type}

theorem executeReturn_outcome_error_iff (machine : Machine Pad) (cause : FaultCause) :
    machine.executeReturn.outcome = .error cause ↔
      machine.stack.depth = 0 ∧ cause = .stackEmpty := by
  rw [← machine.stack.pop?_eq_none_iff]
  unfold executeReturn
  cases popped : machine.stack.pop? with
  | none => simp [Effect.fail, eq_comm]
  | some entry => simp [Effect.jump]

theorem executeCall_outcome_error_iff (machine : Machine Pad) (target : Address)
    (cause : FaultCause) :
    (machine.executeCall target).outcome = .error cause ↔
      machine.stack.depth = 16 ∧ cause = .stackFull := by
  rw [← machine.stack.push?_eq_none_iff (ProgramMove.next.apply machine.programCounter)]
  unfold executeCall
  cases pushed : machine.stack.push? (ProgramMove.next.apply machine.programCounter) with
  | none => simp [Effect.fail, eq_comm]
  | some stack => simp [Effect.jump]

variable [Keypad Pad]

theorem execute_outcome_error_iff (machine : Machine Pad) (instruction : Instruction)
    (cause : FaultCause) :
    (machine.execute instruction).outcome = .error cause ↔
      instruction.failure? machine.stack.depth machine.index.toNat = some cause := by
  cases instruction
  case returnFromCall =>
    rw [execute, executeReturn_outcome_error_iff]
    simp only [Instruction.failure?]
    split_ifs with empty <;> simp [empty, eq_comm]
  case call target =>
    rw [execute, executeCall_outcome_error_iff]
    simp only [Instruction.failure?]
    split_ifs with full <;> simp [full, eq_comm]
  case draw column row height =>
    exact Effect.onRange_outcome_error_iff machine _ _ _ _ (fun _sprite => ⟨_, rfl⟩)
      (machine.memory.slice_error_iff _ _) cause
  case storeDecimal source =>
    exact Effect.onRange_outcome_error_iff machine _ _ _ _ (fun _memory => ⟨_, rfl⟩)
      (machine.memory.load_error_iff _ _) cause
  case storeRegisters last =>
    rw [Instruction.failure?, ← machine.length_firstRegisters last]
    exact Effect.onRange_outcome_error_iff machine _ _ _ _ (fun _memory => ⟨_, rfl⟩)
      (machine.memory.load_error_iff _ _) cause
  case loadRegisters last =>
    exact Effect.onRange_outcome_error_iff machine _ _ _ _ (fun _values => ⟨_, rfl⟩)
      (machine.memory.slice_error_iff _ _) cause
  all_goals
    constructor
    · intro impossible
      cases impossible
    · intro impossible
      cases impossible

end Machine

/-! ### The fault of a state -/

namespace Machine

variable {Pad : Type}

def nextWord (machine : Machine Pad) : Word :=
  Word.ofBytes (machine.memory.byteAt machine.programCounter.toNat)
    (machine.memory.byteAt (machine.programCounter.toNat + 1))

/-- The fault that a step ends with, if it does. A waiting machine has none. A
running one first needs a whole word at the program counter. -/
def dueFault (machine : Machine Pad) : Option Fault :=
  match machine.clock with
  | .awaitingKey _ => none
  | .running =>
      if 0xFFE < machine.programCounter.toNat then
        some ⟨machine.programCounter, none, .outOfRange ⟨machine.programCounter.toNat, 2⟩⟩
      else
        (machine.nextWord.failure? machine.stack.depth machine.index.toNat).map
          (fun cause => ⟨machine.programCounter, some machine.nextWord, cause⟩)

theorem fetch_of_inside (machine : Machine Pad) (inside : machine.programCounter.toNat ≤ 0xFFE) :
    machine.memory.fetch machine.programCounter.toNat = .ok machine.nextWord := by
  rw [Memory.fetch_eq, if_pos (Nat.add_le_add_right inside 2)]
  rfl

theorem fetch_of_beyond (machine : Machine Pad) (beyond : 0xFFE < machine.programCounter.toNat) :
    machine.memory.fetch machine.programCounter.toNat =
      .error ⟨machine.programCounter.toNat, 2⟩ := by
  rw [Memory.fetch_eq, if_neg (by omega)]

theorem nextWord_of_fetched (machine : Machine Pad) (word : Word)
    (fetched : machine.memory.fetch machine.programCounter.toNat = .ok word) :
    machine.nextWord = word := by
  by_cases beyond : 0xFFE < machine.programCounter.toNat
  · rw [machine.fetch_of_beyond beyond] at fetched
    cases fetched
  · rw [machine.fetch_of_inside (Nat.le_of_not_lt beyond)] at fetched
    exact Except.ok.inj fetched

variable [Keypad Pad]

theorem step_of_inside (machine : Machine Pad) (running : machine.clock = .running)
    (inside : machine.programCounter.toNat ≤ 0xFFE) :
    machine.step = machine.performWord machine.nextWord :=
  machine.step_of_fetched machine.nextWord running (machine.fetch_of_inside inside)

theorem performWord_outcome_error_iff (machine : Machine Pad) (word : Word) (fault : Fault) :
    (machine.performWord word).outcome = .error fault ↔
      (word.failure? machine.stack.depth machine.index.toNat).map
        (fun cause => (⟨machine.programCounter, some word, cause⟩ : Fault)) = some fault := by
  cases decoded : Instruction.decode word with
  | none =>
      have unsupported := (Instruction.decode_eq_none_iff word).mp decoded
      rw [machine.performWord_of_undecoded word decoded, Word.failure?, if_pos unsupported]
      simp [Machine.fault]
  | some instruction =>
      rw [machine.performWord_of_decoded word instruction decoded,
        word.failure?_of_decode instruction _ _ decoded]
      have failing := (machine.remember word).execute_outcome_error_iff instruction
      cases executed : ((machine.remember word).execute instruction).outcome with
      | error cause =>
          have due := (failing cause).mp executed
          rw [perform_of_failed _ word instruction cause executed]
          change _ ↔ (instruction.failure? (machine.remember word).stack.depth
            (machine.remember word).index.toNat).map _ = _
          rw [due]
          simp [Machine.fault, remember]
      | ok progress =>
          rw [perform_of_executed _ word instruction progress executed]
          have sound : instruction.failure? machine.stack.depth machine.index.toNat = none := by
            cases due : instruction.failure? machine.stack.depth machine.index.toNat with
            | none => rfl
            | some cause =>
                rw [(failing cause).mpr due] at executed
                cases executed
          rw [sound]
          simp

theorem step_outcome_error_iff (machine : Machine Pad) (fault : Fault) :
    machine.step.outcome = .error fault ↔ machine.dueFault = some fault := by
  unfold dueFault
  cases clock : machine.clock with
  | awaitingKey target =>
      obtain ⟨operation, succeeded⟩ := machine.pollKey_succeeds target
      rw [machine.step_of_awaiting target clock, succeeded]
      simp
  | running =>
      by_cases beyond : 0xFFE < machine.programCounter.toNat
      · rw [machine.step_of_refused _ clock (machine.fetch_of_beyond beyond)]
        simp [beyond, Machine.fault]
      · rw [machine.step_of_inside clock (Nat.le_of_not_lt beyond),
          performWord_outcome_error_iff]
        simp only [if_neg beyond]

/-- The exact condition of a failure, for every state, reachable or not: a step
fails with the fault that is due and succeeds where none is. -/
theorem step_fails_exactly_when_due (machine : Machine Pad) :
    (∀ target, machine.clock = .awaitingKey target →
        ∃ operation, machine.step.outcome = .ok operation) ∧
      (∀ fault, machine.step.outcome = .error fault ↔ machine.dueFault = some fault) ∧
      ((∃ operation, machine.step.outcome = .ok operation) ↔ machine.dueFault = none) := by
  refine ⟨?_, machine.step_outcome_error_iff, ?_⟩
  · intro target awaiting
    rw [machine.step_of_awaiting target awaiting]
    exact machine.pollKey_succeeds target
  · have failing := machine.step_outcome_error_iff
    cases outcome : machine.step.outcome with
    | ok operation =>
        cases due : machine.dueFault with
        | none => simp
        | some fault =>
            rw [(failing fault).mpr due] at outcome
            cases outcome
    | error fault =>
        have due := (failing fault).mp outcome
        simp [due]

end Machine

/-! ### Failures recur -/

namespace Machine

variable {Pad : Type}

def recordQuestions (machine : Machine Pad) : Machine (RecordedKeypad Pad) :=
  { machine with keypad := .ofPad machine.keypad }

variable [Keypad Pad]

def stepQuestions (machine : Machine Pad) : List KeypadQuestion :=
  machine.recordQuestions.step.machine.keypad.asked

/-- A fault is due, and the word it tells of is the one remembered. -/
def Stuck (machine : Machine Pad) (fault : Fault) : Prop :=
  machine.dueFault = some fault ∧ fault.word.getD machine.lastWord = machine.lastWord

theorem Stuck.step_eq {machine : Machine Pad} {fault : Fault} (stuck : machine.Stuck fault) :
    machine.step.outcome = .error fault ∧ machine.step.machine = machine := by
  have failed := (machine.step_outcome_error_iff fault).mpr stuck.1
  refine ⟨failed, ?_⟩
  rw [(machine.step_of_fault fault failed).1, stuck.2]
  rfl

theorem Stuck.happen {machine : Machine Pad} {fault : Fault} (stuck : machine.Stuck fault)
    (event : MachineEvent Pad) : (machine.happen event).Stuck fault := by
  cases event with
  | step =>
      change machine.step.machine.Stuck fault
      rw [stuck.step_eq.2]
      exact stuck
  | tickDelay => exact stuck
  | tickSound => exact stuck
  | keypad change => exact stuck

theorem Stuck.after {machine : Machine Pad} {fault : Fault} (stuck : machine.Stuck fault)
    (history : List (MachineEvent Pad)) : (machine.after history).Stuck fault := by
  induction history generalizing machine with
  | nil => exact stuck
  | cons event later ih => exact ih (stuck.happen event)

theorem stuck_of_step_fault (machine : Machine Pad) (fault : Fault)
    (failed : machine.step.outcome = .error fault) : machine.step.machine.Stuck fault := by
  have due := (machine.step_outcome_error_iff fault).mp failed
  rw [(machine.step_of_fault fault failed).1]
  refine ⟨due, ?_⟩
  cases fault.word with
  | none => rfl
  | some word => rfl

omit [Keypad Pad] in
theorem dueFault_word (machine : Machine Pad) (fault : Fault)
    (due : machine.dueFault = some fault) (word : Word) (known : fault.word = some word) :
    machine.programCounter.toNat ≤ 0xFFE ∧ word = machine.nextWord := by
  unfold dueFault at due
  cases clock : machine.clock with
  | awaitingKey target =>
      rw [clock] at due
      cases due
  | running =>
      simp only [clock] at due
      by_cases beyond : 0xFFE < machine.programCounter.toNat
      · rw [if_pos beyond] at due
        cases due
        cases known
      · rw [if_neg beyond] at due
        obtain ⟨cause, _failing, same⟩ := Option.map_eq_some_iff.mp due
        subst fault
        cases known
        exact ⟨Nat.le_of_not_lt beyond, rfl⟩

/-- A step that fails leaves everything as it was but the word fetched last,
asks the keypad nothing, and from then on every step fails in the same way and
changes nothing, whatever happens to the keypad and the timers in between. -/
theorem step_fault_changes_nothing_and_recurs (machine : Machine Pad) (fault : Fault)
    (failed : machine.step.outcome = .error fault) :
    machine.step.machine = { machine with lastWord := fault.word.getD machine.lastWord } ∧
      machine.stepQuestions = [] ∧
      fault.programCounter = machine.programCounter ∧
      (∀ word, fault.word = some word →
        machine.programCounter.toNat ≤ 0xFFE ∧ word = machine.nextWord) ∧
      ∀ history : List (MachineEvent Pad),
        let later := machine.step.machine.after history
        later.step.outcome = .error fault ∧ later.step.machine = later := by
  have due := (machine.step_outcome_error_iff fault).mp failed
  have kept := machine.step_of_fault fault failed
  refine ⟨kept.1, ?_, kept.2, machine.dueFault_word fault due, ?_⟩
  · -- The recording machine has the same due fault, so it is left as it was.
    have failedToo := (machine.recordQuestions.step_outcome_error_iff fault).mpr due
    unfold stepQuestions
    rw [(machine.recordQuestions.step_of_fault fault failedToo).1]
    rfl
  · intro history
    exact ((machine.stuck_of_step_fault fault failed).after history).step_eq

/-- A program that points the index at the last byte of the memory and stores
three digits there. -/
theorem overrunning_store_recurs :
    ∃ start : Machine Keyboard,
      load [0xAF, 0xFF, 0xF0, 0x33] Keyboard.idle (.repeating #[]) = .ok start ∧
      let machine := start.step.machine
      let fault : Fault := ⟨0x202, some 0xF033, .outOfRange ⟨0xFFF, 3⟩⟩
      machine.step.outcome = .error fault ∧
      machine.step.machine = { machine with lastWord := 0xF033 } ∧
      machine.stepQuestions = [] ∧
      ∀ history : List (MachineEvent Keyboard),
        (machine.step.machine.after history).step.outcome = .error fault := by
  obtain ⟨start, started⟩ := (load_ok_iff [0xAF, 0xFF, 0xF0, 0x33] Keyboard.idle
    (.repeating #[])).mpr (by decide)
  have evaluated : (load [0xAF, 0xFF, 0xF0, 0x33] Keyboard.idle (.repeating #[])).toOption.map
      (fun start => start.step.machine.dueFault) =
        some (some ⟨0x202, some 0xF033, .outOfRange ⟨0xFFF, 3⟩⟩) := by
    decide +kernel
  rw [started] at evaluated
  have failed := (step_outcome_error_iff start.step.machine _).mpr (Option.some.inj evaluated)
  obtain ⟨kept, unasked, _place, _word, recurs⟩ :=
    step_fault_changes_nothing_and_recurs start.step.machine _ failed
  exact ⟨start, started, failed, kept, unasked, fun history => (recurs history).1⟩

end Machine

end Chip8
