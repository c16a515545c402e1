import Chip8.Proofs.TimerHistory

set_option autoImplicit false

/-! What a run asks of the keypad and takes from the random bytes. A machine whose
keypad writes down its questions takes the same steps, so the record of a run is
that of the run without it. It has one question for every executed instruction
that asks one and one for every step of a waiting machine, and nothing else. The
place reached in the random bytes is the number of instructions that draw one. -/

namespace Chip8

def Instruction.drawsRandom : Instruction → Bool
  | .random _ _ => true
  | _ => false

/-- What an executed instruction asks the keypad. -/
def Execution.question? {Pad : Type} (execution : Execution Pad) : Option KeypadQuestion :=
  match execution.instruction with
  | .skipIfDown tested => some (.isDown (execution.machine.register tested))
  | .skipUnlessDown tested => some (.isDown (execution.machine.register tested))
  | .awaitKey _ => some .takePress
  | _ => none

def bytesDrawn {Pad : Type} (executions : List (Execution Pad)) : Nat :=
  executions.countP (fun execution => execution.instruction.drawsRandom)

def MachineEvent.recorded {Pad : Type} : MachineEvent Pad → MachineEvent (RecordedKeypad Pad)
  | .step => .step
  | .tickDelay => .tickDelay
  | .tickSound => .tickSound
  | .keypad change => .keypad (fun recorder => ⟨change recorder.pad, recorder.questions⟩)

section Recording

variable {Pad : Type}

/-- The same machine, with the questions asked so far, latest first. -/
def Machine.recordOnto (machine : Machine Pad) (questions : List KeypadQuestion) :
    Machine (RecordedKeypad Pad) :=
  { machine with keypad := ⟨machine.keypad, questions⟩ }

def Effect.recordOnto (effect : Effect Pad) (questions : List KeypadQuestion) :
    Effect (RecordedKeypad Pad) :=
  ⟨effect.machine.recordOnto questions, effect.outcome, effect.journal⟩

def Turn.recordOnto (turn : Turn Pad) (questions : List KeypadQuestion) :
    Turn (RecordedKeypad Pad) :=
  ⟨turn.machine.recordOnto questions, turn.outcome, turn.journal⟩

theorem Effect.onRange_recordOnto {Granted : Type} (machine : Machine Pad)
    (questions : List KeypadQuestion) (asked : Except OutOfRange Granted)
    (recordedEffect : Granted → Effect (RecordedKeypad Pad)) (effect : Granted → Effect Pad)
    (same : ∀ granted, recordedEffect granted = (effect granted).recordOnto questions) :
    Effect.onRange (machine.recordOnto questions) asked recordedEffect =
      (Effect.onRange machine asked effect).recordOnto questions := by
  cases asked with
  | error range => rfl
  | ok granted => exact same granted

theorem Machine.store_recordOnto (machine : Machine Pad) (questions : List KeypadQuestion)
    (content : List Byte) :
    (machine.recordOnto questions).store content = (machine.store content).recordOnto questions :=
  Effect.onRange_recordOnto machine questions (machine.memory.load machine.index.toNat content)
    _ _ (fun _memory => rfl)

theorem Machine.setFirstRegisters_recordOnto (machine : Machine Pad)
    (questions : List KeypadQuestion) (values : List Byte) :
    (machine.recordOnto questions).setFirstRegisters values =
      (machine.setFirstRegisters values).recordOnto questions := by
  simp only [setFirstRegisters, recordOnto, register]

end Recording

namespace Machine

variable {Pad : Type} [Keypad Pad]

def question? (machine : Machine Pad) : Option KeypadQuestion :=
  match machine.clock with
  | .awaitingKey _ => some .takePress
  | .running => machine.executed?.bind (fun instruction =>
      (⟨machine, instruction⟩ : Execution Pad).question?)

end Machine

def MachineMoment.question? {Pad : Type} [Keypad Pad] (moment : MachineMoment Pad) :
    Option KeypadQuestion :=
  match moment.event with
  | .step => moment.machine.question?
  | _ => none

namespace Machine

variable {Pad : Type} [Keypad Pad]

/-! ### Recording changes nothing -/

theorem execute_recordOnto (machine : Machine Pad) (questions : List KeypadQuestion)
    (instruction : Instruction) :
    (machine.recordOnto questions).execute instruction =
      (machine.execute instruction).recordOnto
        ((⟨machine, instruction⟩ : Execution Pad).question?.toList ++ questions) := by
  cases instruction
  case returnFromCall =>
    change executeReturn _ = Effect.recordOnto (executeReturn _) questions
    unfold executeReturn
    cases popped : machine.stack.pop? <;> simp only [recordOnto, popped] <;> rfl
  case call target =>
    change executeCall _ _ = Effect.recordOnto (executeCall _ _) questions
    unfold executeCall
    cases pushed : machine.stack.push? (ProgramMove.next.apply machine.programCounter) <;>
      simp only [recordOnto, pushed] <;> rfl
  case draw column row height =>
    exact Effect.onRange_recordOnto machine questions
      (machine.memory.slice machine.index.toNat height.val) _ _ (fun _sprite => rfl)
  case storeDecimal source =>
    exact machine.store_recordOnto questions (decimalDigits (machine.register source))
  case storeRegisters last => exact machine.store_recordOnto questions (machine.firstRegisters last)
  case loadRegisters last =>
    exact Effect.onRange_recordOnto machine questions
      (machine.memory.slice machine.index.toNat (last.val + 1)) _ _
      (fun values => congrArg Effect.next (machine.setFirstRegisters_recordOnto questions values))
  all_goals rfl

theorem question?_of_failed (machine : Machine Pad) (instruction : Instruction)
    (cause : FaultCause) (failed : (machine.execute instruction).outcome = .error cause) :
    (⟨machine, instruction⟩ : Execution Pad).question? = none := by
  cases instruction <;> first | rfl | cases failed

theorem perform_recordOnto (machine : Machine Pad) (questions : List KeypadQuestion)
    (word : Word) (instruction : Instruction) :
    (machine.recordOnto questions).perform word instruction =
      (machine.perform word instruction).recordOnto
        ((⟨machine, instruction⟩ : Execution Pad).question?.toList ++ questions) := by
  unfold perform
  rw [execute_recordOnto]
  simp only [Effect.recordOnto]
  cases (machine.execute instruction).outcome <;> rfl

theorem pollKey_recordOnto (machine : Machine Pad) (questions : List KeypadQuestion)
    (target : Register) :
    (machine.recordOnto questions).pollKey target =
      (machine.pollKey target).recordOnto (.takePress :: questions) := by
  cases answered : (Keypad.takePress machine.keypad).1 with
  | none =>
      rw [machine.pollKey_of_unpressed target answered,
        pollKey_of_unpressed _ target (by exact answered)]
      rfl
  | some key =>
      rw [machine.pollKey_of_pressed target key answered,
        pollKey_of_pressed _ target key (by exact answered)]
      rfl

theorem executed?_of_fault (machine : Machine Pad) (fault : Fault)
    (failed : machine.step.outcome = .error fault) : machine.executed? = none := by
  unfold executed?
  rw [failed]
  cases machine.clock <;> rfl

theorem question?_of_fault (machine : Machine Pad) (fault : Fault)
    (failed : machine.step.outcome = .error fault) : machine.question? = none := by
  unfold question?
  cases clock : machine.clock with
  | awaitingKey target =>
      obtain ⟨operation, succeeded⟩ := machine.pollKey_succeeds target
      rw [machine.step_of_awaiting target clock, succeeded] at failed
      cases failed
  | running => rw [machine.executed?_of_fault fault failed, Option.bind_none]

theorem question?_of_executed (machine : Machine Pad) (instruction : Instruction)
    (executed : machine.executed? = some instruction) :
    machine.question? = (⟨machine, instruction⟩ : Execution Pad).question? := by
  unfold question?
  cases clock : machine.clock with
  | awaitingKey target =>
      unfold executed? at executed
      rw [clock] at executed
      cases executed
  | running => rw [executed, Option.bind_some]

omit [Keypad Pad] in
theorem question?_remember (machine : Machine Pad) (word : Word) (instruction : Instruction) :
    (⟨machine.remember word, instruction⟩ : Execution Pad).question? =
      (⟨machine, instruction⟩ : Execution Pad).question? := by
  cases instruction <;> rfl

theorem performWord_recordOnto (machine : Machine Pad) (questions : List KeypadQuestion)
    (word : Word) (running : machine.clock = .running)
    (fetched : machine.memory.fetch machine.programCounter.toNat = .ok word) :
    (machine.recordOnto questions).performWord word =
      (machine.performWord word).recordOnto (machine.question?.toList ++ questions) := by
  cases decoded : Instruction.decode word with
  | none =>
      have failed := congrArg Turn.outcome (machine.performWord_of_undecoded word decoded)
      rw [← machine.step_of_fetched word running fetched] at failed
      rw [performWord_of_undecoded _ word decoded, machine.performWord_of_undecoded word decoded,
        machine.question?_of_fault _ failed]
      rfl
  | some instruction =>
      rw [performWord_of_decoded _ word instruction decoded,
        machine.performWord_of_decoded word instruction decoded]
      change ((machine.remember word).recordOnto questions).perform word instruction = _
      rw [perform_recordOnto, question?_remember]
      -- The instruction asks as the step does, if it fails because both ask nothing.
      cases executed : ((machine.remember word).execute instruction).outcome with
      | ok progress =>
          have executes := machine.executed?_of_executed word instruction progress running fetched
            decoded executed
          rw [machine.question?_of_executed instruction executes]
      | error cause =>
          have unasked := question?_of_failed _ instruction cause executed
          rw [question?_remember] at unasked
          have failed : machine.step.outcome =
              .error ((machine.remember word).fault (some word) cause) := by
            rw [machine.step_of_fetched word running fetched,
              machine.performWord_of_decoded word instruction decoded,
              perform_of_failed _ word instruction cause executed]
          rw [unasked, machine.question?_of_fault _ failed]

theorem step_recordOnto (machine : Machine Pad) (questions : List KeypadQuestion) :
    (machine.recordOnto questions).step =
      machine.step.recordOnto (machine.question?.toList ++ questions) := by
  cases clock : machine.clock with
  | awaitingKey target =>
      have asks : machine.question? = some .takePress := by
        unfold question?
        rw [clock]
      rw [machine.step_of_awaiting target clock, step_of_awaiting _ target (by exact clock),
        pollKey_recordOnto, asks]
      rfl
  | running =>
      cases fetched : machine.memory.fetch machine.programCounter.toNat with
      | error range =>
          have refused := machine.step_of_refused range clock fetched
          rw [machine.question?_of_fault _ (congrArg Turn.outcome refused), refused,
            step_of_refused _ range (by exact clock) (by exact fetched)]
          rfl
      | ok word =>
          rw [machine.step_of_fetched word clock fetched,
            step_of_fetched _ word (by exact clock) (by exact fetched),
            machine.performWord_recordOnto questions word clock fetched]

theorem happen_recordOnto (machine : Machine Pad) (questions : List KeypadQuestion)
    (event : MachineEvent Pad) :
    (machine.recordOnto questions).happen event.recorded =
      (machine.happen event).recordOnto
        ((⟨machine, event⟩ : MachineMoment Pad).question?.toList ++ questions) := by
  cases event with
  | step => exact congrArg Turn.machine (machine.step_recordOnto questions)
  | tickDelay => rfl
  | tickSound => rfl
  | keypad change => rfl

theorem after_recordQuestions (machine : Machine Pad) (history : List (MachineEvent Pad)) :
    machine.recordQuestions.after (history.map .recorded) =
      (machine.after history).recordOnto
        ((machine.moments history).filterMap MachineMoment.question?) := by
  induction history using List.reverseRecOn with
  | nil => rfl
  | append_singleton earlier event ih =>
      rw [List.map_append, after_append, ih, List.map_singleton, after_cons, after_nil,
        happen_recordOnto, after_append, moments_append_singleton, List.filterMap_cons]
      cases (⟨machine.after earlier, event⟩ : MachineMoment Pad).question? <;> rfl

/-! ### Random bytes -/

theorem execute_random (machine : Machine Pad) (instruction : Instruction) :
    (machine.execute instruction).machine.random =
      if instruction.drawsRandom then machine.random.advance else machine.random := by
  cases instruction
  case returnFromCall =>
    exact executeReturn_keeps Machine.random machine (fun _stack => rfl)
  case call target =>
    exact executeCall_keeps Machine.random machine target (fun _stack => rfl)
  case draw column row height =>
    exact Effect.onRange_keeps Machine.random machine _ _ (fun _sprite => rfl)
  case storeDecimal source =>
    exact Effect.onRange_keeps Machine.random machine _ _ (fun _memory => rfl)
  case storeRegisters last =>
    exact Effect.onRange_keeps Machine.random machine _ _ (fun _memory => rfl)
  case loadRegisters last =>
    apply Effect.onRange_keeps Machine.random
    intro _values
    simp only [Effect.next, setFirstRegisters]
  all_goals rfl

theorem random_of_executed (machine : Machine Pad) (instruction : Instruction)
    (executed : machine.executed? = some instruction) :
    machine.step.machine.random =
      if instruction.drawsRandom then machine.random.advance else machine.random := by
  obtain ⟨progress, _effect, _outcome, next⟩ := machine.step_of_executed instruction executed
  rw [next]
  exact (machine.remember machine.nextWord).execute_random instruction

theorem random_of_idle (machine : Machine Pad) (event : MachineEvent Pad)
    (idle : machine.execution? event = none) : (machine.happen event).random = machine.random := by
  cases event with
  | step =>
      obtain ⟨_, _, _, _, _, same⟩ := machine.step_of_idle (Option.map_eq_none_iff.mp idle)
      change machine.step.machine.random = _
      rw [same]
  | tickDelay => rfl
  | tickSound => rfl
  | keypad change => rfl

theorem random_after (start : Machine Pad) (history : List (MachineEvent Pad)) :
    (start.after history).random =
      { start.random with
        position := start.random.position + bytesDrawn (start.executions history) } := by
  refine start.after_induction
    (fun machine executions => machine.random =
      { start.random with position := start.random.position + bytesDrawn executions })
    rfl ?_ ?_ history
  · intro machine executions event ih idle
    rw [machine.random_of_idle event idle, ih]
  · intro machine executions instruction ih executed
    rw [machine.random_of_executed instruction executed, ih]
    unfold bytesDrawn
    rw [List.countP_cons]
    cases instruction.drawsRandom <;> rfl

/-! ### Answers -/

theorem step_of_random (machine : Machine Pad) (target : Register) (mask : Byte)
    (executed : machine.executed? = some (.random target mask)) (number : Register) :
    machine.step.machine.register number =
      if target = number then machine.random.next &&& mask else machine.register number := by
  obtain ⟨progress, _effect, _outcome, next⟩ := machine.step_of_executed _ executed
  rw [next]
  exact register_setRegister _ target number _

/-- The answer to the question at the start of a wait is not used. -/
theorem step_of_awaitKey (machine : Machine Pad) (target : Register)
    (executed : machine.executed? = some (.awaitKey target)) :
    machine.step.machine =
      { machine with
        lastWord := machine.nextWord
        keypad := (Keypad.takePress machine.keypad).2
        clock := .awaitingKey target } := by
  obtain ⟨progress, effect, _outcome, next⟩ := machine.step_of_executed _ executed
  cases effect
  exact next

theorem step_of_poll (machine : Machine Pad) (target : Register)
    (awaiting : machine.clock = .awaitingKey target) :
    let press := Keypad.takePress machine.keypad
    (press.1 = none → machine.step.machine = { machine with keypad := press.2 }) ∧
      ∀ key, press.1 = some key → ∀ number, machine.step.machine.register number =
        if target = number then key else machine.register number := by
  rw [machine.step_of_awaiting target awaiting]
  refine ⟨?_, ?_⟩
  · intro unpressed
    rw [machine.pollKey_of_unpressed target unpressed]
  · intro key pressed number
    rw [machine.pollKey_of_pressed target key pressed]
    exact register_setRegister _ target number key

theorem stepQuestions_eq (machine : Machine Pad) :
    machine.stepQuestions = machine.question?.toList := by
  have recorded := congrArg (fun turn => turn.machine.keypad.questions)
    (machine.step_recordOnto [])
  change (recordQuestions machine).step.machine.keypad.questions.reverse = _
  change (recordQuestions machine).step.machine.keypad.questions =
    machine.question?.toList ++ [] at recorded
  rw [recorded, List.append_nil]
  cases machine.question? <;> rfl

/-- The keypad is asked whether the key is down that a register names, once for each
executed skip on a key, and for a press, once for each executed wait and for each
step of a waiting machine. The answer at the start of a wait is not used, and the
one that ends a wait is stored as it is. The bytes drawn are the first ones of the
stream, one for each executed instruction that draws. A step that fails asks and
draws nothing. -/
theorem run_asks_and_draws_by_instruction (program : List Byte) (keypad : Pad)
    (stream : Nat → Byte) (start : Machine Pad)
    (started : load program keypad ⟨stream, 0⟩ = .ok start)
    (history : List (MachineEvent Pad)) :
    let reached := start.after history
    let recorded := start.recordQuestions.after (history.map .recorded)
    let next := reached.step.machine
    let press := Keypad.takePress reached.keypad
    let drawn := bytesDrawn (start.executions history)
    recorded = reached.recordOnto recorded.keypad.questions ∧
      recorded.keypad.asked =
        (start.moments history).reverse.filterMap MachineMoment.question? ∧
      (∀ target, reached.executed? = some (.awaitKey target) →
        next =
          { reached with
            lastWord := reached.nextWord
            keypad := press.2
            clock := .awaitingKey target }) ∧
      (∀ target, reached.clock = .awaitingKey target →
        (press.1 = none → next = { reached with keypad := press.2 }) ∧
          ∀ key, press.1 = some key → ∀ number,
            next.register number = if target = number then key else reached.register number) ∧
      reached.random = ⟨stream, drawn⟩ ∧
      (∀ target mask, reached.executed? = some (.random target mask) →
        next.random = ⟨stream, drawn + 1⟩ ∧ ∀ number, next.register number =
          if target = number then stream drawn &&& mask else reached.register number) ∧
      ∀ fault, reached.step.outcome = .error fault →
        reached.stepQuestions = [] ∧ next.random = reached.random := by
  intro reached recorded next press drawn
  have record : recorded = reached.recordOnto
      ((start.moments history).filterMap MachineMoment.question?) :=
    start.after_recordQuestions history
  have position : reached.random = ⟨stream, drawn⟩ := by
    have atStart : start.random = ⟨stream, 0⟩ := by
      rw [fresh_of_load program keypad _ start started]
    have placed := start.random_after history
    rw [atStart, Nat.zero_add] at placed
    exact placed
  refine ⟨by rw [record]; rfl, ?_, reached.step_of_awaitKey, reached.step_of_poll, position, ?_, ?_⟩
  · rw [record, List.filterMap_reverse]
    rfl
  · intro target mask executed
    have drawing := reached.random_of_executed _ executed
    refine ⟨?_, ?_⟩
    · rw [drawing, position]
      rfl
    · intro number
      rw [reached.step_of_random target mask executed number, position]
      rfl
  · intro fault failed
    refine ⟨?_, ?_⟩
    · rw [stepQuestions_eq, reached.question?_of_fault fault failed]
      rfl
    · change reached.step.machine.random = reached.random
      rw [(reached.step_of_fault fault failed).1]
      rfl

/-- A random byte names the key that is asked for, though no key has that number.
The press from before the wait is given away, and the next one is stored as it is. -/
theorem scripted_answers_are_used_in_order :
    ∃ start : Machine ScriptedKeypad,
      load [0xC0, 0x3F, 0xE0, 0x9E, 0xF1, 0x0A] ⟨[], [some 5, some 0xAB]⟩
        ⟨fun place => 0xD5 + UInt8.ofNat place, 0⟩ = .ok start ∧
      let history : List (MachineEvent ScriptedKeypad) := [.step, .step, .step]
      (start.recordQuestions.after (history.map .recorded)).keypad.asked =
          [.isDown 0x15, .takePress] ∧
        (start.after history).random.position = 1 ∧
        (start.after history).step.machine.register 1 = 0xAB := by
  let keypad : ScriptedKeypad := ⟨[], [some 5, some 0xAB]⟩
  let stream : Nat → Byte := fun place => 0xD5 + UInt8.ofNat place
  obtain ⟨start, started⟩ := (load_ok_iff [0xC0, 0x3F, 0xE0, 0x9E, 0xF1, 0x0A] keypad
    ⟨stream, 0⟩).mpr (by decide)
  have evaluated : (load [0xC0, 0x3F, 0xE0, 0x9E, 0xF1, 0x0A] keypad
      ⟨stream, 0⟩).toOption.map (fun start =>
        let history : List (MachineEvent ScriptedKeypad) := [.step, .step, .step]
        let reached := start.after history
        ((start.moments history).reverse.filterMap MachineMoment.question?,
          bytesDrawn (start.executions history), reached.clock,
          (Keypad.takePress reached.keypad).1)) =
      some ([.isDown 0x15, .takePress], 1, .awaitingKey 1, some 0xAB) := by
    decide +kernel
  rw [started] at evaluated
  simp only [Except.toOption, Option.map_some, Option.some.injEq, Prod.mk.injEq] at evaluated
  obtain ⟨asked, drawn, awaiting, answer⟩ := evaluated
  obtain ⟨_same, questions, _wait, poll, position, _draws, _faults⟩ :=
    run_asks_and_draws_by_instruction _ keypad stream start started [.step, .step, .step]
  refine ⟨start, started, questions.trans asked, ?_, (poll 1 awaiting).2 0xAB answer 1⟩
  rw [position]
  exact drawn

end Machine

end Chip8
