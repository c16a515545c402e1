import Chip8.Proofs.Executions
import Mathlib.Data.List.Forall2

set_option autoImplicit false

/-! What a program can learn of the times at which the timers fire. Two runs that get
the same answers from their keypads and differ in nothing else but these times go
through the same steps: the sound timer never tells a program anything, and the
delay timer only through the instruction that reads it. -/

namespace Chip8

/-- What two machines may differ in. -/
structure Difference where
  delay : Bool
  sound : Bool
  keypad : Bool

/-- Two machines that are equal in everything else. -/
structure Machine.AgreeBut {Pad : Type} (difference : Difference) (left right : Machine Pad) :
    Prop where
  others : right =
    { left with delay := right.delay, sound := right.sound, keypad := right.keypad }
  delay : difference.delay = false → right.delay = left.delay
  sound : difference.sound = false → right.sound = left.sound
  keypad : difference.keypad = false → right.keypad = left.keypad

structure Effect.AgreeBut {Pad : Type} (difference : Difference) (left right : Effect Pad) :
    Prop where
  machine : left.machine.AgreeBut difference right.machine
  outcome : right.outcome = left.outcome
  journal : right.journal = left.journal

/-- Two steps that end alike, with the same report, and leave machines that agree. -/
structure Turn.AgreeBut {Pad : Type} (difference : Difference) (left right : Turn Pad) :
    Prop where
  machine : left.machine.AgreeBut difference right.machine
  outcome : right.outcome = left.outcome
  journal : right.journal = left.journal

namespace Difference

variable {Pad : Type}

def covers (difference : Difference) : MachineEvent Pad → Bool
  | .step => false
  | .tickDelay => difference.delay
  | .tickSound => difference.sound
  | .keypad _ => difference.keypad

def uncovered (difference : Difference) (history : List (MachineEvent Pad)) :
    List (MachineEvent Pad) :=
  history.filter (fun event => !difference.covers event)

theorem covered_of_uncovered_eq_nil (difference : Difference)
    (history : List (MachineEvent Pad)) (empty : difference.uncovered history = []) :
    ∀ event ∈ history, difference.covers event = true := by
  simpa using List.filter_eq_nil_iff.mp empty

theorem uncovered_cons_of_covered (difference : Difference) (event : MachineEvent Pad)
    (later : List (MachineEvent Pad)) (covered : difference.covers event = true) :
    difference.uncovered (event :: later) = difference.uncovered later :=
  List.filter_cons_of_neg (by simp [covered])

theorem uncovered_cons_of_not_covered (difference : Difference) (event : MachineEvent Pad)
    (later : List (MachineEvent Pad)) (covered : difference.covers event = false) :
    difference.uncovered (event :: later) = event :: difference.uncovered later :=
  List.filter_cons_of_pos (by simp [covered])

theorem split_of_uncovered_eq_cons (difference : Difference) (history : List (MachineEvent Pad))
    (event : MachineEvent Pad) (later : List (MachineEvent Pad))
    (found : difference.uncovered history = event :: later) :
    ∃ before rest, history = before ++ event :: rest ∧
      (∀ other ∈ before, difference.covers other = true) ∧
      difference.uncovered rest = later := by
  obtain ⟨before, rest, split, covered, _uncovered, same⟩ := List.filter_eq_cons_iff.mp found
  refine ⟨before, rest, split, ?_, same⟩
  simpa using covered

end Difference

inductive KeypadAnswer where
  | down (answer : Bool)
  | press (answer : Option Byte)
  deriving DecidableEq, Repr

/-! ### Runs seen from outside -/

namespace Machine

variable {Pad : Type} [Keypad Pad]

def answerTo? (machine : Machine Pad) : Instruction → Option KeypadAnswer
  | .skipIfDown tested =>
      some (.down (Keypad.isDown machine.keypad (machine.register tested)).1)
  | .skipUnlessDown tested =>
      some (.down (Keypad.isDown machine.keypad (machine.register tested)).1)
  | .awaitKey _ => some (.press (Keypad.takePress machine.keypad).1)
  | _ => none

def nextAnswer? (machine : Machine Pad) : Option KeypadAnswer :=
  match machine.clock, machine.memory.fetch machine.programCounter.toNat with
  | .awaitingKey _, _ => some (.press (Keypad.takePress machine.keypad).1)
  | .running, .ok word => (Instruction.decode word).bind machine.answerTo?
  | .running, .error _ => none

def atStep? {Seen : Type} (see : Machine Pad → Option Seen) (machine : Machine Pad) :
    MachineEvent Pad → Option Seen
  | .step => see machine
  | _ => none

/-- What the steps of a history show, first to last. -/
def observations {Seen : Type} (see : Machine Pad → Option Seen) (machine : Machine Pad) :
    List (MachineEvent Pad) → List Seen
  | [] => []
  | event :: later =>
      (atStep? see machine event).toList ++ observations see (machine.happen event) later

def answers (machine : Machine Pad) (history : List (MachineEvent Pad)) : List KeypadAnswer :=
  observations nextAnswer? machine history

def turns (machine : Machine Pad) (history : List (MachineEvent Pad)) : List (Turn Pad) :=
  observations (fun reached => some reached.step) machine history

theorem observations_behind_covered {Seen : Type} (see : Machine Pad → Option Seen)
    (machine : Machine Pad) (difference : Difference) (before rest : List (MachineEvent Pad))
    (covered : ∀ event ∈ before, difference.covers event = true) :
    observations see machine (before ++ rest) = observations see (machine.after before) rest := by
  induction before generalizing machine with
  | nil => rfl
  | cons event later ih =>
      have behind := ih (machine.happen event) (fun other listed =>
        covered other (List.mem_cons_of_mem event listed))
      have here := covered event List.mem_cons_self
      rw [List.cons_append, observations, behind]
      cases event with
      | step => cases here
      | tickDelay => rfl
      | tickSound => rfl
      | keypad change => rfl

end Machine

/-! ### One step -/

theorem Effect.onRange_agree {Pad Granted : Type} {difference : Difference}
    {left right : Machine Pad} (agree : left.AgreeBut difference right)
    (asked : Except OutOfRange Granted) (first second : Granted → Effect Pad)
    (effects : ∀ granted, (first granted).AgreeBut difference (second granted)) :
    (onRange left asked first).AgreeBut difference (onRange right asked second) := by
  cases asked with
  | error range => exact ⟨agree, rfl, rfl⟩
  | ok granted => exact effects granted

namespace Machine

theorem executed?_of_readDelay {Pad : Type} [Keypad Pad] (machine : Machine Pad) (word : Word)
    (target : Register) (running : machine.clock = .running)
    (fetched : machine.memory.fetch machine.programCounter.toNat = .ok word)
    (decoded : Instruction.decode word = some (.readDelay target)) :
    machine.executed? = some (.readDelay target) :=
  machine.executed?_of_executed word _ ⟨.next, .quiet⟩ running fetched decoded rfl

/-- If an instruction ends alike on two machines at the same place, then so does the
step that performs it, and machines it leaves related stay so when the program counter
moves. -/
theorem perform_alike {Pad : Type} [Keypad Pad] (related : Machine Pad → Machine Pad → Prop)
    (left right : Machine Pad) (word : Word) (instruction : Instruction)
    (advances : ∀ before after : Machine Pad, related before after →
      ∀ move, related (before.advance move) (after.advance move))
    (place : right.programCounter = left.programCounter)
    (machine : related (left.execute instruction).machine (right.execute instruction).machine)
    (outcome : (right.execute instruction).outcome = (left.execute instruction).outcome)
    (journal : (right.execute instruction).journal = (left.execute instruction).journal) :
    related (left.perform word instruction).machine (right.perform word instruction).machine ∧
      (right.perform word instruction).outcome = (left.perform word instruction).outcome ∧
      (right.perform word instruction).journal = (left.perform word instruction).journal := by
  cases ended : (left.execute instruction).outcome with
  | error cause =>
      rw [ended] at outcome
      rw [perform_of_failed _ word instruction cause ended,
        perform_of_failed _ word instruction cause outcome, journal]
      unfold fault
      rw [place]
      exact ⟨machine, rfl, rfl⟩
  | ok progress =>
      rw [ended] at outcome
      rw [perform_of_executed _ word instruction progress ended,
        perform_of_executed _ word instruction progress outcome, journal, place]
      exact ⟨advances _ _ machine progress.move, rfl, rfl⟩

namespace AgreeBut

variable {Pad : Type} {difference : Difference} {left right : Machine Pad}

theorem symm (agree : left.AgreeBut difference right) : right.AgreeBut difference left := by
  refine ⟨?_, fun same => (agree.delay same).symm, fun same => (agree.sound same).symm,
    fun same => (agree.keypad same).symm⟩
  rw [agree.others]

theorem of_load (difference : Difference) (program : List Byte) (leftPad rightPad : Pad)
    (random : RandomSource) (differs : leftPad = rightPad ∨ difference.keypad = true)
    (leftStarted : load program leftPad random = .ok left)
    (rightStarted : load program rightPad random = .ok right) :
    left.AgreeBut difference right := by
  unfold load at leftStarted rightStarted
  cases loaded : glyphMemory.load programStart program with
  | error range =>
      rw [loaded] at leftStarted
      cases leftStarted
  | ok memory =>
      rw [loaded] at leftStarted rightStarted
      cases leftStarted
      cases rightStarted
      refine ⟨rfl, fun _same => rfl, fun _same => rfl, ?_⟩
      intro same
      rcases differs with equal | hidden
      · exact equal.symm
      · cases same.symm.trans hidden

theorem remember (agree : left.AgreeBut difference right) (word : Word) :
    (left.remember word).AgreeBut difference (right.remember word) := by
  rw [agree.others]
  exact ⟨rfl, agree.delay, agree.sound, agree.keypad⟩

theorem advance (agree : left.AgreeBut difference right) (move : ProgramMove) :
    (left.advance move).AgreeBut difference (right.advance move) := by
  rw [agree.others]
  exact ⟨rfl, agree.delay, agree.sound, agree.keypad⟩

theorem setFirstRegisters (agree : left.AgreeBut difference right) (values : List Byte) :
    (left.setFirstRegisters values).AgreeBut difference (right.setFirstRegisters values) := by
  constructor
  · rw [agree.others]
    rfl
  · simp only [Machine.setFirstRegisters]
    exact agree.delay
  · simp only [Machine.setFirstRegisters]
    exact agree.sound
  · simp only [Machine.setFirstRegisters]
    exact agree.keypad

variable [Keypad Pad]

theorem executeKeySkip (agree : left.AgreeBut difference right) (tested : Register)
    (wanted : Bool)
    (same : (Keypad.isDown right.keypad (right.register tested)).1 =
      (Keypad.isDown left.keypad (left.register tested)).1) :
    (left.executeKeySkip tested wanted).AgreeBut difference
      (right.executeKeySkip tested wanted) := by
  have register : right.register tested = left.register tested := by rw [agree.others]; rfl
  simp only [Machine.executeKeySkip, same]
  refine ⟨⟨?_, agree.delay, agree.sound, ?_⟩, rfl, rfl⟩
  · rw [agree.others]
    rfl
  · intro shown
    change (Keypad.isDown right.keypad (right.register tested)).2 = _
    rw [agree.keypad shown, register]
    rfl

theorem answerTo? (agree : left.AgreeBut difference right) (instruction : Instruction)
    (answered : difference.keypad = true →
      right.answerTo? instruction = left.answerTo? instruction) :
    right.answerTo? instruction = left.answerTo? instruction := by
  cases same : difference.keypad with
  | true => exact answered same
  | false =>
      rw [agree.others, agree.keypad same]
      cases instruction <;> rfl

/-- An instruction passes neither timer on to the rest of the machine, unless it reads
the delay timer, and of the keypad no more than its answer. -/
theorem execute (agree : left.AgreeBut difference right) (instruction : Instruction)
    (unread : difference.delay = true → ∀ target, instruction ≠ .readDelay target)
    (answered : difference.keypad = true →
      right.answerTo? instruction = left.answerTo? instruction) :
    (left.execute instruction).AgreeBut difference (right.execute instruction) := by
  have answer := agree.answerTo? instruction answered
  have others := agree.others
  generalize right.delay = rightDelay, right.sound = rightSound, right.keypad = rightKeypad
    at others
  subst right
  cases instruction
  case skipIfDown tested =>
    exact agree.executeKeySkip tested true (KeypadAnswer.down.inj (Option.some.inj answer))
  case skipUnlessDown tested =>
    exact agree.executeKeySkip tested false (KeypadAnswer.down.inj (Option.some.inj answer))
  case awaitKey target =>
    refine ⟨⟨rfl, agree.delay, agree.sound, ?_⟩, rfl, rfl⟩
    intro same
    exact congrArg (fun pad => (Keypad.takePress pad).2) (agree.keypad same)
  case readDelay target =>
    cases same : difference.delay with
    | true => exact absurd rfl (unread same target)
    | false =>
        have read : rightDelay = left.delay := agree.delay same
        subst rightDelay
        exact ⟨⟨rfl, agree.delay, agree.sound, agree.keypad⟩, rfl, rfl⟩
  case writeDelay source =>
    exact ⟨⟨rfl, fun _same => rfl, agree.sound, agree.keypad⟩, rfl, rfl⟩
  case writeSound source =>
    exact ⟨⟨rfl, agree.delay, fun _same => rfl, agree.keypad⟩, rfl, rfl⟩
  case returnFromCall =>
    simp only [Machine.execute, executeReturn]
    cases left.stack.pop? <;> exact ⟨⟨rfl, agree.delay, agree.sound, agree.keypad⟩, rfl, rfl⟩
  case call target =>
    simp only [Machine.execute, executeCall]
    cases left.stack.push? (ProgramMove.next.apply left.programCounter) <;>
      exact ⟨⟨rfl, agree.delay, agree.sound, agree.keypad⟩, rfl, rfl⟩
  case draw column row height =>
    apply Effect.onRange_agree agree
    intro _sprite
    exact ⟨⟨rfl, agree.delay, agree.sound, agree.keypad⟩, rfl, rfl⟩
  case storeDecimal source =>
    apply Effect.onRange_agree agree
    intro _memory
    exact ⟨⟨rfl, agree.delay, agree.sound, agree.keypad⟩, rfl, rfl⟩
  case storeRegisters last =>
    apply Effect.onRange_agree agree
    intro _memory
    exact ⟨⟨rfl, agree.delay, agree.sound, agree.keypad⟩, rfl, rfl⟩
  case loadRegisters last =>
    apply Effect.onRange_agree agree
    intro values
    exact ⟨agree.setFirstRegisters values, rfl, rfl⟩
  all_goals exact ⟨⟨rfl, agree.delay, agree.sound, agree.keypad⟩, rfl, rfl⟩

theorem perform (agree : left.AgreeBut difference right) (word : Word)
    (instruction : Instruction)
    (unread : difference.delay = true → ∀ target, instruction ≠ .readDelay target)
    (answered : difference.keypad = true →
      right.answerTo? instruction = left.answerTo? instruction) :
    (left.perform word instruction).AgreeBut difference (right.perform word instruction) := by
  have place : right.programCounter = left.programCounter := by rw [agree.others]
  obtain ⟨machine, outcome, journal⟩ := agree.execute instruction unread answered
  obtain ⟨reached, ended, reported⟩ := perform_alike (AgreeBut difference) left right word
    instruction (fun _before _after same => same.advance) place machine outcome journal
  exact ⟨reached, ended, reported⟩

theorem performWord (agree : left.AgreeBut difference right) (word : Word)
    (unread : difference.delay = true →
      ∀ target, Instruction.decode word ≠ some (.readDelay target))
    (answered : difference.keypad = true →
      (Instruction.decode word).bind right.answerTo? =
        (Instruction.decode word).bind left.answerTo?) :
    (left.performWord word).AgreeBut difference (right.performWord word) := by
  have remembered := agree.remember word
  cases decoded : Instruction.decode word with
  | none =>
      rw [left.performWord_of_undecoded word decoded, right.performWord_of_undecoded word decoded]
      refine ⟨remembered, ?_, rfl⟩
      unfold fault
      rw [agree.others]
  | some instruction =>
      rw [decoded] at unread answered
      rw [left.performWord_of_decoded word instruction decoded,
        right.performWord_of_decoded word instruction decoded]
      apply remembered.perform
      · intro differs target same
        exact unread differs target (congrArg some same)
      · intro differs
        have same := answered differs
        cases instruction <;> exact same

theorem pollKey (agree : left.AgreeBut difference right) (target : Register)
    (answered : difference.keypad = true →
      (Keypad.takePress right.keypad).1 = (Keypad.takePress left.keypad).1) :
    (left.pollKey target).AgreeBut difference (right.pollKey target) := by
  have answer : (Keypad.takePress right.keypad).1 = (Keypad.takePress left.keypad).1 := by
    cases same : difference.keypad with
    | true => exact answered same
    | false => rw [agree.keypad same]
  have later : difference.keypad = false →
      (Keypad.takePress right.keypad).2 = (Keypad.takePress left.keypad).2 := by
    intro same
    rw [agree.keypad same]
  cases polled : (Keypad.takePress left.keypad).1 with
  | none =>
      rw [left.pollKey_of_unpressed target polled,
        right.pollKey_of_unpressed target (answer.trans polled)]
      refine ⟨⟨?_, agree.delay, agree.sound, later⟩, rfl, rfl⟩
      rw [agree.others]
  | some key =>
      rw [left.pollKey_of_pressed target key polled,
        right.pollKey_of_pressed target key (answer.trans polled)]
      refine ⟨⟨?_, agree.delay, agree.sound, later⟩, rfl, rfl⟩
      rw [agree.others]
      rfl

theorem nextAnswer?_isSome (agree : left.AgreeBut difference right) :
    right.nextAnswer?.isSome = left.nextAnswer?.isSome := by
  rw [agree.others]
  unfold nextAnswer?
  simp only
  cases left.clock with
  | awaitingKey target => rfl
  | running =>
      cases left.memory.fetch left.programCounter.toNat with
      | error range => rfl
      | ok word =>
          simp only
          cases Instruction.decode word with
          | none => rfl
          | some instruction => cases instruction <;> rfl

theorem step (agree : left.AgreeBut difference right)
    (unread : difference.delay = true → ∀ execution ∈ left.execution? .step, ∀ target,
      execution.instruction ≠ .readDelay target)
    (answered : difference.keypad = true → right.nextAnswer? = left.nextAnswer?) :
    left.step.AgreeBut difference right.step := by
  have clock : right.clock = left.clock := by rw [agree.others]
  have place : right.programCounter = left.programCounter := by rw [agree.others]
  have memory : right.memory = left.memory := by rw [agree.others]
  unfold nextAnswer? at answered
  rw [clock, place, memory] at answered
  cases state : left.clock with
  | awaitingKey target =>
      rw [state] at clock answered
      rw [left.step_of_awaiting target state, right.step_of_awaiting target clock]
      apply agree.pollKey
      intro differs
      exact KeypadAnswer.press.inj (Option.some.inj (answered differs))
  | running =>
      rw [state] at clock answered
      cases fetched : left.memory.fetch left.programCounter.toNat with
      | error range =>
          have refused : right.memory.fetch right.programCounter.toNat = .error range := by
            rw [memory, place, fetched]
          rw [left.step_of_refused range state fetched, right.step_of_refused range clock refused]
          unfold fault
          rw [place]
          exact ⟨agree, rfl, rfl⟩
      | ok word =>
          have granted : right.memory.fetch right.programCounter.toNat = .ok word := by
            rw [memory, place, fetched]
          rw [fetched] at answered
          rw [left.step_of_fetched word state fetched, right.step_of_fetched word clock granted]
          refine agree.performWord word ?_ answered
          intro differs target decoded
          have read := left.executed?_of_readDelay word target state fetched decoded
          exact unread differs ⟨left, .readDelay target⟩ (by simp [execution?, read]) target rfl

/-! ### Whole histories -/

theorem happen (agree : left.AgreeBut difference right) (event : MachineEvent Pad)
    (unread : difference.delay = true → ∀ execution ∈ left.execution? event, ∀ target,
      execution.instruction ≠ .readDelay target)
    (answered : difference.keypad = true →
      right.atStep? nextAnswer? event = left.atStep? nextAnswer? event) :
    (left.happen event).AgreeBut difference (right.happen event) := by
  cases event with
  | step => exact (agree.step unread answered).machine
  | tickDelay =>
      rw [agree.others]
      refine ⟨rfl, ?_, agree.sound, agree.keypad⟩
      intro same
      exact congrArg (Countdown.tickTimes · 1) (agree.delay same)
  | tickSound =>
      rw [agree.others]
      refine ⟨rfl, agree.delay, ?_, agree.keypad⟩
      intro same
      exact congrArg (Countdown.tickTimes · 1) (agree.sound same)
  | keypad change =>
      rw [agree.others]
      refine ⟨rfl, agree.delay, agree.sound, ?_⟩
      intro same
      exact congrArg change (agree.keypad same)

theorem happen_covered (agree : left.AgreeBut difference right) (event : MachineEvent Pad)
    (covered : difference.covers event = true) :
    left.AgreeBut difference (right.happen event) := by
  rw [agree.others]
  cases event with
  | step => cases covered
  | tickDelay =>
      refine ⟨rfl, ?_, agree.sound, agree.keypad⟩
      intro same
      cases same.symm.trans covered
  | tickSound =>
      refine ⟨rfl, agree.delay, ?_, agree.keypad⟩
      intro same
      cases same.symm.trans covered
  | keypad change =>
      refine ⟨rfl, agree.delay, agree.sound, ?_⟩
      intro same
      cases same.symm.trans covered

theorem after_covered (agree : left.AgreeBut difference right)
    (history : List (MachineEvent Pad))
    (covered : ∀ event ∈ history, difference.covers event = true) :
    left.AgreeBut difference (right.after history) := by
  induction history generalizing right with
  | nil => exact agree
  | cons event later ih =>
      apply ih (agree.happen_covered event (covered event List.mem_cons_self))
      intro other listed
      exact covered other (List.mem_cons_of_mem event listed)

theorem turn (agree : left.AgreeBut difference right) (event : MachineEvent Pad)
    (unread : difference.delay = true → ∀ execution ∈ left.execution? event, ∀ target,
      execution.instruction ≠ .readDelay target)
    (answered : difference.keypad = true →
      right.atStep? nextAnswer? event = left.atStep? nextAnswer? event) :
    List.Forall₂ (Turn.AgreeBut difference)
      (left.atStep? (fun reached => some reached.step) event).toList
      (right.atStep? (fun reached => some reached.step) event).toList := by
  cases event with
  | step => exact .cons (agree.step unread answered) .nil
  | tickDelay => exact .nil
  | tickSound => exact .nil
  | keypad change => exact .nil

theorem answers_split (agree : left.AgreeBut difference right) (event : MachineEvent Pad)
    (leftLater rightLater : List KeypadAnswer)
    (same : (right.atStep? nextAnswer? event).toList ++ rightLater =
      (left.atStep? nextAnswer? event).toList ++ leftLater) :
    right.atStep? nextAnswer? event = left.atStep? nextAnswer? event ∧
      rightLater = leftLater := by
  have asked : (right.atStep? nextAnswer? event).isSome =
      (left.atStep? nextAnswer? event).isSome := by
    cases event with
    | step => exact agree.nextAnswer?_isSome
    | tickDelay => rfl
    | tickSound => rfl
    | keypad change => rfl
  cases there : right.atStep? nextAnswer? event <;>
    cases here : left.atStep? nextAnswer? event <;> simp_all

end AgreeBut

/-- No program learns when the timers fire. Two histories of machines that differ in no
more than their timers and keypads, which differ in no more than when these change,
go through the same steps, if the keypads answer alike and, where the delay timers
may differ, the first history never reads one. Each step ends alike, also by the
same fault, and leaves the machines agreeing. -/
theorem fires_do_not_leak {Pad : Type} [Keypad Pad] (difference : Difference)
    (left right : Machine Pad) (agree : left.AgreeBut difference right)
    (first second : List (MachineEvent Pad))
    (same : difference.uncovered first = difference.uncovered second)
    (unread : difference.delay = true → ∀ execution ∈ left.executions first, ∀ target,
      execution.instruction ≠ .readDelay target)
    (answered : difference.keypad = true → right.answers second = left.answers first) :
    List.Forall₂ (Turn.AgreeBut difference) (left.turns first) (right.turns second) := by
  -- A covered event of the first history leaves the second where it is. Before any other
  -- one the second history catches up through covered events of its own.
  induction first generalizing left right second with
  | nil =>
      have still := observations_behind_covered (fun reached => some reached.step) right difference
        second [] (difference.covered_of_uncovered_eq_nil second same.symm)
      rw [List.append_nil] at still
      unfold turns
      rw [still]
      exact .nil
  | cons event later ih =>
      have unreadApart := fun differs =>
        (left.forall_executions_cons event later _).mp (unread differs)
      have unreadNow := fun differs => (unreadApart differs).1
      have unreadLater := fun differs => (unreadApart differs).2
      cases covered : difference.covers event with
      | true =>
          have behind (Seen : Type) (see : Machine Pad → Option Seen) :
              observations see left (event :: later) =
                observations see (left.happen event) later :=
            observations_behind_covered see left difference [event] later (by simpa using covered)
          unfold turns
          rw [behind]
          apply ih (left.happen event) right (agree.symm.happen_covered event covered).symm second
          · exact (difference.uncovered_cons_of_covered event later covered).symm.trans same
          · exact unreadLater
          · intro differs
            exact (answered differs).trans (behind KeypadAnswer nextAnswer?)
      | false =>
          have shown := difference.uncovered_cons_of_not_covered event later covered
          obtain ⟨before, rest, split, hidden, sameLater⟩ :=
            difference.split_of_uncovered_eq_cons second event _ (same.symm.trans shown)
          subst second
          have caughtUp := agree.after_covered before hidden
          have answeredApart : difference.keypad = true →
              (right.after before).atStep? nextAnswer? event = left.atStep? nextAnswer? event ∧
                ((right.after before).happen event).answers rest =
                  (left.happen event).answers later := by
            intro differs
            have behind := observations_behind_covered nextAnswer? right difference before
              (event :: rest) hidden
            exact caughtUp.answers_split event _ _ (behind.symm.trans (answered differs))
          have answeredNow := fun differs => (answeredApart differs).1
          unfold turns
          rw [observations_behind_covered _ right difference before _ hidden]
          apply List.rel_append (caughtUp.turn event unreadNow answeredNow)
          apply ih _ _ (caughtUp.happen event unreadNow answeredNow) rest sameLater.symm
            unreadLater
          exact fun differs => (answeredApart differs).2

/-- Fires of the sound timer go unnoticed even by a read of the delay timer. Fires of
both and a key that no step asks for go unnoticed until the delay timer is read,
which then tells the fire. -/
theorem fires_go_unnoticed_until_read :
    ∃ start : Machine Keyboard,
      load [0x60, 0x05, 0xF0, 0x15, 0xE1, 0x9E, 0xF2, 0x07] Keyboard.idle (.repeating #[]) =
        .ok start ∧
      List.Forall₂ (Turn.AgreeBut ⟨false, true, false⟩)
        (start.turns [.step, .step, .step, .step])
        (start.turns [.tickSound, .step, .step, .step, .tickSound, .step]) ∧
      List.Forall₂ (Turn.AgreeBut ⟨true, true, true⟩)
        (start.turns [.step, .step, .step])
        (start.turns [.keypad (·.press 7), .step, .step, .tickDelay, .step, .tickSound]) ∧
      (start.after [.step, .step, .step, .step]).register 2 = 5 ∧
      (start.after [.keypad (·.press 7), .step, .step, .tickDelay, .step, .tickSound,
        .step]).register 2 = 4 := by
  obtain ⟨start, started⟩ := (load_ok_iff [0x60, 0x05, 0xF0, 0x15, 0xE1, 0x9E, 0xF2, 0x07]
    Keyboard.idle (.repeating #[])).mpr (by decide)
  have evaluated : (load [0x60, 0x05, 0xF0, 0x15, 0xE1, 0x9E, 0xF2, 0x07] Keyboard.idle
      (.repeating #[])).toOption.map (fun start =>
        let first := [.step, .step, .step]
        let second := [.keypad (·.press 7), .step, .step, .tickDelay, .step, .tickSound]
        ((start.executions first).map Execution.instruction, start.answers first,
          start.answers second, (start.after first).step.machine.register 2,
          (start.after second).step.machine.register 2)) =
      some ([.skipIfDown 1, .writeDelay 0, .setByte 0 5], [.down false], [.down false], 5, 4) := by
    decide +kernel
  rw [started] at evaluated
  simp only [Except.toOption, Option.map_some, Option.some.injEq, Prod.mk.injEq] at evaluated
  obtain ⟨executed, heard, heardAlike, early, late⟩ := evaluated
  have alike (difference : Difference) : start.AgreeBut difference start :=
    .of_load difference _ _ _ _ (.inl rfl) started started
  refine ⟨start, started, ?_, ?_, early, late⟩
  · refine fires_do_not_leak _ start start (alike _) _ _ rfl ?_ ?_
    · intro differs
      cases differs
    · intro differs
      cases differs
  · refine fires_do_not_leak _ start start (alike _) _ _ rfl ?_ ?_
    · intro _differs execution listed target reading
      have instructions := List.mem_map_of_mem (f := Execution.instruction) listed
      rw [executed, reading] at instructions
      simp at instructions
    · intro _differs
      exact heardAlike.trans heard.symm

end Machine

end Chip8
