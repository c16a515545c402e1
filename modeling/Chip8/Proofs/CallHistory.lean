import Chip8.Proofs.Executions

set_option autoImplicit false

/-! The stack as a function of what was executed. Calls open and returns close, as
brackets do. At every time the stack holds the return addresses of the calls that
are not closed yet, whatever was jumped to, waited for or refused in between. -/

namespace Chip8

namespace Execution

variable {Pad : Type}

def isCall (execution : Execution Pad) : Bool :=
  match execution.instruction with
  | .call _ => true
  | _ => false

def isReturn (execution : Execution Pad) : Bool :=
  match execution.instruction with
  | .returnFromCall => true
  | _ => false

theorem isCall_iff (execution : Execution Pad) :
    execution.isCall = true ↔ ∃ target, execution.instruction = .call target := by
  unfold isCall
  cases execution.instruction <;> simp

theorem isReturn_iff (execution : Execution Pad) :
    execution.isReturn = true ↔ execution.instruction = .returnFromCall := by
  unfold isReturn
  cases execution.instruction <;> simp

theorem isReturn_of_isCall (execution : Execution Pad) (calls : execution.isCall = true) :
    execution.isReturn = false := by
  obtain ⟨target, same⟩ := execution.isCall_iff.mp calls
  unfold isReturn
  rw [same]

theorem isCall_of_isReturn (execution : Execution Pad) (returns : execution.isReturn = true) :
    execution.isCall = false := by
  unfold isCall
  rw [execution.isReturn_iff.mp returns]

end Execution

/-! ### Matching calls and returns

Executions are listed oldest first here. -/

section Matching

variable {Pad : Type}

/-- Every call has its return among the executions, and every return its call. -/
inductive Balanced : List (Execution Pad) → Prop where
  | nil : Balanced []
  | other (execution : Execution Pad) (rest : List (Execution Pad))
      (noCall : execution.isCall = false) (noReturn : execution.isReturn = false)
      (behind : Balanced rest) : Balanced (execution :: rest)
  | pair (call back : Execution Pad) (inner rest : List (Execution Pad))
      (calls : call.isCall = true) (returns : back.isReturn = true)
      (inside : Balanced inner) (behind : Balanced rest) :
      Balanced (call :: (inner ++ back :: rest))

/-- A call followed by these executions has its return among them. -/
def Returned (later : List (Execution Pad)) : Prop :=
  ∃ inner back rest, later = inner ++ back :: rest ∧ Balanced inner ∧ back.isReturn = true

/-- Whether a call has its return among these executions, if so many calls behind
it are open. -/
def hasReturn (depth : Nat) : List (Execution Pad) → Bool
  | [] => false
  | execution :: later =>
      if execution.isReturn then depth == 0 || hasReturn (depth - 1) later
      else if execution.isCall then hasReturn (depth + 1) later
      else hasReturn depth later

/-- So many calls and one more have their returns, one behind the other. -/
inductive ReturnedTimes : Nat → List (Execution Pad) → Prop where
  | last (inner : List (Execution Pad)) (back : Execution Pad) (rest : List (Execution Pad))
      (inside : Balanced inner) (returns : back.isReturn = true) :
      ReturnedTimes 0 (inner ++ back :: rest)
  | more (depth : Nat) (inner : List (Execution Pad)) (back : Execution Pad)
      (rest : List (Execution Pad)) (inside : Balanced inner) (returns : back.isReturn = true)
      (others : ReturnedTimes depth rest) : ReturnedTimes (depth + 1) (inner ++ back :: rest)

theorem Balanced.append {first second : List (Execution Pad)} (before : Balanced first)
    (behind : Balanced second) : Balanced (first ++ second) := by
  induction before with
  | nil => exact behind
  | other execution rest noCall noReturn _behind ih => exact .other _ _ noCall noReturn ih
  | pair call back inner rest calls returns inside _behind _ihInside ihBehind =>
      rw [List.cons_append, List.append_assoc, List.cons_append]
      exact .pair call back inner _ calls returns inside ihBehind

theorem ReturnedTimes.behind {depth : Nat} {first later : List (Execution Pad)}
    (before : Balanced first) (returned : ReturnedTimes depth later) :
    ReturnedTimes depth (first ++ later) := by
  cases returned with
  | last inner back rest inside returns =>
      rw [← List.append_assoc]
      exact .last (first ++ inner) back rest (before.append inside) returns
  | more below inner back rest inside returns others =>
      rw [← List.append_assoc]
      exact .more below (first ++ inner) back rest (before.append inside) returns others

theorem returnedTimes_of_hasReturn (later : List (Execution Pad)) (depth : Nat)
    (found : hasReturn depth later = true) : ReturnedTimes depth later := by
  induction later generalizing depth with
  | nil => cases found
  | cons execution later ih =>
      rw [hasReturn] at found
      cases returns : execution.isReturn with
      | true =>
          rw [if_pos returns] at found
          cases depth with
          | zero => exact .last [] execution later .nil returns
          | succ below => exact .more below [] execution later .nil returns (ih below found)
      | false =>
          rw [if_neg (Bool.eq_false_iff.mp returns)] at found
          cases calls : execution.isCall with
          | false =>
              rw [if_neg (Bool.eq_false_iff.mp calls)] at found
              exact (ih depth found).behind (.other execution [] calls returns .nil)
          | true =>
              rw [if_pos calls] at found
              cases ih (depth + 1) found with
              | more _ inner back rest inside closes others =>
                  -- The call and its return are one balanced part in front of the others.
                  have closed := others.behind
                    (.pair execution back inner [] calls closes inside .nil)
                  rw [List.cons_append, List.append_assoc] at closed
                  exact closed

theorem hasReturn_balanced_append (inner later : List (Execution Pad)) (depth : Nat)
    (balanced : Balanced inner) : hasReturn depth (inner ++ later) = hasReturn depth later := by
  induction balanced generalizing later depth with
  | nil => rfl
  | other execution rest noCall noReturn _behind ih =>
      rw [List.cons_append, hasReturn, if_neg (Bool.eq_false_iff.mp noReturn),
        if_neg (Bool.eq_false_iff.mp noCall)]
      exact ih later depth
  | pair call back inner rest calls returns _inside _behind ihInside ihBehind =>
      have opens : hasReturn depth (call :: (inner ++ back :: rest) ++ later) =
          hasReturn (depth + 1) (inner ++ (back :: (rest ++ later))) := by
        rw [List.cons_append, List.append_assoc, List.cons_append, hasReturn,
          if_neg (Bool.eq_false_iff.mp (call.isReturn_of_isCall calls)), if_pos calls]
      rw [opens, ihInside, hasReturn, if_pos returns]
      exact ihBehind later depth

theorem returned_iff_hasReturn (later : List (Execution Pad)) :
    Returned later ↔ hasReturn 0 later = true := by
  constructor
  · rintro ⟨inner, back, rest, split, balanced, returns⟩
    rw [split, hasReturn_balanced_append inner _ 0 balanced, hasReturn, if_pos returns]
    rfl
  · intro found
    cases returnedTimes_of_hasReturn later 0 found with
    | last inner back rest inside returns => exact ⟨inner, back, rest, rfl, inside, returns⟩

instance (later : List (Execution Pad)) : Decidable (Returned later) :=
  decidable_of_iff (hasReturn 0 later = true) (returned_iff_hasReturn later).symm

/-- The calls that have no return among the executions behind them. -/
def openCalls : List (Execution Pad) → List (Execution Pad)
  | [] => []
  | execution :: later =>
      if execution.isCall = true ∧ ¬ Returned later then execution :: openCalls later
      else openCalls later

theorem not_returned_of_balanced {inner : List (Execution Pad)} (balanced : Balanced inner) :
    ¬ Returned inner := by
  have scanned := hasReturn_balanced_append inner [] 0 balanced
  rw [List.append_nil] at scanned
  rw [returned_iff_hasReturn, scanned]
  exact Bool.false_ne_true

theorem Returned.append {later : List (Execution Pad)} (returned : Returned later)
    (others : List (Execution Pad)) : Returned (later ++ others) := by
  obtain ⟨inner, back, rest, split, balanced, returns⟩ := returned
  refine ⟨inner, back, rest ++ others, ?_, balanced, returns⟩
  rw [split, List.append_assoc, List.cons_append]

theorem returned_append_singleton_iff (later : List (Execution Pad)) (latest : Execution Pad) :
    Returned (later ++ [latest]) ↔
      Returned later ∨ (Balanced later ∧ latest.isReturn = true) := by
  constructor
  · rintro ⟨inner, back, rest, split, balanced, returns⟩
    rcases List.eq_nil_or_concat rest with rfl | ⟨others, last, rfl⟩
    · obtain ⟨sameInner, sameBack⟩ := List.append_inj' split rfl
      rw [sameInner, List.head_eq_of_cons_eq sameBack]
      exact Or.inr ⟨balanced, returns⟩
    · rw [List.concat_eq_append, ← List.cons_append, ← List.append_assoc] at split
      obtain ⟨sameLater, _sameLast⟩ := List.append_inj' split rfl
      exact Or.inl ⟨inner, back, others, sameLater, balanced, returns⟩
  · rintro (returned | ⟨balanced, returns⟩)
    · exact returned.append [latest]
    · exact ⟨later, latest, [], rfl, balanced, returns⟩

theorem openCalls_append_of_closed (first second : List (Execution Pad))
    (closed : openCalls first = []) : openCalls (first ++ second) = openCalls second := by
  induction first with
  | nil => rfl
  | cons execution later ih =>
      unfold openCalls at closed
      split_ifs at closed with stays
      have answered : ¬ (execution.isCall = true ∧ ¬ Returned (later ++ second)) :=
        fun stillOpen => stays ⟨stillOpen.1, fun returned => stillOpen.2 (returned.append second)⟩
      rw [List.cons_append, openCalls, if_neg answered]
      exact ih closed

theorem openCalls_of_append (first second : List (Execution Pad)) :
    ∃ older, openCalls (first ++ second) = older ++ openCalls second := by
  induction first with
  | nil => exact ⟨[], rfl⟩
  | cons execution later ih =>
      obtain ⟨older, same⟩ := ih
      rw [List.cons_append, openCalls, same]
      split_ifs
      · exact ⟨execution :: older, rfl⟩
      · exact ⟨older, rfl⟩

theorem openCalls_of_balanced {inner : List (Execution Pad)} (balanced : Balanced inner) :
    openCalls inner = [] := by
  induction balanced with
  | nil => rfl
  | other execution rest noCall _noReturn _behind ih =>
      rw [openCalls, if_neg (by simp [noCall])]
      exact ih
  | pair call back inner rest _calls returns inside _behind ihInside ihBehind =>
      have returned : Returned (inner ++ back :: rest) := ⟨inner, back, rest, rfl, inside, returns⟩
      rw [openCalls, if_neg (fun stays => stays.2 returned),
        openCalls_append_of_closed inner _ ihInside, openCalls,
        if_neg (by simp [back.isCall_of_isReturn returns])]
      exact ihBehind

theorem balanced_of_closed (executions : List (Execution Pad)) (closed : openCalls executions = [])
    (unreturned : ¬ Returned executions) : Balanced executions := by
  match executions with
  | [] => exact .nil
  | execution :: later =>
      unfold openCalls at closed
      split_ifs at closed with stays
      cases returns : execution.isReturn with
      | true => exact absurd ⟨[], execution, later, rfl, .nil, returns⟩ unreturned
      | false =>
          cases calls : execution.isCall with
          | false =>
              refine .other execution later calls returns (balanced_of_closed later closed ?_)
              rintro ⟨inner, back, rest, split, balanced, closes⟩
              refine unreturned ⟨execution :: inner, back, rest, ?_, ?_, closes⟩
              · rw [split, List.cons_append]
              · exact .other execution inner calls returns balanced
          | true =>
              have returned : Returned later :=
                Decidable.byContradiction (fun missing => stays ⟨calls, missing⟩)
              obtain ⟨inner, back, rest, split, balanced, closes⟩ := returned
              have shorter : rest.length < (execution :: later).length := by
                rw [split, List.length_cons, List.length_append, List.length_cons]
                omega
              have closedRest : openCalls rest = [] := by
                obtain ⟨older, same⟩ := openCalls_of_append (inner ++ [back]) rest
                rw [List.append_assoc, List.singleton_append, ← split, closed] at same
                exact (List.append_eq_nil_iff.mp same.symm).2
              rw [split]
              refine .pair execution back inner rest calls closes balanced
                (balanced_of_closed rest closedRest ?_)
              rintro ⟨second, last, others, splitRest, balancedSecond, closesLast⟩
              refine unreturned ⟨execution :: (inner ++ back :: second), last, others, ?_, ?_,
                closesLast⟩
              · rw [split, splitRest, List.cons_append, List.append_assoc, List.cons_append]
              · exact .pair execution back inner second calls closes balanced balancedSecond
termination_by executions.length

theorem openCalls_append_of_not_return (executions : List (Execution Pad))
    (latest : Execution Pad) (noReturn : latest.isReturn = false) :
    openCalls (executions ++ [latest]) =
      openCalls executions ++ if latest.isCall then [latest] else [] := by
  induction executions with
  | nil =>
      have unanswered : ¬ Returned ([] : List (Execution Pad)) := not_returned_of_balanced .nil
      simp [openCalls, unanswered]
  | cons execution later ih =>
      have same : Returned (later ++ [latest]) ↔ Returned later := by
        rw [returned_append_singleton_iff, noReturn]
        simp
      simp only [List.cons_append, openCalls, same, ih]
      split_ifs <;> rfl

theorem openCalls_append_of_return (executions : List (Execution Pad))
    (latest : Execution Pad) (returns : latest.isReturn = true) :
    openCalls (executions ++ [latest]) = (openCalls executions).dropLast := by
  induction executions with
  | nil => simp [openCalls, latest.isCall_of_isReturn returns]
  | cons execution later ih =>
      have answered : Returned (later ++ [latest]) ↔ Returned later ∨ Balanced later := by
        rw [returned_append_singleton_iff, and_iff_left returns]
      rw [List.cons_append, openCalls, openCalls, ih]
      by_cases stays : execution.isCall = true ∧ ¬ Returned later
      · rw [if_pos stays]
        by_cases balanced : Balanced later
        · rw [if_neg (fun stillOpen => stillOpen.2 (answered.mpr (Or.inr balanced))),
            openCalls_of_balanced balanced]
          rfl
        · have others : openCalls later ≠ [] :=
            fun closed => balanced (balanced_of_closed later closed stays.2)
          rw [if_pos ⟨stays.1, fun returned => (answered.mp returned).elim stays.2 balanced⟩,
            List.dropLast_cons_of_ne_nil others]
      · rw [if_neg stays, if_neg (fun stillOpen => stays ⟨stillOpen.1, fun returned =>
          stillOpen.2 (answered.mpr (Or.inl returned))⟩)]

/-- The call that a return right behind these executions would close. -/
def NextClosed (executions : List (Execution Pad)) (call : Execution Pad) : Prop :=
  ∃ before inner, executions = before ++ call :: inner ∧ call.isCall = true ∧ Balanced inner

theorem nextClosed_iff (executions : List (Execution Pad)) (call : Execution Pad) :
    NextClosed executions call ↔ (openCalls executions).getLast? = some call := by
  constructor
  · rintro ⟨before, inner, split, calls, balanced⟩
    obtain ⟨older, same⟩ := openCalls_of_append before (call :: inner)
    rw [split, same, openCalls, if_pos ⟨calls, not_returned_of_balanced balanced⟩,
      openCalls_of_balanced balanced, List.getLast?_concat]
  · intro last
    induction executions with
    | nil => cases last
    | cons execution later ih =>
        unfold openCalls at last
        by_cases others : openCalls later = []
        · split_ifs at last with stays
          · rw [others] at last
            cases last
            exact ⟨[], later, rfl, stays.1, balanced_of_closed later others stays.2⟩
          · rw [others] at last
            cases last
        · have lastLater : (openCalls later).getLast? = some call := by
            split_ifs at last
            · rw [← List.getLast?_cons_of_ne_nil others]
              exact last
            · exact last
          obtain ⟨before, inner, split, calls, balanced⟩ := ih lastLater
          exact ⟨execution :: before, inner, congrArg (execution :: ·) split, calls, balanced⟩

end Matching

/-! ### The stack of a machine -/

namespace Execution

variable {Pad : Type}

def returnPlace (execution : Execution Pad) : Nat :=
  execution.machine.programCounter.toNat + 2

end Execution

namespace Machine

variable {Pad : Type} [Keypad Pad]

theorem programCounter_of_executed (machine : Machine Pad) (instruction : Instruction)
    (executed : machine.executed? = some instruction) :
    machine.programCounter.toNat ≤ 0xFFE := by
  obtain ⟨progress, _effect, succeeded, _next⟩ := machine.step_of_executed instruction executed
  apply Nat.le_of_not_lt
  intro beyond
  unfold executed? at executed
  cases clock : machine.clock with
  | awaitingKey target =>
      rw [clock] at executed
      cases executed
  | running =>
      rw [machine.step_of_refused _ clock (machine.fetch_of_beyond beyond)] at succeeded
      cases succeeded

theorem execute_stack (machine : Machine Pad) (instruction : Instruction)
    (noCall : (⟨machine, instruction⟩ : Execution Pad).isCall = false)
    (noReturn : (⟨machine, instruction⟩ : Execution Pad).isReturn = false) :
    (machine.execute instruction).machine.stack = machine.stack := by
  cases ordinary : instruction.changesControl with
  | false => exact congrArg Control.stack (machine.execute_control instruction ordinary)
  | true =>
      cases instruction
      case returnFromCall => cases noReturn
      case call target => cases noCall
      case awaitKey target => rfl
      all_goals cases ordinary

theorem step_stack_of_other (machine : Machine Pad) (instruction : Instruction)
    (executed : machine.executed? = some instruction)
    (noCall : (⟨machine, instruction⟩ : Execution Pad).isCall = false)
    (noReturn : (⟨machine, instruction⟩ : Execution Pad).isReturn = false) :
    machine.step.machine.stack = machine.stack := by
  obtain ⟨progress, _effect, _outcome, next⟩ := machine.step_of_executed instruction executed
  rw [next]
  exact (machine.remember machine.nextWord).execute_stack instruction noCall noReturn

theorem happen_stack_of_other (machine : Machine Pad) (event : MachineEvent Pad)
    (others : ∀ latest ∈ machine.execution? event,
      latest.isCall = false ∧ latest.isReturn = false) :
    (machine.happen event).stack = machine.stack := by
  cases execution : machine.execution? event with
  | none => exact (machine.happen_of_idle event execution).2.2
  | some latest =>
      obtain ⟨noCall, noReturn⟩ := others latest execution
      cases event with
      | step =>
          obtain ⟨instruction, executed, sameLatest⟩ := Option.map_eq_some_iff.mp execution
          subst latest
          exact machine.step_stack_of_other instruction executed noCall noReturn
      | tickDelay => rfl
      | tickSound => rfl
      | keypad change => rfl

theorem step_stack_of_call (machine : Machine Pad) (target : Address)
    (executed : machine.executed? = some (.call target)) :
    machine.step.machine.stack.returns =
      (machine.programCounter + 2) :: machine.stack.returns := by
  obtain ⟨progress, effect, _outcome, next⟩ := machine.step_of_executed _ executed
  rw [next]
  simp only [execute, executeCall] at effect ⊢
  cases pushed : (machine.remember machine.nextWord).stack.push?
      (ProgramMove.next.apply (machine.remember machine.nextWord).programCounter) with
  | none =>
      rw [pushed] at effect
      cases effect
  | some stack => exact CallStack.returns_of_push? _ _ _ pushed

theorem step_of_return (machine : Machine Pad)
    (executed : machine.executed? = some .returnFromCall) :
    machine.stack.returns =
      machine.step.machine.programCounter :: machine.step.machine.stack.returns := by
  obtain ⟨progress, effect, _outcome, next⟩ := machine.step_of_executed _ executed
  rw [next]
  simp only [execute, executeReturn] at effect ⊢
  cases popped : (machine.remember machine.nextWord).stack.pop? with
  | none =>
      rw [popped] at effect
      cases effect
  | some entry =>
      rw [popped] at effect
      cases effect
      exact CallStack.returns_of_pop? _ _ _ popped

/-- The stack is that of the open calls, and so deep as there are more calls than
returns. -/
def StackIsOpenCalls (machine : Machine Pad) (executions : List (Execution Pad)) : Prop :=
  machine.stack.oldestFirst.map UInt16.toNat =
      (openCalls executions.reverse).map Execution.returnPlace ∧
    machine.stack.depth + executions.countP Execution.isReturn =
      executions.countP Execution.isCall

theorem stackIsOpenCalls_step (machine : Machine Pad) (executions : List (Execution Pad))
    (instruction : Instruction) (before : machine.StackIsOpenCalls executions)
    (executed : machine.executed? = some instruction) :
    machine.step.machine.StackIsOpenCalls (⟨machine, instruction⟩ :: executions) := by
  obtain ⟨places, depth⟩ := before
  have inside := machine.programCounter_of_executed instruction executed
  unfold CallStack.oldestFirst at places
  unfold CallStack.depth at depth
  unfold StackIsOpenCalls CallStack.oldestFirst CallStack.depth
  rw [List.reverse_cons, List.countP_cons, List.countP_cons]
  cases returns : (⟨machine, instruction⟩ : Execution Pad).isReturn with
  | true =>
      have noCall := (⟨machine, instruction⟩ : Execution Pad).isCall_of_isReturn returns
      have same := (⟨machine, instruction⟩ : Execution Pad).isReturn_iff.mp returns
      have taken := machine.step_of_return (executed.trans (congrArg some same))
      rw [taken, List.reverse_cons, List.map_append] at places
      rw [taken, List.length_cons] at depth
      rw [openCalls_append_of_return _ _ returns, List.map_dropLast, ← places, noCall]
      constructor
      · exact List.dropLast_concat.symm
      · simp only [if_pos, if_neg Bool.false_ne_true]
        omega
  | false =>
      rw [openCalls_append_of_not_return _ _ returns, List.map_append, ← places]
      cases calls : (⟨machine, instruction⟩ : Execution Pad).isCall with
      | true =>
          obtain ⟨target, same⟩ := (⟨machine, instruction⟩ : Execution Pad).isCall_iff.mp calls
          have pushed := machine.step_stack_of_call target (executed.trans (congrArg some same))
          have place : (machine.programCounter + 2).toNat = machine.programCounter.toNat + 2 := by
            rw [UInt16.toNat_add]
            change (machine.programCounter.toNat + 2) % 65536 = _
            omega
          rw [pushed, List.reverse_cons, List.map_append, List.length_cons]
          constructor
          · rw [if_pos rfl, List.map_singleton, place]
            rfl
          · simp only [if_pos, if_neg Bool.false_ne_true]
            omega
      | false =>
          rw [machine.step_stack_of_other instruction executed calls returns]
          exact ⟨(List.append_nil _).symm, depth⟩

theorem stackIsOpenCalls_after (program : List Byte) (keypad : Pad) (random : RandomSource)
    (start : Machine Pad) (started : load program keypad random = .ok start)
    (history : List (MachineEvent Pad)) :
    (start.after history).StackIsOpenCalls (start.executions history) := by
  refine start.after_induction StackIsOpenCalls ?_ ?_ stackIsOpenCalls_step history
  · rw [fresh_of_load program keypad random start started]
    exact ⟨rfl, rfl⟩
  · intro machine executions event before idle
    unfold StackIsOpenCalls
    rw [(machine.happen_of_idle event idle).2.2]
    exact before

/-! ### Calls too deep and returns too many -/

theorem step_error_of_decoded_iff (machine : Machine Pad) (instruction : Instruction)
    (running : machine.clock = .running) (inside : machine.programCounter.toNat ≤ 0xFFE)
    (decoded : Instruction.decode machine.nextWord = some instruction) (fault : Fault) :
    machine.step.outcome = .error fault ↔
      ∃ cause, instruction.failure? machine.stack.depth machine.index.toNat = some cause ∧
        fault = ⟨machine.programCounter, some machine.nextWord, cause⟩ := by
  rw [machine.step_outcome_error_iff]
  unfold dueFault
  simp only [running, if_neg (Nat.not_lt_of_le inside)]
  rw [machine.nextWord.failure?_of_decode instruction _ _ decoded, Option.map_eq_some_iff]
  simp only [eq_comm]

theorem step_error_of_call_iff (machine : Machine Pad) (target : Address)
    (running : machine.clock = .running) (inside : machine.programCounter.toNat ≤ 0xFFE)
    (decoded : Instruction.decode machine.nextWord = some (.call target)) (fault : Fault) :
    machine.step.outcome = .error fault ↔ machine.stack.depth = 16 ∧
      fault = ⟨machine.programCounter, some machine.nextWord, .stackFull⟩ := by
  rw [machine.step_error_of_decoded_iff _ running inside decoded]
  unfold Instruction.failure?
  by_cases full : machine.stack.depth = 16
  · simp [full]
  · simp [full]

theorem step_error_of_return_iff (machine : Machine Pad)
    (running : machine.clock = .running) (inside : machine.programCounter.toNat ≤ 0xFFE)
    (decoded : Instruction.decode machine.nextWord = some .returnFromCall) (fault : Fault) :
    machine.step.outcome = .error fault ↔ machine.stack.depth = 0 ∧
      fault = ⟨machine.programCounter, some machine.nextWord, .stackEmpty⟩ := by
  rw [machine.step_error_of_decoded_iff _ running inside decoded]
  unfold Instruction.failure?
  by_cases empty : machine.stack.depth = 0
  · simp [empty]
  · simp [empty]

omit [Keypad Pad] in
theorem StackIsOpenCalls.length_openCalls {machine : Machine Pad}
    {executions : List (Execution Pad)} (same : machine.StackIsOpenCalls executions) :
    (openCalls executions.reverse).length = machine.stack.depth := by
  have lengths := congrArg List.length same.1
  unfold CallStack.oldestFirst at lengths
  rw [List.length_map, List.length_map, List.length_reverse] at lengths
  exact lengths.symm

omit [Keypad Pad] in
theorem StackIsOpenCalls.depth_eq_zero_iff {machine : Machine Pad}
    {executions : List (Execution Pad)} (same : machine.StackIsOpenCalls executions) :
    machine.stack.depth = 0 ↔ ¬ ∃ call, NextClosed executions.reverse call := by
  rw [← same.length_openCalls, List.length_eq_zero_iff, ← List.getLast?_eq_none_iff,
    Option.eq_none_iff_forall_ne_some, not_exists]
  simp only [nextClosed_iff, ne_eq]

theorem StackIsOpenCalls.step_of_return {machine : Machine Pad}
    {executions : List (Execution Pad)} (same : machine.StackIsOpenCalls executions)
    (executed : machine.executed? = some .returnFromCall) :
    (openCalls executions.reverse).getLast?.map Execution.returnPlace =
      some machine.step.machine.programCounter.toNat := by
  have places := same.1
  unfold CallStack.oldestFirst at places
  rw [machine.step_of_return executed, List.reverse_cons, List.map_append,
    List.map_singleton] at places
  rw [← List.getLast?_map, ← places, List.getLast?_concat]

/-- Whatever a program does, its stack is the list of the calls that have no return
yet, each by the address behind it. A return goes on behind the call it belongs
to. Nothing but calls and returns touches the stack, and a call within sixteen
open ones and a return without a call fail and leave it alone. -/
theorem stack_holds_open_calls (program : List Byte) (keypad : Pad) (random : RandomSource)
    (start : Machine Pad) (started : load program keypad random = .ok start)
    (history : List (MachineEvent Pad)) :
    let reached := start.after history
    let done := (start.executions history).reverse
    reached.stack.oldestFirst.map UInt16.toNat = (openCalls done).map Execution.returnPlace ∧
      (reached.executed? = some .returnFromCall →
        (∃ call, NextClosed done call) ∧
          ∀ call, NextClosed done call →
            reached.step.machine.programCounter.toNat = call.returnPlace) ∧
      (∀ event, (∀ latest ∈ reached.execution? event,
          latest.isCall = false ∧ latest.isReturn = false) →
        (reached.happen event).stack = reached.stack) ∧
      (∀ fault, reached.step.outcome = .error fault →
        reached.step.machine.stack = reached.stack) ∧
      (reached.stack.depth + done.countP Execution.isReturn = done.countP Execution.isCall ∧
        reached.stack.depth ≤ 16) ∧
      (reached.clock = .running → reached.programCounter.toNat ≤ 0xFFE →
        (∀ target, Instruction.decode reached.nextWord = some (.call target) →
          ∀ fault, reached.step.outcome = .error fault ↔ (openCalls done).length = 16 ∧
            fault = ⟨reached.programCounter, some reached.nextWord, .stackFull⟩) ∧
        (Instruction.decode reached.nextWord = some .returnFromCall →
          ∀ fault, reached.step.outcome = .error fault ↔ (¬ ∃ call, NextClosed done call) ∧
            fault = ⟨reached.programCounter, some reached.nextWord, .stackEmpty⟩)) := by
  intro reached done
  have same := start.stackIsOpenCalls_after program keypad random started history
  refine ⟨same.1, ?_, ?_, ?_, ⟨?_, reached.stack.bounded⟩, ?_⟩
  · intro executed
    have place := same.step_of_return executed
    obtain ⟨closed, last, _place⟩ := Option.map_eq_some_iff.mp place
    refine ⟨⟨closed, (nextClosed_iff done closed).mpr last⟩, ?_⟩
    intro call closes
    rw [(nextClosed_iff done call).mp closes] at place
    exact (Option.some.inj place).symm
  · exact reached.happen_stack_of_other
  · intro fault failed
    rw [(reached.step_of_fault fault failed).1]
    rfl
  · rw [List.countP_reverse, List.countP_reverse]
    exact same.2
  · intro running inside
    constructor
    · intro target decoded fault
      rw [same.length_openCalls]
      exact reached.step_error_of_call_iff target running inside decoded fault
    · intro decoded fault
      rw [← same.depth_eq_zero_iff]
      exact reached.step_error_of_return_iff running inside decoded fault

/-- A routine calls another one twice, and goes on behind the call it has returned
from. -/
theorem second_call_returns_behind_itself :
    ∃ start : Machine Keyboard,
      load [0x22, 0x06, 0x00, 0x00, 0x00, 0x00, 0x22, 0x0A, 0x22, 0x0A, 0x00, 0xEE] Keyboard.idle
        (.repeating #[]) = .ok start ∧
      let reached := start.after [.step, .step, .step, .step]
      reached.stack.oldestFirst.map UInt16.toNat = [0x202, 0x20A] ∧
        reached.step.machine.programCounter.toNat = 0x20A := by
  obtain ⟨start, started⟩ := (load_ok_iff
    [0x22, 0x06, 0x00, 0x00, 0x00, 0x00, 0x22, 0x0A, 0x22, 0x0A, 0x00, 0xEE] Keyboard.idle
    (.repeating #[])).mpr (by decide)
  have evaluated : (load
      [0x22, 0x06, 0x00, 0x00, 0x00, 0x00, 0x22, 0x0A, 0x22, 0x0A, 0x00, 0xEE] Keyboard.idle
      (.repeating #[])).toOption.map (fun start =>
        ((openCalls (start.executions [.step, .step, .step, .step]).reverse).map
            Execution.returnPlace,
          (start.after [.step, .step, .step, .step]).executed?)) =
      some ([0x202, 0x20A], some .returnFromCall) := by
    decide +kernel
  rw [started] at evaluated
  simp only [Except.toOption, Option.map_some, Option.some.injEq, Prod.mk.injEq] at evaluated
  obtain ⟨places, returning⟩ := evaluated
  obtain ⟨stack, returns, _others, _failing, _depth, _faults⟩ :=
    stack_holds_open_calls _ _ _ start started [.step, .step, .step, .step]
  obtain ⟨⟨call, closes⟩, goesOn⟩ := returns returning
  have latest := congrArg List.getLast? places
  rw [List.getLast?_map, (nextClosed_iff _ call).mp closes] at latest
  refine ⟨start, started, stack.trans places, (goesOn call closes).trans ?_⟩
  exact Option.some.inj latest

end Machine

end Chip8
