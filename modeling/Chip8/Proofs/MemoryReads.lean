import Chip8.Proofs.TickIndependence

set_option autoImplicit false

/-! What a run can learn of the memory. A step reads the word at the program counter
and, for a drawing and a load of registers, the bytes from the index on; that is all it
sees. Two machines whose memories differ only where the first one never reads go through
the same steps, and nothing they store makes their memories differ anywhere else. -/

namespace Chip8

def Instruction.readLength : Instruction → Nat
  | .draw _ _ height => height.val
  | .loadRegisters last => last.val + 1
  | _ => 0

/-- Two machines that are equal but for their memories, and these wherever they are not
allowed to be apart. -/
structure Machine.AgreeOutside {Pad : Type} (apart : Nat → Prop) (left right : Machine Pad) :
    Prop where
  others : right = { left with memory := right.memory }
  memory : ∀ address, ¬ apart address →
    right.memory.byteAt address = left.memory.byteAt address

structure Effect.AgreeOutside {Pad : Type} (apart : Nat → Prop) (left right : Effect Pad) :
    Prop where
  machine : left.machine.AgreeOutside apart right.machine
  outcome : right.outcome = left.outcome
  journal : right.journal = left.journal

structure Turn.AgreeOutside {Pad : Type} (apart : Nat → Prop) (left right : Turn Pad) :
    Prop where
  machine : left.machine.AgreeOutside apart right.machine
  outcome : right.outcome = left.outcome
  journal : right.journal = left.journal

/-! ### The addresses that are read -/

namespace Machine

variable {Pad : Type}

/-- The bytes of the next word, if the next step fetches one. -/
def fetchedAddresses (machine : Machine Pad) : List Nat :=
  match machine.clock with
  | .awaitingKey _ => []
  | .running =>
      if machine.programCounter.toNat ≤ 0xFFE then
        [machine.programCounter.toNat, machine.programCounter.toNat + 1]
      else []

variable [Keypad Pad]

/-- The addresses that the next step reads. A drawing or a load that fails reads no
more than its word. -/
def nextReads (machine : Machine Pad) : List Nat :=
  machine.fetchedAddresses ++
    match machine.executed? with
    | some instruction => List.range' machine.index.toNat instruction.readLength
    | none => []

def reads (machine : Machine Pad) (history : List (MachineEvent Pad)) : List Nat :=
  (observations (fun reached => some reached.nextReads) machine history).flatten

theorem forall_reads_cons (machine : Machine Pad) (event : MachineEvent Pad)
    (later : List (MachineEvent Pad)) (holds : Nat → Prop) :
    (∀ address ∈ machine.reads (event :: later), holds address) ↔
      (event = .step → ∀ address ∈ machine.nextReads, holds address) ∧
        ∀ address ∈ (machine.happen event).reads later, holds address := by
  unfold reads
  rw [observations, List.flatten_append, List.forall_mem_append]
  apply and_congr_left
  intro _later
  cases event <;> simp [atStep?]

/-! ### One step -/

namespace AgreeOutside

variable {apart : Nat → Prop} {left right : Machine Pad}

omit [Keypad Pad] in
theorem nextWord (agree : left.AgreeOutside apart right)
    (first : ¬ apart left.programCounter.toNat)
    (second : ¬ apart (left.programCounter.toNat + 1)) : right.nextWord = left.nextWord := by
  have place : right.programCounter = left.programCounter := by rw [agree.others]
  unfold Machine.nextWord
  rw [place, agree.memory _ first, agree.memory _ second]

omit [Keypad Pad] in
theorem remember (agree : left.AgreeOutside apart right) (word : Word) :
    (left.remember word).AgreeOutside apart (right.remember word) := by
  rw [agree.others]
  exact ⟨rfl, agree.memory⟩

omit [Keypad Pad] in
theorem advance (agree : left.AgreeOutside apart right) (move : ProgramMove) :
    (left.advance move).AgreeOutside apart (right.advance move) := by
  rw [agree.others]
  exact ⟨rfl, agree.memory⟩

omit [Keypad Pad] in
theorem setFirstRegisters (agree : left.AgreeOutside apart right) (values : List Byte) :
    (left.setFirstRegisters values).AgreeOutside apart (right.setFirstRegisters values) := by
  constructor
  · rw [agree.others]
    rfl
  · simp only [Machine.setFirstRegisters]
    exact agree.memory

omit [Keypad Pad] in
theorem store (agree : left.AgreeOutside apart right) (content : List Byte) :
    (left.store content).AgreeOutside apart (right.store content) := by
  obtain ⟨others, memory⟩ := agree
  generalize right.memory = rightMemory at others memory
  subst right
  unfold Machine.store Memory.load
  simp only
  cases checkRange Memory.size left.index.toNat content.length with
  | error range => exact ⟨⟨rfl, memory⟩, rfl, rfl⟩
  | ok granted =>
      refine ⟨⟨rfl, ?_⟩, rfl, rfl⟩
      intro address together
      change (rightMemory.overwrite _ content).byteAt address =
        (left.memory.overwrite _ content).byteAt address
      rw [Memory.byteAt_overwrite, Memory.byteAt_overwrite, memory address together]

omit [Keypad Pad] in
theorem onSlice (agree : left.AgreeOutside apart right) (length : Nat)
    (first second : List Byte → Effect Pad)
    (together : left.index.toNat + length ≤ 4096 →
      ∀ address ∈ List.range' left.index.toNat length, ¬ apart address)
    (effects : ∀ content, (first content).AgreeOutside apart (second content)) :
    (Effect.onRange left (left.memory.slice left.index.toNat length) first).AgreeOutside apart
      (Effect.onRange right (right.memory.slice right.index.toNat length) second) := by
  have place : right.index = left.index := by rw [agree.others]
  rw [place]
  by_cases inside : left.index.toNat + length ≤ 4096
  · have same : right.memory.bytesAt left.index.toNat length =
        left.memory.bytesAt left.index.toNat length := by
      unfold Memory.bytesAt
      apply List.map_congr_left
      intro offset within
      apply agree.memory
      apply together inside
      rw [List.mem_range'_1]
      have below := List.mem_range.mp within
      omega
    rw [(left.memory.slice_ok_iff _ _ _).mpr ⟨inside, rfl⟩,
      (right.memory.slice_ok_iff _ _ _).mpr ⟨inside, rfl⟩, same]
    exact effects _
  · have outside := Nat.lt_of_not_le inside
    rw [(left.memory.slice_error_iff _ _ _).mpr ⟨outside, rfl⟩,
      (right.memory.slice_error_iff _ _ _).mpr ⟨outside, rfl⟩]
    exact ⟨agree, rfl, rfl⟩

/-- An instruction that succeeds reads the bytes it needs, and one that fails decides
that by the index alone. -/
theorem execute (agree : left.AgreeOutside apart right) (instruction : Instruction)
    (together : ∀ progress, (left.execute instruction).outcome = .ok progress →
      ∀ address ∈ List.range' left.index.toNat instruction.readLength, ¬ apart address) :
    (left.execute instruction).AgreeOutside apart (right.execute instruction) := by
  cases instruction
  case draw column row height =>
    have others := agree.others
    have memory := agree.memory
    apply agree.onSlice
    · intro inside
      have granted := (left.memory.slice_ok_iff left.index.toNat height.val _).mpr ⟨inside, rfl⟩
      apply together ⟨.next, .draw⟩
      simp only [Machine.execute, executeDraw, granted]
      rfl
    · intro sprite
      rw [others]
      exact ⟨⟨rfl, memory⟩, rfl, rfl⟩
  case loadRegisters last =>
    apply agree.onSlice
    · intro inside
      have granted := (left.memory.slice_ok_iff left.index.toNat (last.val + 1) _).mpr ⟨inside, rfl⟩
      apply together ⟨.next, .quiet⟩
      simp only [Machine.execute, executeLoad, granted]
      rfl
    · intro values
      exact ⟨agree.setFirstRegisters values, rfl, rfl⟩
  case storeDecimal source =>
    have digits : right.register source = left.register source := by rw [agree.others]; rfl
    simp only [Machine.execute, digits]
    exact agree.store _
  case storeRegisters last =>
    have values : right.firstRegisters last = left.firstRegisters last := by
      rw [agree.others]
      rfl
    simp only [Machine.execute, values]
    exact agree.store _
  case returnFromCall =>
    rw [agree.others]
    simp only [Machine.execute, executeReturn]
    cases left.stack.pop? <;> exact ⟨⟨rfl, agree.memory⟩, rfl, rfl⟩
  case call target =>
    rw [agree.others]
    simp only [Machine.execute, executeCall]
    cases left.stack.push? (ProgramMove.next.apply left.programCounter) <;>
      exact ⟨⟨rfl, agree.memory⟩, rfl, rfl⟩
  all_goals
    rw [agree.others]
    exact ⟨⟨rfl, agree.memory⟩, rfl, rfl⟩

theorem perform (agree : left.AgreeOutside apart right) (word : Word)
    (instruction : Instruction)
    (together : ∀ progress, (left.execute instruction).outcome = .ok progress →
      ∀ address ∈ List.range' left.index.toNat instruction.readLength, ¬ apart address) :
    (left.perform word instruction).AgreeOutside apart (right.perform word instruction) := by
  have place : right.programCounter = left.programCounter := by rw [agree.others]
  obtain ⟨machine, outcome, journal⟩ := agree.execute instruction together
  obtain ⟨reached, ended, reported⟩ := perform_alike (AgreeOutside apart) left right word
    instruction (fun _before _after same => same.advance) place machine outcome journal
  exact ⟨reached, ended, reported⟩

theorem pollKey (agree : left.AgreeOutside apart right) (target : Register) :
    (left.pollKey target).AgreeOutside apart (right.pollKey target) := by
  have pad : right.keypad = left.keypad := by rw [agree.others]
  cases polled : (Keypad.takePress left.keypad).1 with
  | none =>
      rw [left.pollKey_of_unpressed target polled, right.pollKey_of_unpressed target (pad ▸ polled)]
      rw [agree.others]
      exact ⟨⟨rfl, agree.memory⟩, rfl, rfl⟩
  | some key =>
      rw [left.pollKey_of_pressed target key polled,
        right.pollKey_of_pressed target key (pad ▸ polled)]
      rw [agree.others]
      exact ⟨⟨rfl, agree.memory⟩, rfl, rfl⟩

/-- Two machines whose memories agree where the first one reads next do the same. -/
theorem step (agree : left.AgreeOutside apart right)
    (together : ∀ address ∈ left.nextReads, ¬ apart address) :
    left.step.AgreeOutside apart right.step := by
  have clock : right.clock = left.clock := by rw [agree.others]
  have place : right.programCounter = left.programCounter := by rw [agree.others]
  unfold nextReads fetchedAddresses at together
  cases state : left.clock with
  | awaitingKey target =>
      rw [left.step_of_awaiting target state, right.step_of_awaiting target (clock.trans state)]
      exact agree.pollKey target
  | running =>
      by_cases inside : left.programCounter.toNat ≤ 0xFFE
      · rw [state, List.forall_mem_append] at together
        simp only [if_pos inside, List.forall_mem_cons] at together
        obtain ⟨⟨first, second, _none⟩, reading⟩ := together
        rw [left.step_of_inside state inside,
          right.step_of_inside (clock.trans state) (place ▸ inside), agree.nextWord first second]
        have remembered := agree.remember left.nextWord
        cases decoded : Instruction.decode left.nextWord with
        | none =>
            rw [left.performWord_of_undecoded _ decoded, right.performWord_of_undecoded _ decoded]
            unfold fault
            rw [place]
            exact ⟨remembered, rfl, rfl⟩
        | some instruction =>
            rw [left.performWord_of_decoded _ instruction decoded,
              right.performWord_of_decoded _ instruction decoded]
            apply remembered.perform
            intro progress executed
            rw [left.executed?_of_executed _ instruction progress state
              (left.fetch_of_inside inside) decoded executed] at reading
            exact reading
      · have beyond := Nat.lt_of_not_le inside
        rw [left.step_of_refused _ state (left.fetch_of_beyond beyond),
          right.step_of_refused _ (clock.trans state) (right.fetch_of_beyond (place ▸ beyond))]
        unfold fault
        rw [place]
        exact ⟨agree, rfl, rfl⟩

/-! ### Whole histories -/

theorem happen (agree : left.AgreeOutside apart right) (event : MachineEvent Pad)
    (together : event = .step → ∀ address ∈ left.nextReads, ¬ apart address) :
    (left.happen event).AgreeOutside apart (right.happen event) := by
  cases event with
  | step => exact (agree.step (together rfl)).machine
  | tickDelay =>
      rw [agree.others]
      exact ⟨rfl, agree.memory⟩
  | tickSound =>
      rw [agree.others]
      exact ⟨rfl, agree.memory⟩
  | keypad change =>
      rw [agree.others]
      exact ⟨rfl, agree.memory⟩

theorem turn (agree : left.AgreeOutside apart right) (event : MachineEvent Pad)
    (together : event = .step → ∀ address ∈ left.nextReads, ¬ apart address) :
    List.Forall₂ (Turn.AgreeOutside apart)
      (left.atStep? (fun reached => some reached.step) event).toList
      (right.atStep? (fun reached => some reached.step) event).toList := by
  cases event with
  | step => exact .cons (agree.step (together rfl)) .nil
  | tickDelay => exact .nil
  | tickSound => exact .nil
  | keypad change => exact .nil

theorem after (agree : left.AgreeOutside apart right) (history : List (MachineEvent Pad))
    (together : ∀ address ∈ left.reads history, ¬ apart address) :
    List.Forall₂ (Turn.AgreeOutside apart) (left.turns history) (right.turns history) ∧
      (left.after history).AgreeOutside apart (right.after history) := by
  induction history generalizing left right with
  | nil => exact ⟨.nil, agree⟩
  | cons event later ih =>
      obtain ⟨now, behind⟩ := (left.forall_reads_cons event later _).mp together
      obtain ⟨turns, reached⟩ := ih (agree.happen event now) behind
      exact ⟨List.rel_append (agree.turn event now) turns, reached⟩

end AgreeOutside

/-- A run shows no more of the memory than the bytes it reads. Two machines that are
equal but for their memories go through the same steps if the memories agree wherever
the first one reads: each step ends alike, also by the same fault, with the same report
and with machines equal but for their memories. After every step and at the end the
memories differ at most where they differed at the start. -/
theorem run_shows_only_bytes_read (left right : Machine Pad) (history : List (MachineEvent Pad))
    (others : right = { left with memory := right.memory })
    (agree : ∀ address ∈ left.reads history,
      right.memory.byteAt address = left.memory.byteAt address) :
    let apart := fun address => right.memory.byteAt address ≠ left.memory.byteAt address
    List.Forall₂ (Turn.AgreeOutside apart) (left.turns history) (right.turns history) ∧
      (left.after history).AgreeOutside apart (right.after history) := by
  intro apart
  have start : left.AgreeOutside apart right :=
    ⟨others, fun _address together => Decidable.of_not_not together⟩
  apply start.after history
  intro address read differs
  exact differs (agree address read)

/-- A glyph is drawn and a register stored over the byte at `0x208`, and the byte behind
it is not reached. The two programs differ in both bytes and run alike. Only the byte
that was not stored over tells them apart at the end. -/
theorem unread_bytes_go_unnoticed :
    ∃ left right : Machine Keyboard,
      load [0xD0, 0x15, 0xA2, 0x08, 0xF0, 0x55, 0x12, 0x00, 0x11, 0x22] Keyboard.idle
        (.repeating #[]) = .ok left ∧
      load [0xD0, 0x15, 0xA2, 0x08, 0xF0, 0x55, 0x12, 0x00, 0x33, 0x44] Keyboard.idle
        (.repeating #[]) = .ok right ∧
      let history := [.step, .step, .tickDelay, .step, .step]
      (right.turns history).map Turn.outcome = (left.turns history).map Turn.outcome ∧
        (right.after history).raster = (left.after history).raster ∧
        (right.after history).memory.byteAt 0x208 = (left.after history).memory.byteAt 0x208 ∧
        (right.after history).memory.byteAt 0x209 ≠ (left.after history).memory.byteAt 0x209 := by
  obtain ⟨left, leftStarted⟩ := (load_ok_iff
    [0xD0, 0x15, 0xA2, 0x08, 0xF0, 0x55, 0x12, 0x00, 0x11, 0x22] Keyboard.idle
    (.repeating #[])).mpr (by decide)
  obtain ⟨right, rightStarted⟩ := (load_ok_iff
    [0xD0, 0x15, 0xA2, 0x08, 0xF0, 0x55, 0x12, 0x00, 0x33, 0x44] Keyboard.idle
    (.repeating #[])).mpr (by decide)
  have evaluated : (load [0xD0, 0x15, 0xA2, 0x08, 0xF0, 0x55, 0x12, 0x00, 0x11, 0x22]
      Keyboard.idle (.repeating #[])).toOption.bind (fun left =>
        (load [0xD0, 0x15, 0xA2, 0x08, 0xF0, 0x55, 0x12, 0x00, 0x33, 0x44]
          Keyboard.idle (.repeating #[])).toOption.map (fun right =>
            let history := [.step, .step, .tickDelay, .step, .step]
            ((left.reads history).all
                (fun address => right.memory.byteAt address = left.memory.byteAt address),
              (left.after history).memory.byteAt 0x208, (left.after history).memory.byteAt 0x209,
              (right.after history).memory.byteAt 0x208,
              (right.after history).memory.byteAt 0x209))) =
      some (true, 0, 0x22, 0, 0x44) := by
    decide +kernel
  rw [leftStarted, rightStarted] at evaluated
  simp only [Except.toOption, Option.bind_some, Option.map_some, Option.some.injEq,
    Prod.mk.injEq, List.all_eq_true, decide_eq_true_eq] at evaluated
  obtain ⟨agree, leftStored, leftBeyond, rightStored, rightBeyond⟩ := evaluated
  have others : right = { left with memory := right.memory } := by
    rw [fresh_of_load _ _ _ left leftStarted, fresh_of_load _ _ _ right rightStarted]
  obtain ⟨turns, reached⟩ := run_shows_only_bytes_read left right _ others agree
  refine ⟨left, right, leftStarted, rightStarted, ?_, ?_, ?_, ?_⟩
  · rw [← List.forall₂_eq_eq_eq, List.forall₂_map_left_iff, List.forall₂_map_right_iff]
    exact turns.flip.imp (fun _later _earlier same => same.outcome)
  · rw [reached.others]
  · rw [rightStored, leftStored]
  · rw [rightBeyond, leftBeyond]
    decide

end Machine

end Chip8
