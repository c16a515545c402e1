import Chip8.Proofs.CheckedSteps
import Chip8.Proofs.DueFaults

set_option autoImplicit false

/-! What holds of every reachable state. The program counter stays so low that
no sum with it wraps around, the return addresses are those of calls inside the
memory, and a waiting machine stands at the word that made it wait. With these
bounds the checked machine runs as long as one likes without a breach. -/

namespace Chip8

/-- The word `FX0A`, which asks for a key to be put into register `X`. -/
def awaitWord (target : Register) : Word :=
  UInt16.ofNat (0xF00A + 0x100 * target.val)

theorem decode_awaitWord (target : Register) :
    Instruction.decode (awaitWord target) = some (.awaitKey target) := by
  revert target
  decide

theorem eq_awaitWord_of_decode (word : Word) (target : Register)
    (decoded : Instruction.decode word = some (.awaitKey target)) : word = awaitWord target := by
  have encoded (register : Register) :
      (Instruction.awaitKey register).encode = awaitWord register := by
    revert register
    decide
  rw [← encoded, Instruction.encode_of_decode word _ decoded]

namespace Machine

variable {Pad : Type}

/-- The bounds that every event keeps. -/
structure Sound (machine : Machine Pad) : Prop where
  place : machine.programCounter.toNat ≤ 0x10FE
  returns : ∀ target ∈ machine.stack.returns, 0x0002 ≤ target.toNat ∧ target.toNat ≤ 0x1000
  waits : ∀ target, machine.clock = .awaitingKey target →
    machine.programCounter.toNat ≤ 0xFFE ∧ machine.lastWord = awaitWord target ∧
      machine.nextWord = awaitWord target

theorem Sound.of_same {before after : Machine Pad} (sound : before.Sound)
    (control : after.control = before.control) (memory : after.memory = before.memory) :
    after.Sound := by
  have place : after.programCounter = before.programCounter :=
    congrArg Control.programCounter control
  have returns : after.stack = before.stack := congrArg Control.stack control
  have clock : after.clock = before.clock := congrArg Control.clock control
  have lastWord : after.lastWord = before.lastWord := congrArg Control.lastWord control
  have nextWord : after.nextWord = before.nextWord := by
    unfold nextWord
    rw [memory, place]
  refine ⟨?_, ?_, ?_⟩
  · rw [place]
    exact sound.place
  · rw [returns]
    exact sound.returns
  · rw [place, clock, lastWord, nextWord]
    exact sound.waits

theorem Sound.of_running {machine : Machine Pad} (running : machine.clock = .running)
    (place : machine.programCounter.toNat ≤ 0x10FE)
    (returns : ∀ target ∈ machine.stack.returns,
      0x0002 ≤ target.toNat ∧ target.toNat ≤ 0x1000) : machine.Sound := by
  refine ⟨place, returns, ?_⟩
  intro target awaiting
  rw [running] at awaiting
  cases awaiting

theorem load_sound (program : List Byte) (keypad : Pad) (random : RandomSource)
    (machine : Machine Pad) (started : load program keypad random = .ok machine) :
    machine.Sound := by
  unfold load at started
  cases loaded : glyphMemory.load programStart program with
  | error range =>
      rw [loaded] at started
      cases started
  | ok memory =>
      rw [loaded] at started
      cases started
      apply Sound.of_running rfl
      · change (UInt16.ofNat programStart).toNat ≤ 0x10FE
        decide
      · intro target impossible
        cases impossible

theorem toNat_apply_le (programCounter : Word) (move : ProgramMove)
    (inside : programCounter.toNat ≤ 0xFFE) (near : move.Near) :
    (move.apply programCounter).toNat ≤ 0x10FE := by
  cases move with
  | stay => exact Nat.le_trans inside (by decide)
  | jump target => exact near
  | next =>
      change (programCounter + 2).toNat ≤ 0x10FE
      rw [UInt16.toNat_add]
      change (programCounter.toNat + 2) % 65536 ≤ 0x10FE
      omega
  | skip =>
      change (programCounter + 4).toNat ≤ 0x10FE
      rw [UInt16.toNat_add]
      change (programCounter.toNat + 4) % 65536 ≤ 0x10FE
      omega

variable [Keypad Pad]

theorem pollKey_sound (machine : Machine Pad) (target : Register) (sound : machine.Sound)
    (awaiting : machine.clock = .awaitingKey target) :
    (machine.pollKey target).machine.Sound := by
  cases answered : (Keypad.takePress machine.keypad).1 with
  | none =>
      rw [machine.pollKey_of_unpressed target answered]
      exact sound.of_same rfl rfl
  | some key =>
      rw [machine.pollKey_of_pressed target key answered]
      apply Sound.of_running rfl
      · exact toNat_apply_le machine.programCounter .next (sound.waits target awaiting).1 trivial
      · exact sound.returns

/-! ### The instructions that change the control state -/

theorem perform_return_sound (machine : Machine Pad) (word : Word) (sound : machine.Sound)
    (running : machine.clock = .running) :
    (machine.perform word .returnFromCall).machine.Sound := by
  cases held : machine.stack with
  | mk returns bounded =>
      have kept := sound.returns
      rw [held] at kept
      cases returns with
      | nil =>
          have executed : machine.execute .returnFromCall = .fail machine .stackEmpty := by
            simp only [execute, executeReturn, held, CallStack.pop?]
          unfold perform
          rw [executed]
          exact sound
      | cons target earlier =>
          have room := Nat.le_of_succ_le bounded
          have executed : machine.execute .returnFromCall =
              .jump { machine with stack := ⟨earlier, room⟩ } target [.returning target] := by
            simp only [execute, executeReturn, held, CallStack.pop?]
          unfold perform
          rw [executed]
          refine Sound.of_running ?_ ?_ ?_
          · exact running
          · exact Nat.le_trans (kept target List.mem_cons_self).2 (by decide)
          · intro other member
            exact kept other (List.mem_cons_of_mem target member)

theorem perform_call_sound (machine : Machine Pad) (word : Word) (target : Address)
    (sound : machine.Sound) (running : machine.clock = .running)
    (inside : machine.programCounter.toNat ≤ 0xFFE) :
    (machine.perform word (.call target)).machine.Sound := by
  cases pushed : machine.stack.push? (ProgramMove.next.apply machine.programCounter) with
  | none =>
      have executed : machine.execute (.call target) = .fail machine .stackFull := by
        simp only [execute, executeCall, pushed]
      unfold perform
      rw [executed]
      exact sound
  | some stack =>
      have executed : machine.execute (.call target) =
          .jump { machine with stack := stack } (Address.toWord target)
            [.calling target stack.depth] := by
        simp only [execute, executeCall, pushed]
      have back : (ProgramMove.next.apply machine.programCounter).toNat =
          (machine.programCounter.toNat + 2) % 65536 :=
        UInt16.toNat_add machine.programCounter 2
      unfold perform
      rw [executed]
      refine Sound.of_running ?_ ?_ ?_
      · exact running
      · change (Address.toWord target).toNat ≤ 0x10FE
        rw [Address.toNat_toWord]
        exact Nat.le_trans (Nat.le_of_lt target.isLt) (by decide)
      · intro other member
        change other ∈ stack.returns at member
        rw [CallStack.returns_of_push? _ _ _ pushed] at member
        rcases List.mem_cons.mp member with latest | earlier
        · rw [latest]
          omega
        · exact sound.returns other earlier

theorem perform_await_sound (machine : Machine Pad) (word : Word) (target : Register)
    (sound : machine.Sound) (inside : machine.programCounter.toNat ≤ 0xFFE)
    (lastWord : machine.lastWord = awaitWord target)
    (nextWord : machine.nextWord = awaitWord target) :
    (machine.perform word (.awaitKey target)).machine.Sound := by
  refine ⟨sound.place, sound.returns, ?_⟩
  intro other awaiting
  cases awaiting
  exact ⟨inside, lastWord, nextWord⟩

theorem perform_ordinary_sound (machine : Machine Pad) (word : Word) (instruction : Instruction)
    (ordinary : instruction.changesControl = false) (sound : machine.Sound)
    (running : machine.clock = .running) (inside : machine.programCounter.toNat ≤ 0xFFE) :
    (machine.perform word instruction).machine.Sound := by
  have control := machine.execute_control instruction ordinary
  have clock : (machine.execute instruction).machine.clock = machine.clock :=
    congrArg Control.clock control
  have stack : (machine.execute instruction).machine.stack = machine.stack :=
    congrArg Control.stack control
  have place := machine.execute_programCounter instruction
  cases executed : (machine.execute instruction).outcome with
  | error cause =>
      rw [machine.perform_of_failed word instruction cause executed,
        machine.execute_of_failed instruction cause executed]
      exact sound
  | ok progress =>
      have near := machine.execute_near instruction progress
        (fun same => by rw [same] at ordinary; cases ordinary) executed
      rw [machine.perform_of_executed word instruction progress executed]
      refine Sound.of_running ?_ ?_ ?_
      · exact clock.trans running
      · change (progress.move.apply (machine.execute instruction).machine.programCounter).toNat ≤ _
        rw [place]
        exact toNat_apply_le machine.programCounter progress.move inside near
      · change ∀ target ∈ (machine.execute instruction).machine.stack.returns, _
        rw [stack]
        exact sound.returns

/-! ### Steps, events and histories -/

theorem step_sound (machine : Machine Pad) (sound : machine.Sound) :
    machine.step.machine.Sound := by
  cases clock : machine.clock with
  | awaitingKey target =>
      rw [machine.step_of_awaiting target clock]
      exact machine.pollKey_sound target sound clock
  | running =>
      by_cases beyond : 0xFFE < machine.programCounter.toNat
      · rw [machine.step_of_refused _ clock (machine.fetch_of_beyond beyond)]
        exact sound
      · have inside := Nat.le_of_not_lt beyond
        have remembered : (machine.remember machine.nextWord).Sound :=
          .of_running clock sound.place sound.returns
        rw [machine.step_of_inside clock inside]
        cases decoded : Instruction.decode machine.nextWord with
        | none =>
            rw [machine.performWord_of_undecoded _ decoded]
            exact remembered
        | some instruction =>
            rw [machine.performWord_of_decoded _ instruction decoded]
            cases ordinary : instruction.changesControl with
            | false => exact perform_ordinary_sound _ _ instruction ordinary remembered clock inside
            | true =>
                cases instruction
                case returnFromCall => exact perform_return_sound _ _ remembered clock
                case call target => exact perform_call_sound _ _ target remembered clock inside
                case awaitKey target =>
                  -- The word that was decoded is both the one remembered and the next one.
                  have word := eq_awaitWord_of_decode _ target decoded
                  exact perform_await_sound _ _ target remembered inside word word
                all_goals cases ordinary

theorem happen_sound (machine : Machine Pad) (event : MachineEvent Pad) (sound : machine.Sound) :
    (machine.happen event).Sound := by
  cases event with
  | step => exact machine.step_sound sound
  | tickDelay => exact sound.of_same rfl rfl
  | tickSound => exact sound.of_same rfl rfl
  | keypad change => exact sound.of_same rfl rfl

theorem after_sound (machine : Machine Pad) (history : List (MachineEvent Pad))
    (sound : machine.Sound) : (machine.after history).Sound := by
  induction history generalizing machine with
  | nil => exact sound
  | cons event later ih => exact ih _ (machine.happen_sound event sound)

end Machine

/-! ### The checked machine -/

structure CheckedMachine.Bounded {Pad : Type} (machine : CheckedMachine Pad) : Prop where
  registers : machine.registers.length = 16
  memory : machine.memory.length = 4096
  rows : machine.rows.length = 32
  columns : ∀ pixels ∈ machine.rows, pixels.length = 64
  depth : machine.stack.length ≤ 16
  returns : ∀ target ∈ machine.stack, 0x0002 ≤ target.toNat ∧ target.toNat ≤ 0x1000
  place : machine.programCounter.toNat ≤ 0x10FE
  waits : ∀ target, machine.awaiting = some target →
    target < 16 ∧ machine.programCounter.toNat ≤ 0xFFE ∧
      machine.lastWord = UInt16.ofNat (0xF00A + 0x100 * target) ∧
      machine.fetch = .ok (.ok machine.lastWord)

namespace Machine

variable {Pad : Type}

theorem Sound.bounded {machine : Machine Pad} (sound : machine.Sound) :
    machine.plain.Bounded := by
  refine
    { registers := machine.registers.length_toList
      memory := machine.memory.length_plain
      rows := machine.raster.length_pixelRows
      columns := ?_
      depth := machine.stack.bounded
      returns := sound.returns
      place := sound.place
      waits := ?_ }
  · intro pixels member
    obtain ⟨row, _inRows, same⟩ := List.mem_map.mp member
    rw [← same, Raster.length_rowPixels]
  · intro number awaiting
    change machine.clock.awaiting = some number at awaiting
    cases clock : machine.clock with
    | running =>
        rw [clock] at awaiting
        cases awaiting
    | awaitingKey target =>
        rw [clock] at awaiting
        cases awaiting
        obtain ⟨inside, lastWord, nextWord⟩ := sound.waits target clock
        refine ⟨target.isLt, inside, lastWord, ?_⟩
        rw [plain_fetch, machine.fetch_of_inside inside, nextWord, ← lastWord]
        rfl

theorem Sound.summable {machine : Machine Pad} (sound : machine.Sound) :
    machine.programCounter.toNat + 4 < 0x10000 := by
  have place := sound.place
  omega

variable [Keypad Pad]

theorem plain_after (machine : Machine Pad) (history : List (MachineEvent Pad))
    (sound : machine.Sound) :
    machine.plain.after history = .ok (machine.after history).plain := by
  induction history generalizing machine with
  | nil => rfl
  | cons event later ih =>
      unfold CheckedMachine.after
      rw [machine.plain_happen event sound.summable, Checked.ok_bind,
        ih _ (machine.happen_sound event sound)]
      rfl

/-- A program that fits starts the checked machine, every history of it runs
without a breach, and at its end the bounds hold and the next step is without a
breach as well. Behind the last word of the memory there is nothing but the
refusal of the fetch. -/
theorem checked_histories_never_breach (program : List Byte) (keypad : Pad)
    (random : RandomSource) (history : List (MachineEvent Pad)) (fits : program.length ≤ 3584) :
    ∃ start : Machine Pad, load program keypad random = .ok start ∧
      CheckedMachine.start program keypad random = .ok (.ok start.plain) ∧
      let reached := start.after history
      start.plain.after history = .ok reached.plain ∧
        reached.plain.Bounded ∧
        reached.plain.step = .ok reached.step.plain ∧
        (reached.clock = .running → 0xFFE < reached.programCounter.toNat →
          reached.plain.step = .ok ⟨reached.plain,
            .error ⟨reached.programCounter, none,
              .outOfRange ⟨reached.programCounter.toNat, 2⟩⟩⟩) := by
  obtain ⟨start, started⟩ := (load_ok_iff program keypad random).mpr fits
  have sound := load_sound program keypad random start started
  have reachedSound := start.after_sound history sound
  have stepped := (start.after history).plain_step reachedSound.summable
  refine ⟨start, started, ?_, start.plain_after history sound, reachedSound.bounded, stepped, ?_⟩
  · rw [plain_start, started]
    rfl
  · intro running beyond
    rw [stepped, step_of_refused _ _ running (fetch_of_beyond _ beyond)]
    rfl

/-- The farthest jump there is leads to a refused fetch. -/
theorem farthest_jump_never_breaches :
    [0x60, 0xFF, 0xBF, 0xFF].length ≤ 3584 ∧
    ∃ start : Machine Keyboard,
      load [0x60, 0xFF, 0xBF, 0xFF] Keyboard.idle (.repeating #[]) = .ok start ∧
      let reached := start.after [.step, .step]
      reached.plain.Bounded ∧
        reached.plain.step =
          .ok ⟨reached.plain, .error ⟨0x10FE, none, .outOfRange ⟨0x10FE, 2⟩⟩⟩ := by
  refine ⟨by decide, ?_⟩
  obtain ⟨start, started, _plain, _history, bounded, _step, refused⟩ :=
    checked_histories_never_breach [0x60, 0xFF, 0xBF, 0xFF] Keyboard.idle (.repeating #[])
      [.step, .step] (by decide)
  have evaluated : (load [0x60, 0xFF, 0xBF, 0xFF] Keyboard.idle (.repeating #[])).toOption.map
      (fun start =>
        let reached := start.after [.step, .step]
        (reached.clock, reached.programCounter)) = some (.running, 0x10FE) := by
    decide +kernel
  rw [started] at evaluated
  obtain ⟨running, place⟩ := Prod.mk.inj (Option.some.inj evaluated)
  refine ⟨start, started, bounded, ?_⟩
  rw [refused running (by rw [place]; decide), place]
  rfl

end Machine

end Chip8
