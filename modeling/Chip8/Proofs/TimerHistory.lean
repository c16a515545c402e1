import Chip8.Proofs.Executions

set_option autoImplicit false

/-! The timers as functions of a history. A timer shows what was written to it last
less one for each time it fired since, and never less than zero. The two timers are
alike: each has one instruction that writes it and one event that makes it fire. -/

namespace Chip8

inductive MachineTimer where
  | delay
  | sound
  deriving DecidableEq, Repr

structure MachineMoment (Pad : Type) where
  machine : Machine Pad
  event : MachineEvent Pad

namespace MachineTimer

variable {Pad : Type}

def countdown (timer : MachineTimer) (machine : Machine Pad) : Countdown :=
  match timer with
  | .delay => machine.delay
  | .sound => machine.sound

def setCountdown (timer : MachineTimer) (machine : Machine Pad) (countdown : Countdown) :
    Machine Pad :=
  match timer with
  | .delay => { machine with delay := countdown }
  | .sound => { machine with sound := countdown }

def fire : MachineTimer → MachineEvent Pad
  | .delay => .tickDelay
  | .sound => .tickSound

def fires (timer : MachineTimer) (event : MachineEvent Pad) : Bool :=
  match timer, event with
  | .delay, .tickDelay => true
  | .sound, .tickSound => true
  | _, _ => false

def written? (timer : MachineTimer) (execution : Execution Pad) : Option Byte :=
  match timer, execution.instruction with
  | .delay, .writeDelay source => some (execution.machine.register source)
  | .sound, .writeSound source => some (execution.machine.register source)
  | _, _ => none

variable [Keypad Pad]

def writtenAt? (timer : MachineTimer) (moment : MachineMoment Pad) : Option Byte :=
  (moment.machine.execution? moment.event).bind timer.written?

/-- The value written last, or zero. The moments are given latest first. -/
def lastWritten (timer : MachineTimer) (moments : List (MachineMoment Pad)) : Byte :=
  (moments.findSome? timer.writtenAt?).getD 0

/-- How often the timer fired since it was written last. -/
def firedSince (timer : MachineTimer) (moments : List (MachineMoment Pad)) : Nat :=
  (moments.takeWhile (fun moment => (timer.writtenAt? moment).isNone)).countP
    (fun moment => timer.fires moment.event)

theorem lastWritten_cons (timer : MachineTimer) (latest : MachineMoment Pad)
    (earlier : List (MachineMoment Pad)) :
    timer.lastWritten (latest :: earlier) =
      (timer.writtenAt? latest).getD (timer.lastWritten earlier) := by
  unfold lastWritten
  rw [List.findSome?_cons]
  cases timer.writtenAt? latest <;> rfl

theorem firedSince_cons (timer : MachineTimer) (latest : MachineMoment Pad)
    (earlier : List (MachineMoment Pad)) :
    timer.firedSince (latest :: earlier) =
      if (timer.writtenAt? latest).isSome then 0
      else timer.firedSince earlier + if timer.fires latest.event then 1 else 0 := by
  unfold firedSince
  rw [List.takeWhile_cons]
  cases timer.writtenAt? latest with
  | none => exact List.countP_cons
  | some value => rfl

end MachineTimer

namespace Machine

variable {Pad : Type} [Keypad Pad]

def moments (machine : Machine Pad) : List (MachineEvent Pad) → List (MachineMoment Pad)
  | [] => []
  | event :: later => (machine.happen event).moments later ++ [⟨machine, event⟩]

theorem moments_append_singleton (machine : Machine Pad) (history : List (MachineEvent Pad))
    (event : MachineEvent Pad) :
    machine.moments (history ++ [event]) =
      ⟨machine.after history, event⟩ :: machine.moments history := by
  induction history generalizing machine with
  | nil => rfl
  | cons first later ih =>
      rw [List.cons_append, moments, moments, ih, after_cons, List.cons_append]

/-! ### One event -/

theorem execute_countdown (machine : Machine Pad) (instruction : Instruction)
    (timer : MachineTimer) :
    timer.countdown (machine.execute instruction).machine =
      ((timer.written? ⟨machine, instruction⟩).map Countdown.mk).getD
        (timer.countdown machine) := by
  have kept := machine.execute_keptBy instruction
  cases timer with
  | delay =>
      cases instruction
      case writeDelay source => rfl
      all_goals exact kept.delay rfl
  | sound =>
      cases instruction
      case writeSound source => rfl
      all_goals exact kept.sound rfl

theorem step_countdown (machine : Machine Pad) (timer : MachineTimer) :
    timer.countdown machine.step.machine =
      ((timer.writtenAt? ⟨machine, .step⟩).map Countdown.mk).getD (timer.countdown machine) := by
  cases execution : machine.executed? with
  | none =>
      obtain ⟨_, _, _, _, _, same⟩ := machine.step_of_idle execution
      rw [same]
      simp only [MachineTimer.writtenAt?, execution?, execution]
      cases timer <;> rfl
  | some instruction =>
      obtain ⟨progress, _effect, _outcome, next⟩ := machine.step_of_executed instruction execution
      have kept := (machine.remember machine.nextWord).execute_countdown instruction timer
      rw [next]
      simp only [MachineTimer.writtenAt?, execution?, execution, Option.map_some, Option.bind_some]
      cases timer <;> exact kept

theorem happen_countdown (machine : Machine Pad) (event : MachineEvent Pad)
    (timer : MachineTimer) :
    (timer.countdown (machine.happen event)).value.toNat =
      match timer.writtenAt? ⟨machine, event⟩ with
      | some value => value.toNat
      | none => (timer.countdown machine).value.toNat - if timer.fires event then 1 else 0 := by
  cases event with
  | step =>
      change (timer.countdown machine.step.machine).value.toNat = _
      rw [machine.step_countdown timer]
      cases timer.writtenAt? ⟨machine, .step⟩ <;> cases timer <;> rfl
  | tickDelay =>
      cases timer with
      | delay => exact machine.delay.toNat_tickTimes 1
      | sound => rfl
  | tickSound =>
      cases timer with
      | delay => rfl
      | sound => exact machine.sound.toNat_tickTimes 1
  | keypad change => cases timer <;> rfl

theorem step_of_readDelay (machine : Machine Pad) (target : Register)
    (executed : machine.executed? = some (.readDelay target)) :
    machine.step.machine =
      { machine.setRegister target machine.delay.value with
        lastWord := machine.nextWord
        programCounter := machine.programCounter + 2 } := by
  obtain ⟨progress, effect, _outcome, next⟩ := machine.step_of_executed _ executed
  cases effect
  exact next

/-! ### Whole histories -/

theorem countdown_after (program : List Byte) (keypad : Pad) (random : RandomSource)
    (start : Machine Pad) (started : load program keypad random = .ok start)
    (history : List (MachineEvent Pad)) (timer : MachineTimer) :
    (timer.countdown (start.after history)).value.toNat =
      (timer.lastWritten (start.moments history)).toNat -
        timer.firedSince (start.moments history) := by
  induction history using List.reverseRecOn with
  | nil =>
      rw [after_nil, fresh_of_load program keypad random start started]
      cases timer <;> rfl
  | append_singleton earlier event ih =>
      rw [moments_append_singleton, after_append, MachineTimer.lastWritten_cons,
        MachineTimer.firedSince_cons]
      change (timer.countdown ((start.after earlier).happen event)).value.toNat = _
      rw [happen_countdown]
      cases timer.writtenAt? ⟨start.after earlier, event⟩ with
      | some value => rfl
      | none =>
          simp only [ih, Option.isSome_none, Bool.false_eq_true, if_false, Option.getD_none]
          exact Nat.sub_sub _ _ _

/-- At every time both timers show what was written to them last less how often they
fired since, and zero where that is more; reading the delay timer gives this
value. A timer that fires is counted down as a timer driven by hand is, with
nothing else changed, and stays at zero. Nothing that does not write or fire a
timer changes it. -/
theorem timers_show_last_write_less_fires (program : List Byte) (keypad : Pad)
    (random : RandomSource) (start : Machine Pad)
    (started : load program keypad random = .ok start) (history : List (MachineEvent Pad)) :
    let reached := start.after history
    let moments := start.moments history
    (∀ timer : MachineTimer, (timer.countdown reached).value.toNat =
        (timer.lastWritten moments).toNat - timer.firedSince moments) ∧
      (∀ target, reached.executed? = some (.readDelay target) →
        (reached.step.machine.register target).toNat =
            (MachineTimer.delay.lastWritten moments).toNat -
              MachineTimer.delay.firedSince moments ∧
          reached.step.machine =
            { reached.setRegister target reached.delay.value with
              lastWord := reached.nextWord
              programCounter := reached.programCounter + 2 }) ∧
      (∀ timer : MachineTimer,
        let fired := (HandTimer.start (timer.countdown reached).value).fire.shared.countdown
        reached.happen timer.fire = timer.setCountdown reached fired ∧
          ((timer.countdown reached).value = 0 → fired.value = 0)) ∧
      ∀ (timer : MachineTimer) (event : MachineEvent Pad),
        timer.writtenAt? ⟨reached, event⟩ = none → timer.fires event = false →
          timer.countdown (reached.happen event) = timer.countdown reached := by
  intro reached moments
  have shown := start.countdown_after program keypad random started history
  refine ⟨shown, ?_, ?_, ?_⟩
  · intro target executed
    have read := reached.step_of_readDelay target executed
    refine ⟨?_, read⟩
    rw [read]
    change ((reached.setRegister target reached.delay.value).register target).toNat = _
    rw [register_setRegister, if_pos rfl]
    exact shown .delay
  · intro timer fired
    refine ⟨by cases timer <;> rfl, ?_⟩
    intro zero
    change (UInt8.ofNat ((timer.countdown reached).value.toNat - 1)) = 0
    rw [zero]
    rfl
  · intro timer event unwritten quiet
    have same := reached.happen_countdown event timer
    rw [unwritten, quiet] at same
    exact congrArg Countdown.mk (UInt8.toNat_inj.mp same)

/-- The timer fires at zero before it is written, which is not owed afterwards, and
twice behind that. -/
theorem early_fire_is_not_owed :
    ∃ start : Machine Keyboard,
      load [0x60, 0x05, 0xF0, 0x15, 0xF1, 0x07] Keyboard.idle (.repeating #[]) = .ok start ∧
      let reached := start.after [.tickDelay, .step, .step, .tickDelay, .tickSound, .tickDelay]
      reached.delay.value.toNat = 3 ∧ (reached.step.machine.register 1).toNat = 3 := by
  obtain ⟨start, started⟩ := (load_ok_iff [0x60, 0x05, 0xF0, 0x15, 0xF1, 0x07] Keyboard.idle
    (.repeating #[])).mpr (by decide)
  have evaluated : (load [0x60, 0x05, 0xF0, 0x15, 0xF1, 0x07] Keyboard.idle
      (.repeating #[])).toOption.map (fun start =>
        let history := [.tickDelay, .step, .step, .tickDelay, .tickSound, .tickDelay]
        let moments := start.moments history
        ((MachineTimer.delay.lastWritten moments).toNat, MachineTimer.delay.firedSince moments,
          (start.after history).executed?)) = some (5, 2, some (.readDelay 1)) := by
    decide +kernel
  rw [started] at evaluated
  simp only [Except.toOption, Option.map_some, Option.some.injEq, Prod.mk.injEq] at evaluated
  obtain ⟨written, fired, reading⟩ := evaluated
  obtain ⟨shown, read, _fires, _others⟩ := timers_show_last_write_less_fires _ _ _ start started
    [.tickDelay, .step, .step, .tickDelay, .tickSound, .tickDelay]
  refine ⟨start, started, (shown .delay).trans ?_, (read 1 reading).1.trans ?_⟩
  · rw [written, fired]
  · rw [written, fired]

end Machine

end Chip8
