import Chip8.Countdown
import Mathlib.Data.List.Induction
import Mathlib.Logic.Function.Iterate

set_option autoImplicit false

/-! A timer driven by hand, as a function of everything that was done with it. Whoever
reads it, it shows the value written last less one for every tick since, and never less
than zero; what a fire ticks depends on the callback that is installed at the time. All
histories are given latest first. -/

namespace Chip8

namespace TimerAction

/-- The callback that is installed by an action, or nothing for an action that takes the
callback away. -/
def installs? : TimerAction → Option (Option Nat)
  | .stop => some none
  | .install ticks => some (some ticks)
  | _ => none

end TimerAction

namespace HandTimer

def handlesGiven (history : List TimerAction) : Nat :=
  history.count .share + 1

/-- How often the callback ticks that was installed last. The timer starts with one that
ticks once. -/
def installed? (history : List TimerAction) : Option Nat :=
  (history.findSome? TimerAction.installs?).getD (some 1)

/-- The value written last, through any handle that was given out by then. -/
def lastWritten (first : Byte) : List TimerAction → Byte
  | [] => first
  | .write handle value :: earlier =>
      if handle < handlesGiven earlier then value else lastWritten first earlier
  | _ :: earlier => lastWritten first earlier

/-- The ticks since then, direct ones and those of the callbacks. -/
def ticksSince : List TimerAction → Nat
  | [] => 0
  | .write handle _ :: earlier => if handle < handlesGiven earlier then 0 else ticksSince earlier
  | .tick handle :: earlier =>
      ticksSince earlier + if handle < handlesGiven earlier then 1 else 0
  | .fire times :: earlier => ticksSince earlier + times * (installed? earlier).getD 0
  | _ :: earlier => ticksSince earlier

def after (timer : HandTimer) (actions : List TimerAction) : HandTimer :=
  actions.foldl perform timer

/-! ### One action -/

theorem handles_perform (timer : HandTimer) (action : TimerAction) :
    (timer.perform action).shared.handles =
      timer.shared.handles + if action = .share then 1 else 0 := by
  cases action with
  | share => rfl
  | write handle value =>
      simp only [perform, SharedCountdown.write]
      split <;> rfl
  | tick handle =>
      simp only [perform, SharedCountdown.tick]
      split <;> rfl
  | fire times =>
      simp only [perform, fireTimes]
      split <;> rfl
  | stop => rfl
  | install ticks => rfl

theorem ticksPerFire_perform (timer : HandTimer) (action : TimerAction) :
    (timer.perform action).ticksPerFire = action.installs?.getD timer.ticksPerFire := by
  cases action with
  | fire times =>
      simp only [perform, fireTimes]
      split <;> rfl
  | _ => rfl

theorem value_fireTimes (timer : HandTimer) (times : Nat) :
    (timer.fireTimes times).value.toNat =
      timer.value.toNat - times * timer.ticksPerFire.getD 0 := by
  unfold fireTimes
  cases timer.ticksPerFire with
  | none => exact (Nat.sub_zero _).symm
  | some ticks => exact timer.shared.countdown.toNat_tickTimes (times * ticks)

/-! ### One tick after the other -/

theorem iterate_tick (countdown : Countdown) (ticks : Nat) :
    Countdown.tick^[ticks] countdown = countdown.tickTimes ticks := by
  induction ticks with
  | zero => exact countdown.tickTimes_zero.symm
  | succ ticks ih => rw [Function.iterate_succ_apply', ih, Countdown.tick, Countdown.tickTimes_add]

theorem iterate_fire (timer : HandTimer) (times : Nat) :
    fire^[times] timer = timer.fireTimes times := by
  induction times with
  | zero =>
      unfold fireTimes
      cases timer.ticksPerFire with
      | none => rfl
      | some ticks => simp [tickTimes, Countdown.tickTimes_zero]
  | succ times ih => rw [Function.iterate_succ_apply', ih, fireTimes_succ]

theorem countdown_fire (timer : HandTimer) :
    timer.fire.shared.countdown =
      Countdown.tick^[timer.ticksPerFire.getD 0] timer.shared.countdown := by
  unfold fire fireTimes
  cases timer.ticksPerFire with
  | none => rfl
  | some ticks =>
      change timer.shared.countdown.tickTimes (1 * ticks) = _
      rw [Nat.one_mul]
      exact (iterate_tick _ ticks).symm

/-! ### Whole histories -/

theorem after_append_singleton (timer : HandTimer) (actions : List TimerAction)
    (action : TimerAction) :
    timer.after (actions ++ [action]) = (timer.after actions).perform action := by
  unfold after
  rw [List.foldl_append]
  rfl

theorem handles_after (value : Byte) (actions : List TimerAction) :
    ((start value).after actions).shared.handles = handlesGiven actions.reverse := by
  induction actions using List.reverseRecOn with
  | nil => rfl
  | append_singleton earlier action ih =>
      rw [after_append_singleton, handles_perform, ih, List.reverse_append, List.reverse_singleton,
        List.singleton_append, handlesGiven, handlesGiven, List.count_cons]
      simp only [beq_iff_eq]
      omega

theorem ticksPerFire_after (value : Byte) (actions : List TimerAction) :
    ((start value).after actions).ticksPerFire = installed? actions.reverse := by
  induction actions using List.reverseRecOn with
  | nil => rfl
  | append_singleton earlier action ih =>
      rw [after_append_singleton, ticksPerFire_perform, ih, List.reverse_append,
        List.reverse_singleton, List.singleton_append, installed?, installed?, List.findSome?_cons]
      cases action.installs? <;> rfl

theorem value_after (value : Byte) (actions : List TimerAction) :
    ((start value).after actions).value.toNat =
      (lastWritten value actions.reverse).toNat - ticksSince actions.reverse := by
  induction actions using List.reverseRecOn with
  | nil => rfl
  | append_singleton earlier action ih =>
      have handles := handles_after value earlier
      have installed := ticksPerFire_after value earlier
      rw [after_append_singleton, List.reverse_append, List.reverse_singleton,
        List.singleton_append]
      cases action with
      | share => exact ih
      | stop => exact ih
      | install ticks => exact ih
      | write handle written =>
          simp only [perform, SharedCountdown.write, handles, lastWritten, ticksSince]
          by_cases given : handle < handlesGiven earlier.reverse
          · rw [if_pos given, if_pos given, if_pos given]
            rfl
          · rw [if_neg given, if_neg given, if_neg given]
            exact ih
      | tick handle =>
          simp only [perform, SharedCountdown.tick, handles, lastWritten, ticksSince]
          by_cases given : handle < handlesGiven earlier.reverse
          · rw [if_pos given, if_pos given, ← Nat.sub_sub, ← ih]
            exact Countdown.toNat_tickTimes _ 1
          · rw [if_neg given, if_neg given]
            exact ih
      | fire times =>
          simp only [lastWritten, ticksSince]
          rw [← Nat.sub_sub, ← ih, ← installed]
          exact value_fireTimes _ times

/-- After any actions all handles that were given out read the same value: the one written
last less the ticks since, and zero where these are more. The worker is alive exactly if a
callback is installed, which is the one installed last. A tick through any handle answers
with the value that it leaves behind; several fires are single fires one after the other,
and a fire is as many single ticks as the callback makes. -/
theorem timer_shows_last_write_less_ticks (value : Byte) (actions : List TimerAction) :
    let timer := (start value).after actions
    let history := actions.reverse
    (∀ handle, timer.read? handle =
        if handle < handlesGiven history then some timer.value else none) ∧
      timer.value.toNat = (lastWritten value history).toNat - ticksSince history ∧
      timer.isAlive = (installed? history).isSome ∧
      (∀ handle, handle < handlesGiven history →
        let answered := timer.shared.countdown.answerTick
        (timer.perform (.tick handle)).shared.countdown = answered.1 ∧
          answered.2 = (timer.perform (.tick handle)).value) ∧
      (∀ times, timer.perform (.fire times) = fire^[times] timer) ∧
      timer.fire.shared.countdown =
        Countdown.tick^[(installed? history).getD 0] timer.shared.countdown := by
  intro timer history
  have handles := handles_after value actions
  have installed := ticksPerFire_after value actions
  refine ⟨?_, value_after value actions, congrArg Option.isSome installed, ?_, ?_, ?_⟩
  · intro handle
    rw [← handles]
    rfl
  · intro handle given answered
    have reached : handle < timer.shared.handles := Nat.lt_of_lt_of_eq given handles.symm
    have ticked : (timer.perform (.tick handle)).shared.countdown =
        timer.shared.countdown.tick := by
      simp only [perform, SharedCountdown.tick, if_pos reached]
    have answer : answered = _ := timer.shared.countdown.answerTick_eq
    rw [answer]
    exact ⟨ticked, (congrArg Countdown.value ticked).symm⟩
  · intro times
    exact (timer.iterate_fire times).symm
  · rw [← installed]
    exact timer.countdown_fire

example :
    let history : List TimerAction :=
      [.fire 2, .stop, .tick 1, .fire 1, .install 3, .fire 1, .write 1 9, .share, .fire 4]
    (lastWritten 20 history, ticksSince history, installed? history) = (9, 5, none) := by
  decide

end HandTimer

end Chip8
