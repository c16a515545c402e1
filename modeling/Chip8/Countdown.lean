import Chip8.Word

set_option autoImplicit false

/-! A value that counts down to zero and stays there, shared by any number of
handles, and a timer that is driven by hand: each time it fires, the callback
it was given last ticks the value so many times, and nothing happens once it
was stopped. -/

namespace Chip8

structure Countdown where
  value : Byte
  deriving DecidableEq, Repr

namespace Countdown

def tickTimes (countdown : Countdown) (ticks : Nat) : Countdown :=
  ⟨UInt8.ofNat (countdown.value.toNat - ticks)⟩

def tick (countdown : Countdown) : Countdown :=
  countdown.tickTimes 1

theorem toNat_tickTimes (countdown : Countdown) (ticks : Nat) :
    (countdown.tickTimes ticks).value.toNat = countdown.value.toNat - ticks := by
  have bound := countdown.value.toNat_lt
  simp only [tickTimes, UInt8.toNat_ofNat']
  omega

theorem tickTimes_zero (countdown : Countdown) : countdown.tickTimes 0 = countdown := by
  cases countdown with
  | mk value =>
      simp only [tickTimes, Nat.sub_zero, UInt8.ofNat_toNat]

/-- Ticks add up, also when the value reaches zero on the way. -/
theorem tickTimes_add (countdown : Countdown) (first second : Nat) :
    (countdown.tickTimes first).tickTimes second = countdown.tickTimes (first + second) := by
  apply congrArg Countdown.mk
  apply UInt8.toNat_inj.mp
  have outer := (countdown.tickTimes first).toNat_tickTimes second
  have inner := countdown.toNat_tickTimes first
  have together := countdown.toNat_tickTimes (first + second)
  simp only [tickTimes] at outer inner together ⊢
  omega

def oneLess? (countdown : Countdown) : Option Byte :=
  if countdown.value = 0 then none else some (countdown.value - 1)

/-- Replaces the value by one less where it can be, with the answer that a tick gives: one
less than the value it replaced, or the value it left alone. -/
def answerTick (countdown : Countdown) : Countdown × Byte :=
  match countdown.oneLess? with
  | some less => (⟨less⟩, countdown.value - 1)
  | none => (countdown, countdown.value)

theorem value_tick (countdown : Countdown) :
    countdown.tick.value = countdown.oneLess?.getD countdown.value := by
  apply UInt8.toNat_inj.mp
  have ticked := countdown.toNat_tickTimes 1
  change countdown.tick.value.toNat = _ at ticked
  rw [ticked]
  unfold oneLess?
  by_cases zero : countdown.value = 0
  · rw [if_pos zero, zero]
    rfl
  · have positive : 0 < countdown.value.toNat :=
      Nat.pos_of_ne_zero (fun none => zero (UInt8.toNat_inj.mp none))
    have least : 1 ≤ countdown.value := UInt8.le_iff_toNat_le.mpr positive
    rw [if_neg zero, Option.getD_some, UInt8.toNat_sub_of_le _ _ least]
    rfl

theorem answerTick_eq (countdown : Countdown) :
    countdown.answerTick = (countdown.tick, countdown.tick.value) := by
  have value := countdown.value_tick
  have whole : countdown.tick = ⟨countdown.oneLess?.getD countdown.value⟩ := by rw [← value]
  rw [value, whole, answerTick]
  unfold oneLess?
  by_cases zero : countdown.value = 0
  · rw [if_pos zero]
    rfl
  · rw [if_neg zero]
    rfl

end Countdown

/-- A countdown and the number of handles that were given out on it. Every
handle reaches the same value. -/
structure SharedCountdown where
  countdown : Countdown
  handles : Nat
  deriving DecidableEq, Repr

namespace SharedCountdown

def ofValue (value : Byte) : SharedCountdown := ⟨⟨value⟩, 1⟩

def share (shared : SharedCountdown) : SharedCountdown :=
  { shared with handles := shared.handles + 1 }

def read? (shared : SharedCountdown) (handle : Nat) : Option Byte :=
  if handle < shared.handles then some shared.countdown.value else none

def readings (shared : SharedCountdown) : List Byte :=
  (List.range shared.handles).filterMap shared.read?

def write (shared : SharedCountdown) (handle : Nat) (value : Byte) : SharedCountdown :=
  if handle < shared.handles then { shared with countdown := ⟨value⟩ } else shared

def tick (shared : SharedCountdown) (handle : Nat) : SharedCountdown :=
  if handle < shared.handles then { shared with countdown := shared.countdown.tick } else shared

end SharedCountdown

/-- A shared countdown with the callback that is installed. The timer itself
holds the handle zero. -/
structure HandTimer where
  shared : SharedCountdown
  /-- How often the callback ticks, or nothing after a stop. -/
  ticksPerFire : Option Nat
  deriving DecidableEq, Repr

inductive TimerAction where
  | share
  | write (handle : Nat) (value : Byte)
  | tick (handle : Nat)
  | fire (times : Nat)
  | stop
  | install (ticks : Nat)
  deriving DecidableEq, Repr

namespace HandTimer

def start (value : Byte) : HandTimer := ⟨.ofValue value, some 1⟩

def value (timer : HandTimer) : Byte :=
  timer.shared.countdown.value

def read? (timer : HandTimer) (handle : Nat) : Option Byte :=
  timer.shared.read? handle

def tickTimes (timer : HandTimer) (ticks : Nat) : HandTimer :=
  { timer with
    shared := { timer.shared with countdown := timer.shared.countdown.tickTimes ticks } }

def fireTimes (timer : HandTimer) (times : Nat) : HandTimer :=
  match timer.ticksPerFire with
  | none => timer
  | some ticks => timer.tickTimes (times * ticks)

def fire (timer : HandTimer) : HandTimer :=
  timer.fireTimes 1

def perform (timer : HandTimer) : TimerAction → HandTimer
  | .share => { timer with shared := timer.shared.share }
  | .write handle value => { timer with shared := timer.shared.write handle value }
  | .tick handle => { timer with shared := timer.shared.tick handle }
  | .fire times => timer.fireTimes times
  | .stop => { timer with ticksPerFire := none }
  | .install ticks => { timer with ticksPerFire := some ticks }

def isAlive (timer : HandTimer) : Bool :=
  timer.ticksPerFire.isSome

theorem fireTimes_succ (timer : HandTimer) (times : Nat) :
    timer.fireTimes (times + 1) = (timer.fireTimes times).fire := by
  cases installed : timer.ticksPerFire with
  | none => simp only [fireTimes, fire, installed]
  | some ticks =>
      simp only [fireTimes, fire, tickTimes, installed, Countdown.tickTimes_add]
      rw [Nat.add_mul, Nat.one_mul]

end HandTimer

end Chip8
