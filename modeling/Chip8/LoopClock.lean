set_option autoImplicit false

/-! The time of a loop that takes one turn after another at a rate. A turn is
due one interval after the one before was due, so that a late turn does not
delay the later ones; only a loop that has fallen behind counts anew from where
it is. Moments are nanoseconds. -/

namespace Chip8

def defaultHertz : Nat := 500

/-- The nanoseconds from one instruction to the next. A rate of zero counts as
one instruction per second. -/
def instructionInterval (hertz : Nat) : Nat :=
  1000000000 / max hertz 1

structure LoopClock where
  turn : Nat
  due : Nat
  past : Nat
  now : Nat
  deriving DecidableEq, Repr

structure Tempo where
  work : Nat → Nat
  /-- How long after the asked time the loop wakes from the rest after a turn. -/
  delay : Nat → Nat

namespace LoopClock

def start (moment : Nat) : LoopClock := ⟨0, moment, moment, moment⟩

def nextDue (due interval finished : Nat) : Nat :=
  max (due + interval) finished

def rest (clock : LoopClock) (tempo : Tempo) (interval : Nat) : LoopClock :=
  let finished := clock.now + tempo.work clock.turn
  let due := nextDue clock.due interval finished
  { turn := clock.turn + 1
    due := due
    past := clock.now
    now := if finished < due then due + tempo.delay clock.turn else finished }

/-- The clock at the next turn, after a pause of unknown length that the loop
did not ask for. It counts anew from there. -/
def pause (clock : LoopClock) (length : Nat) : LoopClock :=
  let now := clock.now + length
  { turn := clock.turn + 1
    due := now
    past := clock.now
    now := now }

theorem past_rest (clock : LoopClock) (tempo : Tempo) (interval : Nat) :
    (clock.rest tempo interval).past = clock.now := rfl

theorem past_pause (clock : LoopClock) (length : Nat) :
    (clock.pause length).past = clock.now := rfl

theorem now_le_now_rest (clock : LoopClock) (tempo : Tempo) (interval : Nat) :
    clock.now ≤ (clock.rest tempo interval).now := by
  unfold rest
  dsimp only
  split <;> omega

theorem due_le_now_rest (clock : LoopClock) (tempo : Tempo) (interval : Nat) :
    (clock.rest tempo interval).due ≤ (clock.rest tempo interval).now := by
  unfold rest nextDue
  dsimp only
  split <;> omega

end LoopClock

end Chip8
