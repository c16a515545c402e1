import Chip8.Session
import Chip8.TickWorker

set_option autoImplicit false

/-! Schedules that follow the clock: timers that tick sixty times a second, a
key that is pressed and let go all the time, and a request to stop after a
while. Several of them can go on beside one loop. A computer is never quite
regular; what it adds to a time is scattered, more and more the longer it
lasts, so that no program keeps in step with a schedule for long. -/

namespace Chip8

/-- A number below a bound that shows no pattern from one number to the next. -/
def scatter (number bound : Nat) : Nat :=
  let seed := UInt64.ofNat (number + 1) * 0x9E3779B97F4A7C15
  let first := (seed ^^^ (seed >>> 30)) * 0xBF58476D1CE4E5B9
  let second := (first ^^^ (first >>> 27)) * 0x94D049BB133111EB
  (second >>> 32).toNat % max bound 1

namespace Tempo

/-- A turn takes a tenth of a microsecond or some more, and a sleeper wakes
about fifty microseconds late. -/
def usual : Tempo :=
  { work := fun turn =>
      let stretch := turn / 1024
      100 + scatter stretch (min (10 * stretch) 4000)
    delay := fun turn => 50000 + scatter turn 8000 }

end Tempo

namespace Schedule

/-- The longest time for which the keyboard is watched without a look at the
request to stop. -/
def longestWatch : Nat := 50000000

def quiet : Schedule :=
  { actions := fun _ => []
    watch := fun _ => longestWatch
    lasting := 0
    closing := [] }

def both (first second : Schedule) : Schedule :=
  { actions := fun clock => first.actions clock ++ second.actions clock
    watch := fun moment => min (first.watch moment) (second.watch moment)
    lasting := max first.lasting second.lasting
    closing := first.closing ++ second.closing }

/-! ### Timers -/

/-- How late a tick is. A turn that is due at the same time comes first. -/
def tickDelay : Nat := 66000

def ticksUpTo (moment : Nat) : Nat :=
  (moment - tickDelay) / TickTimer.tickNanoseconds

def ticksBetween (past now : Nat) : Nat :=
  ticksUpTo now - ticksUpTo past

def ticking : Schedule :=
  { quiet with
    actions := fun clock =>
      let ticks := ticksBetween clock.past clock.now
      if ticks = 0 then [] else [.tickDelay ticks, .tickSound ticks] }

theorem ticksBetween_add (past middle now : Nat) (before : past ≤ middle)
    (after : middle ≤ now) :
    ticksBetween past middle + ticksBetween middle now = ticksBetween past now := by
  have earlier : ticksUpTo past ≤ ticksUpTo middle := Nat.div_le_div_right (by omega)
  have later : ticksUpTo middle ≤ ticksUpTo now := Nat.div_le_div_right (by omega)
  simp only [ticksBetween]
  omega

/-! ### Keys -/

def tapLead : Nat := 50000

def tapTime : Nat := 5060000

def tapDelay (number : Nat) : Nat :=
  scatter number (min (40000 * number) tapTime)

def tapChanges (start moment : Nat) : Nat :=
  if moment < start then 0
  else
    let number := (moment - start) / tapTime
    if tapDelay number ≤ (moment - start) % tapTime then number + 1 else number

def tapPause (start moment : Nat) : Nat :=
  if moment < start then start - moment
  else
    let number := (moment - start) / tapTime
    let within := (moment - start) % tapTime
    if tapDelay number ≤ within then tapTime - within + tapDelay (number + 1)
    else tapDelay number - within

def tapChange (key number : Nat) : OutsideAction :=
  .key (.set key (number % 2 == 0))

def tapping (key moment : Nat) : Schedule :=
  let start := moment + tapLead
  { quiet with
    actions := fun clock =>
      let earlier := tapChanges start clock.past
      (List.range (tapChanges start clock.now - earlier)).map (fun number =>
        tapChange key (earlier + number))
    watch := fun now => tapPause start now
    closing := [.key (.set key false)] }

/-! ### Requests to stop -/

def stopDelay : Nat := 90000

/-- A request to stop comes so many milliseconds after a moment, whether the
loop still runs or not. -/
def stoppingAfter (milliseconds moment : Nat) : Schedule :=
  let due := moment + milliseconds * 1000000 + stopDelay
  { quiet with
    actions := fun clock => if clock.past < due ∧ due ≤ clock.now then [.stop] else []
    lasting := due }

end Schedule

def lookTime : Nat := 20000

def Session.runBeside (session : Session) (schedule : Schedule) (moment allowed : Nat) :
    SessionRun :=
  (session.run .usual schedule moment allowed).settle schedule lookTime

end Chip8
