import Chip8.KeyboardWaits
import Chip8.LoopClock
import Chip8.MachineStep

set_option autoImplicit false

/-! A session steps a machine until it is asked to stop or the machine faults,
and shows a frame after every step that draws. What happens around the loop is a
schedule: actions that take place between two turns, and actions that the
display takes when it is shown a frame. -/

namespace Chip8

structure Frame where
  raster : Raster
  status : Status
  deriving DecidableEq

inductive OutsideAction where
  | key (action : KeyAction)
  | tickDelay (times : Nat)
  | tickSound (times : Nat)
  | stop
  deriving DecidableEq, Repr

structure Schedule where
  /-- The actions after the turn before and up to the turn at hand. -/
  actions : LoopClock → List OutsideAction
  /-- How long the keyboard is watched from a moment on, if no press is there. -/
  watch : Nat → Nat
  /-- The moment up to which there are actions, also if the loop ends earlier. -/
  lasting : Nat
  closing : List OutsideAction

abbrev DisplayHabit := Nat → List OutsideAction

structure Session where
  machine : Machine Keyboard
  hertz : Nat
  stopped : Bool
  shown : List Frame
  display : DisplayHabit

inductive Pace where
  | rest
  | watchKeyboard
  deriving DecidableEq, Repr

structure SessionTurn where
  session : Session
  outcome : Except Fault Operation
  journal : List JournalEntry

inductive RunEnd where
  | stopped
  | faulted (fault : Fault)
  | unfinished
  deriving DecidableEq, Repr

structure SessionRun where
  session : Session
  ending : RunEnd
  clock : LoopClock
  latestFirst : List JournalEntry

def SessionRun.journal (run : SessionRun) : List JournalEntry :=
  run.latestFirst.reverse

def Pace.afterOperation : Operation → Pace
  | .wait => .watchKeyboard
  | .quiet => .rest
  | .draw => .rest

namespace Session

def load (program : List Byte) (hertz : Nat) (display : DisplayHabit) :
    Except OutOfRange Session :=
  (Machine.load program Keyboard.idle (RandomSource.repeating #[])).map (fun machine =>
    { machine := machine
      hertz := hertz
      stopped := false
      shown := []
      display := display })

def keyboard (session : Session) : Keyboard :=
  session.machine.keypad

def changeKeyboard (session : Session) (action : KeyAction) : Session :=
  { session with machine := session.machine.changeKeypad (fun keyboard => keyboard.perform action) }

def stop (session : Session) : Session :=
  { session with stopped := true }

def act (session : Session) : OutsideAction → Session
  | .key action => session.changeKeyboard action
  | .tickDelay times => { session with machine := session.machine.tickDelay times }
  | .tickSound times => { session with machine := session.machine.tickSound times }
  | .stop => session.stop

def actAll (session : Session) (actions : List OutsideAction) : Session :=
  actions.foldl act session

def frame (session : Session) : Frame :=
  ⟨session.machine.raster, session.machine.status⟩

def present (session : Session) : Session :=
  let presented := { session with shown := session.frame :: session.shown }
  presented.actAll (session.display presented.shown.length)

def step (session : Session) : SessionTurn :=
  let turn := session.machine.step
  let stepped := { session with machine := turn.machine }
  match turn.outcome with
  | .ok .draw => ⟨stepped.present, turn.outcome, turn.journal⟩
  | _ => ⟨stepped, turn.outcome, turn.journal⟩

def watchKeyboard (session : Session) : Session :=
  { session with
    machine := session.machine.changeKeypad (fun keyboard =>
      WaitKind.seePressInTime.look keyboard) }

def pass (session : Session) : Pace → Session
  | .rest => session
  | .watchKeyboard => session.watchKeyboard

theorem watchKeyboard_eq (session : Session) : session.watchKeyboard = session := rfl

theorem pass_eq (session : Session) (pace : Pace) : session.pass pace = session := by
  cases pace with
  | rest => rfl
  | watchKeyboard => exact session.watchKeyboard_eq

/-- The time of the next turn. A press that is there ends the watch at once. -/
def nextClock (session : Session) (tempo : Tempo) (schedule : Schedule) (clock : LoopClock) :
    Pace → LoopClock
  | .rest => clock.rest tempo (instructionInterval session.hertz)
  | .watchKeyboard =>
      let watched := if session.keyboard.hasPress then 0 else schedule.watch clock.now
      clock.pause (tempo.work clock.turn + watched)

/-- The turns of the loop from a given one on. The request to stop is looked at
before a step and nowhere else. -/
def loop (tempo : Tempo) (schedule : Schedule) :
    Nat → LoopClock → Session → List JournalEntry → SessionRun
  | 0, clock, session, report => ⟨session, .unfinished, clock, report⟩
  | allowed + 1, clock, session, report =>
      let acted := session.actAll (schedule.actions clock)
      if acted.stopped then ⟨acted, .stopped, clock, .sessionStopped :: report⟩
      else
        let turn := acted.step
        let reported := turn.journal.reverse ++ report
        match turn.outcome with
        | .error fault =>
            ⟨turn.session, .faulted fault, { clock with turn := clock.turn + 1 },
              .sessionFaulted fault :: reported⟩
        | .ok operation =>
            let pace := Pace.afterOperation operation
            loop tempo schedule allowed (turn.session.nextClock tempo schedule clock pace)
              (turn.session.pass pace) reported

theorem loop_of_stopped (tempo : Tempo) (schedule : Schedule) (allowed : Nat)
    (clock : LoopClock) (session : Session) (report : List JournalEntry)
    (stopped : (session.actAll (schedule.actions clock)).stopped = true) :
    loop tempo schedule (allowed + 1) clock session report =
      ⟨session.actAll (schedule.actions clock), .stopped, clock,
        .sessionStopped :: report⟩ := by
  simp only [loop, if_pos stopped]

def run (session : Session) (tempo : Tempo) (schedule : Schedule) (moment allowed : Nat) :
    SessionRun :=
  loop tempo schedule allowed (.start moment) session [.sessionStarted session.hertz]

def frames (session : Session) : List Frame :=
  session.shown.reverse

def framesSince (session : Session) (count : Nat) : List Frame :=
  session.frames.drop count

end Session

/-- What the schedule does after the loop has ended: the actions of a while, or
of the rest of the time that it lasts, and then the closing actions. -/
def SessionRun.settle (run : SessionRun) (schedule : Schedule) (rest : Nat) : SessionRun :=
  let settled := run.clock.pause (max rest (schedule.lasting - run.clock.now))
  { run with
    session := (run.session.actAll (schedule.actions settled)).actAll schedule.closing
    clock := settled }

end Chip8
