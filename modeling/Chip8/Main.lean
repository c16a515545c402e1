import Chip8.CommandPlan
import Chip8.MachineDump
import Chip8.RasterPicture
import Chip8.StatusLine
import Chip8.TerminalKeys

set_option autoImplicit false

/-! The command. It carries the plan of its arguments out on real files, and
plays a session in the terminal: frames are drawn in place, the timers follow
the clock, and the keys are those that the terminal passes on. -/

namespace Chip8.Command

abbrev KeyEvent := TerminalKey × Bool

/-- The key behind a byte from the terminal. Control with a letter arrives as
the number of the letter. -/
def keyEvent (value : UInt8) : KeyEvent :=
  if value == 0x1B then (.escape, false)
  else if value == 0x03 then (.character 'c', true)
  else (.character (Char.ofNat value.toNat), false)

def fileProblem (error : IO.Error) : FileProblem :=
  match error with
  | .noFileOrDirectory .. => .missing
  | .inappropriateType _ 20 _ => .notDirectory
  | .inappropriateType _ 21 _ => .directory
  | .invalidArgument _ 36 _ => .nameTooLong
  | other => .other (toString other)

partial def readKeys (input : IO.FS.Stream) (events : IO.Ref (List KeyEvent)) : IO Unit := do
  let bytes ← input.read 1
  if bytes.isEmpty then return ()
  for value in bytes do
    events.modify (fun earlier => earlier ++ [keyEvent value])
  readKeys input events

structure Play where
  session : Session
  hold : KeyHold
  ticks : Nat
  /-- When the next instruction is due, in nanoseconds. -/
  deadline : Nat

def tickActions (count : Nat) : List OutsideAction :=
  [.tickDelay count, .tickSound count]

def takeIn (play : Play) (events : List KeyEvent) (milliseconds : Nat) : Play :=
  let held := { play.hold with keyboard := play.session.keyboard }
  let handled := events.foldl (fun hold event => hold.handle event.1 event.2 milliseconds) held
  let hold := handled.releaseExpired milliseconds
  let ticks := milliseconds * 60 / 1000
  let keyed := { play.session with
    machine := play.session.machine.changeKeypad (fun _ => hold.keyboard)
    stopped := play.session.stopped || hold.stopped }
  { play with
    session := keyed.actAll (tickActions (ticks - play.ticks))
    hold := hold
    ticks := ticks }

def frameText (frame : Frame) : String :=
  "\x1b[H" ++ String.intercalate "\r\n" (frame.raster.compactPicture ++ [frame.status.line])

def writeJournal (log : IO.FS.Handle) (entries : List JournalEntry) : IO Unit := do
  for entry in entries do
    if entry.severity == .error then log.putStrLn entry.line

/-- Waits until the next instruction is due, and tells when that was. -/
def pause (deadline interval : Nat) : IO Nat := do
  let now ← IO.monoNanosNow
  let due := LoopClock.nextDue deadline interval now
  IO.sleep (UInt32.ofNat ((due - now) / 1000000))
  return due

partial def playOn (output : IO.FS.Stream) (log : IO.FS.Handle)
    (events : IO.Ref (List KeyEvent)) (play : Play) : IO (Play × Option Fault) := do
  let pending ← events.modifyGet (fun waiting => (waiting, []))
  let current := takeIn play pending (← IO.monoMsNow)
  if current.session.stopped then
    writeJournal log [.sessionStopped]
    return (current, none)
  let turn := current.session.step
  writeJournal log turn.journal
  let later := { current with session := turn.session }
  match turn.outcome with
  | .error fault =>
      writeJournal log [.sessionFaulted fault]
      return (later, some fault)
  | .ok operation =>
      if operation == .draw then
        output.putStr (frameText turn.session.frame)
        output.flush
      match Pace.afterOperation operation with
      | .rest =>
          let due ← pause later.deadline (instructionInterval later.session.hertz)
          playOn output log events { later with deadline := due }
      | .watchKeyboard =>
          IO.sleep 10
          playOn output log events { later with deadline := (← IO.monoNanosNow) }

def playSession (options : Options) (program : List Byte) : IO UInt32 := do
  match Session.load program options.hertz (fun _ => []) with
  | .error range =>
      IO.eprintln range.message
      return 1
  | .ok session =>
      let output ← IO.getStdout
      let log ← IO.FS.Handle.mk options.logFile .write
      let events ← IO.mkRef []
      let _ ← IO.asTask (readKeys (← IO.getStdin) events) .dedicated
      writeJournal log [.sessionStarted options.hertz]
      output.putStr "\x1b[?1049h\x1b[?25l\x1b[2J"
      let start : Play :=
        { session := session
          hold := .start session.keyboard
          ticks := (← IO.monoMsNow) * 60 / 1000
          deadline := (← IO.monoNanosNow) }
      let (ended, fault) ← playOn output log events start
      output.putStr "\x1b[?1049l\x1b[?25h"
      output.flush
      match fault with
      | none => return 0
      | some fault =>
          IO.eprintln fault.message
          IO.eprintln ended.session.machine.dump
          IO.eprintln ("Error: " ++ fault.message)
          return 1

def readProgram (path : String) : IO (Except FileProblem (List Byte)) := do
  try
    let bytes ← IO.FS.readBinFile path
    return .ok bytes.toList
  catch error => return .error (fileProblem error)

def createLog (path : String) : IO (Option FileProblem) := do
  try
    let _ ← IO.FS.Handle.mk path .write
    return none
  catch error => return some (fileProblem error)

def openTerminal : IO (Option FileProblem) := do
  if ← (← IO.getStdin).isTty then return none else return some .noDevice

def carryOut : CommandPlan → IO UInt32
  | .finish report => do
      IO.print report.output
      IO.eprint report.errors
      return UInt32.ofNat report.code
  | .readProgram path next => do carryOut (next (← readProgram path))
  | .createLog path next => do carryOut (next (← createLog path))
  | .openTerminal next => do carryOut (next (← openTerminal))
  | .play options program => playSession options program

end Chip8.Command

def main (arguments : List String) : IO UInt32 :=
  Chip8.Command.carryOut (Chip8.CommandPlan.ofArguments arguments)
