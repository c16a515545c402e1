import Chip8.Fault
import Chip8.Listing

set_option autoImplicit false

/-! What the machine, its session and its timers report while they run. An entry keeps what
happened; its severity and its wording are functions of that. -/

namespace Chip8

inductive Severity where
  | trace
  | debug
  | info
  | error
  deriving DecidableEq, Repr

def Severity.name : Severity → String
  | trace => "TRACE"
  | debug => "DEBUG"
  | info => "INFO"
  | error => "ERROR"

inductive JournalEntry where
  | programLoaded (size : Nat)
  | fetched (programCounter : Word) (word : Word) (instruction : Instruction)
  | routineIgnored (target : Address)
  | returning (target : Word)
  /-- The depth counts the call itself. -/
  | calling (target : Address) (depth : Nat)
  | jumping (target : Word)
  | waitingForKey (register : Register)
  | keyStored (key : Byte) (register : Register)
  | sessionStarted (hertz : Nat)
  | sessionStopped
  | sessionFaulted (fault : Fault)
  | workerFailed
  deriving DecidableEq, Repr

namespace JournalEntry

def severity : JournalEntry → Severity
  | fetched _ _ _ => .trace
  | sessionStarted _ => .info
  | sessionStopped => .info
  | sessionFaulted _ => .error
  | workerFailed => .error
  | _ => .debug

def registerText (register : Register) : String :=
  "V" ++ hexDigitText register.val

/-- A fetched instruction is reported by its line of the listing. -/
def message : JournalEntry → String
  | programLoaded size => "Loaded a program of " ++ toString size ++ " bytes."
  | fetched programCounter word instruction =>
      (ListingEntry.code word instruction).line programCounter.toNat
  | routineIgnored target => "Ignoring machine code call to " ++ hexText 3 target.val ++ "."
  | returning target => "Returning to " ++ hexText 4 target.toNat ++ "."
  | calling target depth =>
      "Calling " ++ hexText 3 target.val ++ ", depth " ++ toString depth ++ "."
  | jumping target => "Jumping to " ++ hexText 4 target.toNat ++ "."
  | waitingForKey register => "Waiting for a key press into " ++ registerText register ++ "."
  | keyStored key register =>
      "Key " ++ hexDigitText key.toNat ++ " pressed, stored into " ++ registerText register ++ "."
  | sessionStarted hertz => "Starting the session at " ++ toString hertz ++ " hertz."
  | sessionStopped => "The session was stopped."
  | sessionFaulted fault => fault.message
  | workerFailed => "The timer worker thread panicked."

def line (entry : JournalEntry) : String :=
  entry.severity.name ++ " " ++ entry.message

end JournalEntry

end Chip8
