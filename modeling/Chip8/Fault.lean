import Chip8.AddressRange

set_option autoImplicit false

/-! The ways a step of the machine can fail, and their wording. A fault keeps
the place it happened at, the word that was fetched there if a word was there
to fetch, and the cause. -/

namespace Chip8

inductive FaultCause where
  | unsupportedWord (word : Word)
  | outOfRange (range : OutOfRange)
  | stackFull
  | stackEmpty
  deriving DecidableEq, Repr

namespace FaultCause

def unsupportedMessage (word : Word) : String :=
  "An unsupported opcode was used " ++ hexText 4 word.toNat ++ "."

def message : FaultCause → String
  | unsupportedWord word => "Invalid opcode state '" ++ unsupportedMessage word ++ "'."
  | outOfRange range => "Invalid memory access '" ++ range.message ++ "'."
  | stackFull => "Invalid stack state 'Stack is full!'."
  | stackEmpty => "Invalid stack state 'Stack is empty!'."

end FaultCause

structure Fault where
  programCounter : Word
  /-- Absent when the fetch itself failed. -/
  word : Option Word
  cause : FaultCause
  deriving DecidableEq, Repr

namespace Fault

def wordMessage : Option Word → String
  | none => ""
  | some word => " (opcode " ++ hexText 4 word.toNat ++ ")"

def message (fault : Fault) : String :=
  "Fatal fault at " ++ hexText 4 fault.programCounter.toNat ++ wordMessage fault.word ++
    ": " ++ fault.cause.message

end Fault

end Chip8
