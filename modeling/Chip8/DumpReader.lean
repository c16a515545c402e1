import Chip8.MemoryDump

set_option autoImplicit false

/-! Memory dumps read back. A line is split at its blanks: the range with its two
marks comes first, and what is left is either the filler for a run of zeros or the
words of a row. The bytes are put where the ranges say, and a text is taken only if it
is the dump of the memory that was found. -/

namespace Chip8

def linesOf (text : String) : List String :=
  (text.toList.splitOn '\n').map String.ofList

def readHex? : List Char → Option Nat
  | '0' :: 'x' :: digits => some (hexValue digits)
  | _ => none

def readWords? (pieces : List (List Char)) : Option (List Word) :=
  pieces.mapM (fun piece => (readHex? piece).map UInt16.ofNat)

/-- The pieces of the filler. Many of them are empty, since it is mostly blanks. -/
def zeroRunPieces : List (List Char) :=
  zeroRunText.toList.splitOn ' '

namespace DumpRow

def readContent? (pieces : List (List Char)) : Option (Option (List Word)) :=
  if pieces = zeroRunPieces then some none else (readWords? pieces).map some

def read? (line : String) : Option DumpRow :=
  match (line.toList.dropWhile (· = '\t')).splitOn ' ' with
  | first :: ['-'] :: last :: [':'] :: content => do
      return ⟨← readHex? first, ← readHex? last, ← readContent? content⟩
  | _ => none

def bytes (row : DumpRow) : List Byte :=
  match row.words with
  | none => List.replicate (row.last + 1 - row.first) 0
  | some words => words.flatMap (fun word => [word.highByte, word.lowByte])

end DumpRow

namespace Memory

def withRows (memory : Memory) : List DumpRow → Except OutOfRange Memory
  | [] => .ok memory
  | row :: later => do (← memory.load row.first row.bytes).withRows later

def ofLines? (text : String) : Option Memory := do
  let rows ← (linesOf text).mapM DumpRow.read?
  (blank.withRows rows).toOption

/-- The memory that a text is a dump of. -/
def ofDump? (depth : Nat) (text : String) : Option Memory :=
  (ofLines? text).filter (fun memory => memory.dump depth = text)

end Memory

end Chip8
