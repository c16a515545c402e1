import Chip8.DumpText
import Chip8.Memory

set_option autoImplicit false

/-! The dump of the memory: one line for every sixteen bytes, except that rows
of zeros that follow one another share a line. The rows are computed as data
first and become text afterwards. -/

namespace Chip8

structure DumpRow where
  first : Nat
  last : Nat
  /-- The words of the row, or nothing for a run of zeros. -/
  words : Option (List Word)
  deriving DecidableEq, Repr

def mergeZeroRuns : List DumpRow → List DumpRow
  | [] => []
  | row :: rest =>
      match row.words, mergeZeroRuns rest with
      | none, ⟨_, last, none⟩ :: later => ⟨row.first, last, none⟩ :: later
      | _, merged => row :: merged

namespace Memory

def rowWords (memory : Memory) (row : Nat) : List Word :=
  (List.range 8).map (fun word => Word.ofBytes
    (memory.byteAt (16 * row + 2 * word)) (memory.byteAt (16 * row + 2 * word + 1)))

def isZeroRow (memory : Memory) (row : Nat) : Bool :=
  (memory.bytesAt (16 * row) 16).all (fun value => value = 0)

def singleRow (memory : Memory) (row : Nat) : DumpRow :=
  { first := 16 * row
    last := 16 * row + 15
    words := if memory.isZeroRow row then none else some (memory.rowWords row) }

def dumpRows (memory : Memory) : List DumpRow :=
  mergeZeroRuns ((List.range 256).map memory.singleRow)

end Memory

/-- What stands for a run of zeros, as wide as a line of eight words. -/
def zeroRunText : String :=
  "0x0000                    ...                    0x0000"

namespace DumpRow

def contentText (row : DumpRow) : String :=
  match row.words with
  | none => zeroRunText
  | some words => String.intercalate " " (words.map (fun word => hexText 4 word.toNat))

def text (depth : Nat) (row : DumpRow) : String :=
  indentation depth ++ rangeText row.first row.last ++ " " ++ row.contentText

end DumpRow

def Memory.dump (memory : Memory) (depth : Nat) : String :=
  joinLines (memory.dumpRows.map (DumpRow.text depth))

end Chip8
