import Chip8.AssemblyText

set_option autoImplicit false

/-! The listing of a byte string: a line for every two bytes, with the address,
the bytes and what they stand for. Bytes that are no instruction are listed as
data, so the listing covers every byte of any input. -/

namespace Chip8

inductive ListingEntry where
  | code (word : Word) (instruction : Instruction)
  /-- Two bytes that no instruction is written as. -/
  | dataWord (word : Word)
  | dataByte (value : Byte)
  deriving DecidableEq, Repr

namespace ListingEntry

def ofWord (word : Word) : ListingEntry :=
  match Instruction.decode word with
  | some instruction => .code word instruction
  | none => .dataWord word

def ofByte (value : Byte) : ListingEntry :=
  .dataByte value

def rawText : ListingEntry → String
  | code word _ => hexText 4 word.toNat
  | dataWord word => hexText 4 word.toNat
  | dataByte value => hexText 2 value.toNat ++ "  "

def statement : ListingEntry → Statement
  | code _ instruction => instruction.statement
  | dataWord word => ⟨"DW", [.word word]⟩
  | dataByte value => ⟨"DB", [.byte value]⟩

def mnemonic (entry : ListingEntry) : String :=
  entry.statement.text

def line (address : Nat) (entry : ListingEntry) : String :=
  hexText 4 address ++ ": " ++ entry.rawText ++ "  " ++ entry.mnemonic

end ListingEntry

def listingEntries : List Byte → List ListingEntry
  | [] => []
  | [last] => [.ofByte last]
  | high :: low :: rest => .ofWord (Word.ofBytes high low) :: listingEntries rest

/-- The lines of entries that start at `origin` and are two bytes apart. -/
def listingLines (origin : Nat) : List ListingEntry → List String
  | [] => []
  | entry :: rest => entry.line origin :: listingLines (origin + 2) rest

def disassemble (bytes : List Byte) (origin : Nat) : List String :=
  listingLines origin (listingEntries bytes)

theorem length_listingEntries (bytes : List Byte) :
    (listingEntries bytes).length = (bytes.length + 1) / 2 := by
  fun_induction listingEntries bytes with
  | case1 => rfl
  | case2 last => simp only [List.length_cons, List.length_nil]
  | case3 high low rest ih =>
      simp only [List.length_cons, ih]
      omega

theorem length_listingLines (origin : Nat) (entries : List ListingEntry) :
    (listingLines origin entries).length = entries.length := by
  induction entries generalizing origin with
  | nil => rfl
  | cons entry rest ih => simp only [listingLines, List.length_cons, ih]

/-- A line for every two bytes, and one more for a byte left over. -/
theorem length_disassemble (bytes : List Byte) (origin : Nat) :
    (disassemble bytes origin).length = (bytes.length + 1) / 2 := by
  unfold disassemble
  rw [length_listingLines, length_listingEntries]

theorem getElem?_listingLines (origin index : Nat) (entries : List ListingEntry) :
    (listingLines origin entries)[index]? =
      (entries[index]?).map (fun entry => entry.line (origin + 2 * index)) := by
  induction entries generalizing origin index with
  | nil => simp [listingLines]
  | cons entry rest ih =>
      cases index with
      | zero => simp [listingLines]
      | succ index =>
          have further : origin + 2 + 2 * index = origin + 2 * (index + 1) := by omega
          simp only [listingLines, List.getElem?_cons_succ, ih, further]

end Chip8
