import Chip8.Listing

set_option autoImplicit false

/-! Listings read back. A line of a listing is its address, a colon, the bytes, and what
they stand for; the last column alone is enough to find the bytes again. The assembler
reads a text operand by operand, and takes a column only if the bytes it finds are
listed by exactly that column. -/

namespace Chip8

/-! ### The columns of a line -/

def addressColumn (line : String) : String :=
  String.ofList (line.toList.takeWhile (· ≠ ':'))

/-- What follows the colon, a blank, six characters for the bytes and two blanks. -/
def mnemonicColumn (line : String) : String :=
  String.ofList ((line.toList.dropWhile (· ≠ ':')).drop 10)

/-! ### Reading a text -/

def Operand.read? : List Char → Option Operand
  | ['I'] => some .index
  | ['[', 'I', ']'] => some .indexed
  | ['D', 'T'] => some .delayTimer
  | ['S', 'T'] => some .soundTimer
  | ['K'] => some .key
  | ['F'] => some .glyph
  | ['B'] => some .decimal
  | ['V', digit] => some (.register (Fin.ofNat 16 (hexDigitValue digit)))
  | '0' :: 'x' :: digits =>
      match digits.length with
      | 2 => some (.byte (UInt8.ofNat (hexValue digits)))
      | 3 => some (.address (Fin.ofNat 4096 (hexValue digits)))
      | 4 => some (.word (UInt16.ofNat (hexValue digits)))
      | _ => none
  | digits => ((List.finRange 16).find? (fun rows => (toString rows.val).toList = digits)).map
      .height

def Statement.read? (text : List Char) : Option Statement :=
  let name := String.ofList (text.takeWhile (· ≠ ' '))
  match text.dropWhile (· ≠ ' ') with
  | [] => some ⟨name, []⟩
  | _blank :: operands =>
      (((operands.filter (· ≠ ' ')).splitOn ',').mapM Operand.read?).map (⟨name, ·⟩)

def Statement.entry? : Statement → Option ListingEntry
  | ⟨"DW", [.word word]⟩ => some (.dataWord word)
  | ⟨"DB", [.byte value]⟩ => some (.dataByte value)
  | statement =>
      statement.instruction?.map (fun instruction => .code instruction.encode instruction)

def ListingEntry.bytes : ListingEntry → List Byte
  | code word _ => [word.highByte, word.lowByte]
  | dataWord word => [word.highByte, word.lowByte]
  | dataByte value => [value]

def mnemonics (bytes : List Byte) : List String :=
  (listingEntries bytes).map ListingEntry.mnemonic

/-- The bytes that a column is the listing of. -/
def assemble (column : List String) : Option (List Byte) :=
  let entries := column.mapM (fun text => (Statement.read? text.toList).bind Statement.entry?)
  (entries.map (fun found => found.flatMap ListingEntry.bytes)).filter
    (fun bytes => mnemonics bytes = column)

end Chip8
