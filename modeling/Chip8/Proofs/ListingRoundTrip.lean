import Chip8.Assembler
import Mathlib.Data.List.TakeWhile

set_option autoImplicit false

/-! Nothing is lost in a listing. Every text that stands for an operand, a statement or
an entry is read back as that operand, statement or entry, so the last column of a
listing determines the bytes, and the assembler finds them. -/

namespace Chip8

/-! ### Parts of a text -/

theorem takeWhile_append_of_not_mem (mark : Char) (before behind : List Char)
    (absent : mark ∉ before) : (before ++ mark :: behind).takeWhile (· ≠ mark) = before := by
  have passed : ∀ character ∈ before, decide (character ≠ mark) = true :=
    fun character listed => decide_eq_true (ne_of_mem_of_not_mem listed absent)
  rw [List.takeWhile_append_of_pos passed, List.takeWhile_cons_of_neg (by simp), List.append_nil]

theorem dropWhile_append_of_not_mem (mark : Char) (before behind : List Char)
    (absent : mark ∉ before) :
    (before ++ mark :: behind).dropWhile (· ≠ mark) = mark :: behind := by
  have passed : ∀ character ∈ before, decide (character ≠ mark) = true :=
    fun character listed => decide_eq_true (ne_of_mem_of_not_mem listed absent)
  rw [List.dropWhile_append_of_pos passed, List.dropWhile_cons_of_neg (by simp)]

/-! ### Operands -/

/-- A text that can stand in a list, since neither a blank nor a comma is in it. -/
def Unparted (text : List Char) : Prop :=
  ∀ character ∈ text, character ≠ ' ' ∧ character ≠ ','

theorem unparted_hexText (width value : Nat) : Unparted (hexText width value).toList :=
  forall_mem_hexText _ width value (by decide) (by decide)

/-- The characters are checked one by one, since there are too many to go through all. -/
theorem unparted_of_all (text : List Char)
    (checked : text.all (fun character => character ≠ ' ' ∧ character ≠ ',') = true) :
    Unparted text := by
  intro character listed
  exact of_decide_eq_true (List.all_eq_true.mp checked character listed)

theorem Operand.unparted_text (operand : Operand) : Unparted operand.text.toList := by
  cases operand
  case register number =>
    have checked : ∀ number : Register, (Operand.register number).text.toList.all
        (fun character => character ≠ ' ' ∧ character ≠ ',') = true := by
      decide
    exact unparted_of_all _ (checked number)
  case height rows =>
    have checked : ∀ rows : Nibble, (Operand.height rows).text.toList.all
        (fun character => character ≠ ' ' ∧ character ≠ ',') = true := by
      decide
    exact unparted_of_all _ (checked rows)
  case byte value => exact unparted_hexText 2 value.toNat
  case word value => exact unparted_hexText 4 value.toNat
  case address target => exact unparted_hexText 3 target.val
  all_goals exact unparted_of_all _ (by decide)

theorem Operand.read?_text (operand : Operand) : read? operand.text.toList = some operand := by
  cases operand
  case register number =>
    have checked : ∀ number : Register,
        read? (Operand.register number).text.toList = some (.register number) := by
      decide
    exact checked number
  case height rows =>
    have checked : ∀ rows : Nibble,
        read? (Operand.height rows).text.toList = some (.height rows) := by
      decide
    exact checked rows
  case byte value =>
    have width := length_paddedHexDigits 2 value.toNat (by decide) value.toNat_lt
    simp only [text, hexText, String.toList_ofList, read?, width, hexValue_paddedHexDigits,
      UInt8.ofNat_toNat]
  case word value =>
    have width := length_paddedHexDigits 4 value.toNat (by decide) value.toNat_lt
    simp only [text, hexText, String.toList_ofList, read?, width, hexValue_paddedHexDigits,
      UInt16.ofNat_toNat]
  case address target =>
    have width := length_paddedHexDigits 3 target.val (by decide) target.isLt
    simp only [text, hexText, String.toList_ofList, read?, width, hexValue_paddedHexDigits]
    exact congrArg (fun found => some (Operand.address found)) (Fin.ofNat_val_eq_self target)
  all_goals rfl

/-! ### Statements -/

theorem filter_intercalate_of_unparted (texts : List (List Char))
    (unparted : ∀ text ∈ texts, Unparted text) :
    ([',', ' '].intercalate texts).filter (· ≠ ' ') = [','].intercalate texts := by
  induction texts with
  | nil => rfl
  | cons first rest ih =>
      obtain ⟨here, behind⟩ := List.forall_mem_cons.mp unparted
      have kept : first.filter (· ≠ ' ') = first :=
        List.filter_eq_self.mpr (fun character listed => by simpa using (here character listed).1)
      cases rest with
      | nil => rw [List.intercalate_singleton, List.intercalate_singleton, kept]
      | cons second later =>
          rw [List.intercalate_cons_cons, List.intercalate_cons_cons, List.filter_append,
            List.filter_append, kept, ih behind]
          rfl

theorem mapM_read?_text (operands : List Operand) :
    (operands.map (fun operand => operand.text.toList)).mapM Operand.read? = some operands := by
  induction operands with
  | nil => rfl
  | cons operand rest ih =>
      rw [List.map_cons, List.mapM_cons, Operand.read?_text, ih]
      rfl

theorem Statement.read?_text (statement : Statement) (word : ' ' ∉ statement.name.toList) :
    read? statement.text.toList = some statement := by
  obtain ⟨name, operands⟩ := statement
  cases operands with
  | nil =>
      have inName : ∀ character ∈ name.toList, decide (character ≠ ' ') = true :=
        fun character listed => decide_eq_true (ne_of_mem_of_not_mem listed word)
      have whole := List.takeWhile_eq_self_iff.mpr inName
      have nothing := List.dropWhile_eq_nil_iff.mpr inName
      simp only [read?, text, whole, nothing, String.ofList_toList]
  | cons first later =>
      let texts := (first :: later).map (fun operand => operand.text.toList)
      have split : (Statement.text ⟨name, first :: later⟩).toList =
          name.toList ++ ' ' :: [',', ' '].intercalate texts := by
        simp [text, texts, String.toList_intercalate, Function.comp_def]
      have unparted : ∀ text ∈ texts, Unparted text :=
        List.forall_mem_map.mpr (fun operand _listed => operand.unparted_text)
      have parts : ([','].intercalate texts).splitOn ',' = texts := by
        apply List.splitOn_intercalate
        · intro text listed among
          exact (unparted text listed ',' among).2 rfl
        · exact List.cons_ne_nil _ _
      have before := takeWhile_append_of_not_mem ' ' name.toList ([',', ' '].intercalate texts) word
      have behind := dropWhile_append_of_not_mem ' ' name.toList ([',', ' '].intercalate texts) word
      simp only [read?, split, behind, before, filter_intercalate_of_unparted texts unparted, parts,
        String.ofList_toList]
      rw [mapM_read?_text]
      rfl

theorem Instruction.word_name (instruction : Instruction) :
    ' ' ∉ instruction.statement.name.toList := by
  cases instruction <;> simp only [statement] <;> decide

theorem ListingEntry.word_name (entry : ListingEntry) : ' ' ∉ entry.statement.name.toList := by
  cases entry with
  | code word instruction => exact instruction.word_name
  | dataWord word =>
      simp only [statement]
      decide
  | dataByte value =>
      simp only [statement]
      decide

theorem ListingEntry.statement_of_mnemonic (left right : ListingEntry)
    (same : left.mnemonic = right.mnemonic) : left.statement = right.statement := by
  have first := left.statement.read?_text left.word_name
  have second := right.statement.read?_text right.word_name
  have texts : left.statement.text = right.statement.text := same
  rw [texts, second] at first
  exact (Option.some.inj first).symm

/-! ### Entries -/

theorem Instruction.entry?_statement (instruction : Instruction) :
    instruction.statement.entry? = some (.code instruction.encode instruction) := by
  cases instruction <;> rfl

theorem ListingEntry.entry?_ofWord (word : Word) :
    (ofWord word).statement.entry? = some (ofWord word) := by
  unfold ofWord
  cases decoded : Instruction.decode word with
  | none => rfl
  | some instruction =>
      change instruction.statement.entry? = _
      rw [instruction.entry?_statement, Instruction.encode_of_decode word instruction decoded]

theorem entry?_of_listed (bytes : List Byte) :
    ∀ entry ∈ listingEntries bytes, entry.statement.entry? = some entry := by
  fun_induction listingEntries bytes with
  | case1 =>
      intro entry listed
      cases listed
  | case2 last =>
      rw [List.forall_mem_singleton]
      rfl
  | case3 high low rest ih =>
      rw [List.forall_mem_cons]
      exact ⟨ListingEntry.entry?_ofWord _, ih⟩

theorem ListingEntry.bytes_ofWord (word : Word) :
    (ofWord word).bytes = [word.highByte, word.lowByte] := by
  unfold ofWord
  cases Instruction.decode word <;> rfl

theorem ListingEntry.word_of_mnemonic (left right : Word)
    (same : (ofWord left).mnemonic = (ofWord right).mnemonic) : left = right := by
  have first := entry?_ofWord left
  rw [statement_of_mnemonic _ _ same, entry?_ofWord right] at first
  have pairs := congrArg bytes (Option.some.inj first)
  rw [bytes_ofWord, bytes_ofWord, List.cons.injEq, List.cons.injEq] at pairs
  obtain ⟨high, low, _end⟩ := pairs
  rw [← left.ofBytes_highByte_lowByte, ← right.ofBytes_highByte_lowByte, high, low]

theorem flatMap_bytes_listingEntries (bytes : List Byte) :
    (listingEntries bytes).flatMap ListingEntry.bytes = bytes := by
  fun_induction listingEntries bytes with
  | case1 => rfl
  | case2 last => rfl
  | case3 high low rest ih =>
      rw [List.flatMap_cons, ih, ListingEntry.bytes_ofWord, Word.highByte_ofBytes,
        Word.lowByte_ofBytes]
      rfl

/-! ### Listings -/

theorem mapM_entry?_mnemonic (entries : List ListingEntry)
    (found : ∀ entry ∈ entries, entry.statement.entry? = some entry) :
    (entries.map ListingEntry.mnemonic).mapM
      (fun text => (Statement.read? text.toList).bind Statement.entry?) = some entries := by
  induction entries with
  | nil => rfl
  | cons entry rest ih =>
      obtain ⟨here, behind⟩ := List.forall_mem_cons.mp found
      rw [List.map_cons, List.mapM_cons, ih behind, ListingEntry.mnemonic,
        Statement.read?_text _ entry.word_name, Option.bind_some, here]
      rfl

/-- The assembler takes exactly the columns of listings, each for the bytes it lists. -/
theorem assemble_eq_some_iff (column : List String) (bytes : List Byte) :
    assemble column = some bytes ↔ column = mnemonics bytes := by
  unfold assemble
  rw [Option.filter_eq_some_iff, decide_eq_true_eq]
  constructor
  · intro accepted
    exact accepted.2.symm
  · intro same
    subst column
    rw [mnemonics, mapM_entry?_mnemonic _ (entry?_of_listed bytes), Option.map_some,
      flatMap_bytes_listingEntries]
    exact ⟨rfl, rfl⟩

/-! ### Columns -/

theorem colon_not_mem_hexText (value : Nat) : ':' ∉ (hexText 4 value).toList :=
  not_mem_hexText 4 value ':' (by decide) (by decide)

theorem ListingEntry.length_rawText (entry : ListingEntry) : entry.rawText.toList.length = 6 := by
  cases entry with
  | code word instruction => exact length_hexText 4 word.toNat (by decide) word.toNat_lt
  | dataWord word => exact length_hexText 4 word.toNat (by decide) word.toNat_lt
  | dataByte value =>
      have width := length_hexText 2 value.toNat (by decide) value.toNat_lt
      simp [rawText, width]

theorem ListingEntry.toList_line (address : Nat) (entry : ListingEntry) :
    (entry.line address).toList = (hexText 4 address).toList ++
      ':' :: ' ' :: (entry.rawText.toList ++ ' ' :: ' ' :: entry.mnemonic.toList) := by
  simp [line]

theorem ListingEntry.addressColumn_line (address : Nat) (entry : ListingEntry) :
    addressColumn (entry.line address) = hexText 4 address := by
  rw [addressColumn, toList_line, takeWhile_append_of_not_mem _ _ _ (colon_not_mem_hexText address),
    String.ofList_toList]

theorem ListingEntry.mnemonicColumn_line (address : Nat) (entry : ListingEntry) :
    mnemonicColumn (entry.line address) = entry.mnemonic := by
  have raw := entry.length_rawText
  rw [mnemonicColumn, toList_line,
    dropWhile_append_of_not_mem _ _ _ (colon_not_mem_hexText address)]
  simp [List.drop_append, raw]

theorem map_mnemonicColumn_listingLines (origin : Nat) (entries : List ListingEntry) :
    (listingLines origin entries).map mnemonicColumn = entries.map ListingEntry.mnemonic := by
  induction entries generalizing origin with
  | nil => rfl
  | cons entry rest ih =>
      rw [listingLines, List.map_cons, ih, entry.mnemonicColumn_line, List.map_cons]

theorem map_mnemonicColumn_disassemble (bytes : List Byte) (origin : Nat) :
    (disassemble bytes origin).map mnemonicColumn = mnemonics bytes :=
  map_mnemonicColumn_listingLines origin (listingEntries bytes)

/-- A listing loses nothing. It has a line for every two bytes and one for a byte left
over, and each line starts with its address. Its last column alone tells the bytes, of
any number and listed from anywhere: the assembler takes it for these bytes and for no
others. No two words have one mnemonic, whether they stand for an instruction or not. -/
theorem listing_loses_nothing (bytes : List Byte) (origin : Nat) :
    let listing := disassemble bytes origin
    listing.length = (bytes.length + 1) / 2 ∧
      (∀ index line, listing[index]? = some line →
        addressColumn line = hexText 4 (origin + 2 * index)) ∧
      (∀ column, assemble column = some bytes ↔ column = listing.map mnemonicColumn) ∧
      (∀ other elsewhere,
        (disassemble other elsewhere).map mnemonicColumn = listing.map mnemonicColumn →
          other = bytes) ∧
      ∀ left right : Word,
        (ListingEntry.ofWord left).mnemonic = (ListingEntry.ofWord right).mnemonic →
          left = right := by
  intro listing
  have column : listing.map mnemonicColumn = mnemonics bytes :=
    map_mnemonicColumn_disassemble bytes origin
  refine ⟨length_disassemble bytes origin, ?_, ?_, ?_, ?_⟩
  · intro index line found
    change (listingLines origin (listingEntries bytes))[index]? = some line at found
    rw [getElem?_listingLines] at found
    obtain ⟨entry, _listed, same⟩ := Option.map_eq_some_iff.mp found
    rw [← same, entry.addressColumn_line]
  · intro given
    rw [column]
    exact assemble_eq_some_iff given bytes
  · intro other elsewhere same
    rw [column, map_mnemonicColumn_disassemble] at same
    have first := (assemble_eq_some_iff (mnemonics other) other).mpr rfl
    have second := (assemble_eq_some_iff (mnemonics other) bytes).mpr same
    exact Option.some.inj (first.symm.trans second)
  · exact ListingEntry.word_of_mnemonic

/-- The word of a routine at `0x0E0` is listed as clearing the screen, so no listing has
a line that calls it. -/
example : assemble ["LD V0, 0x05", "DW 0x5001", "DB 0x7F"] = some [0x60, 0x05, 0x50, 0x01, 0x7F] ∧
    assemble ["CLS"] = some [0x00, 0xE0] ∧ assemble ["SYS 0x0E0"] = none := by
  decide +kernel

end Chip8
