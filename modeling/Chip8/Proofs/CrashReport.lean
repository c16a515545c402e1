import Chip8.MachineDump
import Chip8.Proofs.DumpRoundTrip

set_option autoImplicit false

/-! Nothing is lost in what is reported after a crash. The dump of a machine is a list of
sections; a text can be cut into sections in one way only, at the lines that are not
indented twice, and each section tells its part of the state. The message of a fault is
cut at its blanks, and the pieces tell its place, its word and its cause. -/

namespace Chip8

/-! ### Texts of several lines -/

theorem linesOf_append_line (first rest : String) :
    linesOf (first ++ "\n" ++ rest) = linesOf first ++ linesOf rest := by
  have parted : (first ++ "\n" ++ rest).toList = first.toList ++ '\n' :: rest.toList := by simp
  unfold linesOf
  rw [parted, List.splitOn_append_cons_self, List.map_append]

theorem linesOf_joinLines_texts (texts : List String) (given : texts ≠ []) :
    linesOf (joinLines texts) = texts.flatMap linesOf := by
  unfold joinLines
  induction texts with
  | nil => exact absurd rfl given
  | cons first rest ih =>
      rw [List.flatMap_cons]
      cases rest with
      | nil => rw [String.intercalate_singleton, List.flatMap_nil, List.append_nil]
      | cons second later =>
          rw [String.intercalate_cons_cons, linesOf_append_line, ih (List.cons_ne_nil _ _)]

theorem linesOf_injective (left right : String) (same : linesOf left = linesOf right) :
    left = right := by
  have characters : left.toList.splitOn '\n' = right.toList.splitOn '\n' :=
    (List.map_inj_right (fun _ _ => String.ofList_inj.mp)).mp same
  have joined (text : String) : ['\n'].intercalate (text.toList.splitOn '\n') = text.toList :=
    List.intercalate_splitOn '\n'
  apply String.toList_inj.mp
  rw [← joined left, characters, joined right]

theorem linesOf_of_unbroken (line : String) (unbroken : '\n' ∉ line.toList) :
    linesOf line = [line] := by
  have joined := linesOf_joinLines [line] (List.cons_ne_nil _ _)
    (List.forall_mem_singleton.mpr unbroken)
  rwa [joinLines, String.intercalate_singleton] at joined

theorem hexText_injective (width left right : Nat)
    (same : hexText width left = hexText width right) : left = right := by
  have read := readHex?_hexText width left
  rw [same, readHex?_hexText] at read
  exact (Option.some.inj read).symm

theorem word_of_hexText (left right : Word)
    (same : hexText 4 left.toNat = hexText 4 right.toNat) : left = right :=
  UInt16.toNat_inj.mp (hexText_injective 4 _ _ same)

/-! ### Sections -/

def isIndented (line : String) : Bool :=
  line.toList.take 2 = ['\t', '\t']

structure DumpSection where
  heading : String
  body : List String

namespace DumpSection

def lines (part : DumpSection) : List String :=
  part.heading :: part.body

def ofText (heading text : String) : DumpSection :=
  ⟨indentation 1 ++ heading ++ " :", linesOf text⟩

/-- The heading can be told from the lines below it. -/
structure Parted (part : DumpSection) : Prop where
  heading : isIndented part.heading = false
  body : ∀ line ∈ part.body, isIndented line = true

theorem takeWhile_flatMap_lines (later : List DumpSection) (parted : ∀ part ∈ later, part.Parted) :
    (later.flatMap lines).takeWhile isIndented = [] ∧
      (later.flatMap lines).dropWhile isIndented = later.flatMap lines := by
  cases later with
  | nil => exact ⟨rfl, rfl⟩
  | cons next others =>
      have opens := (parted next List.mem_cons_self).heading
      have stops : ¬ isIndented next.heading = true := by simp [opens]
      rw [List.flatMap_cons, lines, List.cons_append]
      exact ⟨List.takeWhile_cons_of_neg stops, List.dropWhile_cons_of_neg stops⟩

theorem flatMap_lines_injective (left right : List DumpSection)
    (partedLeft : ∀ part ∈ left, part.Parted) (partedRight : ∀ part ∈ right, part.Parted)
    (same : left.flatMap lines = right.flatMap lines) : left = right := by
  induction left generalizing right with
  | nil =>
      cases right with
      | nil => rfl
      | cons other later => cases same
  | cons part rest ih =>
      cases right with
      | nil => cases same
      | cons other later =>
          obtain ⟨here, behind⟩ := List.forall_mem_cons.mp partedLeft
          obtain ⟨hereToo, behindToo⟩ := List.forall_mem_cons.mp partedRight
          obtain ⟨noneTaken, allLeft⟩ := takeWhile_flatMap_lines rest behind
          obtain ⟨noneTakenToo, allLeftToo⟩ := takeWhile_flatMap_lines later behindToo
          rw [List.flatMap_cons, List.flatMap_cons, lines, lines, List.cons_append,
            List.cons_append] at same
          obtain ⟨headings, below⟩ := List.cons.inj same
          have bodies := congrArg (List.takeWhile isIndented) below
          rw [List.takeWhile_append_of_pos here.body, List.takeWhile_append_of_pos hereToo.body,
            noneTaken, noneTakenToo, List.append_nil, List.append_nil] at bodies
          have others := congrArg (List.dropWhile isIndented) below
          rw [List.dropWhile_append_of_pos here.body, List.dropWhile_append_of_pos hereToo.body,
            allLeft, allLeftToo] at others
          rw [ih later behind behindToo others]
          congr 1
          cases part
          cases other
          exact congrArg₂ DumpSection.mk headings bodies

theorem Parted.ofText (heading text : String)
    (plain : isIndented (indentation 1 ++ heading ++ " :") = false)
    (body : ∀ line ∈ linesOf text, isIndented line = true) : (ofText heading text).Parted :=
  ⟨plain, body⟩

end DumpSection

theorem flatMap_linesOf_titled (heading text : String) (unbroken : '\n' ∉ heading.toList) :
    (Machine.titled heading text).flatMap linesOf = (DumpSection.ofText heading text).lines := by
  have whole : '\n' ∉ (indentation 1 ++ heading ++ " :").toList := by
    simp [indentation, unbroken]
  unfold Machine.titled
  rw [List.flatMap_cons, List.flatMap_singleton, linesOf_of_unbroken _ whole]
  rfl

theorem isIndented_of_indentation (text : String) : isIndented (indentation 2 ++ text) = true := by
  simp [isIndented, indentation]

theorem indented_of_unbroken (text : String) (unbroken : '\n' ∉ text.toList) :
    ∀ line ∈ linesOf (indentation 2 ++ text), isIndented line = true := by
  have whole : '\n' ∉ (indentation 2 ++ text).toList := by simp [indentation, unbroken]
  rw [linesOf_of_unbroken _ whole, List.forall_mem_singleton]
  exact isIndented_of_indentation text

theorem isIndented_row (row : DumpRow) : isIndented (row.text 2) = true := by
  unfold DumpRow.text
  rw [String.append_assoc, String.append_assoc]
  exact isIndented_of_indentation _

/-! ### Lists of values -/

/-- The values of a line, as a row of words behind a range of positions. -/
def valueRow (values : List Word) (line : Nat) : DumpRow :=
  let chunk := (values.drop (8 * line)).take 8
  ⟨8 * line, 8 * line + chunk.length - 1, some chunk⟩

def valueRows (values : List Word) : List DumpRow :=
  (List.range ((values.length + 7) / 8)).map (valueRow values)

theorem join_blanks (texts : List String) (given : texts ≠ []) :
    String.join (texts.map (" " ++ ·)) = " " ++ String.intercalate " " texts := by
  induction texts with
  | nil => exact absurd rfl given
  | cons first rest ih =>
      rw [List.map_cons, String.join_cons]
      cases rest with
      | nil => simp
      | cons second later =>
          rw [ih (List.cons_ne_nil _ _), String.intercalate_cons_cons]
          simp only [String.append_assoc]

theorem valueLine_eq_text (depth line : Nat) (values : List Word) (given : values ≠ []) :
    valueLine depth line (values.map UInt16.toNat) =
      DumpRow.text depth ⟨8 * line, 8 * line + values.length - 1, some values⟩ := by
  have texts : values.map (fun word => hexText 4 word.toNat) ≠ [] :=
    mt List.map_eq_nil_iff.mp given
  have joined := join_blanks _ texts
  rw [List.map_map] at joined
  have content : DumpRow.text depth ⟨8 * line, 8 * line + values.length - 1, some values⟩ =
      indentation depth ++ rangeText (8 * line) (8 * line + values.length - 1) ++
        (" " ++ String.intercalate " " (values.map (fun word => hexText 4 word.toNat))) :=
    String.append_assoc
  rw [content, ← joined]
  unfold valueLine valuesPerLine
  rw [List.length_map, List.map_map]
  rfl

theorem valueRow_words_ne_nil (values : List Word) (line : Nat)
    (listed : line < (values.length + 7) / 8) : (values.drop (8 * line)).take 8 ≠ [] := by
  intro empty
  have short := congrArg List.length empty
  rw [List.length_take, List.length_drop, List.length_nil] at short
  omega

theorem forall_mem_valueRows (values : List Word) :
    ∀ row ∈ valueRows values, row.words ≠ some [] := by
  refine List.forall_mem_map.mpr (fun line listed empty => ?_)
  exact valueRow_words_ne_nil values line (List.mem_range.mp listed) (Option.some.inj empty)

theorem valueDump_eq (depth : Nat) (values : List Word) :
    valueDump depth (values.map UInt16.toNat) =
      joinLines ((valueRows values).map (DumpRow.text depth)) := by
  unfold valueDump valueRows valuesPerLine
  rw [List.length_map, List.map_map]
  refine congrArg joinLines (List.map_congr_left (fun line listed => ?_))
  have given := valueRow_words_ne_nil values line (List.mem_range.mp listed)
  rw [← List.map_drop, ← List.map_take, valueLine_eq_text depth line _ given]
  rfl

theorem linesOf_valueDump (depth : Nat) (values : List Word) (given : values ≠ []) :
    linesOf (valueDump depth (values.map UInt16.toNat)) =
      (valueRows values).map (DumpRow.text depth) := by
  have positive := List.length_pos_iff.mpr given
  have rows : (valueRows values).map (DumpRow.text depth) ≠ [] := by
    intro empty
    have none := congrArg List.length empty
    simp only [valueRows, List.length_map, List.length_range, List.length_nil] at none
    omega
  rw [valueDump_eq]
  refine linesOf_joinLines _ rows (List.forall_mem_map.mpr (fun row listed => ?_))
  exact row.lineEnd_not_mem_text depth (forall_mem_valueRows values row listed)

theorem flatMap_chunks (values : List Word) (count : Nat) :
    (List.range count).flatMap (fun line => (values.drop (8 * line)).take 8) =
      values.take (8 * count) := by
  induction count with
  | zero => rfl
  | succ count ih =>
      rw [List.range_succ, List.flatMap_append, ih, List.flatMap_singleton, Nat.mul_succ,
        List.take_add]

theorem flatMap_valueRows (values : List Word) :
    (valueRows values).flatMap (fun row => row.words.getD []) = values := by
  have all := flatMap_chunks values ((values.length + 7) / 8)
  rw [List.take_of_length_le (by omega)] at all
  unfold valueRows
  rw [List.flatMap_map]
  exact all

/-- The lines of a list of values tell the list, if it is not empty. -/
theorem valueDump_injective (depth : Nat) (left right : List Word) (givenLeft : left ≠ [])
    (givenRight : right ≠ [])
    (same : valueDump depth (left.map UInt16.toNat) = valueDump depth (right.map UInt16.toNat)) :
    left = right := by
  have lines := congrArg linesOf same
  rw [linesOf_valueDump depth left givenLeft, linesOf_valueDump depth right givenRight] at lines
  have read := congrArg (List.mapM DumpRow.read?) lines
  rw [DumpRow.mapM_read?_text depth _ (forall_mem_valueRows left),
    DumpRow.mapM_read?_text depth _ (forall_mem_valueRows right)] at read
  rw [← flatMap_valueRows left, Option.some.inj read, flatMap_valueRows]

theorem indented_valueDump (values : List Word) (given : values ≠ []) :
    ∀ line ∈ linesOf (valueDump 2 (values.map UInt16.toNat)), isIndented line = true := by
  rw [linesOf_valueDump 2 values given]
  exact List.forall_mem_map.mpr (fun row _listed => isIndented_row row)

/-! ### Texts of one line -/

theorem pieces_injective (left right : List String) (givenLeft : left ≠ [])
    (givenRight : right ≠ []) (wholeLeft : ∀ piece ∈ left, ' ' ∉ piece.toList)
    (wholeRight : ∀ piece ∈ right, ' ' ∉ piece.toList)
    (same : String.intercalate " " left = String.intercalate " " right) : left = right := by
  have parted (pieces : List String) (given : pieces ≠ [])
      (whole : ∀ piece ∈ pieces, ' ' ∉ piece.toList) :
      (String.intercalate " " pieces).toList.splitOn ' ' = pieces.map String.toList := by
    rw [String.toList_intercalate]
    exact List.splitOn_intercalate ' ' (List.forall_mem_map.mpr whole)
      (mt List.map_eq_nil_iff.mp given)
  have apart := parted left givenLeft wholeLeft
  rw [same, parted right givenRight wholeRight] at apart
  exact ((List.map_inj_right (fun _ _ => String.toList_inj.mp)).mp apart).symm

theorem toString_injective (left right : Nat) (same : toString left = toString right) :
    left = right := by
  have digits := congrArg String.toList same
  simp only [Nat.toString_eq_repr, Nat.toList_repr] at digits
  rw [← Nat.ofDigitChars_ten_toDigits (n := left), digits, Nat.ofDigitChars_ten_toDigits]

theorem not_mem_toDigits (value : Nat) (mark : Char) (other : mark.isDigit = false) :
    mark ∉ Nat.toDigits 10 value := by
  intro listed
  rw [Nat.isDigit_of_mem_toDigits (by decide) (by decide) listed] at other
  cases other

theorem Clock.text_injective (left right : Clock) (same : left.text = right.text) :
    left = right := by
  have apart : ∀ register : Register, (awaitingKey register).text ≠ running.text := by
    decide +kernel
  cases left with
  | running =>
      cases right with
      | running => rfl
      | awaitingKey register => exact absurd same.symm (apart register)
  | awaitingKey register =>
      cases right with
      | running => exact absurd same (apart register)
      | awaitingKey other =>
          have digits := String.ofList_inj.mp ((String.append_right_inj _).mp same)
          have numbers := congrArg hexValue digits
          rw [hexValue_hexDigits, hexValue_hexDigits] at numbers
          rw [Fin.ext numbers]

theorem Clock.unbroken_text (clock : Clock) : '\n' ∉ clock.text.toList := by
  cases clock with
  | running => decide +kernel
  | awaitingKey register =>
      have checked : ∀ register : Register, '\n' ∉ (awaitingKey register).text.toList := by
        decide +kernel
      exact checked register

/-! ### Machines -/

/-- What the dump of a machine is about: all but the raster, the keypad and the random
bytes. -/
structure MachineReport where
  clock : Clock
  lastWord : Word
  programCounter : Word
  index : Word
  delay : Countdown
  sound : Countdown
  registers : Vector Byte 16
  stack : CallStack
  memory : Memory

namespace Machine

variable {Pad OtherPad : Type}

def report (machine : Machine Pad) : MachineReport :=
  { clock := machine.clock
    lastWord := machine.lastWord
    programCounter := machine.programCounter
    index := machine.index
    delay := machine.delay
    sound := machine.sound
    registers := machine.registers
    stack := machine.stack
    memory := machine.memory }

def timerPieces (machine : Machine Pad) : List String :=
  ["Delay", toString machine.delay.value.toNat ++ ",", "Sound",
    toString machine.sound.value.toNat]

theorem timersText_eq (machine : Machine Pad) :
    machine.timersText = String.intercalate " " machine.timerPieces := by
  apply String.toList_inj.mp
  simp [timersText, timerPieces]

theorem unbroken_timersText (machine : Machine Pad) : '\n' ∉ machine.timersText.toList := by
  have delay := not_mem_toDigits machine.delay.value.toNat '\n' (by decide)
  have sound := not_mem_toDigits machine.sound.value.toNat '\n' (by decide)
  simp [timersText, delay, sound]

theorem whole_timerPieces (machine : Machine Pad) :
    ∀ piece ∈ machine.timerPieces, ' ' ∉ piece.toList := by
  have delay := not_mem_toDigits machine.delay.value.toNat ' ' (by decide)
  have sound := not_mem_toDigits machine.sound.value.toNat ' ' (by decide)
  simp [timerPieces, delay, sound]

theorem timers_of_timersText (machine : Machine Pad) (other : Machine OtherPad)
    (same : machine.timersText = other.timersText) :
    machine.delay = other.delay ∧ machine.sound = other.sound := by
  rw [timersText_eq, timersText_eq] at same
  have pieces : machine.timerPieces = other.timerPieces :=
    pieces_injective _ _ (List.cons_ne_nil _ _) (List.cons_ne_nil _ _)
      machine.whole_timerPieces other.whole_timerPieces same
  simp only [timerPieces, List.cons.injEq, and_true, true_and, String.append_left_inj] at pieces
  have delay := toString_injective _ _ pieces.1
  have sound := toString_injective _ _ pieces.2
  exact ⟨congrArg Countdown.mk (UInt8.toNat_inj.mp delay),
    congrArg Countdown.mk (UInt8.toNat_inj.mp sound)⟩

def registerWords (machine : Machine Pad) : List Word :=
  machine.registers.toList.map UInt8.toUInt16

theorem registersText_eq (machine : Machine Pad) :
    machine.registersText = valueDump 2 (machine.registerWords.map UInt16.toNat) := by
  unfold registersText registerWords
  simp only [List.map_map, Function.comp_def, UInt8.toNat_toUInt16]

theorem registerWords_ne_nil (machine : Machine Pad) : machine.registerWords ≠ [] := by
  apply List.ne_nil_of_length_pos
  simp [registerWords]

theorem registers_of_registersText (machine : Machine Pad) (other : Machine OtherPad)
    (same : machine.registersText = other.registersText) :
    machine.registers = other.registers := by
  rw [registersText_eq, registersText_eq] at same
  have words : machine.registerWords = other.registerWords :=
    valueDump_injective 2 _ _ machine.registerWords_ne_nil other.registerWords_ne_nil same
  have bytes := (List.map_inj_right (fun _ _ => UInt8.toUInt16_inj.mp)).mp words
  exact Vector.toList_inj.mp bytes

theorem valueDump_ne_empty (values : List Word) (given : values ≠ []) :
    valueDump 2 (values.map UInt16.toNat) ≠ indentation 2 ++ "empty" := by
  intro same
  have read := congrArg (fun text => (linesOf text).mapM DumpRow.read?) same
  simp only [linesOf_valueDump 2 values given,
    DumpRow.mapM_read?_text 2 _ (forall_mem_valueRows values)] at read
  have unread : (linesOf (indentation 2 ++ "empty")).mapM DumpRow.read? = none := by
    decide +kernel
  rw [unread] at read
  cases read

theorem stackText_of_given (machine : Machine Pad) (given : machine.stack.oldestFirst ≠ []) :
    machine.stackText = valueDump 2 (machine.stack.oldestFirst.map UInt16.toNat) := by
  unfold stackText
  cases returns : machine.stack.oldestFirst with
  | nil => exact absurd returns given
  | cons oldest later => rfl

theorem stackText_of_empty (machine : Machine Pad) (empty : machine.stack.oldestFirst = []) :
    machine.stackText = indentation 2 ++ "empty" := by
  unfold stackText
  rw [empty]

theorem stack_of_stackText (machine : Machine Pad) (other : Machine OtherPad)
    (same : machine.stackText = other.stackText) : machine.stack = other.stack := by
  have returns : machine.stack.oldestFirst = other.stack.oldestFirst := by
    by_cases empty : machine.stack.oldestFirst = []
    · by_cases emptyToo : other.stack.oldestFirst = []
      · rw [empty, emptyToo]
      · rw [machine.stackText_of_empty empty, other.stackText_of_given emptyToo] at same
        exact absurd same.symm (valueDump_ne_empty _ emptyToo)
    · by_cases emptyToo : other.stack.oldestFirst = []
      · rw [machine.stackText_of_given empty, other.stackText_of_empty emptyToo] at same
        exact absurd same (valueDump_ne_empty _ empty)
      · rw [machine.stackText_of_given empty, other.stackText_of_given emptyToo] at same
        exact valueDump_injective 2 _ _ empty emptyToo same
  have reversed := List.reverse_inj.mp returns
  cases first : machine.stack
  cases second : other.stack
  simp only [first, second] at reversed
  subst reversed
  rfl

/-- The sections of a dump, of which the first and the last are a single line. -/
def sections (machine : Machine Pad) : List DumpSection :=
  [ ⟨"Chipset \x7b", []⟩,
    .ofText "State" (indentation 2 ++ machine.clock.text),
    .ofText "Opcode" (indentation 2 ++ hexText 4 machine.lastWord.toNat),
    .ofText "Program Counter" (indentation 2 ++ hexText 4 machine.programCounter.toNat),
    .ofText "Index Register" (indentation 2 ++ hexText 4 machine.index.toNat),
    .ofText "Timers" (indentation 2 ++ machine.timersText),
    .ofText "Register" machine.registersText,
    .ofText "Stack" machine.stackText,
    .ofText "Memory" (machine.memory.dump 2),
    ⟨"\x7d", []⟩ ]

theorem linesOf_dump (machine : Machine Pad) :
    linesOf machine.dump = machine.sections.flatMap DumpSection.lines := by
  have opening : linesOf "Chipset \x7b" = ["Chipset \x7b"] :=
    linesOf_of_unbroken _ (by decide +kernel)
  have closing : linesOf "\x7d" = ["\x7d"] := linesOf_of_unbroken _ (by decide +kernel)
  have given : machine.dumpLines ≠ [] := by simp [dumpLines]
  rw [dump, linesOf_joinLines_texts _ given, dumpLines]
  simp (disch := decide +kernel) only [List.flatMap_append, List.flatMap_singleton, opening,
    closing, flatMap_linesOf_titled]
  simp only [sections, List.flatMap_cons, List.flatMap_nil, List.append_assoc, List.append_nil,
    DumpSection.lines]

theorem indented_stackText (machine : Machine Pad) :
    ∀ line ∈ linesOf machine.stackText, isIndented line = true := by
  by_cases empty : machine.stack.oldestFirst = []
  · rw [machine.stackText_of_empty empty]
    exact indented_of_unbroken "empty" (by decide +kernel)
  · rw [machine.stackText_of_given empty]
    exact indented_valueDump _ empty

theorem parted_sections (machine : Machine Pad) : ∀ part ∈ machine.sections, part.Parted := by
  have word (value : Word) := indented_of_unbroken (hexText 4 value.toNat)
    (not_mem_hexText_of_parting value.toNat '\n' (.inr rfl))
  have clock := indented_of_unbroken machine.clock.text machine.clock.unbroken_text
  have timers := indented_of_unbroken machine.timersText machine.unbroken_timersText
  have registers := indented_valueDump machine.registerWords machine.registerWords_ne_nil
  rw [← registersText_eq] at registers
  have memory : ∀ line ∈ linesOf (machine.memory.dump 2), isIndented line = true := by
    rw [machine.memory.linesOf_dump 2]
    exact List.forall_mem_map.mpr (fun row _listed => isIndented_row row)
  have nothing : ∀ line ∈ ([] : List String), isIndented line = true := by simp
  simp only [sections, List.forall_mem_cons]
  exact ⟨⟨by decide +kernel, nothing⟩, .ofText _ _ (by decide +kernel) clock,
    .ofText _ _ (by decide +kernel) (word machine.lastWord),
    .ofText _ _ (by decide +kernel) (word machine.programCounter),
    .ofText _ _ (by decide +kernel) (word machine.index), .ofText _ _ (by decide +kernel) timers,
    .ofText _ _ (by decide +kernel) registers,
    .ofText _ _ (by decide +kernel) machine.indented_stackText,
    .ofText _ _ (by decide +kernel) memory, ⟨by decide +kernel, nothing⟩, by simp⟩

theorem dump_eq_iff (machine : Machine Pad) (other : Machine OtherPad) :
    machine.dump = other.dump ↔ machine.report = other.report := by
  constructor
  · intro same
    have lines := congrArg linesOf same
    rw [linesOf_dump, linesOf_dump] at lines
    have parts : machine.sections = other.sections :=
      DumpSection.flatMap_lines_injective _ _ machine.parted_sections other.parted_sections lines
    simp only [sections, List.cons.injEq, DumpSection.ofText, DumpSection.mk.injEq, true_and,
      and_true] at parts
    obtain ⟨clock, lastWord, programCounter, index, timers, registers, stack, memory⟩ := parts
    have inBody (left right : String)
        (bodies : linesOf (indentation 2 ++ left) = linesOf (indentation 2 ++ right)) :
        left = right :=
      (String.append_right_inj _).mp (linesOf_injective _ _ bodies)
    obtain ⟨delay, sound⟩ := machine.timers_of_timersText other (inBody _ _ timers)
    simp only [report, MachineReport.mk.injEq]
    exact ⟨Clock.text_injective _ _ (inBody _ _ clock), word_of_hexText _ _ (inBody _ _ lastWord),
      word_of_hexText _ _ (inBody _ _ programCounter), word_of_hexText _ _ (inBody _ _ index),
      delay, sound, machine.registers_of_registersText other (linesOf_injective _ _ registers),
      machine.stack_of_stackText other (linesOf_injective _ _ stack),
      Memory.dump_injective _ _ 2 2 (linesOf_injective _ _ memory)⟩
  · intro same
    simp only [report, MachineReport.mk.injEq] at same
    obtain ⟨clock, lastWord, programCounter, index, delay, sound, registers, stack, memory⟩ := same
    simp only [dump, dumpLines, timersText, registersText, stackText, clock, lastWord,
      programCounter, index, delay, sound, registers, stack, memory]

end Machine

/-! ### Faults -/

def FaultCause.pieces : FaultCause → List String
  | unsupportedWord word =>
      ["Invalid", "opcode", "state", "'An", "unsupported", "opcode", "was", "used",
        hexText 4 word.toNat ++ ".'."]
  | outOfRange range =>
      ["Invalid", "memory", "access", "'Address", hexText 4 range.address, "with", "length",
        toString range.length, "is", "out", "of", "range.'."]
  | stackFull => ["Invalid", "stack", "state", "'Stack", "is", "full!'."]
  | stackEmpty => ["Invalid", "stack", "state", "'Stack", "is", "empty!'."]

theorem FaultCause.message_eq (cause : FaultCause) :
    cause.message = String.intercalate " " cause.pieces := by
  apply String.toList_inj.mp
  cases cause with
  | unsupportedWord word =>
      unfold message unsupportedMessage pieces
      simp
  | outOfRange range =>
      unfold message OutOfRange.message pieces
      simp
  | stackFull => decide +kernel
  | stackEmpty => decide +kernel

theorem FaultCause.whole_pieces (cause : FaultCause) :
    ∀ piece ∈ cause.pieces, ' ' ∉ piece.toList := by
  have number (value : Nat) := not_mem_hexText_of_parting value ' ' (.inl rfl)
  have length (value : Nat) := not_mem_toDigits value ' ' (by decide)
  cases cause <;> simp [pieces, number, length]

theorem FaultCause.pieces_injective (left right : FaultCause) (same : left.pieces = right.pieces) :
    left = right := by
  cases left <;> cases right
  case unsupportedWord.unsupportedWord word other =>
    simp only [pieces, List.cons.injEq, true_and, and_true, String.append_left_inj] at same
    rw [word_of_hexText word other same]
  case outOfRange.outOfRange range other =>
    simp only [pieces, List.cons.injEq, true_and, and_true] at same
    obtain ⟨address, length⟩ := same
    have addresses := hexText_injective 4 _ _ address
    have lengths := toString_injective _ _ length
    cases range
    cases other
    exact congrArg outOfRange (congrArg₂ OutOfRange.mk addresses lengths)
  all_goals simp [pieces] at same ⊢

def Fault.pieces (fault : Fault) : List String :=
  let place := hexText 4 fault.programCounter.toNat
  match fault.word with
  | none => ["Fatal", "fault", "at", place ++ ":"] ++ fault.cause.pieces
  | some word =>
      ["Fatal", "fault", "at", place, "(opcode", hexText 4 word.toNat ++ "):"] ++ fault.cause.pieces

theorem Fault.message_eq (fault : Fault) :
    fault.message = String.intercalate " " fault.pieces := by
  obtain ⟨programCounter, word, cause⟩ := fault
  have given : cause.pieces ≠ [] := by cases cause <;> exact List.cons_ne_nil _ _
  apply String.toList_inj.mp
  unfold message
  rw [cause.message_eq]
  cases word <;> simp [pieces, wordMessage, String.intercalate_cons_of_ne_nil given]

theorem Fault.whole_pieces (fault : Fault) : ∀ piece ∈ fault.pieces, ' ' ∉ piece.toList := by
  have number (value : Nat) := not_mem_hexText_of_parting value ' ' (.inl rfl)
  have cause := fault.cause.whole_pieces
  unfold pieces
  cases fault.word <;> simp [number] <;> exact cause

theorem Fault.pieces_injective (left right : Fault) (same : left.pieces = right.pieces) :
    left = right := by
  -- Where only one of the two has a word, the piece behind the place tells them apart.
  have opens (cause : FaultCause) : ∃ later, cause.pieces = "Invalid" :: later := by
    cases cause <;> exact ⟨_, rfl⟩
  obtain ⟨leftPlace, leftWord, leftCause⟩ := left
  obtain ⟨rightPlace, rightWord, rightCause⟩ := right
  cases leftWord with
  | none =>
      cases rightWord with
      | none =>
          simp only [pieces, List.cons_append, List.nil_append, List.cons.injEq, true_and,
            String.append_left_inj] at same
          rw [word_of_hexText _ _ same.1, FaultCause.pieces_injective _ _ same.2]
      | some other =>
          obtain ⟨later, opened⟩ := opens leftCause
          simp [pieces, opened] at same
  | some word =>
      cases rightWord with
      | none =>
          obtain ⟨later, opened⟩ := opens rightCause
          simp [pieces, opened] at same
      | some other =>
          simp only [pieces, List.cons_append, List.nil_append, List.cons.injEq, true_and,
            String.append_left_inj] at same
          rw [word_of_hexText _ _ same.1, word_of_hexText _ _ same.2.1,
            FaultCause.pieces_injective _ _ same.2.2]

theorem Fault.message_eq_iff (left right : Fault) :
    left.message = right.message ↔ left = right := by
  constructor
  · intro same
    have given (fault : Fault) : fault.pieces ≠ [] := by
      unfold pieces
      cases fault.word <;> exact List.cons_ne_nil _ _
    rw [message_eq, message_eq] at same
    exact Fault.pieces_injective left right (Chip8.pieces_injective _ _ (given left) (given right)
      left.whole_pieces right.whole_pieces same)
  · intro same
    rw [same]

/-- What is reported after a crash loses nothing. Two dumps are the same text exactly if
they are about the same state, down to the last return address and the last byte, and two
messages are the same text exactly if they are about the same fault, however large its
address and length are. -/
theorem crash_report_loses_nothing {Pad OtherPad : Type} (machine : Machine Pad)
    (other : Machine OtherPad) (fault otherFault : Fault) :
    (machine.dump = other.dump ↔ machine.report = other.report) ∧
      (fault.message = otherFault.message ↔ fault = otherFault) :=
  ⟨machine.dump_eq_iff other, fault.message_eq_iff otherFault⟩

/-- The largest address of 64 bits is written with all its digits. -/
example : Fault.message ⟨0x0FFF, none, .outOfRange ⟨0xFFFFFFFFFFFFFFFF, 2⟩⟩ =
    "Fatal fault at 0x0FFF: Invalid memory access " ++
      "'Address 0xFFFFFFFFFFFFFFFF with length 2 is out of range.'." := by
  decide +kernel

end Chip8
