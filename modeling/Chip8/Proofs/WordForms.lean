import Chip8.Instruction
import Mathlib.Tactic.SplitIfs

set_option autoImplicit false

/-! The words that stand for an instruction, given by a table of forms instead of
a decoder. A form fixes the digits by which an instruction is told from others
and leaves its operands open. A word decodes exactly if it has a form of the
table. -/

namespace Chip8

/-- The digits that a word has to have. The first operand digit is open in every
form, and so is a digit that is not given. -/
structure WordForm where
  family : Nat
  second : Option Nat
  digit : Option Nat
  deriving DecidableEq

namespace WordForm

def Fits (form : WordForm) (word : Word) : Prop :=
  word.family.val = form.family ∧
    (∀ value ∈ form.second, word.second.val = value) ∧
    ∀ value ∈ form.digit, word.digit.val = value

instance (form : WordForm) (word : Word) : Decidable (form.Fits word) :=
  inferInstanceAs (Decidable (_ ∧ _))

def ofFamily (family : Nat) : WordForm := ⟨family, none, none⟩

def endingIn (family digit : Nat) : WordForm := ⟨family, none, some digit⟩

def withLowByte (family second digit : Nat) : WordForm := ⟨family, some second, some digit⟩

def table : List WordForm :=
  [ ofFamily 0x0, ofFamily 0x1, ofFamily 0x2, ofFamily 0x3, ofFamily 0x4,
    endingIn 0x5 0x0,
    ofFamily 0x6, ofFamily 0x7,
    endingIn 0x8 0x0, endingIn 0x8 0x1, endingIn 0x8 0x2, endingIn 0x8 0x3, endingIn 0x8 0x4,
    endingIn 0x8 0x5, endingIn 0x8 0x6, endingIn 0x8 0x7, endingIn 0x8 0xE,
    endingIn 0x9 0x0,
    ofFamily 0xA, ofFamily 0xB, ofFamily 0xC, ofFamily 0xD,
    withLowByte 0xE 0x9 0xE, withLowByte 0xE 0xA 0x1,
    withLowByte 0xF 0x0 0x7, withLowByte 0xF 0x0 0xA, withLowByte 0xF 0x1 0x5,
    withLowByte 0xF 0x1 0x8, withLowByte 0xF 0x1 0xE, withLowByte 0xF 0x2 0x9,
    withLowByte 0xF 0x3 0x3, withLowByte 0xF 0x5 0x5, withLowByte 0xF 0x6 0x5 ]

end WordForm

namespace Word

def Supported (word : Word) : Prop :=
  ∃ form ∈ WordForm.table, form.Fits word

instance (word : Word) : Decidable word.Supported :=
  inferInstanceAs (Decidable (∃ form ∈ WordForm.table, form.Fits word))

theorem lowByte_eq_digits (word : Word) :
    word.lowByte.toNat = 16 * word.second.val + word.digit.val := by
  rw [word.lowByte_toNat]
  simp only [second, digit]
  omega

theorem digits_eq_iff (word : Word) (second digit : Nat) (low : digit < 16) :
    word.second.val = second ∧ word.digit.val = digit ↔
      word.lowByte.toNat = 16 * second + digit := by
  have digitBound := word.digit.isLt
  rw [lowByte_eq_digits]
  omega

theorem supported_iff_family (word : Word) :
    word.Supported ↔
      match word.family.val with
      | 0x5 => word.digit.val = 0
      | 0x8 => word.digit.val ≤ 7 ∨ word.digit.val = 0xE
      | 0x9 => word.digit.val = 0
      | 0xE => word.lowByte.toNat = 0x9E ∨ word.lowByte.toNat = 0xA1
      | 0xF => word.lowByte.toNat ∈ [0x07, 0x0A, 0x15, 0x18, 0x1E, 0x29, 0x33, 0x55, 0x65]
      | _ => True := by
  have familyBound := word.family.isLt
  have digitBound := word.digit.isLt
  simp only [Supported, WordForm.table, WordForm.Fits, WordForm.ofFamily, WordForm.endingIn,
    WordForm.withLowByte, List.mem_cons, List.not_mem_nil, or_false, exists_eq_or_imp,
    exists_eq_left, Option.mem_def, Option.some.injEq, forall_eq', reduceCtorEq, false_implies,
    implies_true, and_true, true_and, digits_eq_iff, Nat.reduceLT]
  split
  case h_1 atFamily => simp [atFamily]
  case h_2 atFamily =>
    simp only [atFamily, Nat.reduceEqDiff, false_and, true_and, or_false, false_or]
    omega
  case h_3 atFamily => simp [atFamily]
  case h_4 atFamily => simp [atFamily]
  case h_5 atFamily => simp [atFamily]
  case h_6 not5 not8 not9 notE notF =>
    simp only [imp_false] at not5 not8 not9 notE notF
    have others : word.family.val = 0x0 ∨ word.family.val = 0x1 ∨ word.family.val = 0x2 ∨
        word.family.val = 0x3 ∨ word.family.val = 0x4 ∨ word.family.val = 0x6 ∨
        word.family.val = 0x7 ∨ word.family.val = 0xA ∨ word.family.val = 0xB ∨
        word.family.val = 0xC ∨ word.family.val = 0xD := by
      omega
    rcases others with same | same | same | same | same | same | same | same | same | same | same
      <;> simp [same]

end Word

namespace Instruction

theorem decodeArithmetic_eq_none_iff (word : Word) :
    decodeArithmetic word = none ↔ ¬ (word.digit.val ≤ 7 ∨ word.digit.val = 0xE) := by
  have digitBound := word.digit.isLt
  unfold decodeArithmetic
  split
  case h_10 not0 not1 not2 not3 not4 not5 not6 not7 notE =>
    simp only [imp_false] at not0 not1 not2 not3 not4 not5 not6 not7 notE
    rw [eq_self_iff_true, true_iff]
    omega
  all_goals
    rename_i atDigit
    simp [atDigit]

theorem decodeMiscellany_eq_none_iff (word : Word) :
    decodeMiscellany word = none ↔
      word.lowByte.toNat ∉ [0x07, 0x0A, 0x15, 0x18, 0x1E, 0x29, 0x33, 0x55, 0x65] := by
  unfold decodeMiscellany
  split
  case h_10 => simp_all only [List.mem_cons, List.not_mem_nil, or_self, not_false_iff, imp_false]
  all_goals
    rename_i atLow
    simp [atLow]

theorem decode_eq_none_iff (word : Word) : decode word = none ↔ ¬ word.Supported := by
  have familyBound := word.family.isLt
  rw [word.supported_iff_family]
  unfold decode
  split
  case h_1 atFamily =>
    simp only [atFamily, not_true_eq_false, iff_false]
    split_ifs <;> simp
  case h_6 atFamily =>
    simp only [atFamily]
    split_ifs with ended <;> simp [ended]
  case h_9 atFamily => simp only [atFamily, decodeArithmetic_eq_none_iff]
  case h_10 atFamily =>
    simp only [atFamily]
    split_ifs with ended <;> simp [ended]
  case h_15 atFamily =>
    simp only [atFamily]
    split_ifs with down up
    · simp [down]
    · simp [up]
    · simp [down, up]
  case h_16 atFamily => simp only [atFamily, decodeMiscellany_eq_none_iff]
  case h_17 =>
    simp only [imp_false] at *
    omega
  all_goals
    rename_i atFamily
    simp [atFamily]

/-! ### The digits of a written word -/

theorem toNat_addressWord (family : Nat) (target : Address) (small : family < 16) :
    (addressWord family target).toNat = 4096 * family + target.val := by
  have bound := target.isLt
  simp only [addressWord, UInt16.toNat_ofNat']
  omega

theorem toNat_byteWord (family : Nat) (register : Register) (value : Byte) (small : family < 16) :
    (byteWord family register value).toNat =
      4096 * family + 256 * register.val + value.toNat := by
  have registerBound := register.isLt
  have valueBound := value.toNat_lt
  simp only [byteWord, UInt16.toNat_ofNat']
  omega

theorem toNat_pairWord (family digit : Nat) (left right : Register) (small : family < 16)
    (smallDigit : digit < 16) :
    (pairWord family left right digit).toNat =
      4096 * family + 256 * left.val + 16 * right.val + digit := by
  have leftBound := left.isLt
  have rightBound := right.isLt
  simp only [pairWord, UInt16.toNat_ofNat']
  omega

theorem digits_addressWord (family : Nat) (target : Address) (small : family < 16) :
    (addressWord family target).family.val = family ∧
      (addressWord family target).address = target := by
  have bound := target.isLt
  have number := toNat_addressWord family target small
  refine ⟨?_, Fin.ext ?_⟩ <;>
    simp only [Word.family, Word.address, number] <;> omega

theorem digits_byteWord (family : Nat) (register : Register) (value : Byte)
    (small : family < 16) :
    (byteWord family register value).family.val = family ∧
      (byteWord family register value).first = register ∧
      (byteWord family register value).lowByte = value := by
  have registerBound := register.isLt
  have valueBound := value.toNat_lt
  have number := toNat_byteWord family register value small
  refine ⟨?_, Fin.ext ?_, UInt8.toNat_inj.mp ?_⟩ <;>
    simp only [Word.family, Word.first, Word.lowByte_toNat, number] <;> omega

theorem digits_pairWord (family digit : Nat) (left right : Register) (small : family < 16)
    (smallDigit : digit < 16) :
    (pairWord family left right digit).family.val = family ∧
      (pairWord family left right digit).first = left ∧
      (pairWord family left right digit).second = right ∧
      (pairWord family left right digit).digit.val = digit := by
  have leftBound := left.isLt
  have rightBound := right.isLt
  have number := toNat_pairWord family digit left right small smallDigit
  refine ⟨?_, Fin.ext ?_, Fin.ext ?_, ?_⟩ <;>
    simp only [Word.family, Word.first, Word.second, Word.digit, number] <;> omega

/-- Beside the words that clear the screen and return, each instruction is the one that
its word stands for. A routine at one of those two addresses has no word. -/
theorem decode_encode (instruction : Instruction)
    (named : ∀ target, instruction ≠ machineRoutine target) :
    decode instruction.encode = some instruction := by
  cases instruction
  case machineRoutine target => exact absurd rfl (named target)
  case clearScreen => decide
  case returnFromCall => decide
  case draw column row height =>
    obtain ⟨atFamily, left, right, digit⟩ :=
      digits_pairWord 0xD height.val column row (by decide) height.isLt
    simp [decode, encode, atFamily, left, right, Fin.ext digit]
  all_goals
    simp [decode, decodeArithmetic, decodeMiscellany, encode, digits_addressWord,
      digits_byteWord, digits_pairWord]

/-- The form of the table that the word of an instruction has. -/
def form : Instruction → WordForm
  | machineRoutine _ => .ofFamily 0x0
  | clearScreen => .ofFamily 0x0
  | returnFromCall => .ofFamily 0x0
  | jump _ => .ofFamily 0x1
  | call _ => .ofFamily 0x2
  | skipIfByte _ _ => .ofFamily 0x3
  | skipUnlessByte _ _ => .ofFamily 0x4
  | skipIfSame _ _ => .endingIn 0x5 0x0
  | setByte _ _ => .ofFamily 0x6
  | addByte _ _ => .ofFamily 0x7
  | copy _ _ => .endingIn 0x8 0x0
  | bitOr _ _ => .endingIn 0x8 0x1
  | bitAnd _ _ => .endingIn 0x8 0x2
  | bitXor _ _ => .endingIn 0x8 0x3
  | add _ _ => .endingIn 0x8 0x4
  | subtract _ _ => .endingIn 0x8 0x5
  | shiftRight _ _ => .endingIn 0x8 0x6
  | subtractFrom _ _ => .endingIn 0x8 0x7
  | shiftLeft _ _ => .endingIn 0x8 0xE
  | skipUnlessSame _ _ => .endingIn 0x9 0x0
  | setIndex _ => .ofFamily 0xA
  | jumpOffset _ => .ofFamily 0xB
  | random _ _ => .ofFamily 0xC
  | draw _ _ _ => .ofFamily 0xD
  | skipIfDown _ => .withLowByte 0xE 0x9 0xE
  | skipUnlessDown _ => .withLowByte 0xE 0xA 0x1
  | readDelay _ => .withLowByte 0xF 0x0 0x7
  | awaitKey _ => .withLowByte 0xF 0x0 0xA
  | writeDelay _ => .withLowByte 0xF 0x1 0x5
  | writeSound _ => .withLowByte 0xF 0x1 0x8
  | addToIndex _ => .withLowByte 0xF 0x1 0xE
  | pointAtGlyph _ => .withLowByte 0xF 0x2 0x9
  | storeDecimal _ => .withLowByte 0xF 0x3 0x3
  | storeRegisters _ => .withLowByte 0xF 0x5 0x5
  | loadRegisters _ => .withLowByte 0xF 0x6 0x5

theorem form_mem_table (instruction : Instruction) : instruction.form ∈ WordForm.table := by
  cases instruction <;> exact List.contains_iff_mem.mp rfl

theorem form_fits_encode (instruction : Instruction) :
    instruction.form.Fits instruction.encode := by
  cases instruction
  case clearScreen => decide
  case returnFromCall => decide
  all_goals
    simp [WordForm.Fits, form, encode, WordForm.ofFamily, WordForm.endingIn,
      WordForm.withLowByte, digits_addressWord, digits_byteWord, digits_pairWord,
      Word.digits_eq_iff, -Fin.val_eq_zero_iff]

end Instruction

/-! ### Words of some forms -/

namespace WordForm

/-- Whether two forms ask for different digits at one place, so that no word has both. -/
def apart (left right : WordForm) : Bool :=
  left.family ≠ right.family ||
    (left.second.isSome && right.second.isSome && left.second ≠ right.second) ||
    (left.digit.isSome && right.digit.isSome && left.digit ≠ right.digit)

theorem eq_of_apart_eq_false :
    ∀ left ∈ table, ∀ right ∈ table, left.apart right = false → left = right := by
  decide

theorem eq_of_asked (left right : Option Nat) (given : Nat)
    (asksLeft : ∀ value ∈ left, given = value) (asksRight : ∀ value ∈ right, given = value)
    (inLeft : left.isSome) (inRight : right.isSome) : left = right := by
  obtain ⟨first, atLeft⟩ := Option.isSome_iff_exists.mp inLeft
  obtain ⟨second, atRight⟩ := Option.isSome_iff_exists.mp inRight
  rw [atLeft, atRight, ← asksLeft first atLeft, ← asksRight second atRight]

theorem apart_of_fits (left right : WordForm) (word : Word) (fitsLeft : left.Fits word)
    (fitsRight : right.Fits word) : left.apart right = false := by
  have family : left.family = right.family := fitsLeft.1.symm.trans fitsRight.1
  have second := eq_of_asked left.second right.second _ fitsLeft.2.1 fitsRight.2.1
  have digit := eq_of_asked left.digit right.digit _ fitsLeft.2.2 fitsRight.2.2
  simpa [apart, family] using And.intro second digit

end WordForm

def Word.HasFormIn (word : Word) (forms : List WordForm) : Prop :=
  ∃ form ∈ forms, form.Fits word

/-- The forms of the table exclude one another, so a word that decodes has the form of
its instruction and no other. -/
theorem Word.hasFormIn_iff_of_decode (word : Word) (instruction : Instruction)
    (forms : List WordForm) (listed : forms ⊆ WordForm.table)
    (decoded : Instruction.decode word = some instruction) :
    word.HasFormIn forms ↔ instruction.form ∈ forms := by
  have fits := instruction.form_fits_encode
  rw [Instruction.encode_of_decode word instruction decoded] at fits
  constructor
  · intro ⟨form, among, fitsForm⟩
    have apart := form.apart_of_fits instruction.form word fitsForm fits
    rw [← WordForm.eq_of_apart_eq_false form (listed among) _ instruction.form_mem_table apart]
    exact among
  · intro among
    exact ⟨instruction.form, among, fits⟩

end Chip8
