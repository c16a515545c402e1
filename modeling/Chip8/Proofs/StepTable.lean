import Chip8.Proofs.CallHistory
import Chip8.Proofs.MemoryHistory

set_option autoImplicit false

/-! Where each word leads, and what it may change. Both are tables over the forms of
words. The first says where the program counter goes: all words go on to the next one
but jumps, calls, returns, waits and skips, and a skip and its opposite decide by the
same test. The second says for every part of the machine which words may change it. -/

namespace Chip8

/-! ### Tests -/

inductive SkipTest where
  | byte (tested : Register) (value : Byte)
  | pair (left right : Register)
  | key (tested : Register)
  deriving DecidableEq, Repr

namespace SkipTest

def word (wanted : Bool) : SkipTest → Word
  | byte tested value => Instruction.byteWord (if wanted then 0x3 else 0x4) tested value
  | pair left right => Instruction.pairWord (if wanted then 0x5 else 0x9) left right 0x0
  | key tested => Instruction.byteWord 0xE tested (if wanted then 0x9E else 0xA1)

def instruction (wanted : Bool) : SkipTest → Instruction
  | byte tested value =>
      if wanted then .skipIfByte tested value else .skipUnlessByte tested value
  | pair left right => if wanted then .skipIfSame left right else .skipUnlessSame left right
  | key tested => if wanted then .skipIfDown tested else .skipUnlessDown tested

/-- A key is down if the keypad says so, asked with the whole byte in the register. -/
def holds {Pad : Type} [Keypad Pad] (machine : Machine Pad) : SkipTest → Bool
  | byte tested value => machine.register tested == value
  | pair left right => machine.register left == machine.register right
  | key tested => (Keypad.isDown machine.keypad (machine.register tested)).1

theorem decode_word (test : SkipTest) (wanted : Bool) :
    Instruction.decode (test.word wanted) = some (test.instruction wanted) := by
  have written := Instruction.decode_encode (test.instruction wanted)
    (fun _address impossible => by cases test <;> cases wanted <;> cases impossible)
  cases test <;> cases wanted <;> exact written

end SkipTest

/-! ### The two tables -/

namespace Word

/-- The words that do not simply go on to the next one. A return is told by the whole
word, since it shares its form with others. -/
def turningForms : List WordForm :=
  [ .ofFamily 0x1, .ofFamily 0x2, .ofFamily 0x3, .ofFamily 0x4, .endingIn 0x5 0x0,
    .endingIn 0x9 0x0, .ofFamily 0xB, .withLowByte 0xE 0x9 0xE, .withLowByte 0xE 0xA 0x1,
    .withLowByte 0xF 0x0 0xA ]

def resultForms : List WordForm :=
  [ .ofFamily 0x6, .ofFamily 0x7,
    .endingIn 0x8 0x0, .endingIn 0x8 0x1, .endingIn 0x8 0x2, .endingIn 0x8 0x3,
    .endingIn 0x8 0x4, .endingIn 0x8 0x5, .endingIn 0x8 0x6, .endingIn 0x8 0x7,
    .endingIn 0x8 0xE,
    .ofFamily 0xC, .withLowByte 0xF 0x0 0x7 ]

/-- Words that set the flag register, after their result if they have one. -/
def flagForms : List WordForm :=
  [ .endingIn 0x8 0x4, .endingIn 0x8 0x5, .endingIn 0x8 0x6, .endingIn 0x8 0x7,
    .endingIn 0x8 0xE, .ofFamily 0xD ]

def indexForms : List WordForm :=
  [ .ofFamily 0xA, .withLowByte 0xF 0x1 0xE, .withLowByte 0xF 0x2 0x9 ]

def MayWrite (word : Word) (number : Register) : Prop :=
  (word.HasFormIn resultForms ∧ number = word.first) ∨
    (word.HasFormIn flagForms ∧ number = Machine.flagRegister) ∨
    (word.HasFormIn [.withLowByte 0xF 0x6 0x5] ∧ number ≤ word.first)

end Word

/-- Where the program counter is after a word was executed. No sum wraps around. -/
structure NextPlace {Pad : Type} [Keypad Pad] (machine : Machine Pad) (word next : Word) :
    Prop where
  jumps : word.HasFormIn [.ofFamily 0x1, .ofFamily 0x2] → next.toNat = word.address.val
  jumpsOffset : word.HasFormIn [.ofFamily 0xB] →
    next.toNat = word.address.val + (machine.register 0).toNat
  returns : word = 0x00EE → machine.stack.returns.head? = some next
  waits : word.HasFormIn [.withLowByte 0xF 0x0 0xA] → next = machine.programCounter
  tests : ∀ (test : SkipTest) (wanted : Bool), word = test.word wanted →
    next.toNat = machine.programCounter.toNat + if test.holds machine = wanted then 4 else 2
  goesOn : ¬ word.HasFormIn Word.turningForms → word ≠ 0x00EE →
    next.toNat = machine.programCounter.toNat + 2

/-- What a word leaves alone, and where it points the index. -/
structure StepFrame {Pad : Type} (machine : Machine Pad) (word : Word) (after : Machine Pad) :
    Prop where
  registers : ∀ number, ¬ word.MayWrite number → after.register number = machine.register number
  indexSet : word.HasFormIn [.ofFamily 0xA] → after.index.toNat = word.address.val
  indexAdded : word.HasFormIn [.withLowByte 0xF 0x1 0xE] →
    after.index.toNat = (machine.index.toNat + (machine.register word.first).toNat) % 65536
  indexGlyph : word.HasFormIn [.withLowByte 0xF 0x2 0x9] →
    after.index.toNat = 5 * ((machine.register word.first).toNat % 16)
  index : ¬ word.HasFormIn Word.indexForms → after.index = machine.index
  stack : ¬ word.HasFormIn [.ofFamily 0x2] → word ≠ 0x00EE → after.stack = machine.stack
  memory : ¬ word.HasFormIn [.withLowByte 0xF 0x3 0x3, .withLowByte 0xF 0x5 0x5] →
    after.memory = machine.memory
  raster : ¬ word.HasFormIn [.ofFamily 0xD] → word ≠ 0x00E0 → after.raster = machine.raster
  delay : ¬ word.HasFormIn [.withLowByte 0xF 0x1 0x5] → after.delay = machine.delay
  sound : ¬ word.HasFormIn [.withLowByte 0xF 0x1 0x8] → after.sound = machine.sound
  clock : ¬ word.HasFormIn [.withLowByte 0xF 0x0 0xA] → after.clock = machine.clock
  lastWord : after.lastWord = word
  routine : word.HasFormIn [.ofFamily 0x0] → word ≠ 0x00E0 → word ≠ 0x00EE →
    after = { machine with lastWord := word, programCounter := machine.programCounter + 2 }

/-! ### Instructions and the forms of their words -/

theorem Word.contains_form_of_hasFormIn (word : Word) (instruction : Instruction)
    (forms : List WordForm) (listed : forms ⊆ WordForm.table)
    (decoded : Instruction.decode word = some instruction) (formed : word.HasFormIn forms) :
    forms.contains instruction.form = true :=
  List.contains_iff_mem.mpr
    ((word.hasFormIn_iff_of_decode instruction forms listed decoded).mp formed)

theorem Word.contains_form_of_not_hasFormIn (word : Word) (instruction : Instruction)
    (forms : List WordForm) (listed : forms ⊆ WordForm.table)
    (decoded : Instruction.decode word = some instruction) (unformed : ¬ word.HasFormIn forms) :
    forms.contains instruction.form = false := by
  rw [word.hasFormIn_iff_of_decode instruction forms listed decoded,
    ← List.contains_iff_mem] at unformed
  exact Bool.eq_false_iff.mpr unformed

namespace Instruction

def target? : Instruction → Option Register
  | setByte target _ => some target
  | addByte target _ => some target
  | copy target _ => some target
  | bitOr target _ => some target
  | bitAnd target _ => some target
  | bitXor target _ => some target
  | add target _ => some target
  | subtract target _ => some target
  | shiftRight target _ => some target
  | subtractFrom target _ => some target
  | shiftLeft target _ => some target
  | random target _ => some target
  | readDelay target => some target
  | _ => none

def Writes (instruction : Instruction) (number : Register) : Prop :=
  instruction.target? = some number ∨
    (Word.flagForms.contains instruction.form = true ∧ number = Machine.flagRegister) ∨
    ∃ last, instruction = loadRegisters last ∧ number ≤ last

theorem isSome_target?_eq (instruction : Instruction) :
    instruction.target?.isSome = Word.resultForms.contains instruction.form := by
  cases instruction <;> rfl

theorem first_of_target? (instruction : Instruction) (target : Register)
    (goes : instruction.target? = some target) : instruction.encode.first = target := by
  cases instruction <;> cases goes <;> simp [encode, digits_byteWord, digits_pairWord]

theorem changes_eq_contains (instruction : Instruction) :
    instruction.changesMemory =
        [WordForm.withLowByte 0xF 0x3 0x3, .withLowByte 0xF 0x5 0x5].contains
          instruction.form ∧
      instruction.changesRaster =
        ([WordForm.ofFamily 0xD].contains instruction.form || instruction == clearScreen) ∧
      instruction.changesDelay =
        [WordForm.withLowByte 0xF 0x1 0x5].contains instruction.form ∧
      instruction.changesSound =
        [WordForm.withLowByte 0xF 0x1 0x8].contains instruction.form := by
  cases instruction <;> exact ⟨rfl, rfl, rfl, rfl⟩

theorem mayWrite_of_writes (word : Word) (instruction : Instruction) (number : Register)
    (decoded : decode word = some instruction) (writes : instruction.Writes number) :
    word.MayWrite number := by
  have encoded := encode_of_decode word instruction decoded
  have formed (forms : List WordForm) (listed : forms ⊆ WordForm.table)
      (among : forms.contains instruction.form = true) : word.HasFormIn forms :=
    (word.hasFormIn_iff_of_decode instruction forms listed decoded).mpr
      (List.contains_iff_mem.mp among)
  rcases writes with goes | ⟨flagged, same⟩ | ⟨last, same, within⟩
  · have among : Word.resultForms.contains instruction.form = true := by
      rw [← isSome_target?_eq, goes]
      rfl
    refine .inl ⟨formed _ (by decide) among, ?_⟩
    rw [← encoded, first_of_target? instruction number goes]
  · exact .inr (.inl ⟨formed _ (by decide) flagged, same⟩)
  · subst instruction
    refine .inr (.inr ⟨formed _ (by decide) rfl, ?_⟩)
    rw [← encoded, encode, (digits_byteWord 0xF last 0x65 (by decide)).2.1]
    exact within

end Instruction

namespace Machine

variable {Pad : Type} [Keypad Pad]

/-! ### What an instruction leaves alone -/

theorem execute_register (machine : Machine Pad) (instruction : Instruction) (number : Register)
    (unwritten : ¬ instruction.Writes number) :
    (machine.execute instruction).machine.register number = machine.register number := by
  have beside (before : Machine Pad) (target : Register) (value : Byte)
      (goes : instruction.target? = some target) :
      (before.setRegister target value).register number = before.register number := by
    have other : target ≠ number := fun same => unwritten (.inl (same ▸ goes))
    rw [register_setRegister, if_neg other]
  have notFlag (flagged : Word.flagForms.contains instruction.form = true) :
      flagRegister ≠ number := fun same => unwritten (.inr (.inl ⟨flagged, same.symm⟩))
  have besideFlag (target : Register) (result flag : Byte)
      (flagged : Word.flagForms.contains instruction.form = true)
      (goes : instruction.target? = some target) :
      (machine.setResult target result flag).register number = machine.register number := by
    rw [setResult, register_setRegister, if_neg (notFlag flagged), beside _ _ _ goes]
  cases instruction
  case returnFromCall =>
    exact executeReturn_keeps (fun machine => machine.register number) machine (fun _stack => rfl)
  case call target =>
    exact executeCall_keeps (fun machine => machine.register number) machine target
      (fun _stack => rfl)
  case setByte target value => exact beside machine target _ rfl
  case addByte target value => exact beside machine target _ rfl
  case copy target source => exact beside machine target _ rfl
  case bitOr target source => exact beside machine target _ rfl
  case bitAnd target source => exact beside machine target _ rfl
  case bitXor target source => exact beside machine target _ rfl
  case add target source => exact besideFlag target _ _ rfl rfl
  case subtract target source => exact besideFlag target _ _ rfl rfl
  case shiftRight target ignored => exact besideFlag target _ _ rfl rfl
  case subtractFrom target source => exact besideFlag target _ _ rfl rfl
  case shiftLeft target ignored => exact besideFlag target _ _ rfl rfl
  case random target mask => exact beside _ target _ rfl
  case readDelay target => exact beside machine target _ rfl
  case draw column row height =>
    apply Effect.onRange_keeps (fun machine => machine.register number)
    intro _sprite
    exact (register_setRegister _ _ _ _).trans (if_neg (notFlag rfl))
  case storeDecimal source =>
    exact Effect.onRange_keeps (fun machine => machine.register number) machine _ _
      (fun _memory => rfl)
  case storeRegisters last =>
    exact Effect.onRange_keeps (fun machine => machine.register number) machine _ _
      (fun _memory => rfl)
  case loadRegisters last =>
    cases ended : (machine.execute (.loadRegisters last)).outcome with
    | error cause => rw [machine.execute_of_failed _ cause ended]
    | ok progress =>
        have above : ¬ number ≤ last := fun within => unwritten (.inr (.inr ⟨last, rfl, within⟩))
        change (machine.executeLoad last).machine.register number = _
        rw [(machine.executeLoad_of_ok last progress ended).2.2, register_setFirstRegisters,
          if_neg above]
  all_goals rfl

theorem execute_index (machine : Machine Pad) (instruction : Instruction) :
    (machine.execute instruction).machine.index =
      match instruction with
      | .setIndex target => Address.toWord target
      | .addToIndex source => machine.index + (machine.register source).toUInt16
      | .pointAtGlyph source => glyphAddress (machine.register source)
      | _ => machine.index := by
  cases instruction
  case returnFromCall => exact executeReturn_keeps index machine (fun _stack => rfl)
  case call target => exact executeCall_keeps index machine target (fun _stack => rfl)
  case draw column row height =>
    exact Effect.onRange_keeps index machine _ _ (fun _sprite => rfl)
  case storeDecimal source =>
    exact Effect.onRange_keeps index machine _ _ (fun _memory => rfl)
  case storeRegisters last =>
    exact Effect.onRange_keeps index machine _ _ (fun _memory => rfl)
  case loadRegisters last =>
    apply Effect.onRange_keeps index
    intro _values
    simp only [Effect.next, setFirstRegisters]
  all_goals rfl

theorem execute_clock (machine : Machine Pad) (instruction : Instruction)
    (goesOn : ∀ target, instruction ≠ .awaitKey target) :
    (machine.execute instruction).machine.clock = machine.clock := by
  cases ordinary : instruction.changesControl with
  | false => exact congrArg Control.clock (machine.execute_control instruction ordinary)
  | true =>
      cases instruction
      case returnFromCall => exact executeReturn_keeps clock machine (fun _stack => rfl)
      case call target => exact executeCall_keeps clock machine target (fun _stack => rfl)
      case awaitKey target => exact absurd rfl (goesOn target)
      all_goals cases ordinary

theorem move_of_straight (machine : Machine Pad) (instruction : Instruction)
    (progress : Progress) (noReturn : instruction ≠ .returnFromCall)
    (straight : Word.turningForms.contains instruction.form = false)
    (executed : (machine.execute instruction).outcome = .ok progress) :
    progress.move = .next := by
  cases instruction
  case returnFromCall => exact absurd rfl noReturn
  case draw column row height =>
    exact Effect.onRange_progress machine _ _ (fun ended => ended.move = .next) progress
      (fun _sprite drawn => by cases drawn; rfl) executed
  case storeDecimal source =>
    exact Effect.onRange_progress machine _ _ (fun ended => ended.move = .next) progress
      (fun _memory stored => by cases stored; rfl) executed
  case storeRegisters last =>
    exact Effect.onRange_progress machine _ _ (fun ended => ended.move = .next) progress
      (fun _memory stored => by cases stored; rfl) executed
  case loadRegisters last =>
    exact Effect.onRange_progress machine _ _ (fun ended => ended.move = .next) progress
      (fun _values loaded => by cases loaded; rfl) executed
  case jump | call | skipIfByte | skipUnlessByte | skipIfSame | skipUnlessSame | jumpOffset |
      skipIfDown | skipUnlessDown | awaitKey =>
    cases straight
  all_goals
    cases executed
    rfl

/-! ### Where the program counter goes -/

theorem execute_test (machine : Machine Pad) (test : SkipTest) (wanted : Bool) :
    (machine.execute (test.instruction wanted)).outcome =
      .ok ⟨.skipIf (test.holds machine == wanted), .quiet⟩ := by
  have compared (same : Bool) :
      (.ok ⟨.skipIf (if wanted then same else !same), .quiet⟩ : Except FaultCause Progress) =
        .ok ⟨.skipIf (same == wanted), .quiet⟩ := by
    cases wanted <;> cases same <;> rfl
  cases test with
  | byte tested value =>
      have skips := compared (machine.register tested == value)
      cases wanted <;> exact skips
  | pair left right =>
      have skips := compared (machine.register left == machine.register right)
      cases wanted <;> exact skips
  | key tested => cases wanted <;> rfl

omit [Keypad Pad] in
theorem programCounter_of_fetched (machine : Machine Pad) (word : Word)
    (fetched : machine.memory.fetch machine.programCounter.toNat = .ok word) :
    machine.programCounter.toNat ≤ 0xFFE := by
  apply Nat.le_of_not_lt
  intro beyond
  rw [machine.fetch_of_beyond beyond] at fetched
  cases fetched

theorem step_of_test (machine : Machine Pad) (test : SkipTest) (wanted : Bool)
    (running : machine.clock = .running)
    (fetched : machine.memory.fetch machine.programCounter.toNat = .ok (test.word wanted)) :
    machine.step.machine.programCounter.toNat =
      machine.programCounter.toNat + if test.holds machine = wanted then 4 else 2 := by
  have inside := machine.programCounter_of_fetched _ fetched
  have effect := (machine.remember (test.word wanted)).execute_test test wanted
  have place := (machine.remember (test.word wanted)).execute_programCounter
    (test.instruction wanted)
  have same : test.holds (machine.remember (test.word wanted)) = test.holds machine := by
    cases test <;> rfl
  rw [machine.step_of_fetched _ running fetched,
    machine.performWord_of_decoded _ _ (test.decode_word wanted),
    perform_of_executed _ _ _ _ effect]
  simp only [advance, place, ProgramMove.toNat_apply_skipIf, same, beq_iff_eq]
  change (machine.programCounter.toNat + _) % 65536 = _
  apply Nat.mod_eq_of_lt
  split <;> omega

theorem nextPlace_of_executed (machine : Machine Pad) (instruction : Instruction)
    (running : machine.clock = .running)
    (executed : machine.executed? = some instruction)
    (decoded : Instruction.decode machine.nextWord = some instruction) :
    NextPlace machine machine.nextWord machine.step.machine.programCounter := by
  have inside := machine.programCounter_of_executed instruction executed
  have fetched := machine.fetch_of_inside inside
  have encoded := Instruction.encode_of_decode _ instruction decoded
  have formed (forms : List WordForm) (listed : forms ⊆ WordForm.table) :=
    machine.nextWord.contains_form_of_hasFormIn instruction forms listed decoded
  obtain ⟨progress, effect, _outcome, next⟩ := machine.step_of_executed instruction executed
  have place : machine.step.machine.programCounter =
      progress.move.apply machine.programCounter := by
    rw [next]
    exact congrArg progress.move.apply (execute_programCounter _ instruction)
  have isReturn (returns : machine.nextWord = 0x00EE) : instruction = .returnFromCall := by
    have word : Instruction.decode 0x00EE = some .returnFromCall := by decide
    rw [returns, word] at decoded
    exact (Option.some.inj decoded).symm
  constructor
  case jumps =>
    intro jumping
    have among := formed _ (by decide) jumping
    cases instruction
    case jump target =>
      cases effect
      rw [place, ← encoded, Instruction.encode,
        (Instruction.digits_addressWord 0x1 target (by decide)).2]
      exact Address.toNat_toWord target
    case call target =>
      rw [place, executeCall_move _ target progress effect, ← encoded, Instruction.encode,
        (Instruction.digits_addressWord 0x2 target (by decide)).2]
      exact Address.toNat_toWord target
    all_goals cases among
  case jumpsOffset =>
    intro jumping
    have among := formed _ (by decide) jumping
    cases instruction
    case jumpOffset base =>
      have baseBound := base.isLt
      have offsetBound := (machine.register 0).toNat_lt
      cases effect
      rw [place, ← encoded, Instruction.encode,
        (Instruction.digits_addressWord 0xB base (by decide)).2]
      change (Address.toWord base + (machine.register 0).toUInt16).toNat = _
      rw [UInt16.toNat_add, Address.toNat_toWord, UInt8.toNat_toUInt16]
      omega
    all_goals cases among
  case returns =>
    intro returns
    rw [isReturn returns] at executed
    rw [machine.step_of_return executed]
    rfl
  case waits =>
    intro waiting
    have among := formed _ (by decide) waiting
    cases instruction
    case awaitKey target =>
      cases effect
      exact place
    all_goals cases among
  case tests =>
    intro test wanted same
    exact machine.step_of_test test wanted running (same ▸ fetched)
  case goesOn =>
    intro straight noReturn
    have notReturn : instruction ≠ .returnFromCall := by
      intro returns
      subst instruction
      exact noReturn encoded.symm
    have unformed := machine.nextWord.contains_form_of_not_hasFormIn instruction _ (by decide)
      decoded straight
    rw [place, move_of_straight _ instruction progress notReturn unformed effect]
    change (machine.programCounter + 2).toNat = _
    rw [UInt16.toNat_add]
    change (machine.programCounter.toNat + 2) % 65536 = _
    omega

/-! ### What a step changes -/

theorem stepFrame_of_executed (machine : Machine Pad) (instruction : Instruction)
    (executed : machine.executed? = some instruction)
    (decoded : Instruction.decode machine.nextWord = some instruction) :
    StepFrame machine machine.nextWord machine.step.machine := by
  let remembered := machine.remember machine.nextWord
  have encoded := Instruction.encode_of_decode _ instruction decoded
  have formed (forms : List WordForm) (listed : forms ⊆ WordForm.table) :=
    machine.nextWord.contains_form_of_hasFormIn instruction forms listed decoded
  have unformed (forms : List WordForm) (listed : forms ⊆ WordForm.table) :=
    machine.nextWord.contains_form_of_not_hasFormIn instruction forms listed decoded
  have kept := remembered.execute_keptBy instruction
  have index := remembered.execute_index instruction
  obtain ⟨memory, raster, delay, sound⟩ := instruction.changes_eq_contains
  obtain ⟨progress, effect, _outcome, next⟩ := machine.step_of_executed instruction executed
  rw [next]
  constructor
  case registers =>
    intro number unwritten
    exact remembered.execute_register instruction number
      (fun writes => unwritten (instruction.mayWrite_of_writes _ number decoded writes))
  case indexSet =>
    intro setting
    have among := formed _ (by decide) setting
    cases instruction
    case setIndex target =>
      rw [← encoded, Instruction.encode,
        (Instruction.digits_addressWord 0xA target (by decide)).2]
      exact Address.toNat_toWord target
    all_goals cases among
  case indexAdded =>
    intro adding
    have among := formed _ (by decide) adding
    cases instruction
    case addToIndex source =>
      rw [← encoded, Instruction.encode,
        (Instruction.digits_byteWord 0xF source 0x1E (by decide)).2.1]
      exact UInt16.toNat_add machine.index (machine.register source).toUInt16
    all_goals cases among
  case indexGlyph =>
    intro pointing
    have among := formed _ (by decide) pointing
    cases instruction
    case pointAtGlyph source =>
      rw [← encoded, Instruction.encode,
        (Instruction.digits_byteWord 0xF source 0x29 (by decide)).2.1]
      change (glyphAddress (machine.register source)).toNat = _
      rw [glyphAddress, UInt16.toNat_ofNat', glyphSize]
      omega
    all_goals cases among
  case index =>
    intro elsewhere
    have among := unformed _ (by decide) elsewhere
    cases instruction
    case setIndex | addToIndex | pointAtGlyph => cases among
    all_goals exact index
  case stack =>
    intro noCall noReturn
    have among := unformed _ (by decide) noCall
    apply remembered.execute_stack instruction
    · cases instruction
      case call target => cases among
      all_goals rfl
    · cases instruction
      case returnFromCall => exact absurd encoded.symm noReturn
      all_goals rfl
  case memory =>
    intro noStore
    exact kept.memory (memory.trans (unformed _ (by decide) noStore))
  case raster =>
    intro noDraw noClear
    have notClear : (instruction == .clearScreen) = false := by
      rw [beq_eq_false_iff_ne]
      intro clears
      subst instruction
      exact noClear encoded.symm
    apply kept.raster
    rw [raster, unformed _ (by decide) noDraw, notClear, Bool.or_false]
  case delay =>
    intro noWrite
    exact kept.delay (delay.trans (unformed _ (by decide) noWrite))
  case sound =>
    intro noWrite
    exact kept.sound (sound.trans (unformed _ (by decide) noWrite))
  case clock =>
    intro noWait
    have among := unformed _ (by decide) noWait
    apply remembered.execute_clock instruction
    intro target waits
    subst instruction
    cases among
  case lastWord => exact (remembered.execute_place instruction).1
  case routine =>
    intro ignored noClear noReturn
    have among := formed _ (by decide) ignored
    cases instruction
    case machineRoutine target =>
      cases effect
      rfl
    case clearScreen => exact absurd encoded.symm noClear
    case returnFromCall => exact absurd encoded.symm noReturn
    all_goals cases among

/-- Every word that is executed follows the two tables: it leads where the first says and
changes no more than the second allows. A skip and its opposite, met in one and the same
state, part: exactly one of them skips, and the test says which. -/
theorem step_follows_tables (machine : Machine Pad) (operation : Operation)
    (running : machine.clock = .running) (succeeded : machine.step.outcome = .ok operation) :
    NextPlace machine machine.nextWord machine.step.machine.programCounter ∧
      StepFrame machine machine.nextWord machine.step.machine ∧
      ∀ (test : SkipTest) (wanted : Bool) (memory : Memory),
        machine.nextWord = test.word wanted →
        memory.fetch machine.programCounter.toNat = .ok (test.word !wanted) →
          let place := machine.programCounter.toNat
          let opposite := { machine with memory := memory }
          machine.step.machine.programCounter.toNat =
              (if test.holds machine = wanted then place + 4 else place + 2) ∧
            opposite.step.machine.programCounter.toNat =
              (if test.holds machine = wanted then place + 2 else place + 4) := by
  obtain ⟨instruction, executed, decoded⟩ := machine.exists_executed operation running succeeded
  have inside := machine.programCounter_of_executed instruction executed
  have fetched := machine.fetch_of_inside inside
  refine ⟨machine.nextPlace_of_executed instruction running executed decoded,
    machine.stepFrame_of_executed instruction executed decoded, ?_⟩
  intro test wanted memory atMachine atOpposite place opposite
  have here := machine.step_of_test test wanted running (atMachine ▸ fetched)
  have there := opposite.step_of_test test (!wanted) running atOpposite
  have same : test.holds opposite = test.holds machine := by
    cases test <;> rfl
  rw [here, there, same]
  cases test.holds machine <;> cases wanted <;> exact ⟨rfl, rfl⟩

/-- A key that is down is skipped over by the one word and not by the other. -/
theorem held_key_parts_opposite_skips :
    ∃ start : Machine Keyboard,
      load [0xE0, 0x9E] (Keyboard.idle.press 0) (.repeating #[]) = .ok start ∧
      let opposite := { start with memory := start.memory.overwrite 0x200 [0xE0, 0xA1] }
      start.step.machine.programCounter.toNat = 0x204 ∧
        opposite.step.machine.programCounter.toNat = 0x202 := by
  obtain ⟨start, started⟩ := (load_ok_iff [0xE0, 0x9E] (Keyboard.idle.press 0)
    (.repeating #[])).mpr (by decide)
  have evaluated : (load [0xE0, 0x9E] (Keyboard.idle.press 0)
      (.repeating #[])).toOption.map (fun start =>
        ((start.clock, start.step.outcome), (start.nextWord, start.programCounter.toNat),
          (start.memory.overwrite 0x200 [0xE0, 0xA1]).fetch start.programCounter.toNat,
          (SkipTest.key 0).holds start)) =
      some ((.running, .ok .quiet), ((SkipTest.key 0).word true, 0x200),
        .ok ((SkipTest.key 0).word false), true) := by
    decide +kernel
  rw [started] at evaluated
  simp only [Except.toOption, Option.map_some, Option.some.injEq, Prod.mk.injEq] at evaluated
  obtain ⟨⟨running, succeeded⟩, ⟨here, place⟩, there, holds⟩ := evaluated
  obtain ⟨_next, _frame, parts⟩ := start.step_follows_tables .quiet running succeeded
  obtain ⟨skips, goesOn⟩ := parts (.key 0) true _ here there
  rw [if_pos holds, place] at skips goesOn
  exact ⟨start, started, skips, goesOn⟩

end Machine

end Chip8
