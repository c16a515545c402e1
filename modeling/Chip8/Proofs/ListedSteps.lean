import Chip8.Proofs.DueFaults
import Chip8.Proofs.ListingRoundTrip

set_option autoImplicit false

/-! The listing of a program against its execution. A running machine reports the word
it executes by the very line that the listing has at its place, whatever the execution
then comes to; at a line of data it reports nothing and refuses the word. -/

namespace Chip8

/-- A line for two bytes that no instruction is written as. -/
def IsDataLine (line : String) (word : Word) : Prop :=
  mnemonicColumn line = (ListingEntry.dataWord word).mnemonic

def Turn.traces {Pad : Type} (turn : Turn Pad) : List String :=
  (turn.journal.filter (fun entry => entry.severity = .trace)).map JournalEntry.message

/-! ### Lines of a program -/

theorem getElem?_listingEntries (bytes : List Byte) (index : Nat) (high low : Byte)
    (first : bytes[2 * index]? = some high) (second : bytes[2 * index + 1]? = some low) :
    (listingEntries bytes)[index]? = some (.ofWord (Word.ofBytes high low)) := by
  fun_induction listingEntries bytes generalizing index with
  | case1 => cases second
  | case2 last => cases second
  | case3 here next rest ih =>
      cases index with
      | zero =>
          cases first
          cases second
          rfl
      | succ index =>
          exact ih index first second

theorem getElem?_disassemble (bytes : List Byte) (origin index : Nat) (high low : Byte)
    (first : bytes[2 * index]? = some high) (second : bytes[2 * index + 1]? = some low) :
    (disassemble bytes origin)[index]? =
      some ((ListingEntry.ofWord (Word.ofBytes high low)).line (origin + 2 * index)) := by
  unfold disassemble
  rw [getElem?_listingLines, getElem?_listingEntries bytes index high low first second]
  rfl

theorem isDataLine_line_iff (address : Nat) (listed word : Word) :
    IsDataLine ((ListingEntry.ofWord listed).line address) word ↔
      listed = word ∧ Instruction.decode listed = none := by
  unfold IsDataLine
  rw [ListingEntry.mnemonicColumn_line]
  constructor
  · intro same
    have entries := ListingEntry.entry?_ofWord listed
    rw [ListingEntry.statement_of_mnemonic _ _ same] at entries
    have found : ListingEntry.dataWord word = ListingEntry.ofWord listed := Option.some.inj entries
    unfold ListingEntry.ofWord at found
    cases decoded : Instruction.decode listed with
    | none =>
        rw [decoded] at found
        exact ⟨(ListingEntry.dataWord.inj found).symm, rfl⟩
    | some instruction =>
        rw [decoded] at found
        cases found
  · intro ⟨same, undecoded⟩
    subst word
    unfold ListingEntry.ofWord
    rw [undecoded]

/-! ### Reports of a step -/

namespace Machine

variable {Pad : Type} [Keypad Pad]

omit [Keypad Pad] in
theorem onRange_journal {Granted : Type} (machine : Machine Pad)
    (asked : Except OutOfRange Granted) (effect : Granted → Effect Pad)
    (silent : ∀ granted, (effect granted).journal = []) :
    (Effect.onRange machine asked effect).journal = [] := by
  cases asked with
  | error range => rfl
  | ok granted => exact silent granted

theorem execute_journal (machine : Machine Pad) (instruction : Instruction) :
    ∀ entry ∈ (machine.execute instruction).journal, entry.severity = .debug := by
  have of_silent (silent : (machine.execute instruction).journal = []) :
      ∀ entry ∈ (machine.execute instruction).journal, entry.severity = .debug := by
    rw [silent]
    exact List.forall_mem_nil _
  cases instruction
  case machineRoutine target => exact List.forall_mem_singleton.mpr rfl
  case returnFromCall =>
    simp only [execute, executeReturn]
    cases machine.stack.pop? with
    | none => exact List.forall_mem_nil _
    | some entry => exact List.forall_mem_singleton.mpr rfl
  case call target =>
    simp only [execute, executeCall]
    cases machine.stack.push? (ProgramMove.next.apply machine.programCounter) with
    | none => exact List.forall_mem_nil _
    | some stack => exact List.forall_mem_singleton.mpr rfl
  case jumpOffset base => exact List.forall_mem_singleton.mpr rfl
  case awaitKey target => exact List.forall_mem_singleton.mpr rfl
  case draw column row height =>
    exact of_silent (machine.onRange_journal _ _ (fun _sprite => rfl))
  case storeDecimal source =>
    exact of_silent (machine.onRange_journal _ _ (fun _memory => rfl))
  case storeRegisters last =>
    exact of_silent (machine.onRange_journal _ _ (fun _memory => rfl))
  case loadRegisters last =>
    exact of_silent (machine.onRange_journal _ _ (fun _values => rfl))
  all_goals exact of_silent rfl

theorem journal_perform (machine : Machine Pad) (word : Word) (instruction : Instruction) :
    (machine.perform word instruction).journal =
      .fetched machine.programCounter word instruction ::
        (machine.execute instruction).journal := by
  cases ended : (machine.execute instruction).outcome with
  | error cause => rw [perform_of_failed _ word instruction cause ended]
  | ok progress => rw [perform_of_executed _ word instruction progress ended]

theorem traces_perform (machine : Machine Pad) (word : Word) (instruction : Instruction) :
    (machine.perform word instruction).traces =
      [(ListingEntry.code word instruction).line machine.programCounter.toNat] := by
  have silent : (machine.execute instruction).journal.filter
      (fun entry => entry.severity = .trace) = [] := by
    rw [List.filter_eq_nil_iff]
    intro entry listed
    rw [machine.execute_journal instruction entry listed]
    decide
  rw [Turn.traces, journal_perform, List.filter_cons_of_pos rfl, silent]
  rfl

theorem perform_supported (machine : Machine Pad) (word refused : Word)
    (instruction : Instruction) (fault : Fault)
    (failed : (machine.perform word instruction).outcome = .error fault) :
    fault.cause ≠ .unsupportedWord refused := by
  cases ended : (machine.execute instruction).outcome with
  | ok progress =>
      rw [perform_of_executed _ word instruction progress ended] at failed
      cases failed
  | error cause =>
      rw [perform_of_failed _ word instruction cause ended] at failed
      cases failed
      have due := (machine.execute_outcome_error_iff instruction cause).mp ended
      rintro rfl
      cases instruction <;> simp [Instruction.failure?, beyondEnd?] at due

/-- The listing of a program and its execution agree. A running machine that stands at
an even place of the program, where its memory still holds the program's bytes, reports
exactly the line that the listing has there and does not refuse the word, whatever the
execution comes to. If it is a line of data, then the step reports no fetch and fails
for that word. -/
theorem step_reports_listed_line (program : List Byte) (fits : program.length ≤ 3584)
    (machine : Machine Pad) (running : machine.clock = .running) (index : Nat)
    (place : machine.programCounter.toNat = 0x200 + 2 * index)
    (first : program[2 * index]? = some (machine.memory.byteAt machine.programCounter.toNat))
    (second : program[2 * index + 1]? =
      some (machine.memory.byteAt (machine.programCounter.toNat + 1))) :
    ∃ line, (disassemble program 0x200)[index]? = some line ∧
      ((∀ word, ¬ IsDataLine line word) →
        machine.step.traces = [line] ∧
        ∀ fault, machine.step.outcome = .error fault →
          ∀ word, fault.cause ≠ .unsupportedWord word) ∧
      ∀ word, IsDataLine line word →
        machine.step.traces = [] ∧
        machine.step.outcome =
          .error ⟨machine.programCounter, some word, .unsupportedWord word⟩ := by
  have within := (List.getElem?_eq_some_iff.mp second).1
  have inside : machine.programCounter.toNat ≤ 0xFFE := by omega
  have found := getElem?_disassemble program 0x200 index _ _ first second
  rw [← place] at found
  change _ = some ((ListingEntry.ofWord machine.nextWord).line _) at found
  refine ⟨_, found, ?_, ?_⟩
  · intro code
    rw [machine.step_of_inside running inside]
    cases decoded : Instruction.decode machine.nextWord with
    | none => exact absurd ((isDataLine_line_iff _ _ _).mpr ⟨rfl, decoded⟩) (code machine.nextWord)
    | some instruction =>
        rw [machine.performWord_of_decoded _ instruction decoded, traces_perform]
        refine ⟨?_, ?_⟩
        · unfold ListingEntry.ofWord
          rw [decoded]
          rfl
        · intro fault failed word
          exact perform_supported _ _ word instruction fault failed
  · intro word data
    obtain ⟨same, undecoded⟩ := (isDataLine_line_iff _ _ _).mp data
    rw [machine.step_of_inside running inside, same]
    rw [same] at undecoded
    rw [machine.performWord_of_undecoded word undecoded]
    exact ⟨rfl, rfl⟩

/-- With key `0` down the program comes to a return without a call, which is reported by
its line and fails. With the key up it comes to a word of data, which is not reported. -/
theorem stray_return_is_reported :
    ∃ start : Machine Keyboard,
      load [0xE0, 0x9E, 0x50, 0x01, 0x00, 0xEE] Keyboard.idle (.repeating #[]) = .ok start ∧
      (start.after [.keypad (·.press 0), .step]).step.traces = ["0x0204: 0x00EE  RET"] ∧
      (start.after [.keypad (·.press 0), .step]).step.outcome =
        .error ⟨0x204, some 0x00EE, .stackEmpty⟩ ∧
      (start.after [.step]).step.traces = [] ∧
      (start.after [.step]).step.outcome =
        .error ⟨0x202, some 0x5001, .unsupportedWord 0x5001⟩ := by
  obtain ⟨start, started⟩ := (load_ok_iff [0xE0, 0x9E, 0x50, 0x01, 0x00, 0xEE] Keyboard.idle
    (.repeating #[])).mpr (by decide)
  have evaluated : (load [0xE0, 0x9E, 0x50, 0x01, 0x00, 0xEE] Keyboard.idle
      (.repeating #[])).toOption.map (fun start =>
        let view (machine : Machine Keyboard) :=
          (machine.clock, machine.programCounter,
            machine.memory.byteAt machine.programCounter.toNat,
            machine.memory.byteAt (machine.programCounter.toNat + 1))
        (view (start.after [.keypad (·.press 0), .step]), view (start.after [.step]),
          (start.after [.keypad (·.press 0), .step]).step.outcome)) =
      some ((.running, 0x204, 0x00, 0xEE), (.running, 0x202, 0x50, 0x01),
        .error ⟨0x204, some 0x00EE, .stackEmpty⟩) := by
    decide +kernel
  rw [started] at evaluated
  simp only [Except.toOption, Option.map_some, Option.some.injEq, Prod.mk.injEq] at evaluated
  obtain ⟨⟨pressed, placeOfReturn, high, low⟩, ⟨unpressed, placeOfData, dataHigh, dataLow⟩,
    failed⟩ := evaluated
  obtain ⟨line, listed, reported, _data⟩ := step_reports_listed_line
    [0xE0, 0x9E, 0x50, 0x01, 0x00, 0xEE] (by decide) _ pressed 2 (by rw [placeOfReturn]; decide)
    (by rw [high]; rfl) (by rw [low]; rfl)
  obtain ⟨dataLine, dataListed, _reported, refused⟩ := step_reports_listed_line
    [0xE0, 0x9E, 0x50, 0x01, 0x00, 0xEE] (by decide) _ unpressed 1 (by rw [placeOfData]; decide)
    (by rw [dataHigh]; rfl) (by rw [dataLow]; rfl)
  have lines : (disassemble [0xE0, 0x9E, 0x50, 0x01, 0x00, 0xEE] 0x200)[2]? =
        some "0x0204: 0x00EE  RET" ∧
      (disassemble [0xE0, 0x9E, 0x50, 0x01, 0x00, 0xEE] 0x200)[1]? =
        some "0x0202: 0x5001  DW 0x5001" := by
    decide +kernel
  rw [lines.1] at listed
  rw [lines.2] at dataListed
  cases listed
  cases dataListed
  have isCode (word : Word) : ¬ IsDataLine "0x0204: 0x00EE  RET" word := by
    have written : "0x0204: 0x00EE  RET" = (ListingEntry.ofWord 0x00EE).line 0x204 := by
      decide +kernel
    rw [written, isDataLine_line_iff]
    intro both
    cases both.2
  have isData : IsDataLine "0x0202: 0x5001  DW 0x5001" 0x5001 := by
    unfold IsDataLine
    decide +kernel
  obtain ⟨silent, unsupported⟩ := refused 0x5001 isData
  rw [placeOfData] at unsupported
  exact ⟨start, started, (reported isCode).1, failed, silent, unsupported⟩

end Machine

end Chip8
