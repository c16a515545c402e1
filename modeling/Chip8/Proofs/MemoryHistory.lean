import Chip8.Proofs.Executions

set_option autoImplicit false

/-! The memory as a function of what was executed: an address holds the byte that
the latest store over it put there, and without one the byte of the glyphs, of
the program or zero that it held at the start. Stores may overlap, and may go
over the glyphs and the running program. -/

namespace Chip8

/-- The byte that an address holds before anything is executed. -/
def firstByte (program : List Byte) (address : Nat) : Byte :=
  if address < 0x050 then glyphs.getD address 0
  else if address < 0x200 then 0
  else program.getD (address - 0x200) 0

namespace Execution

variable {Pad : Type}

def stored (execution : Execution Pad) : List Byte :=
  match execution.instruction with
  | .storeDecimal source => decimalDigits (execution.machine.register source)
  | .storeRegisters last => execution.machine.firstRegisters last
  | _ => []

def storedAt? (execution : Execution Pad) (address : Nat) : Option Byte :=
  if execution.machine.index.toNat ≤ address then
    execution.stored[address - execution.machine.index.toNat]?
  else none

end Execution

/-- The byte that the latest store over an address left there. The executions are
given latest first. -/
def rememberedByte {Pad : Type} (program : List Byte) (executions : List (Execution Pad))
    (address : Nat) : Byte :=
  (executions.findSome? (fun execution => execution.storedAt? address)).getD
    (firstByte program address)

/-! ### The initial image -/

theorem byteAt_loaded (program : List Byte) (address : Nat) (inside : address < 4096) :
    (glyphMemory.overwrite programStart program).byteAt address = firstByte program address := by
  have glyphCount : glyphs.length = 0x050 := by decide
  have glyphByte : glyphMemory.byteAt address =
      if address < 0x050 then glyphs.getD address 0 else 0 := by
    unfold glyphMemory
    rw [Memory.byteAt_overwrite, if_pos ⟨Nat.zero_le address, inside⟩, Nat.sub_zero,
      Memory.byteAt_blank, List.getD_eq_getElem?_getD]
    split
    · rfl
    · rw [List.getElem?_eq_none (by omega)]
      rfl
  unfold programStart firstByte
  rw [Memory.byteAt_overwrite, glyphByte]
  by_cases isGlyph : address < 0x050
  · rw [if_neg (by omega), if_pos isGlyph, if_pos isGlyph]
  · rw [if_neg isGlyph, if_neg isGlyph]
    by_cases before : address < 0x200
    · rw [if_neg (by omega), if_pos before]
    · rw [if_pos ⟨Nat.le_of_not_lt before, inside⟩, if_neg before, List.getD_eq_getElem?_getD]

/-! ### Stores -/

theorem Memory.bytesAt_overwrite (memory : Memory) (address : Nat) (content : List Byte)
    (inside : address + content.length ≤ 4096) :
    (memory.overwrite address content).bytesAt address content.length = content := by
  apply List.ext_getElem
  · exact length_bytesAt _ address content.length
  · intro offset _within below
    have reached : address ≤ address + offset ∧ address + offset < 4096 := by omega
    simp only [bytesAt, List.getElem_map, List.getElem_range]
    rw [byteAt_overwrite, if_pos reached, Nat.add_sub_cancel_left,
      List.getElem?_eq_getElem below, Option.getD_some]

theorem decimalDigits_eq (value : Byte) :
    ∃ hundreds tens ones : Byte, decimalDigits value = [hundreds, tens, ones] ∧
      hundreds ≤ 9 ∧ tens ≤ 9 ∧ ones ≤ 9 ∧
      100 * hundreds.toNat + 10 * tens.toNat + ones.toNat = value.toNat := by
  have bound := value.toNat_lt
  have hundredsEq : (value / 100).toNat = value.toNat / 100 := UInt8.toNat_div value 100
  have tensEq : (value / 10 % 10).toNat = value.toNat / 10 % 10 := by
    rw [UInt8.toNat_mod, UInt8.toNat_div]
    rfl
  have onesEq : (value % 10).toNat = value.toNat % 10 := UInt8.toNat_mod value 10
  have nine : (9 : Byte).toNat = 9 := rfl
  refine ⟨value / 100, value / 10 % 10, value % 10, rfl, ?_, ?_, ?_, by omega⟩
  all_goals
    rw [UInt8.le_iff_toNat_le]
    omega

namespace Machine

variable {Pad : Type}

theorem getElem?_firstRegisters (machine : Machine Pad) (last number : Register)
    (within : number ≤ last) :
    (machine.firstRegisters last)[number.val]? = some (machine.register number) := by
  have below : number.val < last.val + 1 := Nat.lt_succ_of_le within
  simp [firstRegisters, register, below]

theorem store_of_ok (machine : Machine Pad) (content : List Byte) (progress : Progress)
    (stored : (machine.store content).outcome = .ok progress) :
    machine.index.toNat + content.length ≤ 4096 ∧
      (machine.store content).machine =
        { machine with memory := machine.memory.overwrite machine.index.toNat content } := by
  unfold store Memory.load at stored ⊢
  cases checked : checkRange Memory.size machine.index.toNat content.length with
  | error range =>
      rw [checked] at stored
      cases stored
  | ok granted => exact ⟨(checkRange_ok_iff _ _ _).mp checked, rfl⟩

theorem executeLoad_of_ok (machine : Machine Pad) (last : Register) (progress : Progress)
    (loaded : (machine.executeLoad last).outcome = .ok progress) :
    machine.index.toNat + (last.val + 1) ≤ 4096 ∧ progress = ⟨.next, .quiet⟩ ∧
      (machine.executeLoad last).machine = machine.setFirstRegisters
        (machine.memory.bytesAt machine.index.toNat (last.val + 1)) := by
  unfold executeLoad at loaded ⊢
  cases sliced : machine.memory.slice machine.index.toNat (last.val + 1) with
  | error range =>
      rw [sliced] at loaded
      cases loaded
  | ok values =>
      rw [sliced] at loaded
      cases loaded
      obtain ⟨inside, same⟩ := (machine.memory.slice_ok_iff _ _ _).mp sliced
      rw [same]
      exact ⟨inside, rfl, rfl⟩

theorem register_setFirstRegisters (machine : Machine Pad) (address : Nat)
    (last number : Register) :
    (machine.setFirstRegisters (machine.memory.bytesAt address (last.val + 1))).register number =
      if number ≤ last then machine.memory.byteAt (address + number.val)
      else machine.register number := by
  have below : number ≤ last ↔ number.val < last.val + 1 := Nat.lt_succ_iff.symm
  by_cases within : number ≤ last
  · simp [setFirstRegisters, register, Memory.bytesAt, below.mp within, within]
  · have above := mt below.mpr within
    simp [setFirstRegisters, register, Memory.bytesAt, above, within]

variable [Keypad Pad]

theorem step_memory_of_executed (machine : Machine Pad) (instruction : Instruction)
    (executed : machine.executed? = some instruction) :
    machine.step.machine.memory = machine.memory.overwrite machine.index.toNat
      (⟨machine, instruction⟩ : Execution Pad).stored := by
  obtain ⟨progress, effect, _outcome, next⟩ := machine.step_of_executed instruction executed
  rw [next]
  change ((machine.remember machine.nextWord).execute instruction).machine.memory = _
  cases other : instruction.changesMemory with
  | false =>
      have nothing : (⟨machine, instruction⟩ : Execution Pad).stored = [] := by
        cases instruction
        case storeDecimal source => cases other
        case storeRegisters last => cases other
        all_goals rfl
      rw [(execute_keptBy _ instruction).memory other, nothing]
      rfl
  | true =>
      cases instruction
      case storeDecimal source => exact congrArg memory (store_of_ok _ _ progress effect).2
      case storeRegisters last => exact congrArg memory (store_of_ok _ _ progress effect).2
      all_goals cases other

theorem byteAt_step_of_executed (machine : Machine Pad) (instruction : Instruction)
    (executed : machine.executed? = some instruction) (address : Nat) (inside : address < 4096) :
    machine.step.machine.memory.byteAt address =
      ((⟨machine, instruction⟩ : Execution Pad).storedAt? address).getD
        (machine.memory.byteAt address) := by
  rw [machine.step_memory_of_executed instruction executed, Memory.byteAt_overwrite]
  unfold Execution.storedAt?
  by_cases behind : machine.index.toNat ≤ address
  · rw [if_pos ⟨behind, inside⟩, if_pos behind]
  · rw [if_neg (fun both => behind both.1), if_neg behind]
    rfl

theorem step_of_store (machine : Machine Pad) (instruction : Instruction)
    (executed : machine.executed? = some instruction) (store : instruction.changesMemory = true) :
    let stored := (⟨machine, instruction⟩ : Execution Pad).stored
    machine.index.toNat + stored.length ≤ 4096 ∧
      machine.step.machine.index = machine.index ∧
      machine.step.machine.memory.bytesAt machine.index.toNat stored.length = stored := by
  intro stored
  obtain ⟨progress, effect, _outcome, next⟩ := machine.step_of_executed instruction executed
  have fits : machine.index.toNat + stored.length ≤ 4096 ∧
      ((machine.remember machine.nextWord).execute instruction).machine.index = machine.index := by
    cases instruction
    case storeDecimal source =>
      obtain ⟨inside, same⟩ := store_of_ok _ _ progress effect
      have kept := congrArg index same
      exact ⟨inside, kept⟩
    case storeRegisters last =>
      obtain ⟨inside, same⟩ := store_of_ok _ _ progress effect
      have kept := congrArg index same
      exact ⟨inside, kept⟩
    all_goals cases store
  refine ⟨fits.1, ?_, ?_⟩
  · rw [next]
    exact fits.2
  · rw [machine.step_memory_of_executed instruction executed]
    exact Memory.bytesAt_overwrite _ _ stored fits.1

theorem step_of_storeDecimal (machine : Machine Pad) (source : Register)
    (executed : machine.executed? = some (.storeDecimal source)) :
    machine.step.machine.index = machine.index ∧
      ∃ hundreds tens ones : Byte,
        machine.step.machine.memory.bytesAt machine.index.toNat 3 = [hundreds, tens, ones] ∧
        hundreds ≤ 9 ∧ tens ≤ 9 ∧ ones ≤ 9 ∧
        100 * hundreds.toNat + 10 * tens.toNat + ones.toNat =
          (machine.register source).toNat := by
  obtain ⟨_inside, index, found⟩ := machine.step_of_store _ executed rfl
  obtain ⟨hundreds, tens, ones, digits, bounds⟩ := decimalDigits_eq (machine.register source)
  exact ⟨index, hundreds, tens, ones, found.trans digits, bounds⟩

theorem step_of_storeRegisters (machine : Machine Pad) (last : Register)
    (executed : machine.executed? = some (.storeRegisters last)) :
    machine.step.machine.index = machine.index ∧
      ∀ number, number ≤ last →
        machine.step.machine.memory.byteAt (machine.index.toNat + number.val) =
          machine.register number := by
  obtain ⟨inside, index, _found⟩ := machine.step_of_store _ executed rfl
  change machine.index.toNat + (machine.firstRegisters last).length ≤ 4096 at inside
  rw [length_firstRegisters] at inside
  refine ⟨index, ?_⟩
  intro number within
  have below : number.val ≤ last.val := within
  rw [machine.byteAt_step_of_executed _ executed _ (by omega)]
  unfold Execution.storedAt?
  rw [if_pos (Nat.le_add_right _ _), Nat.add_sub_cancel_left]
  change ((machine.firstRegisters last)[number.val]?).getD _ = _
  rw [machine.getElem?_firstRegisters last number within, Option.getD_some]

theorem step_of_loadRegisters (machine : Machine Pad) (last : Register)
    (executed : machine.executed? = some (.loadRegisters last)) :
    machine.index.toNat + (last.val + 1) ≤ 4096 ∧
      machine.step.machine =
        { machine with
          lastWord := machine.nextWord
          registers := machine.step.machine.registers
          programCounter := machine.programCounter + 2 } ∧
      ∀ number, machine.step.machine.register number =
        if number ≤ last then machine.memory.byteAt (machine.index.toNat + number.val)
        else machine.register number := by
  obtain ⟨progress, effect, _outcome, next⟩ := machine.step_of_executed _ executed
  obtain ⟨inside, moves, loaded⟩ := executeLoad_of_ok _ last progress effect
  subst progress
  change machine.step.machine =
    ((machine.remember machine.nextWord).executeLoad last).machine.advance .next at next
  rw [loaded] at next
  refine ⟨inside, ?_, ?_⟩
  · rw [next]
    rfl
  · intro number
    rw [next]
    exact (machine.remember machine.nextWord).register_setFirstRegisters _ last number

/-! ### Whole histories -/

omit [Keypad Pad] in
theorem memory_of_load (program : List Byte) (keypad : Pad) (random : RandomSource)
    (start : Machine Pad) (started : load program keypad random = .ok start) :
    start.memory = glyphMemory.overwrite programStart program := by
  unfold load Memory.load at started
  cases checked : checkRange Memory.size programStart program.length with
  | error range =>
      rw [checked] at started
      cases started
  | ok granted =>
      rw [checked] at started
      cases started
      rfl

omit [Keypad Pad] in
theorem load_error_iff (program : List Byte) (keypad : Pad) (random : RandomSource)
    (range : OutOfRange) :
    load program keypad random = .error range ↔
      3584 < program.length ∧ range = ⟨0x200, program.length⟩ := by
  have refused := glyphMemory.load_error_iff programStart program range
  have room : 4096 < programStart + program.length ↔ 3584 < program.length := by
    unfold programStart
    omega
  rw [room] at refused
  rw [← show (⟨programStart, program.length⟩ : OutOfRange) = ⟨0x200, program.length⟩ from rfl,
    ← refused]
  unfold load
  cases glyphMemory.load programStart program with
  | error other => simp [Except.map]
  | ok memory => simp [Except.map]

theorem byteAt_after (program : List Byte) (keypad : Pad) (random : RandomSource)
    (start : Machine Pad) (started : load program keypad random = .ok start)
    (history : List (MachineEvent Pad)) (address : Nat) (inside : address < 4096) :
    (start.after history).memory.byteAt address =
      rememberedByte program (start.executions history) address := by
  refine start.after_induction
    (fun machine executions =>
      machine.memory.byteAt address = rememberedByte program executions address) ?_ ?_ ?_ history
  · rw [memory_of_load program keypad random start started]
    exact byteAt_loaded program address inside
  · intro machine executions event ih idle
    rw [(machine.happen_of_idle event idle).1]
    exact ih
  · intro machine executions instruction ih executed
    rw [machine.byteAt_step_of_executed instruction executed address inside, ih]
    unfold rememberedByte
    rw [List.findSome?_cons]
    cases (⟨machine, instruction⟩ : Execution Pad).storedAt? address <;> rfl

/-- A program is loaded exactly if it fits behind the first five hundred and
twelve bytes. From then on, through failing steps and whatever else happens, an
address holds the byte of the latest store over it or its first byte. The two
stores put decimal digits and registers there, and a load takes into the
registers what is remembered; none of them moves the index. -/
theorem memory_remembers_latest_stores (program : List Byte) (keypad : Pad)
    (random : RandomSource) :
    ((∃ start, load program keypad random = .ok start) ↔ program.length ≤ 3584) ∧
      (∀ range, load program keypad random = .error range ↔
        3584 < program.length ∧ range = ⟨0x200, program.length⟩) ∧
      ∀ start, load program keypad random = .ok start →
        ∀ history : List (MachineEvent Pad),
          let reached := start.after history
          let next := reached.step.machine
          let remembered := rememberedByte program (start.executions history)
          (∀ address, address < 4096 → reached.memory.byteAt address = remembered address) ∧
          (∀ source, reached.executed? = some (.storeDecimal source) →
            next.index = reached.index ∧
            ∃ hundreds tens ones : Byte,
              next.memory.bytesAt reached.index.toNat 3 = [hundreds, tens, ones] ∧
              hundreds ≤ 9 ∧ tens ≤ 9 ∧ ones ≤ 9 ∧
              100 * hundreds.toNat + 10 * tens.toNat + ones.toNat =
                (reached.register source).toNat) ∧
          (∀ last, reached.executed? = some (.storeRegisters last) →
            next.index = reached.index ∧
            ∀ number, number ≤ last →
              next.memory.byteAt (reached.index.toNat + number.val) = reached.register number) ∧
          ∀ last, reached.executed? = some (.loadRegisters last) →
            next =
              { reached with
                lastWord := reached.nextWord
                registers := next.registers
                programCounter := reached.programCounter + 2 } ∧
            ∀ number, next.register number =
              if number ≤ last then remembered (reached.index.toNat + number.val)
              else reached.register number := by
  refine ⟨load_ok_iff program keypad random, load_error_iff program keypad random, ?_⟩
  intro start started history reached next remembered
  have holds := start.byteAt_after program keypad random started history
  refine ⟨holds, reached.step_of_storeDecimal, reached.step_of_storeRegisters, ?_⟩
  intro last executed
  obtain ⟨inside, same, loaded⟩ := reached.step_of_loadRegisters last executed
  refine ⟨same, ?_⟩
  intro number
  rw [loaded number]
  by_cases within : number ≤ last
  · have below : number.val ≤ last.val := within
    rw [if_pos within, if_pos within]
    exact holds _ (by omega)
  · rw [if_neg within, if_neg within]

/-- Decimal digits go over the first glyph and are loaded from there again. -/
theorem digits_replace_glyph_lines :
    ∃ start : Machine Keyboard,
      load [0x60, 0xFE, 0xF0, 0x33, 0xF2, 0x65] Keyboard.idle (.repeating #[]) = .ok start ∧
      let reached := start.after [.step, .step]
      reached.memory.byteAt 1 = 5 ∧ reached.memory.byteAt 3 = 0x90 ∧
        reached.step.machine.register 2 = 4 := by
  obtain ⟨loads, _refused, holds⟩ := memory_remembers_latest_stores
    [0x60, 0xFE, 0xF0, 0x33, 0xF2, 0x65] Keyboard.idle (.repeating #[])
  obtain ⟨start, started⟩ := loads.mpr (by decide)
  have evaluated : (load [0x60, 0xFE, 0xF0, 0x33, 0xF2, 0x65] Keyboard.idle
      (.repeating #[])).toOption.map (fun start =>
        let reached := start.after [.step, .step]
        let remembered := rememberedByte [0x60, 0xFE, 0xF0, 0x33, 0xF2, 0x65]
          (start.executions [.step, .step])
        (remembered 1, remembered 3, remembered 2, reached.executed?, reached.index)) =
      some (5, 0x90, 4, some (.loadRegisters 2), 0) := by
    decide +kernel
  rw [started] at evaluated
  simp only [Except.toOption, Option.map_some, Option.some.injEq, Prod.mk.injEq] at evaluated
  obtain ⟨second, fourth, third, loading, index⟩ := evaluated
  obtain ⟨bytes, _digits, _registers, loaded⟩ := holds start started [.step, .step]
  refine ⟨start, started, (bytes 1 (by decide)).trans second, (bytes 3 (by decide)).trans fourth, ?_⟩
  rw [(loaded 2 loading).2 2, if_pos (by decide), index]
  exact third

end Machine

end Chip8
