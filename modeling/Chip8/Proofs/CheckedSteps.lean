import Chip8.Proofs.CheckedAccess
import Chip8.Proofs.ControlState

set_option autoImplicit false

/-! The checked machine does what the typed one does: on the plain view of a typed
state no access and no sum goes wrong, and the outcome is the plain view of what
the typed step makes of it. The only thing asked of the state is that the program
counter is not within reach of the end of its range. -/

namespace Chip8

namespace Machine

variable {Pad : Type}

theorem plain_register (machine : Machine Pad) (number : Register) :
    machine.plain.register number.val = .ok (machine.register number) := by
  apply Checked.get_of_getElem?
  simp [plain, register]

theorem plain_setRegister (machine : Machine Pad) (number : Register) (value : Byte) :
    machine.plain.setRegister number.val value = .ok (machine.setRegister number value).plain := by
  have bound : number.val < machine.plain.registers.length := by
    simp only [plain, Vector.length_toList, number.isLt]
  have written : machine.plain.registers.set number.val value =
      (machine.setRegister number value).plain.registers := by
    simp only [plain, setRegister, Vector.toList_set]
  unfold CheckedMachine.setRegister
  rw [Checked.set_of_lt _ _ _ bound, Checked.ok_bind, written]
  rfl

theorem plain_setRegister_flag (machine : Machine Pad) (value : Byte) :
    machine.plain.setRegister 15 value = .ok (machine.setRegister flagRegister value).plain :=
  machine.plain_setRegister flagRegister value

theorem plain_assign (machine : Machine Pad) (target : Register) (value : Byte) :
    machine.plain.assign target.val value =
      .ok (Effect.next (machine.setRegister target value)).plain := by
  unfold CheckedMachine.assign
  rw [plain_setRegister, Checked.ok_bind]
  rfl

theorem plain_assignResult (machine : Machine Pad) (target : Register) (result flag : Byte) :
    machine.plain.assignResult target.val result flag =
      .ok (Effect.next (machine.setResult target result flag)).plain := by
  unfold CheckedMachine.assignResult
  rw [plain_setRegister, Checked.ok_bind, plain_setRegister_flag, Checked.ok_bind]
  rfl

/-! ### Ranges of the memory -/

theorem plain_memory (machine : Machine Pad) :
    machine.plain.memory = machine.memory.plain := rfl

theorem plain_index (machine : Machine Pad) : machine.plain.index = machine.index := rfl

theorem plain_programCounter (machine : Machine Pad) :
    machine.plain.programCounter = machine.programCounter := rfl

theorem plain_slice (machine : Machine Pad) (length : Nat) :
    machine.plain.slice length = .ok (machine.memory.slice machine.index.toNat length) := by
  unfold CheckedMachine.slice
  simp only [plain_memory, plain_index, Memory.length_plain]
  by_cases inside : machine.index.toNat + length ≤ 4096
  · have granted := (machine.memory.slice_ok_iff machine.index.toNat length _).mpr ⟨inside, rfl⟩
    have inList : machine.index.toNat + length ≤ machine.memory.plain.length := by
      rw [Memory.length_plain]
      exact inside
    rw [if_pos inside, granted, Checked.placeSum_of_lt _ _ (by omega), Checked.ok_bind,
      Checked.range_of_le _ _ _ inList, Memory.range_plain _ _ _ inside]
    rfl
  · have refused := (machine.memory.slice_error_iff machine.index.toNat length _).mpr
      ⟨Nat.lt_of_not_le inside, rfl⟩
    rw [if_neg inside, refused]
    rfl

theorem plain_store (machine : Machine Pad) (content : List Byte) :
    machine.plain.store content.length (.ok content) = .ok (machine.store content).plain := by
  unfold CheckedMachine.store store
  rw [plain_memory, plain_index, Memory.replace_plain, Checked.ok_bind]
  cases machine.memory.load machine.index.toNat content with
  | error range => rfl
  | ok memory => rfl

theorem plain_onRange (machine : Machine Pad) (length : Nat)
    (plainEffect : List Byte → Checked (CheckedEffect Pad)) (effect : List Byte → Effect Pad)
    (agrees : ∀ content, content.length = length →
      plainEffect content = .ok (effect content).plain) :
    machine.plain.onRange length plainEffect =
      .ok (Effect.onRange machine (machine.memory.slice machine.index.toNat length) effect).plain := by
  unfold CheckedMachine.onRange
  rw [plain_slice, Checked.ok_bind]
  cases asked : machine.memory.slice machine.index.toNat length with
  | error range => rfl
  | ok content =>
      obtain ⟨_inside, found⟩ := (machine.memory.slice_ok_iff _ _ _).mp asked
      exact agrees content (by rw [found, Memory.length_bytesAt])

theorem plain_drawSprite (machine : Machine Pad) (column row : Register) (sprite : List Byte)
    (low : sprite.length < 16) :
    machine.plain.drawSprite column.val row.val sprite =
      .ok (machine.drawSprite column row sprite).plain := by
  have columnBound := (machine.register column).toNat_lt
  have rowBound := (machine.register row).toNat_lt
  have drawn : (Drawing.start machine.raster).plain.flipRows (machine.register column).toNat
      (machine.register row).toNat 0 sprite =
        .ok (machine.raster.blit (machine.register column).toNat
          (machine.register row).toNat sprite).plain :=
    Drawing.plain_flipRows (.start machine.raster) _ _ 0 sprite (by omega) (by omega)
  have shown (drawing : Drawing) :
      { machine.plain with rows := drawing.plain.rows } =
        Machine.plain { machine with raster := drawing.raster } := rfl
  have start : (⟨machine.plain.rows, false⟩ : CheckedDrawing) =
      (Drawing.start machine.raster).plain := rfl
  unfold CheckedMachine.drawSprite
  simp only [plain_register, Checked.ok_bind, start, drawn, shown, plain_setRegister_flag]
  rfl

theorem toList_setFirstRegisters (machine : Machine Pad) (values : List Byte)
    (fits : values.length ≤ 16) :
    (machine.setFirstRegisters values).registers.toList =
      values ++ machine.registers.toList.drop values.length := by
  apply List.ext_getElem
  · simp only [Vector.length_toList, List.length_append, List.length_drop]
    omega
  · intro place inside _insideValues
    rw [Vector.length_toList] at inside
    by_cases given : place < values.length
    · simp [setFirstRegisters, given]
    · have kept : values.length + (place - values.length) = place := by omega
      rw [List.getElem_append_right (Nat.le_of_not_lt given)]
      simp [setFirstRegisters, register, given, kept]

theorem plain_setFirstRegisters (machine : Machine Pad) (values : List Byte)
    (fits : values.length ≤ 16) :
    machine.plain.setFirstRegisters values.length values =
      .ok (Effect.next (machine.setFirstRegisters values)).plain := by
  have inside : 0 + values.length ≤ machine.registers.toList.length := by
    rw [Vector.length_toList]
    omega
  have copied := Checked.copy_of_le machine.registers.toList 0 values inside
  rw [Nat.zero_add, List.take_zero, List.nil_append,
    ← machine.toList_setFirstRegisters values fits] at copied
  have registers : machine.plain.registers = machine.registers.toList := rfl
  unfold CheckedMachine.setFirstRegisters
  rw [registers, copied, Checked.ok_bind]
  simp only [CheckedMachine.next, Effect.next, Effect.plain, plain, setFirstRegisters]

theorem plain_load (machine : Machine Pad) (last : Register) :
    machine.plain.load last.val = .ok (machine.executeLoad last).plain := by
  have bound := last.isLt
  unfold CheckedMachine.load executeLoad
  rw [Checked.placeSum_of_lt _ _ (by omega), Checked.ok_bind]
  apply plain_onRange
  intro values counted
  rw [← counted]
  exact machine.plain_setFirstRegisters values (by omega)

theorem plain_storeRegisters (machine : Machine Pad) (last : Register) :
    (Checked.placeSum last.val 1 >>= fun count =>
      machine.plain.store count (Checked.range machine.plain.registers 0 count)) =
        .ok (machine.store (machine.firstRegisters last)).plain := by
  have bound := last.isLt
  have inside : 0 + (last.val + 1) ≤ machine.registers.toList.length := by
    rw [Vector.length_toList]
    omega
  have ranged := Checked.range_of_le machine.registers.toList 0 (last.val + 1) inside
  rw [Nat.zero_add, List.drop_zero] at ranged
  have stored := machine.plain_store (machine.firstRegisters last)
  rw [length_firstRegisters] at stored
  have registers : machine.plain.registers = machine.registers.toList := rfl
  rw [Checked.placeSum_of_lt _ _ (by omega), Checked.ok_bind, registers, ranged]
  exact stored

/-! ### Instructions -/

theorem clear_pixelRows (raster : Raster) :
    raster.pixelRows.map (fun pixels => pixels.map (fun _ => false)) = Raster.blank.pixelRows := by
  simp [Raster.pixelRows, Raster.rowPixels, Raster.pixel, Raster.isOn_blank]

theorem toWord_add_byte (base : Address) (offset : Byte) :
    UInt16.ofNat (base.val + offset.toNat) = Address.toWord base + offset.toUInt16 := by
  apply UInt16.toNat_inj.mp
  simp [Address.toWord]

theorem plain_call (machine : Machine Pad) (target : Address)
    (bounded : machine.programCounter.toNat + 4 < 0x10000) :
    machine.plain.call target = .ok (machine.executeCall target).plain := by
  have returned : UInt16.ofNat (machine.programCounter.toNat + 2) =
      ProgramMove.next.apply machine.programCounter := by
    rw [UInt16.ofNat_add, UInt16.ofNat_toNat]
    rfl
  unfold CheckedMachine.call executeCall CallStack.push?
  rw [plain_programCounter, Checked.wordSum_of_lt _ _ (by omega), Checked.ok_bind, returned]
  have stack : machine.plain.stack = machine.stack.returns := rfl
  rw [stack]
  by_cases room : machine.stack.returns.length < 16
  · rw [if_pos room, dif_pos room]
    rfl
  · rw [if_neg room, dif_neg room]
    rfl

theorem plain_returnFromCall (machine : Machine Pad) :
    machine.plain.returnFromCall = .ok machine.executeReturn.plain := by
  have stack : machine.plain.stack = machine.stack.returns := rfl
  unfold CheckedMachine.returnFromCall executeReturn CallStack.pop?
  rw [stack]
  cases held : machine.stack with
  | mk returns room =>
      cases returns with
      | nil => rfl
      | cons target earlier => rfl

theorem plain_move (machine : Machine Pad) (move : ProgramMove)
    (bounded : machine.programCounter.toNat + 4 < 0x10000) :
    machine.plain.move move = .ok (machine.advance move).plain := by
  have summed (distance : Nat) : UInt16.ofNat (machine.programCounter.toNat + distance) =
      machine.programCounter + UInt16.ofNat distance := by
    rw [UInt16.ofNat_add, UInt16.ofNat_toNat]
  cases move with
  | stay => rfl
  | jump target => rfl
  | next =>
      unfold CheckedMachine.move
      simp only [plain_programCounter]
      rw [Checked.wordSum_of_lt _ _ (by omega), Checked.ok_bind, summed]
      rfl
  | skip =>
      unfold CheckedMachine.move
      simp only [plain_programCounter]
      rw [Checked.wordSum_of_lt _ _ (by omega), Checked.ok_bind, summed]
      rfl

theorem plain_resume (machine : Machine Pad) (target : Register) (key : Byte)
    (bounded : machine.programCounter.toNat + 4 < 0x10000) :
    machine.plain.resume target.val key = .ok (machine.resume target key).plain := by
  unfold CheckedMachine.resume
  rw [plain_setRegister, Checked.ok_bind]
  exact plain_move { machine.setRegister target key with clock := .running } .next bounded

theorem plain_fetch (machine : Machine Pad) :
    machine.plain.fetch = .ok (machine.memory.fetch machine.programCounter.toNat) := by
  unfold CheckedMachine.fetch
  simp only [plain_memory, plain_programCounter, Memory.length_plain]
  rw [Memory.fetch_eq]
  by_cases inside : machine.programCounter.toNat + 2 ≤ 4096
  · have high := machine.memory.getElem?_plain machine.programCounter.toNat
    have low := machine.memory.getElem?_plain (machine.programCounter.toNat + 1)
    rw [if_pos (by omega)] at high low
    rw [if_pos (by omega), if_pos inside, Checked.get_of_getElem? _ _ _ high, Checked.ok_bind,
      Checked.get_of_getElem? _ _ _ low]
    rfl
  · rw [if_neg (by omega), if_neg inside]
    rfl

variable [Keypad Pad]

theorem plain_keySkip (machine : Machine Pad) (tested : Register) (wanted : Bool) :
    machine.plain.keySkip tested.val wanted =
      .ok (machine.executeKeySkip tested wanted).plain := by
  unfold CheckedMachine.keySkip executeKeySkip
  rw [plain_register, Checked.ok_bind]
  rfl

theorem plain_execute (machine : Machine Pad) (instruction : Instruction)
    (bounded : machine.programCounter.toNat + 4 < 0x10000) :
    machine.plain.execute instruction = .ok (machine.execute instruction).plain := by
  cases instruction
  case clearScreen =>
    have rows : machine.plain.rows = machine.raster.pixelRows := rfl
    simp only [CheckedMachine.execute, rows, clear_pixelRows]
    rfl
  case returnFromCall => exact machine.plain_returnFromCall
  case call target => exact machine.plain_call target bounded
  case jumpOffset base =>
    have baseBound := base.isLt
    have offsetBound := (machine.register 0).toNat_lt
    have offset : machine.plain.register 0 = .ok (machine.register 0) := machine.plain_register 0
    simp only [CheckedMachine.execute, offset, Checked.ok_bind]
    rw [Checked.wordSum_of_lt _ _ (by omega), Checked.ok_bind, toWord_add_byte]
    rfl
  case random target mask =>
    exact plain_assign { machine with random := machine.random.advance } target _
  case draw column row height =>
    have bound := height.isLt
    exact machine.plain_onRange height.val _ _
      (fun sprite counted => machine.plain_drawSprite column row sprite (by omega))
  case pointAtGlyph source =>
    have digit : (machine.register source).toNat % 16 < 16 := Nat.mod_lt _ (by decide)
    have fits : 0 + glyphSize * ((machine.register source).toNat % 16) < 0x10000000000000000 := by
      unfold glyphSize
      omega
    simp only [CheckedMachine.execute, plain_register, Checked.ok_bind]
    rw [Checked.placeSum_of_lt _ _ fits, Checked.ok_bind, Nat.zero_add]
    rfl
  case storeDecimal source =>
    simp only [CheckedMachine.execute, plain_register, Checked.ok_bind]
    exact machine.plain_store (decimalDigits (machine.register source))
  case storeRegisters last => exact machine.plain_storeRegisters last
  case loadRegisters last => exact machine.plain_load last
  -- The others read and write registers and move nothing by a sum.
  all_goals
    simp only [CheckedMachine.execute, execute, plain_register, Checked.ok_bind, plain_assign,
      plain_assignResult, plain_keySkip]
  all_goals rfl

/-! ### Steps -/

theorem plain_perform (machine : Machine Pad) (word : Word) (instruction : Instruction)
    (bounded : machine.programCounter.toNat + 4 < 0x10000) :
    machine.plain.perform word instruction = .ok (machine.perform word instruction).plain := by
  unfold CheckedMachine.perform
  rw [machine.plain_execute instruction bounded, Checked.ok_bind]
  cases executed : (machine.execute instruction).outcome with
  | error cause =>
      rw [machine.perform_of_failed word instruction cause executed]
      simp only [Effect.plain, executed]
      rfl
  | ok progress =>
      have bound : (machine.execute instruction).machine.programCounter.toNat + 4 < 0x10000 := by
        rw [execute_programCounter]
        exact bounded
      rw [machine.perform_of_executed word instruction progress executed]
      simp only [Effect.plain, executed]
      rw [plain_move _ progress.move bound, Checked.ok_bind]
      rfl

theorem plain_performWord (machine : Machine Pad) (word : Word)
    (bounded : machine.programCounter.toNat + 4 < 0x10000) :
    machine.plain.performWord word = .ok (machine.performWord word).plain := by
  unfold CheckedMachine.performWord
  cases decoded : Instruction.decode word with
  | none =>
      rw [machine.performWord_of_undecoded word decoded]
      rfl
  | some instruction =>
      rw [machine.performWord_of_decoded word instruction decoded]
      exact (machine.remember word).plain_perform word instruction bounded

theorem plain_pollKey (machine : Machine Pad) (target : Register)
    (bounded : machine.programCounter.toNat + 4 < 0x10000) :
    machine.plain.pollKey target.val = .ok (machine.pollKey target).plain := by
  have keypad : machine.plain.keypad = machine.keypad := rfl
  have polled : { machine.plain with keypad := (Keypad.takePress machine.keypad).2 } =
      Machine.plain { machine with keypad := (Keypad.takePress machine.keypad).2 } := rfl
  unfold CheckedMachine.pollKey
  simp only [keypad, polled]
  cases answered : (Keypad.takePress machine.keypad).1 with
  | none =>
      rw [machine.pollKey_of_unpressed target answered]
      rfl
  | some key =>
      have resumed := plain_resume { machine with keypad := (Keypad.takePress machine.keypad).2 }
        target key bounded
      rw [machine.pollKey_of_pressed target key answered]
      simp only [resumed, Checked.ok_bind]
      rfl

/-- No access and no sum of a step goes wrong, and the step is the typed one. -/
theorem plain_step (machine : Machine Pad)
    (bounded : machine.programCounter.toNat + 4 < 0x10000) :
    machine.plain.step = .ok machine.step.plain := by
  have awaiting : machine.plain.awaiting = machine.clock.awaiting := rfl
  unfold CheckedMachine.step
  rw [awaiting]
  cases clock : machine.clock with
  | awaitingKey target =>
      rw [machine.step_of_awaiting target clock]
      exact machine.plain_pollKey target bounded
  | running =>
      simp only [Clock.awaiting]
      rw [plain_fetch, Checked.ok_bind]
      cases fetched : machine.memory.fetch machine.programCounter.toNat with
      | error range =>
          rw [machine.step_of_refused range clock fetched]
          rfl
      | ok word =>
          rw [machine.step_of_fetched word clock fetched]
          exact machine.plain_performWord word bounded

/-! ### Starts and events -/

omit [Keypad Pad] in
theorem plain_start (program : List Byte) (keypad : Pad) (random : RandomSource) :
    CheckedMachine.start program keypad random =
      .ok ((load program keypad random).map plain) := by
  have glyphsFit : Memory.blank.load 0 glyphs = .ok glyphMemory := by
    unfold Memory.load checkRange
    rw [if_pos (by decide)]
    rfl
  unfold CheckedMachine.start
  rw [← Memory.plain_blank, Memory.replace_plain, Checked.ok_bind, glyphsFit]
  simp only [Except.map]
  rw [Memory.replace_plain, Checked.ok_bind, ← Raster.pixelRows_blank]
  unfold load
  cases glyphMemory.load programStart program with
  | error range => rfl
  | ok memory => rfl

theorem plain_happen (machine : Machine Pad) (event : MachineEvent Pad)
    (bounded : machine.programCounter.toNat + 4 < 0x10000) :
    machine.plain.happen event = .ok (machine.happen event).plain := by
  cases event with
  | step =>
      unfold CheckedMachine.happen
      simp only [machine.plain_step bounded, Checked.ok_bind]
      rfl
  | tickDelay => rfl
  | tickSound => rfl
  | keypad change => rfl

end Machine

end Chip8
