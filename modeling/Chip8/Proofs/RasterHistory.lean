import Chip8.Proofs.Executions
import Chip8.Proofs.SpriteBits

set_option autoImplicit false

/-! The raster as a function of what was executed: a pixel is on if the sprites
drawn since the screen was cleared put an odd number of bits on it. Places and
bits are those of the machine before the drawing, so it does not matter that the
flag register may name a place. -/

namespace Chip8

namespace Execution

variable {Pad : Type}

def bitsDrawn (execution : Execution Pad) (cell : Cell) : Nat :=
  match execution.instruction with
  | .draw column row height =>
      bitsOn (execution.machine.register column).toNat (execution.machine.register row).toNat
        height.val
        (fun line => execution.machine.memory.byteAt (execution.machine.index.toNat + line)) cell
  | _ => 0

end Execution

/-- The number of bits that were drawn on a cell since the screen was cleared last.
The executions are given latest first. -/
def bitsDrawnSinceClear {Pad : Type} (executions : List (Execution Pad)) (cell : Cell) : Nat :=
  ((executions.takeWhile (fun execution => execution.instruction ≠ .clearScreen)).map
    (fun execution => execution.bitsDrawn cell)).sum

theorem bitsDrawnSinceClear_cons {Pad : Type} (latest : Execution Pad)
    (earlier : List (Execution Pad)) (cell : Cell) :
    bitsDrawnSinceClear (latest :: earlier) cell =
      if latest.instruction = .clearScreen then 0
      else latest.bitsDrawn cell + bitsDrawnSinceClear earlier cell := by
  unfold bitsDrawnSinceClear
  by_cases cleared : latest.instruction = .clearScreen
  · simp [cleared]
  · simp [cleared]

theorem xor_decide_odd (earlier latest : Nat) :
    (decide (earlier % 2 = 1) ^^ decide (latest % 2 = 1)) =
      decide ((latest + earlier) % 2 = 1) := by
  rcases Nat.mod_two_eq_zero_or_one earlier with even | odd <;>
    rcases Nat.mod_two_eq_zero_or_one latest with evenToo | oddToo <;>
      simp [Nat.add_mod, *]

theorem bitsOn_bytesAt (memory : Memory) (address column row height : Nat) (cell : Cell) :
    bitsOn column row (memory.bytesAt address height).length
        (fun line => (memory.bytesAt address height).getD line 0) cell =
      bitsOn column row height (fun line => memory.byteAt (address + line)) cell := by
  rw [Memory.length_bytesAt]
  apply bitsOn_congr
  intro line below
  simp [Memory.bytesAt, below]

namespace Machine

variable {Pad : Type}

theorem executeDraw_of_ok (machine : Machine Pad) (column row : Register) (height : Nibble)
    (progress : Progress)
    (drawn : (machine.executeDraw column row height).outcome = .ok progress) :
    let drawing := machine.raster.blit (machine.register column).toNat
      (machine.register row).toNat (machine.memory.bytesAt machine.index.toNat height.val)
    (machine.executeDraw column row height).machine =
      { machine with raster := drawing.raster }.setRegister flagRegister
        (flagByte drawing.collision) := by
  unfold executeDraw at drawn ⊢
  cases sliced : machine.memory.slice machine.index.toNat height.val with
  | error range =>
      rw [sliced] at drawn
      cases drawn
  | ok sprite =>
      rw [((machine.memory.slice_ok_iff _ _ _).mp sliced).2]
      rfl

variable [Keypad Pad]

theorem step_of_draw (machine : Machine Pad) (column row : Register) (height : Nibble)
    (executed : machine.executed? = some (.draw column row height)) :
    let drawing := machine.raster.blit (machine.register column).toNat
      (machine.register row).toNat (machine.memory.bytesAt machine.index.toNat height.val)
    machine.step.machine.raster = drawing.raster ∧
      machine.step.machine.register flagRegister = flagByte drawing.collision := by
  intro drawing
  obtain ⟨progress, effect, _outcome, next⟩ := machine.step_of_executed _ executed
  have drawn := executeDraw_of_ok _ column row height progress effect
  change machine.step.machine = ((machine.remember machine.nextWord).executeDraw column row
    height).machine.advance progress.move at next
  rw [next, drawn]
  refine ⟨rfl, ?_⟩
  change (setRegister _ flagRegister _).register flagRegister = _
  rw [register_setRegister, if_pos rfl]
  rfl

theorem isOn_step_of_executed (machine : Machine Pad) (instruction : Instruction)
    (executed : machine.executed? = some instruction) (cell : Cell) :
    machine.step.machine.raster.isOn cell =
      if instruction = .clearScreen then false
      else (machine.raster.isOn cell ^^
        decide ((⟨machine, instruction⟩ : Execution Pad).bitsDrawn cell % 2 = 1)) := by
  cases other : instruction.changesRaster with
  | false =>
      obtain ⟨progress, _effect, _outcome, next⟩ := machine.step_of_executed instruction executed
      have kept := ((machine.remember machine.nextWord).execute_keptBy instruction).raster other
      have nothing : (⟨machine, instruction⟩ : Execution Pad).bitsDrawn cell = 0 := by
        cases instruction
        case draw column row height => cases other
        all_goals rfl
      have different : instruction ≠ .clearScreen := by
        intro same
        rw [same] at other
        cases other
      rw [next, if_neg different, nothing]
      change ((machine.remember machine.nextWord).execute instruction).machine.raster.isOn cell = _
      rw [kept]
      exact (Bool.xor_false _).symm
  | true =>
      cases instruction
      case clearScreen =>
        obtain ⟨progress, _effect, _outcome, next⟩ := machine.step_of_executed _ executed
        rw [next, if_pos rfl]
        exact Raster.isOn_blank cell
      case draw column row height =>
        have drawn := (machine.step_of_draw column row height executed).1
        rw [drawn, Raster.isOn_blit, bitsOn_bytesAt, if_neg (by simp)]
        rfl
      all_goals cases other

/-- A sprite has fifteen lines at most, so it puts no two bits on one pixel, and
the flag tells whether one of its bits lies on a pixel that was on before. -/
theorem flag_of_draw (machine : Machine Pad) (column row : Register) (height : Nibble)
    (executed : machine.executed? = some (.draw column row height)) :
    let drawn : Execution Pad := ⟨machine, .draw column row height⟩
    let hit := ∃ cell, 0 < drawn.bitsDrawn cell ∧ machine.raster.isOn cell = true
    (hit → machine.step.machine.register flagRegister = 1) ∧
      (¬ hit → machine.step.machine.register flagRegister = 0) := by
  intro drawn hit
  have low : (machine.memory.bytesAt machine.index.toNat height.val).length ≤ 32 := by
    have bound := height.isLt
    rw [Memory.length_bytesAt]
    omega
  have collides := machine.raster.collision_blit_iff_of_low (machine.register column).toNat
    (machine.register row).toNat _ low
  simp only [bitsOn_bytesAt] at collides
  rw [(machine.step_of_draw column row height executed).2]
  constructor
  · intro on
    rw [collides.mpr on]
    rfl
  · intro off
    rw [Bool.eq_false_iff.mpr (mt collides.mp off)]
    rfl

theorem isOn_after (program : List Byte) (keypad : Pad) (random : RandomSource)
    (start : Machine Pad) (started : load program keypad random = .ok start)
    (history : List (MachineEvent Pad)) (cell : Cell) :
    (start.after history).raster.isOn cell =
      decide (bitsDrawnSinceClear (start.executions history) cell % 2 = 1) := by
  refine start.after_induction
    (fun machine executions => machine.raster.isOn cell =
      decide (bitsDrawnSinceClear executions cell % 2 = 1)) ?_ ?_ ?_ history
  · rw [raster_of_load program keypad random start started, Raster.isOn_blank]
    rfl
  · intro machine executions event ih idle
    rw [(machine.happen_of_idle event idle).2.1]
    exact ih
  · intro machine executions instruction ih executed
    rw [machine.isOn_step_of_executed instruction executed, ih, bitsDrawnSinceClear_cons]
    by_cases cleared : instruction = .clearScreen
    · rw [if_pos cleared, if_pos cleared]
      rfl
    · rw [if_neg cleared, if_neg cleared]
      exact xor_decide_odd _ _

/-- Whatever the program does, also to itself, a pixel is on exactly if an odd
number of bits was drawn on it since the screen was cleared last, and a drawing
sets the flag register to whether one of its bits met a pixel that was on. -/
theorem pixels_are_parities_of_bits_drawn (program : List Byte) (keypad : Pad)
    (random : RandomSource) (start : Machine Pad)
    (started : load program keypad random = .ok start) (history : List (MachineEvent Pad)) :
    let reached := start.after history
    (∀ (column : Fin 64) (row : Fin 32), reached.raster.isOn ⟨column, row⟩ = true ↔
        bitsDrawnSinceClear (start.executions history) ⟨column, row⟩ % 2 = 1) ∧
      ∀ column row height, reached.executed? = some (.draw column row height) →
        let drawn : Execution Pad := ⟨reached, .draw column row height⟩
        let hit := ∃ cell, 0 < drawn.bitsDrawn cell ∧ reached.raster.isOn cell = true
        (hit → reached.step.machine.register flagRegister = 1) ∧
          (¬ hit → reached.step.machine.register flagRegister = 0) := by
  intro reached
  refine ⟨?_, reached.flag_of_draw⟩
  intro column row
  rw [start.isOn_after program keypad random started history, decide_eq_true_iff]

/-- The column is named by the flag register, which the first drawing sets to
zero, so the second one begins elsewhere and meets what the first one drew. -/
theorem second_drawing_meets_first :
    ∃ start : Machine Keyboard,
      load [0x6F, 0x3E, 0xDF, 0x01, 0xDF, 0x01] Keyboard.idle (.repeating #[]) = .ok start ∧
      let reached := start.after [.step, .step]
      reached.raster.isOn ⟨1, 0⟩ = true ∧ reached.raster.isOn ⟨2, 0⟩ = false ∧
        reached.step.machine.register flagRegister = 1 := by
  obtain ⟨start, started⟩ := (load_ok_iff [0x6F, 0x3E, 0xDF, 0x01, 0xDF, 0x01] Keyboard.idle
    (.repeating #[])).mpr (by decide)
  have evaluated : (load [0x6F, 0x3E, 0xDF, 0x01, 0xDF, 0x01] Keyboard.idle
      (.repeating #[])).toOption.map (fun start =>
        let reached := start.after [.step, .step]
        let drawn : Cell → Nat := bitsDrawnSinceClear (start.executions [.step, .step])
        (drawn ⟨1, 0⟩, drawn ⟨2, 0⟩, reached.executed?,
          (⟨reached, .draw 15 0 1⟩ : Execution Keyboard).bitsDrawn ⟨1, 0⟩)) =
      some (1, 0, some (.draw 15 0 1), 1) := by
    decide +kernel
  rw [started] at evaluated
  simp only [Except.toOption, Option.map_some, Option.some.injEq, Prod.mk.injEq] at evaluated
  obtain ⟨once, never, drawing, meets⟩ := evaluated
  obtain ⟨pixels, flag⟩ := pixels_are_parities_of_bits_drawn _ _ _ start started [.step, .step]
  have on := (pixels 1 0).mpr (by rw [once])
  refine ⟨start, started, on, ?_, (flag 15 0 1 drawing).1 ⟨⟨1, 0⟩, ?_, on⟩⟩
  · rw [Bool.eq_false_iff, ne_eq, pixels 2 0, never]
    decide
  · rw [meets]
    exact Nat.one_pos

end Machine

end Chip8
