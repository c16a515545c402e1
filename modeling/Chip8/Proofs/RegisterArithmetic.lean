import Chip8.Proofs.DueFaults
import Mathlib.Data.Nat.Bitwise

set_option autoImplicit false

/-! Arithmetic on registers. What an operation makes of the values of its registers
is said in numbers: the result and the flag together carry the sum, the difference
or the shifted bits without loss. The operands are read before anything is written,
and the flag is written after the result, so the numbers are right also if the flag
register is an operand, and the flag stays if the result goes to the flag register
too. -/

namespace Chip8

inductive FlaggedOperation where
  | add
  | subtract
  | shiftRight
  | subtractFrom
  | shiftLeft
  deriving DecidableEq, Repr

namespace FlaggedOperation

def digit : FlaggedOperation → Nat
  | add => 0x4
  | subtract => 0x5
  | shiftRight => 0x6
  | subtractFrom => 0x7
  | shiftLeft => 0xE

def instruction (target source : Register) : FlaggedOperation → Instruction
  | add => .add target source
  | subtract => .subtract target source
  | shiftRight => .shiftRight target source
  | subtractFrom => .subtractFrom target source
  | shiftLeft => .shiftLeft target source

/-- What the values of the two registers have to do with the result and the flag. -/
def Yields (left right result flag : Nat) : FlaggedOperation → Prop
  | add => 256 * flag + result = left + right ∧ flag ≤ 1
  | subtract =>
      (result : Int) = ((left : Int) - right) % 256 ∧ flag = if right < left then 1 else 0
  | shiftRight => 2 * result + flag = left ∧ flag ≤ 1
  | subtractFrom =>
      (result : Int) = ((right : Int) - left) % 256 ∧ flag = if left < right then 1 else 0
  | shiftLeft => result + 2 * flag = 2 * left ∧ (flag = 0 ∨ flag = 0x80)

theorem decode_word (operation : FlaggedOperation) (target source : Register) :
    Instruction.decode (Instruction.pairWord 0x8 target source operation.digit) =
      some (operation.instruction target source) := by
  have written := Instruction.decode_encode (operation.instruction target source)
    (fun _address impossible => by cases operation <;> cases impossible)
  cases operation <;> exact written

end FlaggedOperation

inductive PlainOperation where
  | copy
  | bitOr
  | bitAnd
  | bitXor
  deriving DecidableEq, Repr

namespace PlainOperation

def digit : PlainOperation → Nat
  | copy => 0x0
  | bitOr => 0x1
  | bitAnd => 0x2
  | bitXor => 0x3

def instruction (target source : Register) : PlainOperation → Instruction
  | copy => .copy target source
  | bitOr => .bitOr target source
  | bitAnd => .bitAnd target source
  | bitXor => .bitXor target source

def result (left right : Nat) : PlainOperation → Nat
  | copy => right
  | bitOr => left ||| right
  | bitAnd => left &&& right
  | bitXor => left ^^^ right

theorem decode_word (operation : PlainOperation) (target source : Register) :
    Instruction.decode (Instruction.pairWord 0x8 target source operation.digit) =
      some (operation.instruction target source) := by
  have written := Instruction.decode_encode (operation.instruction target source)
    (fun _address impossible => by cases operation <;> cases impossible)
  cases operation <;> exact written

end PlainOperation

/-! ### Bytes as numbers -/

theorem toNat_flagByte (condition : Bool) :
    (flagByte condition).toNat = if condition then 1 else 0 := by
  cases condition <;> rfl

theorem carry_add (left right : Byte) :
    256 * (flagByte (256 ≤ left.toNat + right.toNat)).toNat + (left + right).toNat =
      left.toNat + right.toNat := by
  have leftBound := left.toNat_lt
  have rightBound := right.toNat_lt
  rw [toNat_flagByte, UInt8.toNat_add]
  by_cases carries : 256 ≤ left.toNat + right.toNat
  · simp only [carries, decide_true, if_true]
    omega
  · simp only [carries, decide_false, Bool.false_eq_true, if_false]
    omega

theorem toNat_sub_eq_emod (left right : Byte) :
    ((left - right).toNat : Int) = ((left.toNat : Int) - right.toNat) % 256 := by
  have leftBound := left.toNat_lt
  have rightBound := right.toNat_lt
  rw [UInt8.toNat_sub]
  omega

theorem toNat_flagByte_lt (left right : Byte) :
    (flagByte (right < left)).toNat = if right.toNat < left.toNat then 1 else 0 := by
  rw [toNat_flagByte]
  simp only [decide_eq_true_eq, UInt8.lt_iff_toNat_lt]

theorem toNat_lowestBit (value : Byte) : (value &&& 0x01).toNat = value.toNat % 2 := by
  rw [UInt8.toNat_and]
  exact Nat.and_one_is_mod value.toNat

theorem toNat_highestBit (value : Byte) :
    (value &&& 0x80).toNat = 0x80 * (value.toNat / 0x80) := by
  have bound := value.toNat_lt
  rw [UInt8.toNat_and]
  change value.toNat &&& 2 ^ 7 = _
  rw [Nat.and_two_pow, Nat.testBit_eq_decide_div_mod_eq]
  by_cases high : value.toNat / 2 ^ 7 % 2 = 1
  · simp only [high, decide_true, Bool.toNat_true]
    omega
  · simp only [high, decide_false, Bool.toNat_false]
    omega

theorem toNat_half (value : Byte) : (value >>> 1).toNat = value.toNat / 2 := by
  rw [UInt8.toNat_shiftRight]
  exact Nat.shiftRight_one value.toNat

theorem toNat_double (value : Byte) : (value <<< 1).toNat = 2 * value.toNat % 256 := by
  rw [UInt8.toNat_shiftLeft]
  change value.toNat <<< 1 % 256 = _
  rw [Nat.shiftLeft_eq, Nat.mul_comm]

namespace Machine

variable {Pad : Type} [Keypad Pad]

/-! ### What the operations write -/

theorem execute_flagged (machine : Machine Pad) (operation : FlaggedOperation)
    (target source : Register) :
    ∃ result flag : Byte,
      operation.Yields (machine.register target).toNat (machine.register source).toNat
        result.toNat flag.toNat ∧
      machine.execute (operation.instruction target source) =
        .next (machine.setResult target result flag) := by
  have bound := (machine.register target).toNat_lt
  cases operation with
  | add =>
      refine ⟨_, _, ⟨carry_add _ _, ?_⟩, rfl⟩
      rw [toNat_flagByte]
      split <;> decide
  | subtract => exact ⟨_, _, ⟨toNat_sub_eq_emod _ _, toNat_flagByte_lt _ _⟩, rfl⟩
  | shiftRight =>
      refine ⟨_, _, ⟨?_, ?_⟩, rfl⟩
      · rw [toNat_half, toNat_lowestBit]
        omega
      · rw [toNat_lowestBit]
        omega
  | subtractFrom => exact ⟨_, _, ⟨toNat_sub_eq_emod _ _, toNat_flagByte_lt _ _⟩, rfl⟩
  | shiftLeft =>
      refine ⟨_, _, ⟨?_, ?_⟩, rfl⟩
      · rw [toNat_double, toNat_highestBit]
        omega
      · rw [toNat_highestBit]
        omega

theorem execute_plain (machine : Machine Pad) (operation : PlainOperation)
    (target source : Register) :
    ∃ result : Byte,
      result.toNat = operation.result (machine.register target).toNat
        (machine.register source).toNat ∧
      machine.execute (operation.instruction target source) =
        .next (machine.setRegister target result) := by
  cases operation with
  | copy => exact ⟨_, rfl, rfl⟩
  | bitOr => exact ⟨_, UInt8.toNat_or _ _, rfl⟩
  | bitAnd => exact ⟨_, UInt8.toNat_and _ _, rfl⟩
  | bitXor => exact ⟨_, UInt8.toNat_xor _ _, rfl⟩

theorem step_of_next (machine written : Machine Pad) (word : Word) (instruction : Instruction)
    (running : machine.clock = .running)
    (fetched : machine.memory.fetch machine.programCounter.toNat = .ok word)
    (decoded : Instruction.decode word = some instruction)
    (writes : (machine.remember word).execute instruction = .next written) :
    machine.step.outcome = .ok .quiet ∧
      ∀ number, machine.step.machine.register number = written.register number := by
  have outcome := congrArg Effect.outcome writes
  rw [machine.step_of_fetched word running fetched,
    machine.performWord_of_decoded word instruction decoded,
    perform_of_executed _ word instruction _ outcome, writes]
  exact ⟨rfl, fun _number => rfl⟩

/-- A step of arithmetic succeeds and writes the result, and the flag after it where
there is one, and no other register. The two registers may be the same, and either
may be the flag register. -/
theorem arithmetic_writes_result_then_flag (machine : Machine Pad)
    (running : machine.clock = .running) (target source : Register) :
    let left := (machine.register target).toNat
    let right := (machine.register source).toNat
    let fetched := machine.memory.fetch machine.programCounter.toNat
    let after := machine.step.machine
    (∀ operation : FlaggedOperation,
      fetched = .ok (Instruction.pairWord 0x8 target source operation.digit) →
        machine.step.outcome = .ok .quiet ∧
        ∃ result flag : Byte, operation.Yields left right result.toNat flag.toNat ∧
          ∀ number, after.register number =
            if flagRegister = number then flag
            else if target = number then result else machine.register number) ∧
      (∀ operation : PlainOperation,
        fetched = .ok (Instruction.pairWord 0x8 target source operation.digit) →
          machine.step.outcome = .ok .quiet ∧
          ∃ result : Byte, result.toNat = operation.result left right ∧
            ∀ number, after.register number =
              if target = number then result else machine.register number) ∧
      ∀ value : Byte, fetched = .ok (Instruction.byteWord 0x7 target value) →
        machine.step.outcome = .ok .quiet ∧
        ∃ result : Byte, result.toNat = (left + value.toNat) % 256 ∧
          ∀ number, after.register number =
            if target = number then result else machine.register number := by
  intro left right fetched after
  refine ⟨?_, ?_, ?_⟩
  · intro operation found
    obtain ⟨result, flag, yields, writes⟩ :=
      (machine.remember _).execute_flagged operation target source
    obtain ⟨succeeds, written⟩ :=
      machine.step_of_next _ _ _ running found (operation.decode_word target source) writes
    refine ⟨succeeds, result, flag, yields, ?_⟩
    intro number
    rw [written number, register_setResult]
    rfl
  · intro operation found
    obtain ⟨result, value, writes⟩ :=
      (machine.remember _).execute_plain operation target source
    obtain ⟨succeeds, written⟩ :=
      machine.step_of_next _ _ _ running found (operation.decode_word target source) writes
    refine ⟨succeeds, result, value, ?_⟩
    intro number
    rw [written number, register_setRegister]
    rfl
  · intro value found
    have decoded := Instruction.decode_encode (.addByte target value)
      (fun _address impossible => by cases impossible)
    obtain ⟨succeeds, written⟩ := machine.step_of_next _ _ _ running found decoded rfl
    refine ⟨succeeds, _, UInt8.toNat_add (machine.register target) value, ?_⟩
    intro number
    rw [written number, register_setRegister]
    rfl

/-- The flag register added to itself holds the carry afterwards, and the sum is lost. -/
theorem flag_register_doubled_keeps_carry :
    ∃ start : Machine Keyboard,
      load [0x6F, 0xFF, 0x8F, 0xF4] Keyboard.idle (.repeating #[]) = .ok start ∧
      let reached := start.after [.step]
      reached.register flagRegister = 0xFF ∧
        reached.step.machine.register flagRegister = 1 := by
  obtain ⟨start, started⟩ := (load_ok_iff [0x6F, 0xFF, 0x8F, 0xF4] Keyboard.idle
    (.repeating #[])).mpr (by decide)
  have evaluated : (load [0x6F, 0xFF, 0x8F, 0xF4] Keyboard.idle
      (.repeating #[])).toOption.map (fun start =>
        let reached := start.after [.step]
        (reached.clock, reached.memory.fetch reached.programCounter.toNat,
          reached.register flagRegister)) =
      some (.running, .ok (Instruction.pairWord 0x8 flagRegister flagRegister 0x4), 0xFF) := by
    decide +kernel
  rw [started] at evaluated
  simp only [Except.toOption, Option.map_some, Option.some.injEq, Prod.mk.injEq] at evaluated
  obtain ⟨running, fetched, full⟩ := evaluated
  obtain ⟨_succeeds, result, flag, ⟨sum, carry⟩, written⟩ :=
    (arithmetic_writes_result_then_flag _ running flagRegister flagRegister).1 .add fetched
  rw [full] at sum
  change 256 * flag.toNat + result.toNat = 510 at sum
  have bound := result.toNat_lt
  have one : flag.toNat = (1 : Byte).toNat := by
    change flag.toNat = 1
    omega
  refine ⟨start, started, full, ?_⟩
  rw [written flagRegister, if_pos rfl]
  exact UInt8.toNat_inj.mp one

end Machine

end Chip8
