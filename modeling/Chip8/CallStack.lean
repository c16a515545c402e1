import Chip8.Word

set_option autoImplicit false

/-! The return addresses of the calls that are still open. There is room for
sixteen of them; a call beyond that and a return without a call are refused. -/

namespace Chip8

structure CallStack where
  /-- The return address of the latest call comes first. -/
  returns : List Word
  bounded : returns.length ≤ 16
  deriving DecidableEq

namespace CallStack

def empty : CallStack := ⟨[], Nat.zero_le 16⟩

def depth (stack : CallStack) : Nat :=
  stack.returns.length

def push? (stack : CallStack) (address : Word) : Option CallStack :=
  if room : stack.returns.length < 16 then some ⟨address :: stack.returns, room⟩ else none

def pop? (stack : CallStack) : Option (Word × CallStack) :=
  match stack with
  | ⟨[], _⟩ => none
  | ⟨address :: earlier, bounded⟩ =>
      some (address, ⟨earlier, Nat.le_of_succ_le bounded⟩)

def oldestFirst (stack : CallStack) : List Word :=
  stack.returns.reverse

theorem push?_eq_none_iff (stack : CallStack) (address : Word) :
    stack.push? address = none ↔ stack.depth = 16 := by
  have bounded := stack.bounded
  unfold push? depth
  split
  · constructor
    · intro impossible
      cases impossible
    · intro full
      omega
  · constructor
    · intro _full
      omega
    · intro _full
      rfl

theorem pop?_eq_none_iff (stack : CallStack) : stack.pop? = none ↔ stack.depth = 0 := by
  cases stack with
  | mk returns bounded =>
      cases returns with
      | nil => exact ⟨fun _none => rfl, fun _empty => rfl⟩
      | cons address earlier =>
          constructor
          · intro impossible
            cases impossible
          · intro impossible
            cases impossible

theorem returns_of_push? (stack pushed : CallStack) (address : Word)
    (accepted : stack.push? address = some pushed) :
    pushed.returns = address :: stack.returns := by
  unfold push? at accepted
  split at accepted
  · cases accepted
    rfl
  · cases accepted

theorem returns_of_pop? (stack popped : CallStack) (address : Word)
    (taken : stack.pop? = some (address, popped)) :
    stack.returns = address :: popped.returns := by
  cases stack with
  | mk returns bounded =>
      cases returns with
      | nil => cases taken
      | cons latest earlier =>
          cases taken
          rfl

end CallStack

end Chip8
