import Chip8.HexadecimalText
import Chip8.Word

set_option autoImplicit false

/-! Ranges of addresses that do not lie inside a byte string. Addresses and
lengths are unbounded numbers, so no sum of the two wraps around and a range
far beyond the end is refused like one that crosses it. -/

namespace Chip8

structure OutOfRange where
  address : Nat
  length : Nat
  deriving DecidableEq, Repr

namespace OutOfRange

def message (range : OutOfRange) : String :=
  "Address " ++ hexText 4 range.address ++ " with length " ++ toString range.length ++
    " is out of range."

end OutOfRange

/-- Accepts a range that ends inside the first `size` addresses. An empty range
may start right at the end. -/
def checkRange (size address length : Nat) : Except OutOfRange Unit :=
  if address + length ≤ size then .ok () else .error ⟨address, length⟩

theorem checkRange_ok_iff (size address length : Nat) :
    checkRange size address length = .ok () ↔ address + length ≤ size := by
  unfold checkRange
  by_cases inside : address + length ≤ size
  · rw [if_pos inside]
    exact ⟨fun _accepted => inside, fun _inside => rfl⟩
  · rw [if_neg inside]
    constructor
    · intro impossible
      cases impossible
    · intro claimed
      exact absurd claimed inside

theorem checkRange_error_iff (size address length : Nat) (range : OutOfRange) :
    checkRange size address length = .error range ↔
      size < address + length ∧ range = ⟨address, length⟩ := by
  unfold checkRange
  by_cases inside : address + length ≤ size
  · rw [if_pos inside]
    constructor
    · intro impossible
      cases impossible
    · intro outside
      exact absurd inside (Nat.not_le_of_lt outside.1)
  · rw [if_neg inside]
    constructor
    · intro refused
      cases refused
      exact ⟨Nat.lt_of_not_le inside, rfl⟩
    · intro outside
      rw [outside.2]

theorem map_error_iff {Granted : Type} (checked : Except OutOfRange Unit)
    (use : Unit → Granted) (range : OutOfRange) :
    checked.map use = .error range ↔ checked = .error range := by
  cases checked with
  | error refused =>
      constructor <;>
      · intro same
        cases same
        rfl
  | ok granted =>
      constructor <;>
      · intro impossible
        cases impossible

/-- The big endian word whose first byte stands at `pointer`. -/
def wordAt (bytes : Array Byte) (pointer : Nat) : Except OutOfRange Word :=
  if inside : pointer + 1 < bytes.size then
    have before : pointer < bytes.size := Nat.lt_of_succ_lt inside
    .ok (Word.ofBytes bytes[pointer] bytes[pointer + 1])
  else .error ⟨pointer, 2⟩

end Chip8
