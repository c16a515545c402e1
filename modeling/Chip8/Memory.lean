import Chip8.AddressRange

set_option autoImplicit false

/-! The memory of the machine: 4096 bytes, reached only through ranges that lie
inside it. `byteAt` is the view by which every operation is described; a store
replaces exactly the bytes of its range, and a refused store replaces none. -/

namespace Chip8

structure Memory where
  bytes : Vector Byte 4096
  deriving DecidableEq

namespace Memory

def size : Nat := 4096

def blank : Memory := ⟨Vector.replicate 4096 0⟩

/-- The byte at an address, and zero where there is none. -/
def byteAt (memory : Memory) (address : Nat) : Byte :=
  if inside : address < 4096 then memory.bytes[address] else 0

def bytesAt (memory : Memory) (address length : Nat) : List Byte :=
  (List.range length).map (fun offset => memory.byteAt (address + offset))

def setByte (memory : Memory) (address : Nat) (value : Byte) : Memory :=
  ⟨memory.bytes.setIfInBounds address value⟩

/-- The memory after a byte string was put at an address. What does not fit is
dropped, so callers check the range first. -/
def overwrite (memory : Memory) (address : Nat) : List Byte → Memory
  | [] => memory
  | value :: rest => (memory.setByte address value).overwrite (address + 1) rest

/-! ### Checked access -/

def slice (memory : Memory) (address length : Nat) : Except OutOfRange (List Byte) :=
  (checkRange size address length).map (fun _ => memory.bytesAt address length)

def read (memory : Memory) (address : Nat) : Except OutOfRange Byte :=
  (checkRange size address 1).map (fun _ => memory.byteAt address)

def load (memory : Memory) (address : Nat) (content : List Byte) : Except OutOfRange Memory :=
  (checkRange size address content.length).map (fun _ => memory.overwrite address content)

def write (memory : Memory) (address : Nat) (value : Byte) : Except OutOfRange Memory :=
  (checkRange size address 1).map (fun _ => memory.setByte address value)

def fill (memory : Memory) (address length : Nat) (value : Byte) : Except OutOfRange Memory :=
  (checkRange size address length).map
    (fun _ => memory.overwrite address (List.replicate length value))

def fetch (memory : Memory) (address : Nat) : Except OutOfRange Word :=
  wordAt memory.bytes.toArray address

def nonzeroBytes (memory : Memory) : List (Nat × Byte) :=
  ((List.range size).map (fun address => (address, memory.byteAt address))).filter
    (fun entry => entry.2 ≠ 0)

def changedBytes (earlier later : Memory) : List (Nat × Byte) :=
  ((List.range size).map (fun address => (address, later.byteAt address))).filter
    (fun entry => earlier.byteAt entry.1 ≠ entry.2)

/-! ### What the operations do to the view -/

theorem eq_of_byteAt_eq (left right : Memory)
    (same : ∀ address, address < 4096 → left.byteAt address = right.byteAt address) :
    left = right := by
  cases left with
  | mk leftBytes =>
      cases right with
      | mk rightBytes =>
          congr 1
          apply Vector.ext
          intro address inside
          have atAddress := same address inside
          simp only [byteAt, dif_pos inside] at atAddress
          exact atAddress

theorem byteAt_blank (address : Nat) : blank.byteAt address = 0 := by
  unfold byteAt blank
  split
  · exact Vector.getElem_replicate _
  · rfl

theorem byteAt_setByte (memory : Memory) (address asked : Nat) (value : Byte) :
    (memory.setByte address value).byteAt asked =
      if address = asked ∧ asked < 4096 then value else memory.byteAt asked := by
  unfold byteAt setByte
  by_cases inside : asked < 4096
  · simp [inside, Vector.getElem_setIfInBounds]
  · simp [inside]

/-- A byte string that was put at an address is found there, and all other
bytes are as before. -/
theorem byteAt_overwrite (memory : Memory) (address asked : Nat) (content : List Byte) :
    (memory.overwrite address content).byteAt asked =
      if address ≤ asked ∧ asked < 4096 then
        (content[asked - address]?).getD (memory.byteAt asked)
      else memory.byteAt asked := by
  induction content generalizing memory address with
  | nil => simp only [overwrite, List.getElem?_nil, Option.getD_none, ite_self]
  | cons value rest ih =>
      rw [overwrite, ih, byteAt_setByte]
      by_cases inside : asked < 4096
      · by_cases atStart : address = asked
        · subst address
          have notLater : ¬ (asked + 1 ≤ asked) := by omega
          simp only [notLater, inside, Nat.le_refl, and_true, if_true, if_false, Nat.sub_self,
            List.getElem?_cons_zero, Option.getD_some]
        · by_cases later : address + 1 ≤ asked
          · have offset : asked - address = (asked - (address + 1)) + 1 := by omega
            have within : address ≤ asked := by omega
            simp [inside, atStart, later, within, offset]
          · have before : ¬ (address ≤ asked) := by omega
            simp [inside, atStart, later, before]
      · simp [inside]

theorem length_bytesAt (memory : Memory) (address length : Nat) :
    (memory.bytesAt address length).length = length := by
  simp [bytesAt]

theorem read_eq (memory : Memory) (address : Nat) :
    memory.read address =
      if address + 1 ≤ 4096 then .ok (memory.byteAt address) else .error ⟨address, 1⟩ := by
  unfold read checkRange size
  split <;> rfl

theorem slice_eq (memory : Memory) (address length : Nat) :
    memory.slice address length =
      if address + length ≤ 4096 then .ok (memory.bytesAt address length)
      else .error ⟨address, length⟩ := by
  unfold slice checkRange size
  split <;> rfl

theorem load_eq (memory : Memory) (address : Nat) (content : List Byte) :
    memory.load address content =
      if address + content.length ≤ 4096 then .ok (memory.overwrite address content)
      else .error ⟨address, content.length⟩ := by
  unfold load checkRange size
  split <;> rfl

theorem fetch_eq (memory : Memory) (address : Nat) :
    memory.fetch address =
      if address + 2 ≤ 4096 then
        .ok (Word.ofBytes (memory.byteAt address) (memory.byteAt (address + 1)))
      else .error ⟨address, 2⟩ := by
  unfold fetch wordAt
  by_cases inside : address + 2 ≤ 4096
  · have first : address < 4096 := by omega
    have second : address + 1 < 4096 := by omega
    have bounded : address + 1 < memory.bytes.toArray.size := by
      rw [Vector.size_toArray]
      exact second
    rw [dif_pos bounded, if_pos inside]
    simp only [byteAt, dif_pos first, dif_pos second, Vector.getElem_toArray]
  · have outside : ¬ (address + 1 < memory.bytes.toArray.size) := by
      rw [Vector.size_toArray]
      omega
    rw [dif_neg outside, if_neg inside]

theorem slice_ok_iff (memory : Memory) (address length : Nat) (content : List Byte) :
    memory.slice address length = .ok content ↔
      address + length ≤ 4096 ∧ content = memory.bytesAt address length := by
  unfold slice checkRange size
  by_cases inside : address + length ≤ 4096
  · rw [if_pos inside]
    constructor
    · intro found
      cases found
      exact ⟨inside, rfl⟩
    · intro found
      rw [found.2]
      rfl
  · rw [if_neg inside]
    constructor
    · intro impossible
      cases impossible
    · intro found
      exact absurd found.1 inside

theorem slice_error_iff (memory : Memory) (address length : Nat) (range : OutOfRange) :
    memory.slice address length = .error range ↔
      4096 < address + length ∧ range = ⟨address, length⟩ := by
  unfold slice
  rw [map_error_iff, checkRange_error_iff]
  rfl

theorem load_error_iff (memory : Memory) (address : Nat) (content : List Byte)
    (range : OutOfRange) :
    memory.load address content = .error range ↔
      4096 < address + content.length ∧ range = ⟨address, content.length⟩ := by
  unfold load
  rw [map_error_iff, checkRange_error_iff]
  rfl

end Memory

end Chip8
