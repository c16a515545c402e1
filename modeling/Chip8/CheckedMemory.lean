import Chip8.CheckedMachine

set_option autoImplicit false

/-! The memory as its callers reach it from outside the machine: with any address
and any length that a number of sixty four bits can name. Each access is given
twice, on the typed memory and on a plain byte string where sums can wrap around
and places can lie outside. There every sum that is only needed to refuse a range
is asked for first, and everything behind it is checked as in the untyped machine. -/

namespace Chip8

/-- A change that a caller asks of a memory. `fill` writes one byte all over a
view of the memory that can be written through. -/
inductive MemoryCall where
  | write (address : Nat) (value : Byte)
  | load (address : Nat) (content : List Byte)
  | fill (address length : Nat) (value : Byte)
  | reset
  deriving DecidableEq, Repr

structure MemoryAnswers (Store : Type) where
  memory : Store
  outcomes : List (Except OutOfRange Unit)

namespace MemoryCall

def range? : MemoryCall → Option OutOfRange
  | .write address _ => some ⟨address, 1⟩
  | .load address content => some ⟨address, content.length⟩
  | .fill address length _ => some ⟨address, length⟩
  | .reset => none

end MemoryCall

namespace Memory

def requested (memory : Memory) : MemoryCall → Except OutOfRange Memory
  | .write address value => memory.write address value
  | .load address content => memory.load address content
  | .fill address length value => memory.fill address length value
  | .reset => .ok blank

/-- Answers a call. The memory stays as it is if the call is refused. -/
def answer (memory : Memory) (call : MemoryCall) : Memory × Except OutOfRange Unit :=
  match memory.requested call with
  | .ok changed => (changed, .ok ())
  | .error range => (memory, .error range)

def serve (memory : Memory) : List MemoryCall → MemoryAnswers Memory
  | [] => ⟨memory, []⟩
  | call :: later =>
      let answered := memory.answer call
      let rest := answered.1.serve later
      ⟨rest.memory, answered.2 :: rest.outcomes⟩

end Memory

/-! ### Plain bytes -/

namespace CheckedMemory

/-- A sum of sixty four bits, or nothing where it would wrap around. -/
def sum? (left right : Nat) : Option Nat :=
  (Checked.placeSum left right).toOption

def check (bytes : List Byte) (address length : Nat) : Except OutOfRange Unit :=
  match sum? address length with
  | some stop => if stop ≤ bytes.length then .ok () else .error ⟨address, length⟩
  | none => .error ⟨address, length⟩

def within {Result : Type} (bytes : List Byte) (address length : Nat) (use : Checked Result) :
    Checked (Except OutOfRange Result) :=
  match check bytes address length with
  | .ok _ => do return .ok (← use)
  | .error range => return .error range

def read (bytes : List Byte) (address : Nat) : Checked (Except OutOfRange Byte) :=
  within bytes address 1 (Checked.get bytes address)

def slice (bytes : List Byte) (address length : Nat) :
    Checked (Except OutOfRange (List Byte)) :=
  within bytes address length do
    let stop ← Checked.placeSum address length
    Checked.range bytes address stop

/-- The word at a pointer. Its bytes have a check of their own, which asks where
the second of them stands. -/
def fetch (bytes : List Byte) (pointer : Nat) : Checked (Except OutOfRange Word) :=
  match sum? pointer 1 with
  | some next =>
      if next < bytes.length then do
        let high ← Checked.get bytes pointer
        let low ← Checked.get bytes next
        return .ok (Word.ofBytes high low)
      else return .error ⟨pointer, 2⟩
  | none => return .error ⟨pointer, 2⟩

def write (bytes : List Byte) (address : Nat) (value : Byte) :
    Checked (Except OutOfRange (List Byte)) :=
  within bytes address 1 (Checked.set bytes address value)

/-- Puts new bytes over those of a range. They are made from the old ones, as
through a view that can be written. -/
def rewrite (bytes : List Byte) (address length : Nat) (renew : List Byte → List Byte) :
    Checked (Except OutOfRange (List Byte)) :=
  within bytes address length do
    let stop ← Checked.placeSum address length
    let view ← Checked.range bytes address stop
    Checked.copy bytes address stop (renew view)

def requested (bytes : List Byte) : MemoryCall → Checked (Except OutOfRange (List Byte))
  | .write address value => write bytes address value
  | .load address content => rewrite bytes address content.length (fun _ => content)
  | .fill address length value => rewrite bytes address length (List.map (fun _ => value))
  | .reset => return .ok (bytes.map (fun _ => 0))

def answer (bytes : List Byte) (call : MemoryCall) :
    Checked (List Byte × Except OutOfRange Unit) := do
  match ← requested bytes call with
  | .ok changed => return (changed, .ok ())
  | .error range => return (bytes, .error range)

def serve (bytes : List Byte) : List MemoryCall → Checked (MemoryAnswers (List Byte))
  | [] => return ⟨bytes, []⟩
  | call :: later => do
      let answered ← answer bytes call
      let rest ← serve answered.1 later
      return ⟨rest.memory, answered.2 :: rest.outcomes⟩

end CheckedMemory

end Chip8
