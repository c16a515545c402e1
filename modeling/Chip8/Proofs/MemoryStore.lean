import Chip8.CheckedMemory
import Chip8.Proofs.CheckedAccess

set_option autoImplicit false

/-! The memory as a store that its callers can ask for any range. Whether a call
is granted depends on its range alone, whose end is an unbounded sum, and the
bytes are those of the latest granted calls. Two bounds are checked with sums of
sixty four bits and in two different ways, and both are shown to be this one. -/

namespace Chip8

namespace MemoryCall

/-- The byte that a call puts at an address, if it puts one there. A call about a
range that does not fit puts nothing anywhere. -/
def putAt? (call : MemoryCall) (address : Nat) : Option Byte :=
  match call with
  | .write start value => if start + 1 ≤ 4096 ∧ start = address then some value else none
  | .load start content =>
      if start + content.length ≤ 4096 ∧ start ≤ address then content[address - start]? else none
  | .fill start length value =>
      if start + length ≤ 4096 ∧ start ≤ address ∧ address < start + length then some value
      else none
  | .reset => some 0

/-- What a call is answered, with sums that have no bound. -/
def verdict (call : MemoryCall) : Except OutOfRange Unit :=
  match call.range? with
  | some range => if range.address + range.length ≤ 4096 then .ok () else .error range
  | none => .ok ()

theorem putAt?_load_singleton (start address : Nat) (value : Byte) :
    (load start [value]).putAt? address = (write start value).putAt? address := by
  simp only [putAt?, List.length_singleton]
  by_cases atStart : start = address
  · subst atStart
    simp
  · by_cases reached : start ≤ address
    · have beyond : [value].length ≤ address - start := by
        rw [List.length_singleton]
        omega
      rw [List.getElem?_eq_none beyond, ite_self, if_neg (fun both => atStart both.2)]
    · rw [if_neg (fun both => reached both.2), if_neg (fun both => atStart both.2)]

theorem putAt?_load_replicate (start address length : Nat) (value : Byte) :
    (load start (List.replicate length value)).putAt? address =
      (fill start length value).putAt? address := by
  simp only [putAt?, List.length_replicate, List.getElem?_replicate]
  by_cases reached : start ≤ address
  · have within : address - start < length ↔ address < start + length := by omega
    simp only [reached, true_and, and_true, within]
    by_cases fits : start + length ≤ 4096
    · simp only [fits, true_and, if_true]
    · simp only [fits, false_and, if_false]
  · simp only [reached, false_and, and_false, if_false]

end MemoryCall

/-- The byte that is found at an address after some calls, given latest first. -/
def lastPut (latest : List MemoryCall) (address : Nat) : Byte :=
  (latest.findSome? (fun call => call.putAt? address)).getD 0

/-! ### Typed calls -/

namespace Memory

theorem fill_eq_load (memory : Memory) (address length : Nat) (value : Byte) :
    memory.fill address length value = memory.load address (List.replicate length value) := by
  unfold fill load
  rw [List.length_replicate]

theorem answer_load (memory : Memory) (address : Nat) (content : List Byte) :
    memory.answer (.load address content) =
      if address + content.length ≤ 4096 then (memory.overwrite address content, .ok ())
      else (memory, .error ⟨address, content.length⟩) := by
  unfold answer requested
  simp only [load_eq]
  by_cases inside : address + content.length ≤ 4096
  · rw [if_pos inside, if_pos inside]
  · rw [if_neg inside, if_neg inside]

theorem answer_write (memory : Memory) (address : Nat) (value : Byte) :
    memory.answer (.write address value) = memory.answer (.load address [value]) := rfl

theorem answer_fill (memory : Memory) (address length : Nat) (value : Byte) :
    memory.answer (.fill address length value) =
      memory.answer (.load address (List.replicate length value)) := by
  unfold answer requested
  simp only [fill_eq_load]

theorem answer_outcome (memory : Memory) (call : MemoryCall) :
    (memory.answer call).2 = call.verdict := by
  have loaded : ∀ address content,
      (memory.answer (.load address content)).2 = (MemoryCall.load address content).verdict := by
    intro address content
    rw [answer_load]
    simp only [MemoryCall.verdict, MemoryCall.range?]
    split <;> rfl
  cases call with
  | write address value => exact loaded address [value]
  | load address content => exact loaded address content
  | fill address length value =>
      rw [answer_fill, loaded]
      simp only [MemoryCall.verdict, MemoryCall.range?, List.length_replicate]
  | reset => rfl

theorem answer_of_refused (memory : Memory) (call : MemoryCall) (range : OutOfRange)
    (refused : (memory.answer call).2 = .error range) : (memory.answer call).1 = memory := by
  unfold answer at refused ⊢
  cases requested : memory.requested call with
  | ok changed =>
      rw [requested] at refused
      cases refused
  | error range => rfl

theorem byteAt_answer_load (memory : Memory) (start address : Nat) (content : List Byte)
    (inside : address < 4096) :
    (memory.answer (.load start content)).1.byteAt address =
      ((MemoryCall.load start content).putAt? address).getD (memory.byteAt address) := by
  rw [answer_load]
  by_cases fits : start + content.length ≤ 4096
  · by_cases reached : start ≤ address
    · simp only [MemoryCall.putAt?, fits, reached, and_self, if_true, byteAt_overwrite, inside]
    · simp only [MemoryCall.putAt?, fits, reached, and_false, false_and, if_true, if_false,
        byteAt_overwrite, Option.getD_none]
  · simp only [MemoryCall.putAt?, fits, false_and, if_false, Option.getD_none]

/-- One call: an address holds what the call puts there, or what it held. -/
theorem byteAt_answer (memory : Memory) (call : MemoryCall) (address : Nat)
    (inside : address < 4096) :
    (memory.answer call).1.byteAt address =
      (call.putAt? address).getD (memory.byteAt address) := by
  cases call with
  | write start value =>
      rw [answer_write, byteAt_answer_load memory start address [value] inside,
        MemoryCall.putAt?_load_singleton]
  | load start content => exact byteAt_answer_load memory start address content inside
  | fill start length value =>
      rw [answer_fill, byteAt_answer_load memory start address _ inside,
        MemoryCall.putAt?_load_replicate]
  | reset => exact byteAt_blank address

theorem serve_outcomes (memory : Memory) (calls : List MemoryCall) :
    (memory.serve calls).outcomes = calls.map MemoryCall.verdict := by
  induction calls generalizing memory with
  | nil => rfl
  | cons call later ih =>
      rw [serve, List.map_cons, ← memory.answer_outcome call, ← ih (memory.answer call).1]

theorem byteAt_serve (memory : Memory) (calls : List MemoryCall) (address : Nat)
    (inside : address < 4096) :
    (memory.serve calls).memory.byteAt address =
      (calls.reverse.findSome? (fun call => call.putAt? address)).getD
        (memory.byteAt address) := by
  induction calls generalizing memory with
  | nil => rfl
  | cons call later ih =>
      rw [serve, ih, memory.byteAt_answer call address inside, List.reverse_cons,
        List.findSome?_append, List.findSome?_singleton]
      cases later.reverse.findSome? (fun call => call.putAt? address) <;> rfl

theorem byteAt_serve_blank (calls : List MemoryCall) (address : Nat) (inside : address < 4096) :
    (blank.serve calls).memory.byteAt address = lastPut calls.reverse address := by
  rw [byteAt_serve blank calls address inside, byteAt_blank, lastPut]

/-! ### Words -/

theorem fetch_error_iff_slice (memory : Memory) (pointer : Nat) (range : OutOfRange) :
    memory.fetch pointer = .error range ↔ memory.slice pointer 2 = .error range := by
  rw [fetch_eq, slice_eq]
  split
  · constructor <;>
    · intro impossible
      cases impossible
  · constructor <;>
    · intro refused
      cases refused
      rfl

theorem fetch_ok_iff_slice (memory : Memory) (pointer : Nat) (word : Word) :
    memory.fetch pointer = .ok word ↔
      ∃ high low : Byte, memory.slice pointer 2 = .ok [high, low] ∧
        word.toNat = 256 * high.toNat + low.toNat := by
  rw [fetch_eq, slice_eq]
  have pair : memory.bytesAt pointer 2 =
      [memory.byteAt pointer, memory.byteAt (pointer + 1)] := rfl
  by_cases inside : pointer + 2 ≤ 4096
  · rw [if_pos inside, if_pos inside, pair]
    constructor
    · intro fetched
      cases fetched
      exact ⟨_, _, rfl, Word.toNat_ofBytes _ _⟩
    · rintro ⟨high, low, sliced, value⟩
      cases sliced
      congr 1
      apply UInt16.toNat_inj.mp
      rw [value, Word.toNat_ofBytes]
  · rw [if_neg inside, if_neg inside]
    constructor
    · intro impossible
      cases impossible
    · rintro ⟨_high, _low, impossible, _value⟩
      cases impossible

end Memory

/-! ### Sums of sixty four bits -/

namespace CheckedMemory

theorem sum?_eq (left right : Nat) :
    sum? left right = if left + right < 0x10000000000000000 then some (left + right) else none := by
  unfold sum? Checked.placeSum Checked.sum
  split <;> rfl

/-- A sum that would wrap around lies behind any memory as well. -/
theorem check_plain (memory : Memory) (address length : Nat) :
    check memory.plain address length = checkRange Memory.size address length := by
  unfold check checkRange Memory.size
  rw [sum?_eq, memory.length_plain]
  by_cases narrow : address + length < 0x10000000000000000
  · rw [if_pos narrow]
  · have outside : ¬ (address + length ≤ 4096) := by omega
    rw [if_neg narrow, if_neg outside]

theorem within_plain {Result : Type} (memory : Memory) (address length : Nat)
    (use : Checked Result) (result : Result)
    (used : address + length ≤ 4096 → use = .ok result) :
    within memory.plain address length use =
      .ok ((checkRange Memory.size address length).map (fun _ => result)) := by
  unfold within
  rw [check_plain]
  cases checked : checkRange Memory.size address length with
  | error range => rfl
  | ok granted =>
      have inside := (checkRange_ok_iff _ _ _).mp checked
      show (use >>= fun value => Except.ok (Except.ok value)) = _
      rw [used inside]
      rfl

theorem read_plain (memory : Memory) (address : Nat) :
    read memory.plain address = .ok (memory.read address) := by
  refine within_plain memory address 1 _ _ (fun inside => ?_)
  have found := memory.getElem?_plain address
  rw [if_pos (by omega)] at found
  exact Checked.get_of_getElem? _ _ _ found

theorem view_plain (memory : Memory) (address length : Nat) (inside : address + length ≤ 4096) :
    Checked.range memory.plain address (address + length) =
      .ok (memory.bytesAt address length) := by
  rw [Checked.range_of_le _ _ _ (by rw [memory.length_plain]; exact inside),
    memory.range_plain address length inside]

theorem slice_plain (memory : Memory) (address length : Nat) :
    slice memory.plain address length = .ok (memory.slice address length) := by
  refine within_plain memory address length _ _ (fun inside => ?_)
  rw [Checked.placeSum_of_lt _ _ (by omega), Checked.ok_bind,
    view_plain memory address length inside]

theorem fetch_plain (memory : Memory) (pointer : Nat) :
    fetch memory.plain pointer = .ok (memory.fetch pointer) := by
  unfold fetch
  rw [sum?_eq, memory.length_plain, memory.fetch_eq]
  by_cases narrow : pointer + 1 < 0x10000000000000000
  · rw [if_pos narrow]
    by_cases inside : pointer + 2 ≤ 4096
    · have first := memory.getElem?_plain pointer
      have second := memory.getElem?_plain (pointer + 1)
      rw [if_pos (by omega)] at first second
      simp only [if_pos inside, if_pos (show pointer + 1 < 4096 by omega)]
      rw [Checked.get_of_getElem? _ _ _ first, Checked.ok_bind,
        Checked.get_of_getElem? _ _ _ second, Checked.ok_bind]
      rfl
    · simp only [if_neg inside, if_neg (show ¬ (pointer + 1 < 4096) by omega)]
      rfl
  · rw [if_neg narrow, if_neg (by omega)]
    rfl

theorem write_plain (memory : Memory) (address : Nat) (value : Byte) :
    write memory.plain address value = .ok ((memory.write address value).map Memory.plain) := by
  have set : address + 1 ≤ 4096 →
      Checked.set memory.plain address value = .ok (memory.setByte address value).plain := by
    intro inside
    have inList : address < memory.plain.length := by
      rw [memory.length_plain]
      omega
    have copied := memory.copy_plain address [value] inside
    rw [Checked.set_of_lt _ _ _ inList, List.set_eq_take_append_cons_drop, if_pos inList]
    rw [List.append_assoc] at copied
    exact congrArg Except.ok copied
  unfold write
  rw [within_plain memory address 1 _ _ set]
  unfold Memory.write
  cases checkRange Memory.size address 1 <;> rfl

theorem rewrite_plain (memory : Memory) (address : Nat) (content : List Byte)
    (renew : List Byte → List Byte)
    (renewed : renew (memory.bytesAt address content.length) = content) :
    rewrite memory.plain address content.length renew =
      .ok ((memory.load address content).map Memory.plain) := by
  unfold rewrite
  rw [within_plain memory address content.length _
    (memory.overwrite address content).plain]
  · unfold Memory.load
    cases checkRange Memory.size address content.length <;> rfl
  · intro inside
    rw [Checked.placeSum_of_lt _ _ (by omega), Checked.ok_bind,
      view_plain memory address content.length inside, Checked.ok_bind, renewed,
      Checked.copy_of_le _ _ _ (by rw [memory.length_plain]; exact inside),
      memory.copy_plain address content inside]

theorem requested_plain (memory : Memory) (call : MemoryCall) :
    requested memory.plain call = .ok ((memory.requested call).map Memory.plain) := by
  cases call with
  | write address value => exact write_plain memory address value
  | load address content => exact rewrite_plain memory address content _ rfl
  | fill address length value =>
      have filled : (memory.bytesAt address (List.replicate length value).length).map
          (fun _ => value) = List.replicate length value := by
        rw [List.map_const', memory.length_bytesAt, List.length_replicate]
      have rewritten := rewrite_plain memory address (List.replicate length value) _ filled
      rw [List.length_replicate] at rewritten
      rw [requested, rewritten, Memory.requested, Memory.fill_eq_load]
  | reset =>
      have zeroed : memory.plain.map (fun _ => (0 : Byte)) = Memory.blank.plain := by
        apply List.ext_getElem?
        intro address
        rw [List.getElem?_map, memory.getElem?_plain, Memory.getElem?_plain,
          Memory.byteAt_blank]
        split <;> rfl
      rw [requested, zeroed]
      rfl

theorem answer_plain (memory : Memory) (call : MemoryCall) :
    answer memory.plain call =
      .ok ((memory.answer call).1.plain, (memory.answer call).2) := by
  unfold answer Memory.answer
  rw [requested_plain, Checked.ok_bind]
  cases memory.requested call <;> rfl

theorem serve_plain (memory : Memory) (calls : List MemoryCall) :
    serve memory.plain calls =
      .ok ⟨(memory.serve calls).memory.plain, (memory.serve calls).outcomes⟩ := by
  induction calls generalizing memory with
  | nil => rfl
  | cons call later ih =>
      rw [serve, answer_plain, Checked.ok_bind, ih, Checked.ok_bind]
      rfl

end CheckedMemory

/-! ### Histories of calls -/

/-- How a memory answers that was served some calls, given latest first, all in
terms of the ranges and the bytes of the calls. -/
structure Memory.AnswersFor (memory : Memory) (latest : List MemoryCall) : Prop where
  granted : ∀ call range, call.range? = some range →
    ((memory.answer call).2 = .ok () ↔ range.address + range.length ≤ 4096)
  refused : ∀ call range, (memory.answer call).2 = .error range →
    call.range? = some range ∧ (memory.answer call).1 = memory
  read : ∀ address, memory.read address =
    if address + 1 ≤ 4096 then .ok (lastPut latest address) else .error ⟨address, 1⟩
  slice : ∀ address length, memory.slice address length =
    if address + length ≤ 4096 then
      .ok ((List.range length).map (fun offset => lastPut latest (address + offset)))
    else .error ⟨address, length⟩
  fetchRefused : ∀ pointer range,
    memory.fetch pointer = .error range ↔ memory.slice pointer 2 = .error range
  fetched : ∀ pointer word, memory.fetch pointer = .ok word ↔
    ∃ high low : Byte, memory.slice pointer 2 = .ok [high, low] ∧
      word.toNat = 256 * high.toNat + low.toNat

/-- The same questions to plain bytes, with sums of sixty four bits, have the same
answers, and nothing wraps around or lies outside on the way to them. -/
structure Memory.PlainAgrees (memory : Memory) : Prop where
  answer : ∀ call, CheckedMemory.answer memory.plain call =
    .ok ((memory.answer call).1.plain, (memory.answer call).2)
  read : ∀ address, CheckedMemory.read memory.plain address = .ok (memory.read address)
  slice : ∀ address length,
    CheckedMemory.slice memory.plain address length = .ok (memory.slice address length)
  fetch : ∀ pointer, CheckedMemory.fetch memory.plain pointer = .ok (memory.fetch pointer)

namespace Memory

theorem plainAgrees (memory : Memory) : memory.PlainAgrees where
  answer := CheckedMemory.answer_plain memory
  read := CheckedMemory.read_plain memory
  slice := CheckedMemory.slice_plain memory
  fetch := CheckedMemory.fetch_plain memory

theorem answer_granted_iff (memory : Memory) (call : MemoryCall) (range : OutOfRange)
    (about : call.range? = some range) :
    (memory.answer call).2 = .ok () ↔ range.address + range.length ≤ 4096 := by
  rw [answer_outcome, MemoryCall.verdict, about]
  exact checkRange_ok_iff 4096 range.address range.length

theorem range?_of_refused (memory : Memory) (call : MemoryCall) (range : OutOfRange)
    (refused : (memory.answer call).2 = .error range) : call.range? = some range := by
  rw [answer_outcome, MemoryCall.verdict] at refused
  cases about : call.range? with
  | none =>
      rw [about] at refused
      cases refused
  | some asked =>
      rw [about] at refused
      have same := ((checkRange_error_iff 4096 asked.address asked.length range).mp refused).2
      rw [same]

theorem answersFor_serve_blank (calls : List MemoryCall) :
    (blank.serve calls).memory.AnswersFor calls.reverse where
  granted := answer_granted_iff _
  refused := fun call range refused =>
    ⟨range?_of_refused _ call range refused, answer_of_refused _ call range refused⟩
  read := by
    intro address
    rw [read_eq]
    split
    · rw [byteAt_serve_blank calls address (by omega)]
    · rfl
  slice := by
    intro address length
    rw [slice_eq]
    split
    · have same : (blank.serve calls).memory.bytesAt address length =
          (List.range length).map (fun offset => lastPut calls.reverse (address + offset)) := by
        apply List.map_congr_left
        intro offset within
        have below := List.mem_range.mp within
        exact byteAt_serve_blank calls (address + offset) (by omega)
      rw [same]
    · rfl
  fetchRefused := fetch_error_iff_slice _
  fetched := fetch_ok_iff_slice _

/-- A memory is a store for any history of calls. Plain bytes under sums of sixty
four bits serve every history without a breach and as the typed memory does; each
call is granted or refused for its range alone; and what is left answers for the
latest granted calls. -/
theorem serve_blank_is_store (calls : List MemoryCall) :
    CheckedMemory.serve (List.replicate 4096 0) calls =
        .ok ⟨(blank.serve calls).memory.plain, (blank.serve calls).outcomes⟩ ∧
      (blank.serve calls).outcomes = calls.map MemoryCall.verdict ∧
      (blank.serve calls).memory.AnswersFor calls.reverse ∧
      (blank.serve calls).memory.PlainAgrees := by
  refine ⟨?_, serve_outcomes blank calls, answersFor_serve_blank calls, plainAgrees _⟩
  rw [← plain_blank]
  exact CheckedMemory.serve_plain blank calls

example : (blank.serve [.fill 4096 0 7, .fill 4097 0 7, .fill 0xFFFFFFFFFFFFFFFF 2 7]).outcomes =
    [.ok (), .error ⟨4097, 0⟩, .error ⟨0xFFFFFFFFFFFFFFFF, 2⟩] := by
  rfl

end Memory

end Chip8
