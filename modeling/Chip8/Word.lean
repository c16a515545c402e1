set_option autoImplicit false

/-! Machine words and the numbers packed into them. An instruction is one big
endian word of sixteen bits: its leading digit names the family, and the other
three digits are read alone, in pairs or together as the family asks. -/

namespace Chip8

abbrev Byte := UInt8

abbrev Word := UInt16

abbrev Nibble := Fin 16

abbrev Register := Fin 16

abbrev Address := Fin 4096

/-- There are digits, so numerals stand for them. -/
instance nibbleCountNeZero : @NeZero Nat Zero.ofOfNat0 16 := ⟨Nat.succ_ne_zero 15⟩

namespace Word

/-- The word whose more significant byte is `high`. -/
def ofBytes (high low : Byte) : Word :=
  UInt16.ofNat (256 * high.toNat + low.toNat)

def highByte (word : Word) : Byte :=
  UInt8.ofNat (word.toNat / 256)

def lowByte (word : Word) : Byte :=
  UInt8.ofNat (word.toNat % 256)

def family (word : Word) : Nibble :=
  ⟨word.toNat / 4096, by have bound := word.toNat_lt; omega⟩

def first (word : Word) : Register :=
  ⟨word.toNat / 256 % 16, Nat.mod_lt _ (by decide)⟩

def second (word : Word) : Register :=
  ⟨word.toNat / 16 % 16, Nat.mod_lt _ (by decide)⟩

def digit (word : Word) : Nibble :=
  ⟨word.toNat % 16, Nat.mod_lt _ (by decide)⟩

def address (word : Word) : Address :=
  ⟨word.toNat % 4096, Nat.mod_lt _ (by decide)⟩

/-- The digits are those of the number, so a word is known by them. -/
theorem toNat_eq_digits (word : Word) :
    word.toNat = 4096 * word.family.val + 256 * word.first.val +
      16 * word.second.val + word.digit.val := by
  simp only [family, first, second, digit]
  omega

theorem toNat_eq_family_address (word : Word) :
    word.toNat = 4096 * word.family.val + word.address.val := by
  simp only [family, address]
  omega

theorem lowByte_toNat (word : Word) : word.lowByte.toNat = word.toNat % 256 := by
  simp only [lowByte, UInt8.toNat_ofNat']
  omega

theorem highByte_toNat (word : Word) : word.highByte.toNat = word.toNat / 256 := by
  have bound := word.toNat_lt
  simp only [highByte, UInt8.toNat_ofNat']
  omega

theorem toNat_ofBytes (high low : Byte) :
    (ofBytes high low).toNat = 256 * high.toNat + low.toNat := by
  have highBound := high.toNat_lt
  have lowBound := low.toNat_lt
  simp only [ofBytes, UInt16.toNat_ofNat']
  omega

theorem ofBytes_highByte_lowByte (word : Word) :
    ofBytes word.highByte word.lowByte = word := by
  apply UInt16.toNat_inj.mp
  rw [toNat_ofBytes, highByte_toNat, lowByte_toNat]
  omega

theorem highByte_ofBytes (high low : Byte) : (ofBytes high low).highByte = high := by
  have lowBound := low.toNat_lt
  apply UInt8.toNat_inj.mp
  rw [highByte_toNat, toNat_ofBytes]
  omega

theorem lowByte_ofBytes (high low : Byte) : (ofBytes high low).lowByte = low := by
  have lowBound := low.toNat_lt
  apply UInt8.toNat_inj.mp
  rw [lowByte_toNat, toNat_ofBytes]
  omega

end Word

end Chip8
