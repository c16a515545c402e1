set_option autoImplicit false

/-! Upper case hexadecimal text, as every address, word and byte is written.
Leading zeros fill a least number of digits and no digit is ever cut off, so a
text can be read back whatever its width was: `hexValue_hexDigits` and
`hexValue_paddedHexDigits`. -/

namespace Chip8

/-- The upper case base sixteen digits of a number, without leading zeros. -/
def hexDigits (value : Nat) : List Char :=
  (Nat.toDigits 16 value).map Char.toUpper

/-- At least `width` digits, filled with zeros on the left. -/
def paddedHexDigits (width value : Nat) : List Char :=
  List.replicate (width - (hexDigits value).length) '0' ++ hexDigits value

def hexText (width value : Nat) : String :=
  String.ofList ('0' :: 'x' :: paddedHexDigits width value)

def hexDigitText (value : Nat) : String :=
  String.ofList (hexDigits value)

/-! ### Reading digits back -/

/-- The value of an upper case digit, zero for any other character. -/
def hexDigitValue (digit : Char) : Nat :=
  if digit.isDigit then digit.toNat - '0'.toNat
  else if 'A' ≤ digit ∧ digit ≤ 'F' then digit.toNat - 'A'.toNat + 10
  else 0

def hexValue (digits : List Char) : Nat :=
  digits.foldl (fun value digit => 16 * value + hexDigitValue digit) 0

private theorem hexDigitValue_digitChar (digit : Nat) (below : digit < 16) :
    hexDigitValue (Nat.digitChar digit).toUpper = digit := by
  have checked : ∀ small : Fin 16,
      hexDigitValue (Nat.digitChar small.val).toUpper = small.val := by decide
  exact checked ⟨digit, below⟩

theorem hexDigits_of_lt (value : Nat) (below : value < 16) :
    hexDigits value = [(Nat.digitChar value).toUpper] := by
  simp only [hexDigits, Nat.toDigits_of_lt_base below, List.map_cons, List.map_nil]

theorem hexDigits_of_le (value : Nat) (least : 16 ≤ value) :
    hexDigits value =
      hexDigits (value / 16) ++ [(Nat.digitChar (value % 16)).toUpper] := by
  simp only [hexDigits, Nat.toDigits_of_base_le (by decide : 1 < 16) least,
    List.map_append, List.map_cons, List.map_nil]

theorem hexValue_append_singleton (digits : List Char) (digit : Char) :
    hexValue (digits ++ [digit]) = 16 * hexValue digits + hexDigitValue digit := by
  simp only [hexValue, List.foldl_append, List.foldl_cons, List.foldl_nil]

theorem hexValue_hexDigits (value : Nat) : hexValue (hexDigits value) = value := by
  induction value using Nat.strongRecOn with
  | ind value previous =>
      by_cases below : value < 16
      · rw [hexDigits_of_lt value below]
        simp only [hexValue, List.foldl_cons, List.foldl_nil, Nat.mul_zero, Nat.zero_add]
        exact hexDigitValue_digitChar value below
      · have smaller : value / 16 < value := by omega
        rw [hexDigits_of_le value (by omega), hexValue_append_singleton,
          previous (value / 16) smaller,
          hexDigitValue_digitChar (value % 16) (Nat.mod_lt value (by decide))]
        omega

private theorem foldl_leading_zeros (count : Nat) (digits : List Char) :
    hexValue (List.replicate count '0' ++ digits) = hexValue digits := by
  induction count with
  | zero => rfl
  | succ count ih =>
      have leading : hexDigitValue '0' = 0 := by decide
      rw [← ih, List.replicate_succ]
      simp only [hexValue, List.cons_append, List.foldl_cons, leading, Nat.mul_zero, Nat.add_zero]

/-- Leading zeros do not change the value, so the least width loses nothing. -/
theorem hexValue_paddedHexDigits (width value : Nat) :
    hexValue (paddedHexDigits width value) = value := by
  unfold paddedHexDigits
  rw [foldl_leading_zeros, hexValue_hexDigits]

theorem forall_mem_hexDigits (holds : Char → Prop) (value : Nat)
    (each : ∀ digit : Fin 16, holds (Nat.digitChar digit.val).toUpper) :
    ∀ digit ∈ hexDigits value, holds digit := by
  induction value using Nat.strongRecOn with
  | ind value previous =>
      by_cases below : value < 16
      · rw [hexDigits_of_lt value below, List.forall_mem_singleton]
        exact each ⟨value, below⟩
      · rw [hexDigits_of_le value (by omega), List.forall_mem_append, List.forall_mem_singleton]
        exact ⟨previous (value / 16) (by omega), each ⟨value % 16, Nat.mod_lt value (by decide)⟩⟩

theorem length_paddedHexDigits (width value : Nat) (positive : 0 < width)
    (fits : value < Nat.pow 16 width) : (paddedHexDigits width value).length = width := by
  have short : (hexDigits value).length ≤ width := by
    rw [hexDigits, List.length_map]
    exact (Nat.length_toDigits_le_iff (by decide) positive).mpr fits
  rw [paddedHexDigits, List.length_append, List.length_replicate]
  omega

theorem forall_mem_hexText (holds : Char → Prop) (width value : Nat) (cross : holds 'x')
    (each : ∀ digit : Fin 16, holds (Nat.digitChar digit.val).toUpper) :
    ∀ character ∈ (hexText width value).toList, holds character := by
  have zero : holds '0' := each 0
  rw [hexText, String.toList_ofList, paddedHexDigits, List.forall_mem_cons, List.forall_mem_cons,
    List.forall_mem_append]
  refine ⟨zero, cross, ?_, forall_mem_hexDigits holds value each⟩
  intro character repeated
  rw [List.eq_of_mem_replicate repeated]
  exact zero

theorem not_mem_hexText (width value : Nat) (mark : Char) (cross : 'x' ≠ mark)
    (each : ∀ digit : Fin 16, (Nat.digitChar digit.val).toUpper ≠ mark) :
    mark ∉ (hexText width value).toList := by
  intro listed
  exact forall_mem_hexText (· ≠ mark) width value cross each mark listed rfl

theorem length_hexText (width value : Nat) (positive : 0 < width)
    (fits : value < Nat.pow 16 width) : (hexText width value).toList.length = width + 2 := by
  rw [hexText, String.toList_ofList, List.length_cons, List.length_cons,
    length_paddedHexDigits width value positive fits]

end Chip8
