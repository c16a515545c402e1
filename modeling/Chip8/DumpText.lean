import Chip8.HexadecimalText

set_option autoImplicit false

/-! The layout that all dumps share: lines indented by tabs, each opened by the
range of positions it covers. -/

namespace Chip8

def valuesPerLine : Nat := 8

def indentation (depth : Nat) : String :=
  String.ofList (List.replicate depth '\t')

def rangeText (first last : Nat) : String :=
  hexText 4 first ++ " - " ++ hexText 4 last ++ " :"

def joinLines (lines : List String) : String :=
  String.intercalate "\n" lines

def valueLine (depth line : Nat) (values : List Nat) : String :=
  indentation depth ++
    rangeText (valuesPerLine * line) (valuesPerLine * line + values.length - 1) ++
    String.join (values.map (fun value => " " ++ hexText 4 value))

/-- A list of values in lines of eight, the last line as long as is left. -/
def valueDump (depth : Nat) (values : List Nat) : String :=
  joinLines ((List.range ((values.length + valuesPerLine - 1) / valuesPerLine)).map
    (fun line => valueLine depth line
      ((values.drop (valuesPerLine * line)).take valuesPerLine)))

end Chip8
