import CellKeys.Binary64.Basic
import CellKeys.Text.Hex

namespace CellKeys.Binary64

/-- Magnitude part of the pattern of infinity. -/
def infinityBits : Nat := 2047 * 2 ^ 52

def signBit : Nat := 2 ^ 63

/-- Number of units in the magnitude whose pattern, without sign, is this one. -/
def unitsOfBits (bits : Nat) : Nat :=
  if bits < 2 ^ 52 then bits else (2 ^ 52 + bits % 2 ^ 52) * 2 ^ (bits / 2 ^ 52 - 1)

/-- The pattern, without sign, of a magnitude on the grid. -/
def bitsOfUnits (units : Nat) : Nat := spacing units * 2 ^ 52 + units / 2 ^ spacing units

/-- The value with this pattern. Only the low 64 bits count. -/
def ofBits (bits : Nat) : Binary64 :=
  let negative := signBit ≤ bits % 2 ^ 64
  let magnitude := bits % signBit
  if magnitude < infinityBits then round negative (unitsOfBits magnitude) 1
  else if magnitude = infinityBits then .infinity negative
  else .nan

/-- The pattern of a value; a NaN has the quiet one without sign. -/
def toBits : Binary64 → Nat
  | nan => infinityBits + 2 ^ 51
  | infinity negative => (if negative then signBit else 0) + infinityBits
  | finite negative units _ => (if negative then signBit else 0) + bitsOfUnits units

/-- A value as sixteen hexadecimal digits, except that a NaN is the word for it. -/
def toHex (x : Binary64) : String :=
  if x.isNaN then "nan" else String.ofList (Text.hexDigits 16 x.toBits)

/-- Reads what `toHex` writes. -/
def ofHex? (s : String) : Option Binary64 :=
  if s = "nan" then some .nan
  else if s.length = 16 then (Text.ofHexDigits? s.toList).map ofBits
  else none

/-- The value nearest to half a turn. -/
def pi : Binary64 := ofBits 0x400921fb54442d18

/-- The value nearest to a full turn, twice `pi`. -/
def tau : Binary64 := ofBits 0x401921fb54442d18

/-- The number one. -/
def one : Binary64 := ofBits 0x3ff0000000000000

end CellKeys.Binary64
