import CellKeys.Axis.Word
import CellKeys.Binary64.Arithmetic

namespace CellKeys

namespace Binary64

/-- A value cut off to a signed machine integer; one out of range gives the least of them. -/
def toInt64 (x : Binary64) : Int64 :=
  match x.truncate? with
  | some n => if -2 ^ 63 ≤ n ∧ n < 2 ^ 63 then Int64.ofInt n else Int64.minValue
  | none => Int64.minValue

end Binary64

namespace Width

/-- The floor of a coordinate, reduced by the modulus; a coordinate without a cell counts as zero.
    -/
def reduced (w : Width) (x : Binary64) : Binary64 :=
  ((if x.isFinite then x else .zero false).floor).fmod (.twoPow w.bits)

/-- Brings a value below 2^63 by one subtraction of 2^64. -/
def lowered (x : Binary64) : Binary64 :=
  if (Binary64.twoPow 63).le x then x.sub (.twoPow 64) else x

/-- Brings a value to -2^63 or above by one addition of 2^64. -/
def raised (x : Binary64) : Binary64 :=
  if x.lt (Binary64.twoPow 63).neg then x.add (.twoPow 64) else x

/-- The value that is cut off to a machine integer. -/
def machineCell (w : Width) (x : Binary64) : Binary64 := raised (lowered (w.reduced x))

/-- The machine word that stands for the cell of a coordinate, or for the lack of one. -/
def laneWord (w : Width) (x : Binary64) : UInt64 :=
  if x.isFinite then (w.machineCell x).toInt64.toUInt64 &&& UInt64.ofNat w.mask
  else UInt64.ofNat w.signWord

/-- The word of a coordinate before it is turned to its band. -/
def laneHash (w : Width) (x : Binary64) : UInt64 :=
  w.laneWord x * UInt64.ofNat w.multiplier &&& UInt64.ofNat w.mask

/-- A machine word moved up by a number of bits; beyond all of them nothing is left. -/
def moveUp (word : UInt64) (count : Nat) : UInt64 :=
  if count < 64 then word <<< UInt64.ofNat count else 0

/-- A machine word moved down by a number of bits; beyond all of them nothing is left. -/
def moveDown (word : UInt64) (count : Nat) : UInt64 :=
  if count < 64 then word >>> UInt64.ofNat count else 0

/-- A word turned by moving it up by one number of bits and down by another. -/
def laneTurn (w : Width) (up down : Nat) (word : UInt64) : UInt64 :=
  (moveUp word up &&& UInt64.ofNat w.mask) ||| moveDown word down

/-- The word of a coordinate, turned left by this amount. -/
def laneAxisWord (w : Width) (amount : Int) (x : Binary64) : UInt64 :=
  let left := w.turn amount
  if left = 0 then w.laneHash x else w.laneTurn left (w.bits - left) (w.laneHash x)

/-- The words of a list of coordinates, turned left by this amount. -/
def laneWords (w : Width) (xs : List Binary64) (amount : Int) : List UInt64 :=
  xs.map (w.laneAxisWord amount)

end Width

end CellKeys
