import CellKeys.Binary64.Arithmetic

namespace CellKeys

/-- An operator on two numbers. -/
inductive Operator where
  | divide
  | multiply
  | subtract
  /-- The quotient rounded down. -/
  | floorDivide
  /-- What is left after the quotient rounded down; it has the divisor's sign. -/
  | remainder
  | shiftLeft
  | shiftRight
  | bitAnd
  | bitOr
  deriving DecidableEq, Repr

/-- Two integers combined bit by bit, by a function that gives zero for two zeros. The combination
    has no more bits than the longer one and a sign. -/
def combineBits (f : Nat → Nat → Nat) (m n : Int) : Int :=
  let modulus : Nat := 2 ^ (max m.natAbs.log2 n.natAbs.log2 + 2)
  Int.bmod (f (m % modulus).toNat (n % modulus).toNat) modulus

namespace Binary64

/-- The quotient of two values rounded down, by way of the remainder. -/
def floorQuotient (rounded : Binary64 → Binary64) (x y : Binary64) : Binary64 :=
  let rest := x.fmod y
  let quotient := rounded ((rounded (x.sub rest)).div y)
  let lowered :=
    if !rest.isZero && rest.lt (zero false) != y.lt (zero false) then rounded (quotient.sub one)
    else quotient
  if y.isZero then x.div y
  else if lowered.isZero then zero (x.div y).isNegative
  else
    let floor := lowered.floor
    if (ofRat (1 / 2)).lt (lowered.sub floor) then floor.add one else floor

end Binary64

namespace Operator

/-- Whether an operator works on bits and so on integers alone. -/
def isBitwise : Operator → Bool
  | shiftLeft | shiftRight | bitAnd | bitOr => true
  | _ => false

/-- An operator on integers. Shifts are by amounts that are not negative. -/
def onInts : Operator → Int → Int → Int
  | divide, m, n | floorDivide, m, n => m.fdiv n
  | multiply, m, n => m * n
  | subtract, m, n => m - n
  | remainder, m, n => m.fmod n
  | shiftLeft, m, n => m * 2 ^ n.toNat
  | shiftRight, m, n => m / 2 ^ n.toNat
  | bitAnd, m, n => combineBits (· &&& ·) m n
  | bitOr, m, n => combineBits (· ||| ·) m n

/-- An operator on binary64 values. Bits have no meaning here. -/
def onValues (rounded : Binary64 → Binary64) : Operator → Binary64 → Binary64 → Binary64
  | divide, x, y => rounded (x.div y)
  | multiply, x, y => rounded (x.mul y)
  | subtract, x, y => rounded (x.sub y)
  | floorDivide, x, y => x.floorQuotient rounded y
  | remainder, x, y => rounded (x.modulo y)
  | _, _, _ => .nan

end Operator

end CellKeys
