import CellKeys.Fault
import CellKeys.Operator

namespace CellKeys

/-- A number of any size or precision. -/
inductive Number where
  | int (n : Int)
  | fraction (q : Rat)
  | float (x : Binary64)

namespace Number

/-- A value unless it is an infinity, which stands for a number too large for the format. -/
def fitting (x : Binary64) : Except Fault Binary64 :=
  match x with
  | .infinity _ => .error .tooLarge
  | x => .ok x

/-- The nearest binary64 value; exact numbers that are too large for one are refused. -/
def toBinary64 : Number → Except Fault Binary64
  | int n => fitting (.ofInt n)
  | fraction q => fitting (.ofRat q)
  | float x => .ok x

/-- An operation by the kinds of its operands: on integers, on exact numbers one of which is a
    fraction, and else on binary64 values. -/
def byKind (ints : Int → Int → Except Fault Number) (fractions : Rat → Rat → Except Fault Number)
    (values : Binary64 → Binary64 → Except Fault Number) : Number → Number → Except Fault Number
  | int m, int n => ints m n
  | int m, fraction q => fractions m q
  | fraction p, int n => fractions p n
  | fraction p, fraction q => fractions p q
  | x, y => do values (← x.toBinary64) (← y.toBinary64)

/-- The quotient of integers, rounded once. -/
def intQuotient (m n : Int) : Except Fault Number :=
  if n = 0 then .error .zeroDivision
  else do
    let x ← fitting (.round ((m < 0) ^^ (n < 0)) (m.natAbs * Binary64.unitsPerOne) n.natAbs)
    return float x

/-- The quotient of exact fractions. -/
def exactQuotient (p q : Rat) : Except Fault Number :=
  if q = 0 then .error .zeroDivision else .ok (fraction (p / q))

/-- The quotient of binary64 values. -/
def floatQuotient (x y : Binary64) : Except Fault Number :=
  if y.isZero then .error .zeroDivision else .ok (float (x.div y))

/-- Division. -/
def quotient : Number → Number → Except Fault Number :=
  byKind intQuotient exactQuotient floatQuotient

/-- The product of two numbers. -/
def product : Number → Number → Except Fault Number :=
  byKind (fun m n => .ok (int (m * n))) (fun p q => .ok (fraction (p * q)))
    fun x y => .ok (float (x.mul y))

/-- The difference of two numbers. -/
def difference : Number → Number → Except Fault Number :=
  byKind (fun m n => .ok (int (m - n))) (fun p q => .ok (fraction (p - q)))
    fun x y => .ok (float (x.sub y))

/-- The quotient rounded down, which is an integer unless an operand is binary64. -/
def floorQuotient : Number → Number → Except Fault Number :=
  byKind (fun m n => if n = 0 then .error .zeroDivision else .ok (int (m.fdiv n)))
    (fun p q => if q = 0 then .error .zeroDivision else .ok (int (p / q).floor))
    fun x y => if y.isZero then .error .zeroDivision else .ok (float (x.floorQuotient id y))

/-- What is left after the quotient rounded down. -/
def remainder : Number → Number → Except Fault Number :=
  byKind (fun m n => if n = 0 then .error .zeroDivision else .ok (int (m.fmod n)))
    (fun p q => if q = 0 then .error .zeroDivision else .ok (fraction (p - (p / q).floor * q)))
    fun x y => if y.isZero then .error .zeroDivision else .ok (float (x.modulo y))

/-- An operator on two numbers. Only integers have bits. -/
def combine (op : Operator) (x y : Number) : Except Fault Number :=
  match op with
  | .divide => x.quotient y
  | .multiply => x.product y
  | .subtract => x.difference y
  | .floorDivide => x.floorQuotient y
  | .remainder => x.remainder y
  | op => match x, y with
    | int m, int n => .ok (int (op.onInts m n))
    | _, _ => .error .notNumeric

/-- The integer that a number floors to, exactly; infinities and NaN have none, and an exact number
    too large for binary64 is refused. -/
def cell (x : Number) : Except Fault (Option Int) := do
  let _ ← x.toBinary64
  return match x with
    | int n => some n
    | fraction q => some q.floor
    | float x => x.cell?

def isZero : Number → Bool
  | int n => n = 0
  | fraction q => q = 0
  | float x => x.isZero

/-- Whether a number has a minus sign. Only binary64 zeros can have one. -/
def isNegative : Number → Bool
  | int n => n < 0
  | fraction q => q < 0
  | float x => x.isNegative

/-- The integer part of a number. -/
def toInt : Number → Except Fault Int
  | int n => .ok n
  | fraction q => .ok (q.num.tdiv q.den)
  | float x => match x.truncate? with
    | some n => .ok n
    | none => if x.isNaN then .error .noInteger else .error .tooLarge

/-- The exact value of a finite number. -/
def rational? : Number → Option Rat
  | int n => some n
  | fraction q => some q
  | float (.finite s a _) => some (mkRat (Binary64.signedUnits s a) Binary64.unitsPerOne)
  | float _ => none

/-- Equality of numbers of any two kinds; a NaN equals nothing. -/
def numEq (x y : Number) : Bool :=
  match x.rational?, y.rational? with
  | some p, some q => p == q
  | none, none => match x, y with
    | float a, float b => a.numEq b
    | _, _ => false
  | _, _ => false

/-- Exact numbers have equal hashes when they agree modulo this prime. -/
def hashModulus : Nat := 2 ^ 61 - 1

/-- Whether the hashes of two numbers of one sign agree. -/
def sameHash (x y : Number) : Bool :=
  match x.rational?, y.rational? with
  | some p, some q => (p.num * q.den - q.num * p.den) % hashModulus == 0
  | none, none => true
  | _, _ => false

end Number

end CellKeys
