import CellKeys.Binary64.Bits

namespace CellKeys.Binary64

/-- The value nearest to an integer: an infinity when the integer is too large. -/
def ofInt (n : Int) : Binary64 := roundUnits false (n * unitsPerOne)

/-- The value nearest to a fraction: an infinity when the fraction is too large, and a zero with the
    fraction's sign when it is too small. -/
def ofRat (q : Rat) : Binary64 := round (q.num < 0) (q.num.natAbs * unitsPerOne) q.den

/-- The value nearest to a decimal number: `digits` times a power of ten. -/
def ofDecimal (negative : Bool) (digits : Nat) : Int → Binary64
  | .ofNat exponent => round negative (digits * 10 ^ exponent * unitsPerOne) 1
  | .negSucc exponent => round negative (digits * unitsPerOne) (10 ^ (exponent + 1))

def add : Binary64 → Binary64 → Binary64
  | nan, _ | _, nan => nan
  | infinity s, infinity t => if s = t then infinity s else nan
  | infinity s, finite .. => infinity s
  | finite .., infinity t => infinity t
  | finite s a _, finite t b _ => roundUnits (s && t) (signedUnits s a + signedUnits t b)

def sub (x y : Binary64) : Binary64 := add x y.neg

def mul : Binary64 → Binary64 → Binary64
  | nan, _ | _, nan => nan
  | infinity s, y => if y.isZero then nan else infinity (s ^^ y.isNegative)
  | x, infinity t => if x.isZero then nan else infinity (x.isNegative ^^ t)
  | finite s a _, finite t b _ => round (s ^^ t) (a * b) unitsPerOne

/-- Division. A zero divisor gives an infinity, or a NaN when the dividend is zero as well. -/
def div : Binary64 → Binary64 → Binary64
  | nan, _ | _, nan => nan
  | infinity _, infinity _ => nan
  | infinity s, finite t _ _ => infinity (s ^^ t)
  | finite s _ _, infinity t => zero (s ^^ t)
  | finite s a _, finite t b _ =>
    if b = 0 then if a = 0 then nan else infinity (s ^^ t)
    else round (s ^^ t) (a * unitsPerOne) b

/-- The remainder of a division whose quotient is cut off toward zero; it has the dividend's sign.
    -/
def fmod : Binary64 → Binary64 → Binary64
  | finite s a _, finite _ b _ => if b = 0 then nan else round s (a % b) 1
  | finite s a h, infinity _ => finite s a h
  | _, _ => nan

/-- The remainder of a division whose quotient is rounded down; it has the divisor's sign. -/
def modulo (x y : Binary64) : Binary64 :=
  let rest := x.fmod y
  if rest.isZero then zero y.isNegative
  else if rest.lt (zero false) != y.lt (zero false) then rest.add y else rest

/-- The greatest integer that is not above the value; none for infinities and NaN. -/
def cell? : Binary64 → Option Int
  | finite s a _ => some (signedUnits s a / (unitsPerOne : Int))
  | _ => none

/-- The integer part of the value; none for infinities and NaN. -/
def truncate? : Binary64 → Option Int
  | finite s a _ => some ((signedUnits s a).tdiv unitsPerOne)
  | _ => none

/-- The greatest integer that is not above the value, as a value. The sign of a zero is kept. -/
def floor : Binary64 → Binary64
  | finite s a _ => roundUnits s (signedUnits s a / (unitsPerOne : Int) * unitsPerOne)
  | x => x

/-- The power of two with this exponent. -/
def twoPow (exponent : Nat) : Binary64 := ofInt (2 ^ exponent)

/-- The nearest value of the format with 24 bits of precision, exponents from -149 and magnitudes
    below 2^128. -/
def toSingle : Binary64 → Binary64
  | finite s a _ =>
    let step := 2 ^ max (a.log2 - 23) 925
    let rounded := nearestEven a step * step
    if rounded < 2 ^ 1202 then round s rounded 1 else infinity s
  | x => x

theorem cell?_eq_none_iff (x : Binary64) : x.cell? = none ↔ x.isFinite = false := by
  cases x with
  | nan | infinity => exact ⟨fun _ => rfl, fun _ => rfl⟩
  | finite => exact ⟨nofun, nofun⟩

theorem div_nan (x : Binary64) : x.div nan = nan := by cases x <;> rfl

end CellKeys.Binary64
