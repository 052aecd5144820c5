import CellKeys.Element

namespace CellKeys

namespace ElementKind

/-- The least kind that holds the numbers of both kinds. Integers of 64 bits with and without a sign
    have only binary64 in common, which rounds them. -/
def join : ElementKind → ElementKind → ElementKind
  | bool, k => k
  | k, bool => k
  | float64, _ => float64
  | _, float64 => float64
  | float32, float32 => float32
  | float32, signed n => if n ≤ 16 then float32 else float64
  | float32, unsigned n => if n ≤ 16 then float32 else float64
  | signed n, float32 => if n ≤ 16 then float32 else float64
  | unsigned n, float32 => if n ≤ 16 then float32 else float64
  | signed m, signed n => signed (max m n)
  | unsigned m, unsigned n => unsigned (max m n)
  | signed m, unsigned n => if n < m then signed m else if n ≤ 32 then signed (2 * n) else float64
  | unsigned m, signed n => if m < n then signed n else if m ≤ 32 then signed (2 * m) else float64

/-- Whether the entries of a kind are integers or truth values. -/
def isWhole : ElementKind → Bool
  | float64 | float32 => false
  | _ => true

/-- An integer reduced to the range of a kind of integers. -/
def wrap : ElementKind → Int → Int
  | signed bits, n => n.bmod (2 ^ bits)
  | unsigned bits, n => n % 2 ^ bits
  | _, n => n

/-- The precision that binary64 values are brought to in a kind. -/
def rounded : ElementKind → Binary64 → Binary64
  | float32, x => x.toSingle
  | _, x => x

/-- The integer part of a value in a machine register of this size; a value out of range gives the
    least integer there. -/
def registerInt (bits : Nat) (x : Binary64) : Int :=
  match x.truncate? with
  | some n => if -(2 ^ (bits - 1)) ≤ n ∧ n < 2 ^ (bits - 1) then n else -(2 ^ (bits - 1))
  | none => -(2 ^ (bits - 1))

/-- A value cut off to an integer of a kind. Small kinds and the signed ones go through a register
    of 32 or 64 bits; the largest unsigned kind takes its upper half by way of an offset. -/
def cutOff (kind : ElementKind) (x : Binary64) : Int :=
  match kind with
  | signed bits => kind.wrap (registerInt (max bits 32) x)
  | unsigned bits =>
    if bits ≤ 16 then kind.wrap (registerInt 32 x)
    else if bits = 64 ∧ (Binary64.twoPow 63).le x then
      kind.wrap (registerInt 64 (x.sub (.twoPow 63)) + 2 ^ 63)
    else kind.wrap (registerInt 64 x)
  | _ => 0

end ElementKind

namespace Element

/-- Whether an entry is a number other than zero. -/
def isTrue : Element → Bool
  | float x => !x.isZero
  | int n => n ≠ 0
  | bool b => b

/-- The nearest integer that single precision can hold, as a value. -/
def singleOfInt (n : Int) : Binary64 :=
  let step := 2 ^ (n.natAbs.log2 - 23)
  let rounded := Binary64.nearestEven n.natAbs step * step
  .ofInt (if n < 0 then -rounded else rounded)

/-- An entry brought into another kind. -/
def cast (kind : ElementKind) (e : Element) : Element :=
  match kind, e with
  | .float64, e => float e.value
  | .float32, int n => float (singleOfInt n)
  | .float32, e => float e.value.toSingle
  | .bool, e => bool e.isTrue
  | kind, float x => int (kind.cutOff x)
  | kind, int n => int (kind.wrap n)
  | _, bool b => int (if b then 1 else 0)

end Element

end CellKeys
