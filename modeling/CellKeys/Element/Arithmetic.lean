import CellKeys.Element.Join
import CellKeys.Number

namespace CellKeys

namespace Element

/-- The number that an entry stands for outside its array. -/
def toNumber : Element → Number
  | float x => .float x
  | int n => .int n
  | bool b => .int (if b then 1 else 0)

/-- The integer that an entry of a kind of integers or truth values stands for. -/
def toInt : Element → Int
  | float _ => 0
  | int n => n
  | bool b => if b then 1 else 0

end Element

namespace ElementKind

/-- An integer as an entry of a kind. A kind of integers has to hold it, and a kind of values has to
    have a value near it. -/
def accept (kind : ElementKind) (n : Int) : Except Fault Element :=
  match kind with
  | float64 | float32 => do return .float (kind.rounded (← Number.fitting (.ofInt n)))
  | bool => .ok (.bool (n ≠ 0))
  | kind => if kind.holds n then .ok (.int n) else .error .tooLarge

end ElementKind

namespace Operator

/-- The kind in which an operator combines entries of a kind, if it does. Quotients are values;
    truth values count as small integers, except where they are only joined or met. -/
def workKind? (op : Operator) (kind : ElementKind) : Option ElementKind :=
  match op, kind with
  | divide, .float32 => some .float32
  | divide, _ => some .float64
  | subtract, .bool => none
  | multiply, .bool | bitAnd, .bool | bitOr, .bool => some .bool
  | _, .bool => some (.signed 8)
  | op, .float64 | op, .float32 => if op.isBitwise then none else some kind
  | _, kind => some kind

/-- An operator on integers of this many bits, before the result is reduced to their range. -/
def onSized (bits : Nat) (op : Operator) (m n : Int) : Int :=
  match op with
  | divide | floorDivide | remainder => if n = 0 then 0 else op.onInts m n
  | shiftLeft => if 0 ≤ n ∧ n < bits then op.onInts m n else 0
  | shiftRight => if 0 ≤ n ∧ n < bits then op.onInts m n else if m < 0 then -1 else 0
  | op => op.onInts m n

/-- An operator on two entries of the kind in which it works. -/
def onElements (op : Operator) (kind : ElementKind) (d e : Element) : Element :=
  match kind, d.toNumber, e.toNumber with
  | .bool, .int m, .int n => .bool ((if op = bitOr then m + n else m * n) ≠ 0)
  | .signed bits, .int m, .int n | .unsigned bits, .int m, .int n =>
    .int (kind.wrap (onSized bits op m n))
  | _, _, _ => .float (onValues kind.rounded op d.value e.value)

end Operator

end CellKeys
