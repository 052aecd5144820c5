import CellKeys.Decimal.Reader
import CellKeys.Element.Arithmetic
import CellKeys.Text.Quoted
import CellKeys.Value.Basic

namespace CellKeys

namespace Value

/-- The number that a value is. Text is none, whatever it says. -/
def number? : Value → Option Number
  | bool b => some (.int (if b then 1 else 0))
  | int n => some (.int n)
  | width w => some (.int w.bits)
  | float x _ => some (.float x)
  | fraction q => some (.fraction q)
  | _ => .none

/-- The integer that a value is. -/
def integer? : Value → Option Int
  | bool b => some (if b then 1 else 0)
  | int n => some n
  | width w => some w.bits
  | _ => .none

/-- The entry that a scalar holds, or an array without axes. -/
def element? : Value → Option Element
  | scalar s _ => some s.element
  | array _ ⟨[], [e], _⟩ _ => some e
  | _ => .none

/-- The value that a number is. -/
def ofNumber : Number → Value
  | .int n => int n
  | .fraction q => fraction q
  | .float x => ofBinary64 x

/-- An entry as a value outside arrays. -/
def ofElement : Element → Value
  | .float x => ofBinary64 x
  | .int n => int n
  | .bool b => bool b

/-- The number that a value is or holds, refusing all others. -/
def toNumber (v : Value) : Except Fault Number :=
  match v.number?, v.element? with
  | some x, _ => .ok x
  | .none, some e => .ok e.toNumber
  | .none, .none => .error .notNumeric

/-- The binary64 value nearest to a number; text is refused. -/
def toBinary64 (v : Value) : Except Fault Binary64 := do
  (← v.toNumber).toBinary64

/-- The integer that a coordinate floors to, or none. What arrays hold is floored as a binary64
    value. -/
def cell (v : Value) : Except Fault (Option Int) :=
  match v.element? with
  | some e => .ok e.value.cell?
  | .none => do (← v.toNumber).cell

/-- The value that a text stands for. -/
def readText (s : String) : Except Fault Binary64 :=
  match Decimal.read? s with
  | some x => .ok x
  | .none => .error (.unreadable (Text.quoted s))

/-- The integer that a text stands for. -/
def readInt (s : String) : Except Fault Int :=
  match Decimal.readInt? s with
  | some n => .ok n
  | .none => .error (.unreadable (Text.quoted s))

/-- The binary64 value of a number or of the text of one. A binary64 value stays the same object. -/
def toReading : Value → Except Fault Reading
  | float x mark => .ok ⟨x, mark⟩
  | text s => do return .ofValue (← readText s)
  | v => do return .ofValue (← v.toBinary64)

/-- The integer part of a number, or the integer that a text stands for. -/
def toInt : Value → Except Fault Int
  | text s => readInt s
  | v => do (← v.toNumber).toInt

end Value

end CellKeys
