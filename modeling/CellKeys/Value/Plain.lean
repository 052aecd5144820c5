import CellKeys.Text.Template
import CellKeys.Value.Number
import CellKeys.Value.Printer

namespace CellKeys

namespace Value

/-- The greatest length of a sequence. -/
def lengthLimit : Nat := 2 ^ 63 - 1

/-- The greatest number of elements that a repeated sequence is kept with. -/
def memoryLimit : Nat := 2 ^ 26

/-- The elements of a sequence, as often as the count says; counts below zero count as zero. -/
def repeated {α : Type} (count : Int) (items : List α) : Except Fault (List α) :=
  if (lengthLimit : Int) < count.natAbs then .error .tooLarge
  else if memoryLimit < count.toNat * items.length then .error .noMemory
  else .ok (List.replicate (if items.isEmpty then 0 else count.toNat) items).flatten

/-- Whether a value is a sequence that can be repeated. -/
def isRepeatable : Value → Bool
  | text _ | tuple _ | list .. => true
  | _ => false

/-- A sequence repeated; other values have no multiples. -/
def repeatBy (count : Int) : Value → Except Fault Value
  | text s => do
    if lengthLimit < count.toNat * s.length then throw .tooLarge
    return text (String.ofList (← repeated count s.toList))
  | tuple items => do return tuple (← repeated count items)
  | list items _ => do return list (← repeated count items) .none
  | _ => .error .notNumeric

/-- An operator on two values outside arrays. -/
def combinePlain (op : Operator) (a b : Value) : Except Fault Value :=
  match a.number?, b.number? with
  | some x, some y => do return ofNumber (← x.combine op y)
  | _, _ => match op, a, b with
    | .multiply, a, b => match a.integer?, b.integer? with
      | some count, .none => b.repeatBy count
      | .none, some count => a.repeatBy count
      | _, _ => .error .notNumeric
    | .remainder, text s, width w => do return text (← Text.fillTemplate s w.bits w.text)
    | _, _, _ => .error .notNumeric

end Value

end CellKeys
