import CellKeys.Tensor.Broadcast
import CellKeys.Value.Rectangle

namespace CellKeys

/-- The place that an index stands for in a sequence of this length. -/
def placeOf? (length : Nat) (index : Int) : Option Nat :=
  let place := if index < 0 then index + length else index
  if 0 ≤ place ∧ place < length then some place.toNat else none

namespace Tensor

variable {α : Type}

/-- The array with other entries in the row at this place. -/
def setRow? (t : Tensor α) (place : Nat) (row : List α) : Option (Tensor α) :=
  ofEntries? t.shape (t.rows.set place row).flatten

end Tensor

namespace ElementKind

/-- The integers that a number outside arrays may be cut off to before it is reduced to the range of
    a kind: those of a machine word, with or without a sign for the larger unsigned kinds. -/
def register : ElementKind → Int → Bool
  | unsigned bits, n => (signed 64).holds n || (32 ≤ bits && (unsigned 64).holds n)
  | _, n => (signed 64).holds n

/-- A value as an integer entry. Integers and the text of one have to be in the range of the kind;
    binary64 values and fractions are cut off and reduced to it. -/
def convertInt (kind : ElementKind) (v : Value) : Except Fault Element := do
  let n ← v.toInt
  match v with
  | .float .. | .fraction _ =>
    if kind.register n then return .int (kind.wrap n) else throw .tooLarge
  | _ => if kind.holds n then return .int n else throw .tooLarge

/-- A value as an entry of an array of this kind. An entry of another array is brought into the
    kind. -/
def convert (kind : ElementKind) (v : Value) : Except Fault Element :=
  match v.element? with
  | some e => .ok (e.cast kind)
  | none => match kind with
    | float64 => do return .float (← v.entry)
    | float32 => do return .float (← v.entry).toSingle
    | bool => match v with
      | .none | .dict => .ok (.bool false)
      | .text s => .ok (.bool (s ≠ ""))
      | v => .ok (.bool ((v.number?.map fun x => !x.isZero).getD true))
    | kind => kind.convertInt v

end ElementKind

namespace Value

/-- The list or array after the item at an index has been given a value. A list takes the value as
    it is to be stored, an array the entries of the value itself. A mapping takes any item, and none
    of them is looked at again. -/
def assignItem (v : Value) (index : Int) (new stored : Value) : Except Fault Value :=
  match v with
  | list items m => match placeOf? items.length index with
    | some place => .ok (list (items.set place stored) m)
    | .none => .error .indexRange
  | array kind t m => match t.shape with
    | [] => .error .indexRange
    | n :: rest => do
      let some place := placeOf? n index | throw .indexRange
      let some shape := new.shape? | throw .notRectangular
      let some leaves := Tensor.spreadOver? shape rest new.leaves | throw .shapeMismatch
      match t.setRow? place (← leaves.mapM kind.convert) with
      | some t => return array kind t m
      | .none => throw .shapeMismatch
  | dict => .ok dict
  | _ => .error .notAssignable

end Value

end CellKeys
