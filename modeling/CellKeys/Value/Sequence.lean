import CellKeys.Value.Basic

namespace CellKeys

namespace Value

/-- The slices of an array, which are scalars when it has one axis. -/
def slices (kind : ElementKind) (t : Tensor Element) : List Value :=
  match t.shape with
  | [_] => t.entries.map fun e => scalar ⟨kind, e⟩ .none
  | _ => t.slices.map fun s => array kind s .none

/-- The elements of a sequence in order. -/
def elements : Value → Except Fault (List Value)
  | text s => .ok (s.toList.map fun c => text (String.singleton c))
  | tuple items | list items _ => .ok items
  | dict => .ok []
  | array kind t _ => if t.shape = [] then .error .notSequence else .ok (slices kind t)
  | _ => .error .notSequence

/-- The length of a sequence. -/
def length : Value → Except Fault Nat
  | text s => .ok s.length
  | tuple items | list items _ => .ok items.length
  | dict => .ok 0
  | array _ t _ => match t.shape with
    | [] => .error .notSequence
    | n :: _ => .ok n
  | _ => .error .notSequence

end Value

end CellKeys
