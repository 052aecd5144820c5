import CellKeys.Value.Number

namespace CellKeys

namespace Value

/-- The greatest number of axes of an array. -/
def axisLimit : Nat := 64

mutual

/-- The shape of nested values, if they form a rectangle. -/
def shape? : Value → Option (List Nat)
  | tuple items | list items _ => match shapes? items with
    | some [] => some [0]
    | some (s :: ss) => if ss.all (· == s) then some ((ss.length + 1) :: s) else .none
    | .none => .none
  | array _ t _ => some t.shape
  | endless => .none
  | _ => some []

/-- The shapes of values, if each of them forms a rectangle. -/
def shapes? : List Value → Option (List (List Nat))
  | [] => some []
  | v :: vs => match v.shape?, shapes? vs with
    | some s, some ss => some (s :: ss)
    | _, _ => .none

end

/-- A text in an array, which ends before the NULs at its end. -/
def withoutEnd (s : String) : String :=
  String.ofList (s.toList.reverse.dropWhile (· = '\x00')).reverse

/-- The binary64 value of a single entry. Nothing stands for NaN. -/
def entry : Value → Except Fault Binary64
  | none => .ok .nan
  | text s => readText (withoutEnd s)
  | v => v.toBinary64

mutual

/-- The single entries of nested values, in row-major order. -/
def leaves : Value → List Value
  | tuple items | list items _ => leavesAll items
  | array kind t _ => t.entries.map fun e => scalar ⟨kind, e⟩ .none
  | v => [v]

/-- The single entries of a list of nested values. -/
def leavesAll : List Value → List Value
  | [] => []
  | v :: vs => v.leaves ++ leavesAll vs

end

/-- Nested values as an array of numbers. -/
def toTensor (v : Value) : Except Fault (Tensor Binary64) :=
  match v.shape? with
  | some shape =>
    if axisLimit < shape.length then .error .notRectangular
    else do
      match Tensor.ofEntries? shape (← v.leaves.mapM entry) with
      | some t => return t
      | .none => .error .notRectangular
  | .none => .error .notRectangular

end Value

end CellKeys
