import CellKeys.Heading
import CellKeys.Value.Number
import CellKeys.Value.Sequence

namespace CellKeys

/-- The heading in the range that belongs to a heading given as a number. -/
def wrapValue (theta : Value) : Except Fault Binary64 := do
  Heading.wrap (← theta.toBinary64)

namespace Value

/-- The result of calling a named attribute of a foreign object without arguments. -/
def call (name : String) (attributes : List (String × Bool)) (values : List Value) :
    Except Fault Value :=
  match attribute? name attributes values with
  | some (true, v) => .ok v
  | some (false, _) => .error .notCallable
  | .none => .error .attribute

/-- The position of a pose, as the pose gives it. -/
def translation : Value → Except Fault Value
  | pose x y _ _ => .ok (tuple [x, y])
  | foreign _ attributes values _ => call "translation" attributes values
  | _ => .error .attribute

/-- The heading of a pose. The library's own poses bring it into the range, others give their own.
    -/
def angle : Value → Except Fault Value
  | pose _ _ theta _ => do return ofBinary64 (← wrapValue theta)
  | foreign _ attributes values _ => call "angle" attributes values
  | _ => .error .attribute

/-- Whether a value is a pose. -/
def isPose : Value → Bool
  | pose .. => true
  | foreign _ attributes values _ => callable attributes values "translation" &&
    callable attributes values "angle"
  | _ => false
where
  /-- Whether a named attribute exists and is callable. -/
  callable (attributes : List (String × Bool)) (values : List Value) (name : String) : Bool :=
    match attribute? name attributes values with
    | some (callable, _) => callable
    | .none => false

/-- The two components of a position and the heading of a pose. -/
def poseAxes (state : Value) : Except Fault (List Value) := do
  match ← (← state.translation).elements with
  | [x, y] => return [x, y, ← state.angle]
  | _ => throw .componentCount

/-- The pose with these attributes, each a number or the text of one; those left out are zero. -/
def ofAttributes (given : List Value) : Except Fault Value := do
  if 3 < given.length then throw .argumentCount
  let readings ← given.mapM toReading
  let part := fun i : Nat => (readings[i]?.map ofReading).getD (ofBinary64 (.zero false))
  return pose (part 0) (part 1) (part 2) .none

end Value

end CellKeys
