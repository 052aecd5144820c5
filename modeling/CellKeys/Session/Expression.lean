import CellKeys.Hasher.Construction
import CellKeys.Session.Store

namespace CellKeys

/-- A computation that can fail and that leaves the records of the hashers it builds. -/
abbrev Recorded := ExceptT Fault (StateM (List BuildRecord))

namespace Recorded

/-- A result that leaves no records. -/
def of {α : Type} (result : Except Fault α) : Recorded α := ExceptT.mk (pure result)

/-- A hasher that was built, with its records; what failed leaves none. -/
def hasher (built : Except Fault Hasher) : Recorded Hasher := do
  let h ← of built
  modify (· ++ h.records)
  return h

end Recorded

/-- An expression for a value. -/
inductive Expression where
  | value (v : Value)
  | tuple (items : List Expression)
  | list (items : List Expression)
  /-- A pose with these attributes. -/
  | pose (attributes : List Expression)
  /-- A pose of another type that gives this position and this heading as they are. -/
  | otherPose (typeName : String) (position heading : Expression)
  | hasher (c : Hasher.Constructor) (args : List Expression) (width : Option Expression)
  /-- The object stored under a name. -/
  | name (s : String)

namespace Expression

mutual

/-- The value of an expression, where names stand for the values that a function gives. -/
def eval (lookup : String → Option Value) : Expression → Recorded Value
  | value v => return v
  | tuple items => return .tuple (← evalAll lookup items)
  | list items => return .list (← evalAll lookup items) none
  | pose attributes => do Recorded.of (Value.ofAttributes (← evalAll lookup attributes))
  | otherPose typeName position heading => do
    let position ← position.eval lookup
    let heading ← heading.eval lookup
    return .foreign typeName [("translation", true), ("angle", true)] [position, heading] none
  | hasher c args width => do
    let args ← evalAll lookup args
    match width with
    | none => return .hasher (← Recorded.hasher (c.apply args none)) none
    | some width => do
      let width ← width.eval lookup
      return .hasher (← Recorded.hasher (c.apply args (some width))) none
  | name s => match lookup s with
    | some v => return v
    | none => throw .unknownName

/-- The values of expressions from left to right. -/
def evalAll (lookup : String → Option Value) : List Expression → Recorded (List Value)
  | [] => return []
  | e :: es => do
    let v ← e.eval lookup
    let vs ← evalAll lookup es
    return v :: vs

end

end Expression

end CellKeys
