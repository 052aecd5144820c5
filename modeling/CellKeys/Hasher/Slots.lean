import CellKeys.Hasher.Keys
import CellKeys.Key.Batch

namespace CellKeys.Value

/-- A function that an object of another type has under this name. It takes no arguments, or it is
    no function. -/
def otherFunction {α : Type} (name : String) : Value → Except Fault (Value → Except Fault α)
  | foreign _ attributes values _ => match attribute? name attributes values with
    | some (true, _) => .ok fun _ => .error .argumentCount
    | some (false, _) => .ok fun _ => .error .notCallable
    | .none => .error .attribute
  | _ => .error .attribute

/-- The function of an object that gives the key of a state. A hasher reads its slots when it is
    called, and a pose hasher asks what lies in its last slot. -/
def keyFunction : Value → Except Fault (Value → Except Fault Nat)
  | slots .pose _ _ _ underlying _ => .ok fun state => do
    let key ← underlying.keyFunction
    key (.tuple (← state.poseAxes))
  | slots kind resolution size _ _ _ => .ok fun state => do
    let axes ← kind.axes resolution.length state
    keyOfState (← Width.ofValue size) axes resolution
  | v => otherFunction "hash" v

/-- The function of an object that gives the keys of many states, with the size of their words. -/
def keysFunction : Value → Except Fault (Value → Except Fault (Width × Tensor UInt64))
  | slots .pose resolution _ _ underlying _ => .ok fun states => do
    let keys ← underlying.keysFunction
    keys (.ofTensor (← HasherClass.axesTable .pose resolution.length states))
  | slots kind resolution size _ _ _ => .ok fun states => do
    let table ← kind.axesTable resolution.length states
    let w ← Width.ofValue size
    return (w, ← batchKeys w table (← resolution.elements))
  -- A hasher that delegates to itself is called again and again.
  | endless => .ok fun _ => .error .endless
  | v => otherFunction "hash_many" v

/-- The function of an object that gives the axes of a state. -/
def axesFunction : Value → Except Fault (Value → Except Fault Value)
  | slots kind resolution _ _ _ _ => .ok (kind.axes resolution.length)
  | v => otherFunction "axes" v

/-- The function of an object that gives the axes of many states. -/
def tableFunction : Value → Except Fault (Value → Except Fault Value)
  | slots kind resolution _ _ _ _ => .ok (kind.axesValue resolution.length)
  | v => otherFunction "axes_array" v

/-- What calling an object with a state does: a hasher gives the key. -/
def callFunction (v : Value) : Except Fault (Value → Except Fault Nat) :=
  if v.isHasher then v.keyFunction else .error .notCallable

end CellKeys.Value
