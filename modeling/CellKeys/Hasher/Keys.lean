import CellKeys.Hasher.Construction
import CellKeys.Key.Batch
import CellKeys.Key.State

namespace CellKeys

namespace Hasher

/-- Wraps every third number of a list. -/
def wrapThirds : List Binary64 → List Binary64
  | x :: y :: theta :: rest => x :: y :: Heading.wrapEntry theta :: wrapThirds rest
  | rest => rest

theorem length_wrapThirds (xs : List Binary64) : (wrapThirds xs).length = xs.length := by
  fun_induction wrapThirds xs with
  | case1 x y theta rest ih => simp [ih]
  | case2 rest h => rfl

/-- The poses in the rows of a table, with their headings brought into the range. -/
def wrapTable (table : Tensor Binary64) : Except Fault (Tensor Binary64) :=
  match table.shape with
  | [_, 3] => .ok ⟨table.shape, wrapThirds table.entries, by
      rw [length_wrapThirds, table.length_entries]⟩
  | shape => .error (.poseBatchShape shape)

end Hasher

namespace HasherClass

/-- The coordinates of a state that is a sequence, for a number of axes that is asked for when it is
    needed. A tuple's length is checked before its items are read, that of another sequence
    afterwards. -/
def readings (kind : HasherClass) (count : Except Fault Nat) (state : Value) :
    Except Fault (List Reading) := do
  match kind with
  | .plain => throw .axesUndefined
  | .array =>
    let readings ← (← state.elements).mapM Value.toReading
    let dimensions ← count
    if readings.length ≠ dimensions then throw (.valueCount dimensions readings.length)
    return readings
  | .tuple | .pose =>
    let given ← state.length
    let dimensions ← count
    if given ≠ dimensions then throw (.tupleLength dimensions given)
    (← state.elements).mapM Value.toReading

/-- The axes of a state: a list for sequences, a tuple for tuples and poses. The axes of a pose are
    left as the pose gives them. -/
def axes (kind : HasherClass) (count : Except Fault Nat) (state : Value) : Except Fault Value := do
  match kind with
  | .pose => return .tuple (← state.poseAxes)
  | .array => return .list ((← kind.readings count state).map .ofReading) none
  | _ => return .tuple ((← kind.readings count state).map .ofReading)

/-- The axes of each state of a sequence, as the rows of a table. -/
def axesRows (kind : HasherClass) (count : Except Fault Nat) (states : Value) :
    Except Fault (Tensor Binary64) := do
  let rows ← (← states.elements).mapM (kind.axes count)
  let table ← (Value.list rows none).toTensor
  match table.reshape? [rows.length, ← count] with
  | some table => return table
  | none => throw .shapeMismatch

/-- The axes of many states as an array. Arrays of states are taken as they are, except that the
    headings of poses are wrapped. -/
def axesTable (kind : HasherClass) (count : Except Fault Nat) (states : Value) :
    Except Fault (Tensor Binary64) :=
  match kind, states with
  | .array, states => states.toTensor
  | .tuple, .array _ t _ => .ok (t.map Element.value)
  | .pose, .array _ t _ => Hasher.wrapTable (t.map Element.value)
  | _, states => kind.axesRows count states

/-- The axes of many states as a value. An array that holds the axes of sequences already is the
    same object. -/
def axesValue (kind : HasherClass) (count : Except Fault Nat) (states : Value) :
    Except Fault Value :=
  match kind, states with
  | .array, .array .float64 t m => .ok (.array .float64 t m)
  | _, states => do return .ofTensor (← kind.axesTable count states)

end HasherClass

namespace Hasher

/-- The resolution as values. -/
def divisors (h : Hasher) : List Value := h.resolution.map .ofReading

def readings (h : Hasher) : Value → Except Fault (List Reading) :=
  h.kind.readings (.ok h.dimensions)

/-- The axes of a state. -/
def axes (h : Hasher) : Value → Except Fault Value := h.kind.axes (.ok h.dimensions)

/-- The axes of many states as an array. -/
def axesTable (h : Hasher) : Value → Except Fault (Tensor Binary64) :=
  h.kind.axesTable (.ok h.dimensions)

/-- The key of a state that is a sequence. -/
def sequenceKey (h : Hasher) (state : Value) : Except Fault Nat := do
  let readings ← h.readings state
  stateKey h.width (readings.map .ofReading) h.divisors

/-- The key of a state. -/
def key (h : Hasher) (state : Value) : Except Fault Nat := do
  match h.kind with
  | .pose => h.delegate.sequenceKey (.tuple (← state.poseAxes))
  | _ => h.sequenceKey state

/-- The keys of many states whose axes are found already. -/
def tableKeys (h : Hasher) (table : Tensor Binary64) : Except Fault (Tensor UInt64) :=
  batchKeys h.width table h.divisors

/-- The keys of many states. -/
def keys (h : Hasher) (states : Value) : Except Fault (Tensor UInt64) := do
  match h.kind with
  | .pose => h.delegate.tableKeys (← h.axesTable states)
  | _ => h.tableKeys (← h.axesTable states)

end Hasher

end CellKeys
