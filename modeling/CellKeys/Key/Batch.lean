import CellKeys.Key.Argument
import CellKeys.Value.Rectangle
import CellKeys.Value.Sequence

namespace CellKeys

/-- A column divided by one number for all rows. -/
def divideBy (column : List Binary64) (div : Binary64) : List Binary64 := column.map (·.div div)

/-- A column divided by a cell size of any kind, which may be an array itself. -/
def divideColumn (column : List Binary64) (div : Value) : Except Fault (Tensor Binary64) :=
  match div with
  | .float x _ => .ok (.ofList (divideBy column x))
  | div => do
    match ← (Operand.value (.ofTensor (.ofList column))).combine .divide (.value div) with
    | .value v => v.toTensor
    | .values t => t.tryMap Value.toBinary64

/-- The entries of an array as a column of this length. -/
def fitColumn {α : Type} (length : Nat) (t : Tensor α) : Except Fault (List α) :=
  match Tensor.spreadOver? t.shape [length] t.entries with
  | some column => .ok column
  | none => .error .shapeMismatch

/-- The words of the columns from a given axis on, folded into a list of words. -/
def foldColumns (w : Width) (bits : Nat) : Nat → List (List Binary64) → List UInt64 → List UInt64
  | axis, column :: columns, words =>
    foldColumns w bits (axis + 1) columns
      (List.zipWith (· ^^^ ·) words (w.laneWords column (bits * axis)))
  | _, [], words => words

/-- The quotients of the columns of a table, one cell size for each column. -/
def divideTable (table : Tensor Binary64) :
    Nat → List Value → Except Fault (List (Tensor Binary64))
  | _, [] => .ok []
  | axis, div :: divs => do
    let first ← divideColumn (table.column axis) div
    let rest ← divideTable table (axis + 1) divs
    return first :: rest

/-- The states of a batch as a table with one column for each axis. -/
def tableOf (axes : Nat) (states : Tensor Binary64) : Except Fault (Tensor Binary64) :=
  let table := if states.isEmpty then Tensor.empty [axes] else states
  match table.shape with
  | [_, n] => if n = axes then .ok table else .error (.batchShape axes table.shape)
  | shape => .error (.batchShape axes shape)

/-- The keys of the rows of an array, for cells of these sizes. -/
def batchKeys (w : Width) (states : Tensor Binary64) (resolution : List Value) :
    Except Fault (Tensor UInt64) := do
  if resolution.isEmpty then throw (.noAxes "0")
  let table ← tableOf resolution.length states
  let quotients ← divideTable table 0 resolution
  let columns ← quotients.mapM (fitColumn table.rows.length)
  let blank := List.replicate table.rows.length (0 : UInt64)
  return .ofList (foldColumns w (w.bitsPerAxis resolution.length) 0 columns blank)

/-- The keys of states and a resolution that may be any values. -/
def keysOfBatch (w : Width) (states resolution : Value) : Except Fault (Tensor UInt64) := do
  let axes ← resolution.length
  if axes = 0 then throw (.noAxes "0")
  let states ← states.toTensor
  batchKeys w states (← resolution.elements)

/-- The words of an array of coordinates that are already divided by their cell sizes, for amounts
    of any kind. -/
def laneHashes (w : Width) (values bits axis : Value) : Except Fault (Tensor UInt64) := do
  let values ← values.toTensor
  let amount ← (Operand.value bits).combine .multiply (.value axis)
  match amount with
  | .value (.int turns) => return values.map (w.laneAxisWord turns)
  | amount => match ← w.laneShifts amount with
    | none => return values.map w.laneHash
    | some (up, down) => return values.map fun x => w.laneTurn up down (w.laneHash x)

end CellKeys
