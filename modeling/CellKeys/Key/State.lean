import CellKeys.Key.Argument
import CellKeys.Value.Sequence

namespace CellKeys

/-- The quotient of a number by a zero divisor for which division has no value: none for a zero or a
    NaN, else an infinity with the product of both signs. -/
def quotientByZero (value div : Number) : Except Fault Number := do
  let rounded ← if value.isZero then .ok .nan else value.toBinary64
  if value.isZero || rounded.isNaN then return .float .nan
  else return .float (.infinity (value.isNegative ^^ div.isNegative))

/-- The quotient of two numbers, also for a zero divisor. -/
def quantizeNumber (value div : Number) : Except Fault Number :=
  match value.quotient div with
  | .error .zeroDivision => quotientByZero value div
  | r => r

/-- The quotient of a value by a zero divisor, for values of any kind. -/
def quotientByZeroValue (value div : Value) : Except Fault Value :=
  match value.toNumber with
  | .ok x => match div.toNumber with
    | .ok y => do return .ofNumber (← quotientByZero x y)
    | .error e => do
      if x.isZero || (← x.toBinary64).isNaN then return .ofBinary64 .nan else throw e
  | .error e => do
    if ← value.equalsInt 0 then return .ofBinary64 .nan else throw e

/-- The quotient of a coordinate by the cell size of its axis. -/
def quantize (value div : Value) : Except Fault Value :=
  match value.number?, div.number? with
  | some x, some y => do return .ofNumber (← quantizeNumber x y)
  | _, _ => match (Operand.value value).combine .divide (.value div) with
    | .ok quotient => .ok quotient.toValue
    | .error .zeroDivision => quotientByZeroValue value div
    | .error e => .error e

/-- The word of a coordinate that is already divided by its cell size. -/
def axisHash (w : Width) (value : Value) (amount : Int) : Except Fault Int := do
  return w.axisWord (← value.cell) amount

/-- The words of the axes from a given index on, folded into a word. -/
def foldAxes (w : Width) (bits : Nat) :
    Nat → List Value → List Value → Nat → Except Fault Nat
  | axis, value :: values, div :: divs, word => do
    let quotient ← quantize value div
    let hashed ← axisHash w quotient (bits * axis)
    foldAxes w bits (axis + 1) values divs (word ^^^ hashed.toNat)
  | _, _, _, word => .ok word

/-- The key of a state with these coordinates, for cells of these sizes. -/
def stateKey (w : Width) (values resolution : List Value) : Except Fault Nat :=
  if values.length ≠ resolution.length then
    .error (.axisCount values.length resolution.length)
  else if resolution.isEmpty then .error (.noAxes "0")
  else foldAxes w (w.bitsPerAxis resolution.length) 0 values resolution 0

/-- The key of a state and a resolution that may be any sequences. -/
def keyOfState (w : Width) (values resolution : Value) : Except Fault Nat := do
  let given ← values.length
  let axes ← resolution.length
  if given ≠ axes then throw (.axisCount given axes)
  stateKey w (← values.elements) (← resolution.elements)

/-- The word of a value of any kind for amounts of any kind. -/
def axisHashValue (w : Width) (value bits axis : Value) : Except Fault Value := do
  let cell ← value.cell
  let amount ← (Operand.value bits).combine .multiply (.value axis)
  w.rotateValue (.int (w.cellHash cell)) amount

end CellKeys
