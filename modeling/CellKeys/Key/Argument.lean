import CellKeys.Axis.Lane
import CellKeys.Value.Equality

namespace CellKeys

/-- The word size that a value equals as a number. Text is no number, whatever it says; an array
    with one entry is that entry. -/
def Width.ofValue (v : Value) : Except Fault Width :=
  let number := match v with
    | .array _ t _ => t.single?.map Element.toNumber
    | .scalar s _ => some s.element.toNumber
    | v => v.number?
  match number.bind fun x => Width.all.find? fun w => x.numEq (.int w.bits) with
  | some w => .ok w
  | none => .error (.wordWidth v.shown)

namespace Operand

/-- What is left of an amount of rotation after full turns. -/
def turn (w : Width) (amount : Operand) : Except Fault Operand :=
  amount.combine .remainder (.value (.width w))

/-- What is left of an array of amounts after full turns, in the kind of the array. That has to be a
    kind that remainders of signed integers of 64 bits can be brought into. -/
def turnEntries (w : Width) (kind : ElementKind) (amounts : Tensor Element) :
    Except Fault (Tensor Element) :=
  let work := kind.join (.signed 64)
  let bits := (Element.int w.bits).cast work
  match kind with
  | .bool | .unsigned _ => .error .notNumeric
  | _ => .ok (amounts.map fun e =>
      (Operator.remainder.onElements work (e.cast work) bits).cast kind)

/-- An amount of rotation after full turns. An array is changed itself and keeps its kind. -/
def turnInPlace (w : Width) : Operand → Except Fault Operand
  | value (.array kind t m) => do return value (.array kind (← turnEntries w kind t) m)
  | amount => amount.turn w

/-- A word turned left by an amount below a full turn, by the operators on values of any kind. -/
def rotate (w : Width) (word amount : Operand) : Except Fault Operand := do
  let left ← word.combine .shiftLeft amount
  let rest ← (value (.width w)).combine .subtract amount
  let right ← word.combine .shiftRight rest
  let both ← left.combine .bitOr right
  both.combine .bitAnd (value (.int w.mask))

/-- An entry as a machine word. -/
def machineWord (e : Element) : Nat :=
  match e.cast (.unsigned 64) with
  | .int n => n.toNat
  | _ => 0

/-- An integer in the range of machine words. -/
def fittingWord (n : Int) : Except Fault Nat :=
  if (ElementKind.unsigned 64).holds n then .ok n.toNat else .error .tooLarge

/-- An operand as a number of bits to move a machine word by. Entries of arrays are cut off to
    machine words; other numbers have to fit, and text is read as an integer. -/
def toMachineWord : Operand → Except Fault Nat
  | value (.scalar s _) => .ok (machineWord s.element)
  | value (.array _ t _) => match t.single? with
    | some e => .ok (machineWord e)
    | none => .error .ambiguousTruth
  | value (.text s) => do fittingWord (← Value.readInt (Value.withoutEnd s))
  | value v => do fittingWord (← v.toInt)
  | values t => match t.single? with
    | some v => do fittingWord (← v.toInt)
    | none => .error .ambiguousTruth

end Operand

/-- Whether a number is less than one. -/
def Number.belowOne (x : Number) : Bool :=
  match x.rational? with
  | some q => q < 1
  | none => x.isNegative

/-- Whether a value is a number less than one. An array says so only if it has one entry. -/
def Value.belowOne (v : Value) : Except Fault Bool :=
  match v with
  | .array _ t _ => Value.truth (t.map fun e => e.toNumber.belowOne)
  | v => do return (← v.toNumber).belowOne

namespace Width

/-- Turns a value left as a word. A value that is turned by nothing comes back as it is, whatever it
    is. -/
def rotateValue (w : Width) (word : Value) (amount : Operand) : Except Fault Value :=
  match word, amount with
  | .int n, .value (.int turns) => .ok (.int (w.rotateLeft n turns))
  | word, amount => do
    let left ← amount.turnInPlace w
    if ← left.isZero then return word
    return (← Operand.rotate w (.value word) left).toValue

/-- How far the words of a lane are moved up and down when they are turned by this amount; nothing
    when it is no turn. -/
def laneShifts (w : Width) (amount : Operand) : Except Fault (Option (Nat × Nat)) := do
  let left ← amount.turn w
  if ← left.isZero then return none
  let up ← left.toMachineWord
  let rest ← (Operand.value (.width w)).combine .subtract left
  return some (up, ← rest.toMachineWord)

/-- Number of bits that each axis has for itself, for sizes and numbers of axes of any kind. -/
def bitsFor (width axes : Value) : Except Fault Value := do
  if ← axes.belowOne then throw (.noAxes axes.plainText)
  let bits ← width.toInt
  return (← (Operand.value (.int bits)).combine .floorDivide (.value axes)).toValue

end Width

end CellKeys
