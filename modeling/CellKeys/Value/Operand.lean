import CellKeys.Tensor.Broadcast
import CellKeys.Value.Plain
import CellKeys.Value.Rectangle

namespace CellKeys

/-- What a value brings to an operator on entries. -/
inductive Entries where
  /-- An integer without a kind of its own. -/
  | looseInt (n : Int)
  /-- A binary64 value without a kind of its own. -/
  | looseFloat (x : Binary64)
  | sized (kind : ElementKind) (entries : Tensor Element)
  /-- Values that no kind of entries holds. -/
  | mixed (entries : Tensor Value)
  | texts (shape : List Nat)

/-- What the leaves of nested values have in common. -/
inductive LeafKind where
  | sized (kind : ElementKind)
  | text
  | mixed

/-- What leaves of two kinds have in common. -/
def LeafKind.join : LeafKind → LeafKind → LeafKind
  | sized k, sized l => sized (k.join l)
  | mixed, _ => mixed
  | _, mixed => mixed
  | _, _ => text

namespace Value

/-- What kind of leaf a value is. Integers have 64 bits, with a sign if they fit. -/
def leafKind : Value → LeafKind
  | bool _ => .sized .bool
  | int n =>
    if (ElementKind.signed 64).holds n then .sized (.signed 64)
    else if (ElementKind.unsigned 64).holds n then .sized (.unsigned 64)
    else .mixed
  | width _ => .sized (.signed 64)
  | float .. => .sized .float64
  | scalar s _ => .sized s.kind
  | array kind .. => .sized kind
  | text _ => .text
  | _ => .mixed

mutual

/-- The kinds of the leaves of nested values. -/
def leafKinds : Value → List LeafKind
  | tuple items | list items _ => leafKindsAll items
  | v => [v.leafKind]

/-- The kinds of the leaves of a list of nested values. -/
def leafKindsAll : List Value → List LeafKind
  | [] => []
  | v :: vs => v.leafKinds ++ leafKindsAll vs

end

/-- What all leaves of nested values have in common; without leaves they are binary64. -/
def commonKind (v : Value) : LeafKind :=
  match v.leafKinds with
  | [] => .sized .float64
  | k :: ks => ks.foldl LeafKind.join k

/-- A leaf as an entry of a kind that holds it. -/
def toElement (kind : ElementKind) (v : Value) : Element :=
  match v.number?, v.element? with
  | _, some e => e.cast kind
  | some (.int n), _ => (Element.int n).cast kind
  | some (.float x), _ => (Element.float x).cast kind
  | _, _ => (Element.bool false).cast kind

/-- A leaf outside arrays. -/
def unsized (v : Value) : Value := (v.element?.map ofElement).getD v

/-- Whether a value is a scalar or an array. -/
def isSized : Value → Bool
  | scalar .. | array .. => true
  | _ => false

theorem isSized_of_number? {v : Value} {x : Number} (h : v.number? = some x) :
    v.isSized = false := by
  cases v with
  | scalar | array => cases h
  | _ => rfl

/-- What a value brings to an operator on entries. -/
def toEntries (v : Value) : Except Fault Entries :=
  match v with
  | int n => .ok (.looseInt n)
  | float x _ => .ok (.looseFloat x)
  | array kind t _ => .ok (.sized kind t)
  | v => match v.shape?.bind fun shape => Tensor.ofEntries? shape v.leaves with
    | some leaves =>
      if axisLimit < leaves.shape.length then .error .notRectangular
      else match v.commonKind with
        | .sized kind => .ok (.sized kind (leaves.map (toElement kind)))
        | .text => .ok (.texts leaves.shape)
        | .mixed => .ok (.mixed (leaves.map unsized))
    | .none => .error .notRectangular

/-- Entries of one kind as a value; without axes they are a scalar. -/
def ofEntries (kind : ElementKind) (t : Tensor Element) : Value :=
  match t with
  | ⟨[], [e], _⟩ => scalar ⟨kind, e⟩ .none
  | t => array kind t .none

end Value

namespace Entries

/-- The kind that two operands have in common, if both have entries. An operand without a kind of
    its own takes the other's, which has to be one of integers at least or of values. -/
def kind? : Entries → Entries → Option ElementKind
  | sized k _, sized l _ => some (k.join l)
  | sized k _, looseInt _ | looseInt _, sized k _ => some (if k = .bool then .signed 64 else k)
  | sized k _, looseFloat _ | looseFloat _, sized k _ =>
    some (if k = .float32 then .float32 else .float64)
  | _, _ => none

/-- The entries of an operand in a kind. -/
def inKind (kind : ElementKind) : Entries → Except Fault (Tensor Element)
  | looseInt n => do return .single (← kind.accept n)
  | looseFloat x => .ok (.single (.float (kind.rounded x)))
  | sized _ t => .ok (t.map (·.cast kind))
  | mixed _ | texts _ => .error .notNumeric

/-- The entries of an operand as values outside arrays. -/
def values? : Entries → Option (Tensor Value)
  | looseInt n => some (.single (.int n))
  | looseFloat x => some (.single (.ofBinary64 x))
  | sized _ t => some (t.map .ofElement)
  | mixed t => some t
  | texts _ => none

end Entries

/-- A value as an operand, or an array of values that no kind of entries holds. -/
inductive Operand where
  | value (v : Value)
  | values (entries : Tensor Value)

namespace Operand

/-- What an operand brings to an operator on entries. -/
def toEntries : Operand → Except Fault Entries
  | value v => v.toEntries
  | values t => .ok (.mixed t)

/-- Values as an operand; without axes they are the single one. -/
def ofValues (t : Tensor Value) : Operand :=
  match t with
  | ⟨[], [v], _⟩ => value v
  | t => values t

/-- An operand as a value. -/
def toValue : Operand → Value
  | value v => v
  | values _ => .other "ndarray"

/-- An operator on entries. -/
def combineEntries (op : Operator) (a b : Entries) : Except Fault Operand :=
  match a.kind? b with
  | some kind => match op.workKind? kind with
    | some work => do
      let s ← a.inKind work
      let t ← b.inKind work
      match s.zip? t with
      | some pairs =>
        return value (.ofEntries work (pairs.map fun (d, e) => op.onElements work d e))
      | none => throw .shapeMismatch
    | none => .error .notNumeric
  | none => match a.values?, b.values? with
    | some s, some t => match s.zip? t with
      | some pairs => do return ofValues (← pairs.tryMap fun (x, y) => x.combinePlain op y)
      | none => .error .shapeMismatch
    | _, _ => .error .notNumeric

/-- Whether a scalar refuses to be divided by or into an integer: it takes none out of the range of
    its own kind, the largest signed one apart, which goes over to binary64. -/
def refuses (s : Scalar) (n : Int) : Bool :=
  s.kind.isWhole && s.kind ≠ .bool && s.kind ≠ .signed 64 && !s.kind.holds n

/-- A sequence times a scalar: only an integer repeats it. -/
def repeatBy (s : Scalar) (v : Value) : Except Fault Value :=
  match s.element with
  | .int n => v.repeatBy n
  | _ => .error .notNumeric

/-- An operator on the entries of two values. A fraction before a binary64 scalar becomes binary64
    itself. -/
def combineAsEntries (op : Operator) (x y : Value) : Except Fault Operand := do
  match x, y with
  | .fraction q, .scalar ⟨.float64, e⟩ _ =>
    combineEntries op (.looseFloat (← (Number.fraction q).toBinary64)) (.sized .float64 (.single e))
  | x, y => combineEntries op (← x.toEntries) (← y.toEntries)

/-- An operator on two values of which one is a scalar or an array. -/
def combineSized (op : Operator) (x y : Value) : Except Fault Operand :=
  match op, x, y with
  | .multiply, .scalar s _, v | .multiply, v, .scalar s _ =>
    if v.isRepeatable then (repeatBy s v).map value else combineAsEntries op x y
  | .divide, .scalar s _, .int n | .divide, .int n, .scalar s _ =>
    if refuses s n then .error .tooLarge else combineAsEntries op x y
  | _, _, _ => combineAsEntries op x y

/-- An operator on two operands of any kind. -/
def combine (op : Operator) (a b : Operand) : Except Fault Operand :=
  match a, b with
  | value x, value y =>
    if x.isSized || y.isSized then combineSized op x y
    else do return value (← x.combinePlain op y)
  | a, b => do combineEntries op (← a.toEntries) (← b.toEntries)

/-- An operator on two numbers outside arrays combines them as numbers. -/
theorem combine_numbers (op : Operator) {x y : Value} {m n : Number} (hx : x.number? = some m)
    (hy : y.number? = some n) :
    combine op (value x) (value y) = (m.combine op n).map (value ∘ Value.ofNumber) := by
  unfold combine
  simp only [Value.isSized_of_number? hx, Value.isSized_of_number? hy, Bool.or_self,
    Bool.false_eq_true, if_false, Value.combinePlain, hx, hy]
  cases m.combine op n <;> rfl

end Operand

end CellKeys
