import CellKeys.Value.Operand

namespace CellKeys

namespace Value

/-- Whether two marks tell that two objects are one. -/
def sameMark (a b : Mark) : Bool := a.isSome && a == b

/-- Whether two values are one object, as far as that makes a difference to equality. -/
def identical : Value → Value → Bool
  | float x m, float y n => sameMark m n && x == y
  | scalar s m, scalar t n => sameMark m n && s == t
  | list _ m, list _ n | array _ _ m, array _ _ n | foreign _ _ _ m, foreign _ _ _ n => sameMark m n
  | _, _ => false

/-- Whether an array of answers is true; only one with a single entry says so. -/
def truth (answers : Tensor Bool) : Except Fault Bool :=
  match answers.single? with
  | some b => .ok b
  | .none => .error .ambiguousTruth

/-- Equality of two values outside arrays that have no parts, or of values of different types. -/
def leafEq (a b : Value) : Bool :=
  match a.number?, b.number? with
  | some x, some y => x.numEq y
  | _, _ => match a, b with
    | none, none | dict, dict => true
    | text s, text t | other s, other t => s == t
    | foreign _ _ _ m, foreign _ _ _ n => sameMark m n
    | _, _ => false

/-- Equality of two tuples without further sequences in them, or of two values that have no parts.
    -/
def rowEq : Value → Value → Bool
  | tuple xs, tuple ys =>
    xs.length == ys.length && (xs.zip ys).all fun (x, y) => identical x y || leafEq x y
  | a, b => leafEq a b

/-- Equality of two entries of arrays, where hashers are compared by class, resolution and size. -/
def atomEq : Value → Value → Bool
  | slots kind resolution size _ _ _, slots kind₂ resolution₂ size₂ _ _ _ =>
    kind == kind₂ && rowEq resolution resolution₂ && leafEq size size₂
  | a, b => leafEq a b

end Value

namespace Entries

/-- The entries of an operand as integers, if all are integers or truth values. -/
def integers? : Entries → Option (Tensor Int)
  | looseInt n => some (.single n)
  | sized kind t => if kind.isWhole then some (t.map Element.toInt) else none
  | _ => none

/-- The extent of an operand without its entries. -/
def extent : Entries → Tensor Unit
  | looseInt _ | looseFloat _ => .single ()
  | sized _ t => t.map fun _ => ()
  | mixed t => t.map fun _ => ()
  | texts shape => ⟨shape, List.replicate (volume shape) (), by simp⟩

/-- Whether an integer is too large to be compared with truth values. -/
def refuses : Entries → Entries → Bool
  | sized .bool _, looseInt n | looseInt n, sized .bool _ => !(ElementKind.signed 64).holds n
  | _, _ => false

/-- Two arrays compared entry by entry. -/
def zipEq {α : Type} (eq : α → α → Bool) (s t : Tensor α) : Except Fault (Tensor Bool) :=
  match s.zip? t with
  | some pairs => .ok (pairs.map fun (x, y) => eq x y)
  | none => .error .shapeMismatch

/-- Two operands compared entry by entry. Integers are compared exactly, other numbers in the kind
    of values that both have in common, which may round them. Text equals no number. -/
def equal (a b : Entries) : Except Fault (Tensor Bool) :=
  match a.integers?, b.integers? with
  | some s, some t => if a.refuses b then .error .tooLarge else zipEq (· == ·) s t
  | _, _ => match a.kind? b with
    | some kind => do
      let work := if kind = .float32 then .float32 else .float64
      zipEq (fun d e => d.value.numEq e.value) (← a.inKind work) (← b.inKind work)
    | none => match a.values?, b.values? with
      | some s, some t => zipEq Value.atomEq s t
      | _, _ => zipEq (fun _ _ => false) a.extent b.extent

end Entries

namespace Value

/-- Equality of two values of which one is a scalar or an array. -/
def arrayEq (a b : Value) : Except Fault Bool := do
  truth (← (← a.toEntries).equal (← b.toEntries))

/-- Two comparisons in order, the second only if the first one holds. -/
def both (p q : Except Fault Bool) : Except Fault Bool := do
  if ← p then q else return false

/-- Equality of parts: the same object equals itself. -/
def orIdentical (a b : Value) (eq : Except Fault Bool) : Except Fault Bool :=
  if identical a b then .ok true else eq

mutual

/-- Equality of two values. Lists of different lengths are unequal whatever they hold. -/
def valueEq : Value → Value → Except Fault Bool
  | tuple xs, tuple ys => allEq xs ys
  | list xs _, list ys _ => if xs.length = ys.length then allEq xs ys else .ok false
  | pose x y theta _, pose x₂ y₂ theta₂ _ =>
    both (orIdentical x x₂ (valueEq x x₂))
      (both (orIdentical y y₂ (valueEq y y₂)) (orIdentical theta theta₂ (valueEq theta theta₂)))
  | slots kind resolution size _ _ _, slots kind₂ resolution₂ size₂ _ _ _ =>
    if kind = kind₂ then
      both (orIdentical resolution resolution₂ (valueEq resolution resolution₂))
        (orIdentical size size₂ (valueEq size size₂))
    else .ok false
  | endless, endless => .error .endless
  | a, b => if a.isSized || b.isSized then arrayEq a b else .ok (atomEq a b)

/-- Equality of two lists of values, part by part. -/
def allEq : List Value → List Value → Except Fault Bool
  | [], [] => .ok true
  | a :: as, b :: bs => both (orIdentical a b (valueEq a b)) (allEq as bs)
  | _, _ => .ok false

end

/-- Equality with an integer. -/
def equalsInt (v : Value) (n : Int) : Except Fault Bool := v.valueEq (int n)

end Value

/-- Whether an operand is zero. -/
def Operand.isZero : Operand → Except Fault Bool
  | value v => v.equalsInt 0
  | values t => Value.truth (t.map fun v => v.atomEq (.int 0))

end CellKeys
