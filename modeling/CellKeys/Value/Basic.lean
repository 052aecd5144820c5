import CellKeys.Element
import CellKeys.Fault
import CellKeys.Hasher.Basic
import CellKeys.Tensor

namespace CellKeys

/-- What tells an object from all others, once it is kept. -/
abbrev Mark := Option Nat

/-- A value. -/
inductive Value where
  | none
  | bool (b : Bool)
  | int (n : Int)
  | width (w : Width)
  | float (x : Binary64) (mark : Mark)
  | fraction (q : Rat)
  | scalar (s : Scalar) (mark : Mark)
  | text (s : String)
  | tuple (items : List Value)
  | list (items : List Value) (mark : Mark)
  /-- A mapping without entries. -/
  | dict
  | array (kind : ElementKind) (entries : Tensor Element) (mark : Mark)
  | pose (x y theta : Value) (mark : Mark)
  /-- An object of another type with named attributes. An attribute marked callable gives its value
      when it is called without arguments. -/
  | foreign (typeName : String) (attributes : List (String × Bool)) (values : List Value)
    (mark : Mark)
  /-- A hasher by its class and by what lies in its slots, which can be any values. Only pose
      hashers have the last slot, where the hasher lies that they delegate to. -/
  | slots (kind : HasherClass) (resolution width bitsPerAxis underlying : Value) (mark : Mark)
  /-- Anything else, known by its type only. -/
  | other (typeName : String)
  /-- An object by the place where it is kept. -/
  | object (place : Nat)
  /-- What stands for a value inside itself. -/
  | endless

/-- The kind of the arrays that hold words of this size. -/
def Width.dtype (w : Width) : ElementKind := .unsigned w.bits

namespace Value

instance : Inhabited Value := ⟨.none⟩

/-- A number that is no object yet. -/
def ofBinary64 (x : Binary64) : Value := .float x .none

def ofReading (r : Reading) : Value := .float r.value r.mark

/-- An array of numbers. -/
def ofTensor (t : Tensor Binary64) : Value := .array .float64 (t.map .float) .none

/-- An array of keys of one word size. -/
def ofKeys (w : Width) (t : Tensor UInt64) : Value :=
  .array w.dtype (t.map fun key => .int key.toNat) .none

/-- A hasher whose slots hold its configuration, and this in the last one. -/
def configured (h : Hasher) (underlying : Value) (m : Mark) : Value :=
  .slots h.kind (.tuple (h.resolution.map .ofReading)) (.width h.width)
    (.int h.bitsPerAxis) underlying m

/-- A hasher as it is built: a pose hasher has a hasher of its own to delegate to. -/
def hasher (h : Hasher) (m : Mark) : Value :=
  configured h (if h.kind = .pose then configured h.delegate .none .none else .none) m

/-- The name of a value's type. -/
def typeName : Value → String
  | none => "NoneType"
  | bool _ => "bool"
  | int _ => "int"
  | width _ => "WordWidth"
  | float .. => "float"
  | fraction _ => "Fraction"
  | scalar s _ => s.kind.name
  | text _ => "str"
  | tuple _ => "tuple"
  | list .. => "list"
  | dict => "dict"
  | array .. => "ndarray"
  | pose .. => "Pose2D"
  | foreign name .. => name
  | slots kind .. => kind.name
  | other name => name
  | object _ | endless => "object"

/-- What tells a value from all others, for those that can be told apart. -/
def mark : Value → Mark
  | float _ m | scalar _ m | list _ m | array _ _ m | pose _ _ _ m | foreign _ _ _ m
  | slots _ _ _ _ _ m => m
  | _ => .none

/-- The same value with another mark. -/
def withMark (m : Mark) : Value → Value
  | float x _ => float x m
  | scalar s _ => scalar s m
  | list items _ => list items m
  | array kind t _ => array kind t m
  | pose x y theta _ => pose x y theta m
  | foreign name attributes values _ => foreign name attributes values m
  | slots kind resolution size bits underlying _ => slots kind resolution size bits underlying m
  | v => v

/-- Whether a value is a hasher, whatever lies in its slots. -/
def isHasher : Value → Bool
  | slots .. => true
  | _ => false

/-- The values of an object's attributes by name, with whether they are callable. -/
def attribute? (name : String) : List (String × Bool) → List Value → Option (Bool × Value)
  | (n, callable) :: names, v :: values =>
    if n = name then some (callable, v) else attribute? name names values
  | _, _ => .none

end Value

end CellKeys
