import CellKeys.Value.Sequence

namespace CellKeys

namespace HasherClass

/-- The functions that every hasher has. -/
def functionNames : List String := ["axes", "axes_array", "hash", "hash_many", "_key"]

/-- The functions that a pose hasher has besides. -/
def poseFunctionNames : List String := ["from_axes", "from_linear_angular"]

/-- Whether the hashers of a class have a function of this name. -/
def offers (kind : HasherClass) (name : String) : Bool :=
  name ∈ functionNames || (kind = .pose && name ∈ poseFunctionNames)

end HasherClass

namespace Width

/-- An attribute of a word size by its name. -/
def readAttribute (w : Width) (name : String) : Except Fault Value :=
  match name with
  | "value" => .ok (.int w.bits)
  | "name" => .ok (.text ("W" ++ Nat.repr w.bits))
  | "mask" => .ok (.int w.mask)
  | "multiplier" => .ok (.int w.multiplier)
  -- A kind of entries is an object of its own, of which only the type is known.
  | "dtype" => .ok (.other "type")
  | "coerce" => .ok (.other "method")
  | _ => .error .attribute

end Width

namespace Value

/-- An attribute of a hasher with these slots by its name. The public names read the slots. -/
def readSlot (kind : HasherClass) (resolution size bits underlying : Value) (name : String) :
    Except Fault Value :=
  match name with
  | "resolution" | "_resolution" => .ok resolution
  | "width" | "_width" => .ok size
  | "dimensions" => do return int (← resolution.length)
  | "bits_per_axis" | "_n_bit" => .ok bits
  | "_underlying" => if kind = .pose then .ok underlying else .error .attribute
  | name => if kind.offers name then .ok (other "method") else .error .attribute

/-- An attribute by its name. -/
def readAttribute (v : Value) (name : String) : Except Fault Value :=
  match v with
  | pose x y theta _ => match name with
    | "x" => .ok x
    | "y" => .ok y
    | "theta" => .ok theta
    | "translation" | "angle" => .ok (other "method")
    | _ => .error .attribute
  | slots kind resolution size bits underlying _ =>
    readSlot kind resolution size bits underlying name
  | width w => w.readAttribute name
  | foreign _ attributes values _ => match attribute? name attributes values with
    | some (true, _) => .ok (other "method")
    | some (false, v) => .ok v
    | .none => .error .attribute
  | array _ t _ => match name with
    | "shape" => .ok (tuple (t.shape.map fun n : Nat => int n))
    | "ndim" => .ok (int t.shape.length)
    | "size" => .ok (int t.entries.length)
    | _ => .error .attribute
  | _ => .error .attribute

/-- The names and values of attributes after one of them has been given a value, which replaces the
    old one or comes last. -/
def assigned (name : String) (new : Value) :
    List (String × Bool) → List Value → List (String × Bool) × List Value
  | (n, callable) :: names, v :: values =>
    if n = name then ((n, false) :: names, new :: values)
    else
      let (names, values) := assigned name new names values
      ((n, callable) :: names, v :: values)
  | _, _ => ([(name, false)], [new])

/-- A hasher after one of its slots has been given a value. Its other attributes cannot be given
    any. -/
def assignSlot (kind : HasherClass) (resolution size bits underlying : Value) (m : Mark)
    (name : String) (new : Value) : Except Fault Value :=
  match name with
  | "_resolution" => .ok (slots kind new size bits underlying m)
  | "_width" => .ok (slots kind resolution new bits underlying m)
  | "_n_bit" => .ok (slots kind resolution size new underlying m)
  | "_underlying" =>
    if kind = .pose then .ok (slots kind resolution size bits new m) else .error .attribute
  | _ => .error .attribute

/-- The value after one of its attributes has been given a value. -/
def assignAttribute (v : Value) (name : String) (new : Value) : Except Fault Value :=
  match v with
  | pose x y theta m => match name with
    | "x" => .ok (pose new y theta m)
    | "y" => .ok (pose x new theta m)
    | "theta" => .ok (pose x y new m)
    | _ => .error .attribute
  | slots kind resolution size bits underlying m =>
    assignSlot kind resolution size bits underlying m name new
  | foreign typeName attributes values m =>
    let (names, values) := assigned name new attributes values
    .ok (foreign typeName names values m)
  | _ => .error .attribute

end Value

end CellKeys
