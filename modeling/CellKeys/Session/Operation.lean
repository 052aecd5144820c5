import CellKeys.Hasher.Slots
import CellKeys.Session.Expression
import CellKeys.Value.Attribute
import CellKeys.Value.Hash

namespace CellKeys

/-- An operation over what its operands are given by. -/
inductive Operation (α : Type) where
  /-- The word size that a value stands for. -/
  | wordSize (value : α)
  | rotateLeft (word amount : α) (width : Option α)
  | signWord (width : Option α)
  /-- The word of one axis for one coordinate or for an array of them. -/
  | axisHash (value bits axis : α) (width : Option α)
  | axisHashes (values bits axis : α) (width : Option α)
  | quantize (value div : α)
  | bitsPerAxis (width count : α)
  /-- The key of one state or of many, without a hasher. -/
  | stateKey (values resolution : α) (width : Option α)
  | batchKeys (values resolution : α) (width : Option α)
  | wrap (theta : α)
  | wrapAll (thetas : α)
  | isPose (state : α)
  /-- The hasher that fits an example. -/
  | hasherFor (sample : α) (resolution width : Option α)
  /-- The value itself. -/
  | evaluate (value : α)
  | text (value : α)
  | translation (on : α)
  | angle (on : α)
  | readAttribute (on : α) (name : String)
  | assignAttribute (on : α) (name : String) (new : α)
  | assignItem (on : α) (index : Int) (new : α)
  /-- The key that a hasher gives a state, asked for by name or by calling the hasher. -/
  | key (on state : α)
  | call (on state : α)
  | axes (on state : α)
  | keys (on states : α)
  | axesTable (on states : α)
  | compare (a b : α)

/-- What an operation answers. -/
inductive Answer where
  | value (v : Value)
  | wordSize (w : Width)
  /-- Whether two values are equal, and whether their hashes agree if these were asked for. -/
  | comparison (equal : Bool) (sameHash : Option Bool)

namespace Operation

variable {α β : Type}

/-- Evaluates the operands of an operation from left to right. -/
def traverse (f : α → Recorded β) : Operation α → Recorded (Operation β)
  | wordSize value => return wordSize (← f value)
  | rotateLeft word amount width => return rotateLeft (← f word) (← f amount) (← width.mapM f)
  | signWord width => return signWord (← width.mapM f)
  | axisHash value bits axis width =>
    return axisHash (← f value) (← f bits) (← f axis) (← width.mapM f)
  | axisHashes values bits axis width =>
    return axisHashes (← f values) (← f bits) (← f axis) (← width.mapM f)
  | quantize value div => return quantize (← f value) (← f div)
  | bitsPerAxis width count => return bitsPerAxis (← f width) (← f count)
  | stateKey values resolution width =>
    return stateKey (← f values) (← f resolution) (← width.mapM f)
  | batchKeys values resolution width =>
    return batchKeys (← f values) (← f resolution) (← width.mapM f)
  | wrap theta => return wrap (← f theta)
  | wrapAll thetas => return wrapAll (← f thetas)
  | isPose state => return isPose (← f state)
  | hasherFor sample resolution width =>
    return hasherFor (← f sample) (← resolution.mapM f) (← width.mapM f)
  | evaluate value => return evaluate (← f value)
  | text value => return text (← f value)
  | translation on => return translation (← f on)
  | angle on => return angle (← f on)
  | readAttribute on name => return readAttribute (← f on) name
  | assignAttribute on name new => return assignAttribute (← f on) name (← f new)
  | assignItem on index new => return assignItem (← f on) index (← f new)
  | key on state => return key (← f on) (← f state)
  | call on state => return call (← f on) (← f state)
  | axes on state => return axes (← f on) (← f state)
  | keys on states => return keys (← f on) (← f states)
  | axesTable on states => return axesTable (← f on) (← f states)
  | compare a b => return compare (← f a) (← f b)

/-- Whether the records of hashers that were built belong to what an operation reports. -/
def reportsRecords : Operation α → Bool
  | evaluate _ | hasherFor .. => true
  | _ => false

end Operation

namespace Value

/-- The word size of an operation, with the one that is used when none is given. -/
def widthOr (width : Option Value) : Except Fault Width :=
  Width.ofValue (width.getD Hasher.defaultWidth)

/-- Whether two values are equal, and for poses and hashers that are equal also whether their hashes
    agree, if they have hashes. -/
def compare (a b : Value) : Except Fault Answer := do
  let equal ← a.valueEq b
  let hashed := match a with
    | pose .. | slots .. => equal
    | _ => false
  if !hashed then return .comparison equal Option.none
  if !(a.hashable && b.hashable) then throw .notHashable
  return .comparison equal (some (a.sameHash b))

end Value

namespace Operation

/-- What an operation over values answers. An assignment by itself answers nothing. -/
def answer : Operation Value → Recorded Answer
  | wordSize value => do return .wordSize (← Recorded.of (Width.ofValue value))
  | rotateLeft word amount width => valued do
    (← Value.widthOr width).rotateValue word (.value amount)
  | signWord width => valued do return .int (← Value.widthOr width).signWord
  | axisHash value bits axis width => valued do
    CellKeys.axisHashValue (← Value.widthOr width) value bits axis
  | axisHashes values bits axis width => valued do
    let w ← Value.widthOr width
    return .ofKeys w (← laneHashes w values bits axis)
  | quantize value div => valued (CellKeys.quantize value div)
  | bitsPerAxis width count => valued (Width.bitsFor width count)
  | stateKey values resolution width => valued do
    return .int (← keyOfState (← Value.widthOr width) values resolution)
  | batchKeys values resolution width => valued do
    let w ← Value.widthOr width
    return .ofKeys w (← keysOfBatch w values resolution)
  | wrap theta => valued do return .ofBinary64 (← wrapValue theta)
  | wrapAll thetas => valued do return .ofTensor (Heading.wrapAll (← thetas.toTensor))
  | isPose state => valued (.ok (.bool state.isPose))
  | hasherFor sample resolution width => do
    let built := Hasher.forExample sample (resolution.getD .none) (width.getD Hasher.defaultWidth)
    return .value (.hasher (← Recorded.hasher built) none)
  | evaluate value => valued (.ok value)
  | text value => valued do return .text (← value.written)
  | translation on => valued on.translation
  | angle on => valued on.angle
  | readAttribute on name => valued (on.readAttribute name)
  | assignAttribute .. | assignItem .. => valued (.ok .none)
  | key on state => valued do return .int (← (← on.keyFunction) state)
  | call on state => valued do return .int (← (← on.callFunction) state)
  | axes on state => valued do (← on.axesFunction) state
  | keys on states => valued do
    let (w, found) ← (← on.keysFunction) states
    return .ofKeys w found
  | axesTable on states => valued do (← on.tableFunction) states
  | compare a b => Recorded.of (a.compare b)
where
  /-- An answer that is a value. -/
  valued (result : Except Fault Value) : Recorded Answer := Recorded.of (result.map .value)

end Operation

end CellKeys
