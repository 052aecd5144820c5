namespace CellKeys

/-- The cause of a failure. -/
inductive Fault where
  /-- A width other than the two sizes of a word; the text shows it. -/
  | wordWidth (shown : String)
  /-- A number of axes below one; the text shows it. -/
  | noAxes (shown : String)
  /-- A state and a resolution of different lengths. -/
  | axisCount (state resolution : Nat)
  /-- A batch that is not a table with one column for each axis. -/
  | batchShape (axes : Nat) (shape : List Nat)
  /-- A sequence state of the wrong length. -/
  | valueCount (axes given : Nat)
  /-- A tuple state of the wrong length. -/
  | tupleLength (axes given : Nat)
  /-- A number of resolutions that no pose hasher takes. -/
  | resolutionCount (given : Nat)
  /-- A batch of poses that is not a table with three columns. -/
  | poseBatchShape (shape : List Nat)
  /-- An example state that no hasher fits. -/
  | noHasher (typeName : String)
  /-- Text, quoted here, that is not the text of a number. -/
  | unreadable (quoted : String)
  /-- Something that is no number where one is needed. -/
  | notNumeric
  /-- Something without elements where a sequence is needed. -/
  | notSequence
  /-- A call of something that cannot be called. -/
  | notCallable
  /-- A call with the wrong number of arguments. -/
  | argumentCount
  /-- Something whose items cannot be assigned. -/
  | notAssignable
  /-- Something that equality can compare but that has no hash. -/
  | notHashable
  /-- A number too large for the format it has to fit. -/
  | tooLarge
  /-- A template for text that is malformed. -/
  | template
  /-- A NaN where an integer is needed. -/
  | noInteger
  /-- A sequence too long to be kept. -/
  | noMemory
  /-- A division by zero that has no value. -/
  | zeroDivision
  /-- Nested values that do not form a rectangular array of at most 64 axes. -/
  | notRectangular
  /-- Arrays whose shapes do not fit together. -/
  | shapeMismatch
  /-- A position with more or fewer than two components. -/
  | componentCount
  /-- A heading that is infinite. -/
  | infiniteHeading
  /-- A comparison of arrays that is neither true nor false. -/
  | ambiguousTruth
  /-- An attribute that does not exist or cannot be set. -/
  | attribute
  /-- An index outside a sequence. -/
  | indexRange
  /-- A hasher that does not say how to find the axes of a state. -/
  | axesUndefined
  /-- A name that nothing is stored under. -/
  | unknownName
  /-- A value that contains itself where its whole extent is needed. -/
  | endless
  deriving DecidableEq, Repr

/-- The classes of failures, by which a caller tells them apart. -/
inductive FaultClass where
  | valueError
  | typeError
  | overflowError
  | memoryError
  | zeroDivisionError
  | attributeError
  | indexError
  | notImplementedError
  | keyError
  | recursionError
  deriving DecidableEq, Repr

def FaultClass.name : FaultClass → String
  | valueError => "ValueError"
  | typeError => "TypeError"
  | overflowError => "OverflowError"
  | memoryError => "MemoryError"
  | zeroDivisionError => "ZeroDivisionError"
  | attributeError => "AttributeError"
  | indexError => "IndexError"
  | notImplementedError => "NotImplementedError"
  | keyError => "KeyError"
  | recursionError => "RecursionError"

namespace Fault

/-- The class of a cause. -/
def faultClass : Fault → FaultClass
  | .wordWidth _ | .noAxes _ | .axisCount .. | .batchShape .. | .valueCount .. | .tupleLength ..
  | .poseBatchShape _ | .unreadable _ | .template | .noInteger | .notRectangular | .shapeMismatch
  | .componentCount | .infiniteHeading | .ambiguousTruth => .valueError
  | .resolutionCount _ | .noHasher _ | .notNumeric | .notSequence | .notCallable | .argumentCount
  | .notAssignable | .notHashable => .typeError
  | .tooLarge => .overflowError
  | .noMemory => .memoryError
  | .zeroDivision => .zeroDivisionError
  | .attribute => .attributeError
  | .indexRange => .indexError
  | .axesUndefined => .notImplementedError
  | .unknownName => .keyError
  | .endless => .recursionError

/-- A shape between parentheses, with a comma after a single extent. -/
def shapeText : List Nat → String
  | [] => "()"
  | [n] => "(" ++ Nat.repr n ++ ",)"
  | shape => "(" ++ ", ".intercalate (shape.map Nat.repr) ++ ")"

/-- The wording of a cause, if it has one. -/
def message? : Fault → Option String
  | wordWidth shown => some ("word width must be 32 or 64 bits, got " ++ shown)
  | noAxes shown => some ("a state needs at least one axis, got " ++ shown)
  | axisCount state resolution =>
    some ("state has " ++ Nat.repr state ++ " axes but resolution has " ++ Nat.repr resolution)
  | batchShape axes shape =>
    some ("expected states of shape (n, " ++ Nat.repr axes ++ "), got " ++ shapeText shape)
  | valueCount axes given =>
    some ("expected " ++ Nat.repr axes ++ " values, got " ++ Nat.repr given)
  | tupleLength axes given =>
    some ("expected a " ++ Nat.repr axes ++ "-tuple, got " ++ Nat.repr given ++ " elements")
  | resolutionCount given =>
    some ("Pose2DHash takes 0, 2 or 3 resolutions (" ++ Nat.repr given ++ " given)")
  | poseBatchShape shape => some ("expected poses of shape (n, 3), got " ++ shapeText shape)
  | noHasher typeName => some ("no spatial hash for states of type " ++ typeName)
  | _ => none

end Fault

end CellKeys
