import CellKeys.Axis.Word
import CellKeys.Binary64.Basic

namespace CellKeys

/-- A number as an object. The mark, once given, tells the object from all others; a NaN equals
    itself as an object although it equals no number. -/
structure Reading where
  value : Binary64
  mark : Option Nat
  deriving DecidableEq

/-- How a hasher finds the axes of a state. -/
inductive HasherClass where
  /-- Finds no axes. -/
  | plain
  /-- States are sequences of numbers. -/
  | array
  /-- States are tuples of numbers. -/
  | tuple
  /-- States are poses. -/
  | pose
  deriving DecidableEq, Repr

/-- A resolution for each of at least one axis, three axes for poses, and a word size. -/
structure Hasher where
  kind : HasherClass
  resolution : List Reading
  width : Width
  resolution_ne_nil : resolution ≠ []
  length_of_pose : kind = .pose → resolution.length = 3

namespace HasherClass

def name : HasherClass → String
  | plain => "SpatialHash"
  | array => "ArrayHash"
  | tuple => "TupleHash"
  | pose => "Pose2DHash"

end HasherClass

namespace Reading

/-- A number that is no object yet. -/
def ofValue (x : Binary64) : Reading := ⟨x, none⟩

/-- Equality of objects: equal numbers, or the same object. -/
def same (a b : Reading) : Bool :=
  a.value.numEq b.value || (a.mark.isSome && a.mark == b.mark && a.value == b.value)

end Reading

namespace Hasher

/-- Number of axes. -/
def dimensions (h : Hasher) : Nat := h.resolution.length

def bitsPerAxis (h : Hasher) : Nat := h.width.bitsPerAxis h.dimensions

/-- The cell sizes as numbers. -/
def cellSizes (h : Hasher) : List Binary64 := h.resolution.map Reading.value

/-- The hasher that a pose hasher hands the axes of a pose to. -/
def delegate (h : Hasher) : Hasher where
  kind := .tuple
  resolution := h.resolution
  width := h.width
  resolution_ne_nil := h.resolution_ne_nil
  length_of_pose := by simp

/-- Equality of lists of number objects, one by one. -/
def sameReadings : List Reading → List Reading → Bool
  | [], [] => true
  | a :: as, b :: bs => a.same b && sameReadings as bs
  | _, _ => false

/-- Equality of hashers: same class, same resolution and same word size. -/
def same (g h : Hasher) : Bool :=
  g.kind == h.kind && sameReadings g.resolution h.resolution && g.width == h.width

theorem dimensions_pos (h : Hasher) : 0 < h.dimensions :=
  List.length_pos_iff.mpr h.resolution_ne_nil

end Hasher

end CellKeys
