import CellKeys.Key.Argument
import CellKeys.Pose
import CellKeys.Value.Sequence

namespace CellKeys

/-- What is recorded about a hasher when it is built. -/
structure BuildRecord where
  kind : HasherClass
  resolution : List Binary64
  width : Width
  bitsPerAxis : Nat
  deriving DecidableEq

/-- A record as one line of the log. -/
def BuildRecord.line (r : BuildRecord) : String :=
  "DEBUG spacehash.hashers " ++ r.kind.name ++ ": resolution=" ++
    tupleText (r.resolution.map Binary64.text) ++ " width=" ++ Nat.repr r.width.bits ++
    " bits_per_axis=" ++ Nat.repr r.bitsPerAxis

namespace Hasher

/-- The record of a hasher without those of the hashers it uses. -/
def record (h : Hasher) : BuildRecord := ⟨h.kind, h.cellSizes, h.width, h.bitsPerAxis⟩

/-- The records that building a hasher leaves, in order. -/
def records (h : Hasher) : List BuildRecord :=
  if h.kind = .pose then [h.record, h.delegate.record] else [h.record]

/-- The hasher with these number objects as resolution, if it has enough of them. -/
def ofReadings (kind : HasherClass) (resolution : List Reading) (w : Width) :
    Except Fault Hasher :=
  if hne : resolution ≠ [] then
    if hpose : kind = .pose → resolution.length = 3 then .ok ⟨kind, resolution, w, hne, hpose⟩
    else .error (.resolutionCount resolution.length)
  else .error (.noAxes "0")

/-- Builds a hasher from a list of resolutions. -/
def build (kind : HasherClass) (resolution : List Value) (width : Value) : Except Fault Hasher := do
  let readings ← resolution.mapM Value.toReading
  let w ← Width.ofValue width
  ofReadings kind readings w

/-- The resolution of each axis of a pose: one for all axes by default, or one for both components
    of the position and one for the heading, or one for each axis. -/
def poseResolution : List Value → Except Fault (List Value)
  | [] => .ok (List.replicate 3 (.ofBinary64 .one))
  | [linear, angular] => .ok [linear, linear, angular]
  | [x, y, theta] => .ok [x, y, theta]
  | given => .error (.resolutionCount given.length)

/-- Builds a pose hasher from the resolutions it is given. -/
def buildPose (given : List Value) (width : Value) : Except Fault Hasher := do
  build .pose (← poseResolution given) width

/-- Builds a hasher whose resolution is a sequence. -/
def buildFrom (kind : HasherClass) (resolution width : Value) : Except Fault Hasher := do
  build kind (← resolution.elements) width

/-- The ways to ask for a hasher. -/
inductive Constructor where
  /-- A class whose resolution is one sequence. -/
  | sequence (kind : HasherClass)
  /-- Any number of resolutions for poses. -/
  | pose
  /-- One resolution for each of the three axes of a pose. -/
  | poseAxes
  /-- A resolution for the position of a pose and one for its heading. -/
  | poseLinearAngular

/-- The way to ask for a hasher that has this name. -/
def Constructor.ofName? (name : String) : Option Constructor :=
  match name with
  | "SpatialHash" => some (sequence .plain)
  | "ArrayHash" => some (sequence .array)
  | "TupleHash" => some (sequence .tuple)
  | "Pose2DHash" => some pose
  | "Pose2DHash.from_axes" => some poseAxes
  | "Pose2DHash.from_linear_angular" => some poseLinearAngular
  | _ => none

/-- The word size that is used unless another is asked for. -/
def defaultWidth : Value := .width .w64

/-- Splits arguments after the resolutions: one more may follow as the word size, unless that is
    named already. -/
def splitWidth (count : Nat) (args : List Value) (width : Option Value) :
    Except Fault (List Value × Value) :=
  match args.drop count, width with
  | [], width =>
    if args.length = count then .ok (args, width.getD defaultWidth) else .error .argumentCount
  | [w], none => .ok (args.take count, w)
  | _, _ => .error .argumentCount

/-- Calls a constructor with arguments and, perhaps, a named word size. -/
def Constructor.apply (c : Constructor) (args : List Value) (width : Option Value) :
    Except Fault Hasher := do
  match c with
  | sequence kind =>
    match ← splitWidth 1 args width with
    | ([resolution], width) => buildFrom kind resolution width
    | _ => throw .argumentCount
  | pose => buildPose args (width.getD defaultWidth)
  | poseAxes =>
    let (given, width) ← splitWidth 3 args width
    buildPose given width
  | poseLinearAngular =>
    let (given, width) ← splitWidth 2 args width
    buildPose given width

/-- The hasher that fits an example state: poses, tuples and sequences have one each. Without a
    resolution every axis of the example gets one. -/
def forExample (sample resolution width : Value) : Except Fault Hasher := do
  let given := match resolution with
    | .none => none
    | v => some v
  if sample.isPose then
    buildPose (← (given.map Value.elements).getD (.ok [])) width
  else
    let kind ← match sample with
      | .tuple _ => pure .tuple
      | .list .. | .array .. => pure .array
      | v => throw (.noHasher v.typeName)
    match given with
    | some resolution => buildFrom kind resolution width
    | none => build kind (List.replicate (← sample.length) (.ofBinary64 .one)) width

end Hasher

end CellKeys
