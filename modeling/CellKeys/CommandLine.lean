import CellKeys.Hasher.Keys
import CellKeys.Text.Hex

namespace CellKeys

namespace CommandLine

/-- What a run prints, and how it ends: with a status, or by a failure that nothing catches. -/
structure Outcome where
  output : String
  ending : Except Fault Nat

/-- The lines that say how to call the program. -/
def usage : String :=
  "Usage: python -m spacehash X Y THETA [LINEAR ANGULAR]\n" ++
    "Example: python -m spacehash 0.05 0.05 0.01 0.1 0.1\n"

/-- What is wrong with an argument that is not the text of a number. -/
def complaint : Fault → String
  | .unreadable quoted => "could not convert string to float: " ++ quoted
  | e => e.message?.getD ""

/-- A key in hexadecimal digits, with zeros in front up to the word size. -/
def keyText (w : Width) (key : Nat) : String :=
  "0x" ++ String.ofList (Text.paddedHex (w.bits / 4) key)

/-- The line for one word size. -/
def keyLine (resolution : List Value) (pose : Value) (w : Width) : Except Fault String := do
  let h ← Hasher.buildPose resolution (.width w)
  let key ← h.key pose
  return Nat.repr w.bits ++ "-bit key: " ++ keyText w key ++ "  " ++ h.text ++ "\n"

/-- The lines for these word sizes, up to the first that fails. -/
def keyLines (resolution : List Value) (pose : Value) : List Width → Outcome
  | [] => ⟨"", .ok 0⟩
  | w :: ws => match keyLine resolution pose w with
    | .ok line =>
      let rest := keyLines resolution pose ws
      ⟨line ++ rest.output, rest.ending⟩
    | .error e => ⟨"", .error e⟩

/-- The pose and its keys, for numbers that are the attributes of the pose and then the cell sizes.
    -/
def describe (values : List Binary64) : Outcome :=
  match Value.ofAttributes ((values.take 3).map .ofBinary64) with
  | .ok pose =>
    let keys := keyLines ((values.drop 3).map .ofBinary64) pose Width.all
    ⟨"Pose: " ++ pose.shown ++ "\n" ++ keys.output, keys.ending⟩
  | .error e => ⟨"", .error e⟩

/-- A run with these arguments. -/
def run (args : List String) : Outcome :=
  if args.length ≠ 3 ∧ args.length ≠ 5 then ⟨usage, .ok 1⟩
  else match args.mapM Value.readText with
    | .ok values => describe values
    | .error e => ⟨"Error: " ++ complaint e ++ "\n", .ok 1⟩

/-- The exit status of a run: a failure that nothing catches counts as one. -/
def Outcome.status (o : Outcome) : Nat :=
  match o.ending with
  | .ok status => status
  | .error _ => 1

end CommandLine

end CellKeys
