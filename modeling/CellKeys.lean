import CellKeys.About
import CellKeys.Main
import CellKeys.Proofs.Hasher.Pose
import CellKeys.Proofs.Key.Separation
import CellKeys.Session.Growth
import CellKeys.Session.Step
import CellKeys.Proofs.Heading.FullTurn
import CellKeys.Proofs.Hasher.FullTurn
import CellKeys.Proofs.Hasher.Agreement
import CellKeys.Proofs.Hasher.Shape
import CellKeys.Proofs.Value.Hashers
import CellKeys.Proofs.Session.Recorded
import CellKeys.Proofs.Session.Operation
import CellKeys.Proofs.Hasher.Content
import CellKeys.Proofs.Session.Immutable
import CellKeys.Proofs.Heading.Reduction
import CellKeys.Proofs.Key.Axis
import CellKeys.Proofs.Key.Collision
import CellKeys.Proofs.Value.Equality
import CellKeys.Proofs.Hasher.Equality
import CellKeys.Proofs.Binary64.Monotone
import CellKeys.Proofs.Key.Interval
import CellKeys.Proofs.Key.Band
import CellKeys.Proofs.Text.Hex
import CellKeys.Proofs.Text.Line
import CellKeys.Proofs.Text.Shown
import CellKeys.Proofs.CommandLine.Request
import CellKeys.Proofs.CommandLine.Run
import CellKeys.Proofs.Key.Rotation
import CellKeys.Proofs.Binary64.Quotient
import CellKeys.Proofs.Key.Quotient
import CellKeys.Proofs.Hasher.Construction
import CellKeys.Proofs.Hasher.Example
import CellKeys.Proofs.Key.MachineCell
