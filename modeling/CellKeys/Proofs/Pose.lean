import CellKeys.Pose
import CellKeys.Proofs.Heading
import CellKeys.Proofs.Value.Array

namespace CellKeys

/-- Whether the heading in a row of three numbers is infinite. -/
def InfiniteHeading (row : List Binary64) : Prop := ∃ x y s, row = [x, y, .infinity s]

theorem infiniteHeading_iff {x y theta : Binary64} :
    InfiniteHeading [x, y, theta] ↔ ∃ s, theta = .infinity s := by
  constructor
  · rintro ⟨_, _, s, hrow⟩
    cases hrow
    exact ⟨s, rfl⟩
  · rintro ⟨s, rfl⟩
    exact ⟨x, y, s, rfl⟩

namespace Value

/-- A pose with the three numbers of a row as attributes. -/
inductive IsPose : Value → List Binary64 → Prop where
  | pose {vx vy vt : Value} {x y theta : Binary64} (hx : vx.IsBinary64 x) (hy : vy.IsBinary64 y)
    (ht : vt.IsBinary64 theta) (m : Mark) : IsPose (.pose vx vy vt m) [x, y, theta]

theorem IsPose.row {v : Value} {row : List Binary64} (h : v.IsPose row) :
    ∃ x y theta, row = [x, y, theta] := by
  cases h with
  | pose => exact ⟨_, _, _, rfl⟩

/-- Three binary64 numbers build a pose. -/
theorem ofAttributes_isPose {vs : List Value} {row : List Binary64}
    (h : List.Forall₂ IsBinary64 vs row) (hlength : row.length = 3) :
    ∃ v, ofAttributes vs = .ok v ∧ v.IsPose row := by
  obtain ⟨rs, hrs, hrow⟩ := mapM_toReading (h.imp fun _ _ => IsBinary64.widens)
  have hthree : rs.length = 3 := by rw [← hlength, ← hrow, List.length_map]
  have hfew : ¬ 3 < vs.length := by rw [h.length_eq]; omega
  obtain ⟨rx, ry, rt, rfl⟩ := List.length_eq_three.mp hthree
  subst hrow
  refine ⟨.pose (ofReading rx) (ofReading ry) (ofReading rt) .none, ?_,
    .pose (.float _ _) (.float _ _) (.float _ _) _⟩
  simp only [ofAttributes, if_neg hfew, hrs, bind, Except.bind]
  rfl

/-- The rows of a table build one pose each. -/
theorem mapM_ofAttributes {vs : List Value} {rows : List (List Binary64)}
    (h : List.Forall₂ (fun v row => v.IsVector row ∧ row.length = 3) vs rows) :
    ∃ poses, (vs.mapM fun v => v.elements >>= ofAttributes) = .ok poses ∧
      List.Forall₂ IsPose poses rows := by
  refine mapM_forall₂ (h.imp fun v row hv => ?_)
  obtain ⟨items, hitems, hrow⟩ := hv.1.elements
  obtain ⟨pose, hpose, hbuilt⟩ := ofAttributes_isPose hrow hv.2
  refine ⟨pose, ?_, hbuilt⟩
  rw [hitems]
  exact hpose

/-- The axes of a pose are its position and its wrapped heading. -/
theorem IsPose.poseAxes {v : Value} {x y theta wrapped : Binary64} (h : v.IsPose [x, y, theta])
    (hwrap : Heading.wrap theta = .ok wrapped) :
    ∃ items, v.poseAxes = .ok items ∧ List.Forall₂ IsBinary64 items [x, y, wrapped] := by
  cases h with
  | pose hx hy ht m =>
    refine ⟨_, ?_, .cons hx (.cons hy (.cons (.float wrapped .none) .nil))⟩
    simp only [Value.poseAxes, translation, elements, angle, wrapValue, ht.toBinary64, hwrap, bind,
      Except.bind]
    rfl

/-- A pose whose heading cannot be wrapped has no axes. -/
theorem IsPose.poseAxes_error {v : Value} {x y theta : Binary64} {e : Fault}
    (h : v.IsPose [x, y, theta]) (hwrap : Heading.wrap theta = .error e) :
    v.poseAxes = .error e := by
  cases h with
  | pose hx hy ht m =>
    simp only [Value.poseAxes, translation, elements, angle, wrapValue, ht.toBinary64, hwrap, bind,
      Except.bind]

end Value

end CellKeys
