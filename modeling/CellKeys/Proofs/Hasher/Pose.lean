import CellKeys.Proofs.Hasher.Sequence
import CellKeys.Proofs.Pose

namespace CellKeys

namespace Hasher

open Value

theorem flatten_wrapThirds {rows : List (List Binary64)} (h : ∀ row ∈ rows, row.length = 3) :
    wrapThirds rows.flatten = (rows.map wrapThirds).flatten := by
  induction rows with
  | nil => rfl
  | cons row rows ih =>
    obtain ⟨x, y, theta, rfl⟩ := List.length_eq_three.mp (h row List.mem_cons_self)
    have hrest := ih fun other hother => h other (List.mem_cons_of_mem _ hother)
    simp only [List.flatten_cons, List.map_cons, wrapThirds, List.cons_append, List.nil_append,
      hrest]

theorem length_wrapped_rows {rows : List (List Binary64)} (h : ∀ row ∈ rows, row.length = 3) :
    ∀ row ∈ rows.map wrapThirds, row.length = 3 := by
  intro wrapped hwrapped
  obtain ⟨row, hrow, rfl⟩ := List.mem_map.mp hwrapped
  rw [length_wrapThirds, h row hrow]

/-- Wrapping a table wraps each of its rows. -/
theorem wrapTable_rows {t : Tensor Binary64} {n : Nat} (ht : t.shape = [n, 3]) :
    ∃ table, wrapTable t = .ok table ∧ table.shape = [n, 3] ∧
      table.rows = t.rows.map wrapThirds := by
  have hlength : ∀ row ∈ t.rows, row.length = 3 := fun row => Tensor.length_of_mem_rows ht
  have hrows := t.length_rows ht
  have hentries : wrapThirds t.entries = (t.rows.map wrapThirds).flatten := by
    rw [← Tensor.flatten_rows ht, flatten_wrapThirds hlength]
  refine ⟨⟨t.shape, wrapThirds t.entries, by rw [length_wrapThirds, t.length_entries]⟩, ?_, ht, ?_⟩
  · simp only [wrapTable, ht]
  · refine Tensor.rows_of_flatten ?_ (length_wrapped_rows hlength) hentries
    rw [List.length_map, hrows]
    exact ht

/-- The key of a pose is the key of the cells of its position and its wrapped heading. -/
theorem key_pose {h : Hasher} (hkind : h.kind = .pose) {v : Value} {x y theta wrapped : Binary64}
    (hv : v.IsPose [x, y, theta]) (hwrap : Heading.wrap theta = .ok wrapped) :
    h.key v = .ok (h.width.cellKey (cellsOf [x, y, wrapped] h.cellSizes)).toNat := by
  obtain ⟨items, haxes, hitems⟩ := hv.poseAxes hwrap
  simp only [key, hkind, haxes, bind, Except.bind]
  exact h.sequenceKey_delegate (IsVector.tuple hitems).widensTo (h.length_of_pose hkind).symm

theorem key_pose_error {h : Hasher} (hkind : h.kind = .pose) {v : Value} {x y theta : Binary64}
    {e : Fault} (hv : v.IsPose [x, y, theta]) (hwrap : Heading.wrap theta = .error e) :
    h.key v = .error e := by
  simp only [key, hkind, hv.poseAxes_error hwrap, bind, Except.bind]

theorem axes_pose {h : Hasher} (hkind : h.kind = .pose) {v : Value} {row : List Binary64}
    (hv : v.IsPose row) (hfinite : ¬ InfiniteHeading row) :
    ∃ a, h.axes v = .ok a ∧ a.IsVector (wrapThirds row) ∧ (wrapThirds row).length = 3 := by
  obtain ⟨x, y, theta, rfl⟩ := hv.row
  rw [infiniteHeading_iff, not_exists] at hfinite
  obtain ⟨items, haxes, hitems⟩ := hv.poseAxes (Heading.wrap_eq_wrapEntry hfinite)
  refine ⟨.tuple items, ?_, .tuple hitems, rfl⟩
  simp only [axes, HasherClass.axes, hkind, haxes, bind, Except.bind]
  rfl

theorem axes_pose_infinite {h : Hasher} (hkind : h.kind = .pose) {v : Value} {row : List Binary64}
    (hv : v.IsPose row) (hinfinite : InfiniteHeading row) : h.axes v = .error .infiniteHeading := by
  obtain ⟨x, y, theta, rfl⟩ := hv.row
  obtain ⟨s, rfl⟩ := infiniteHeading_iff.mp hinfinite
  simp only [axes, HasherClass.axes, hkind, hv.poseAxes_error (Heading.wrap_infinity s), bind,
    Except.bind]

theorem axesRows_poses {h : Hasher} (hkind : h.kind = .pose) {poses : List Value}
    {rows : List (List Binary64)} (hposes : List.Forall₂ IsPose poses rows)
    (hfinite : ∀ row ∈ rows, ¬ InfiniteHeading row) (m : Mark) :
    ∃ table, HasherClass.axesRows .pose (.ok h.dimensions) (.list poses m) = .ok table ∧
      table.shape = [rows.length, 3] ∧ table.rows = rows.map wrapThirds := by
  have hdimensions : h.dimensions = 3 := h.length_of_pose hkind
  have haxes : List.Forall₂ (fun v row => ∃ a, h.axes v = .ok a ∧ a.WidensTo row ∧
      row.length = h.dimensions) poses (rows.map wrapThirds) := by
    rw [List.forall₂_map_right_iff, hdimensions]
    refine forall₂_imp_of_mem hposes fun v row hmem hv => ?_
    obtain ⟨a, ha, hrow, hlength⟩ := axes_pose hkind hv (hfinite row hmem)
    exact ⟨a, ha, hrow.widensTo, hlength⟩
  have htable := axesRows_eq haxes m
  rw [hkind, List.length_map] at htable
  rwa [hdimensions] at htable ⊢

/-- A list of poses has the keys of the array of their rows. -/
theorem keys_poses {h : Hasher} (hkind : h.kind = .pose) {t : Tensor Binary64} {n : Nat}
    (ht : t.shape = [n, 3]) {poses : List Value} (hposes : List.Forall₂ IsPose poses t.rows)
    (hfinite : ∀ row ∈ t.rows, ¬ InfiniteHeading row) (l m : Mark) :
    h.keys (.list poses l) = h.keys (.array .float64 (t.map .float) m) := by
  obtain ⟨table, htable, hshape, hrows⟩ := wrapTable_rows ht
  obtain ⟨other, hother, hsame, hwrapped⟩ := axesRows_poses hkind hposes hfinite l
  rw [t.length_rows ht] at hsame
  have heq : other = table := Tensor.eq_of_rows hsame hshape (hwrapped.trans hrows.symm)
  subst heq
  simp only [keys, axesTable, HasherClass.axesTable, hkind, hother, map_value_float, htable, bind,
    Except.bind]

/-- A list that holds a pose with an infinite heading has no keys. -/
theorem keys_poses_infinite {h : Hasher} (hkind : h.kind = .pose) {poses : List Value}
    {rows : List (List Binary64)} (hposes : List.Forall₂ IsPose poses rows)
    (hinfinite : ∃ row ∈ rows, InfiniteHeading row) (m : Mark) :
    h.keys (.list poses m) = .error .infiniteHeading := by
  have haxes : poses.mapM h.axes = .error .infiniteHeading := by
    refine mapM_eq_error hposes ?_ (fun _ _ => axes_pose_infinite hkind) hinfinite
    intro v row hv hfinite
    obtain ⟨a, ha, -⟩ := axes_pose hkind hv hfinite
    exact ⟨a, ha⟩
  rw [axes, hkind] at haxes
  simp only [keys, axesTable, HasherClass.axesTable, HasherClass.axesRows, hkind, elements, haxes,
    bind, Except.bind]

/-- What makes a key the key of the pose with these three numbers. -/
structure IsPoseKey (h : Hasher) (x y theta : Binary64) (key : Nat) : Prop where
  /-- Unless its heading is infinite, every such pose has the key. -/
  single : (∀ s, theta ≠ .infinity s) → ∀ v : Value, v.IsPose [x, y, theta] → h.key v = .ok key
  /-- The wrapped pose has the key as a tuple, for the tuple hasher of the same cells. -/
  tuple : (∀ s, theta ≠ .infinity s) →
    ∃ g, buildFrom .tuple (.tuple h.divisors) (.width h.width) = .ok g ∧
      ∀ vx vy vt : Value, vx.IsBinary64 x → vy.IsBinary64 y → vt.IsBinary64 theta →
        ∃ wrapped, wrapValue vt = .ok wrapped ∧
          g.key (.tuple [vx, vy, .ofBinary64 wrapped]) = .ok key
  /-- A pose with an infinite heading is refused. -/
  refused : ∀ s, theta = .infinity s → ∀ v : Value, v.IsPose [x, y, theta] →
    h.key v = .error .infiniteHeading
  /-- In its place the key is that of a NaN heading. -/
  infinite : ∀ s, theta = .infinity s → ∀ v : Value, v.IsPose [x, y, .nan] → h.key v = .ok key

theorem isPoseKey_cells {h : Hasher} (hkind : h.kind = .pose) (x y theta : Binary64) :
    h.IsPoseKey x y theta
      (h.width.cellKey (cellsOf [x, y, Heading.wrapEntry theta] h.cellSizes)).toNat where
  single := fun hfinite _ hv => key_pose hkind hv (Heading.wrap_eq_wrapEntry hfinite)
  tuple := by
    intro hfinite
    have hwrap := Heading.wrap_eq_wrapEntry hfinite
    refine ⟨h.delegate, h.buildFrom_tuple, ?_⟩
    intro vx vy vt hx hy ht
    refine ⟨Heading.wrapEntry theta, ?_, ?_⟩
    · simp only [wrapValue, ht.toBinary64, hwrap, bind, Except.bind]
    · have hitems : List.Forall₂ IsBinary64 [vx, vy, .ofBinary64 (Heading.wrapEntry theta)]
          [x, y, Heading.wrapEntry theta] := .cons hx (.cons hy (.cons (.float _ _) .nil))
      exact h.sequenceKey_delegate (IsVector.tuple hitems).widensTo (h.length_of_pose hkind).symm
  refused := by
    rintro s rfl v hv
    exact key_pose_error hkind hv (Heading.wrap_infinity s)
  infinite := by
    rintro s rfl v hv
    have hnan : Heading.wrapEntry (.infinity s) = Heading.wrapEntry .nan := by
      rw [Heading.wrapEntry_of_not_finite rfl, Heading.wrapEntry_of_not_finite rfl]
    have hfinite : ∀ s, Binary64.nan ≠ .infinity s := by
      intro s heq
      cases heq
    rw [hnan]
    exact key_pose hkind hv (Heading.wrap_eq_wrapEntry hfinite)

theorem forall₂_isPoseKey {h : Hasher} (hkind : h.kind = .pose) {rows : List (List Binary64)}
    (hrows : ∀ row ∈ rows, row.length = 3) {keys : List UInt64}
    (hkeys : keys.map UInt64.toNat = (rows.map wrapThirds).map fun row =>
      (h.width.cellKey (cellsOf row h.cellSizes)).toNat) :
    List.Forall₂ (fun row key =>
      ∃ x y theta, row = [x, y, theta] ∧ h.IsPoseKey x y theta key.toNat) rows keys := by
  rw [← List.forall₂_map_right_iff
    (R := fun row key => ∃ x y theta, row = [x, y, theta] ∧ h.IsPoseKey x y theta key), hkeys,
    List.map_map, List.forall₂_map_right_iff, List.forall₂_same]
  intro row hrow
  obtain ⟨x, y, theta, rfl⟩ := List.length_eq_three.mp (hrows row hrow)
  exact ⟨x, y, theta, rfl, isPoseKey_cells hkind x y theta⟩

/-- The keys of an array of poses are those of the cells of its wrapped rows. -/
theorem keys_poseTable {h : Hasher} (hkind : h.kind = .pose) {t : Tensor Binary64} {n : Nat}
    (ht : t.shape = [n, 3]) (m : Mark) :
    ∃ keys, h.keys (.array .float64 (t.map .float) m) = .ok keys ∧ keys.shape = [n] ∧
      keys.entries.map UInt64.toNat = (t.rows.map wrapThirds).map fun row =>
        (h.width.cellKey (cellsOf row h.cellSizes)).toNat := by
  obtain ⟨table, htable, hshape, hrows⟩ := wrapTable_rows ht
  have hdimensions : table.shape = [n, h.delegate.dimensions] := by
    rw [hshape]
    exact congrArg (fun d => [n, d]) (h.length_of_pose hkind).symm
  obtain ⟨keys, hkeys, hcount, hentries⟩ := h.delegate.tableKeys_eq hdimensions
  rw [hrows] at hentries
  refine ⟨keys, ?_, hcount, hentries⟩
  simp only [Hasher.keys, axesTable, HasherClass.axesTable, hkind, map_value_float, htable, bind,
    Except.bind]
  exact hkeys

/-- For every pose hasher, an array with one row for each pose has as many keys as rows. Unless a
    heading is infinite, the key of a row is the key of its pose and of the wrapped pose as a tuple,
    and the list of all poses has the same keys. An infinite heading is refused in a pose and in a
    list of poses; the array gives its row the key of a NaN heading. -/
theorem pose_keys_agree {h : Hasher} (hkind : h.kind = .pose) {t : Tensor Binary64} {n : Nat}
    (ht : t.shape = [n, 3]) (m : Mark) :
    ∃ keys, h.keys (.array .float64 (t.map .float) m) = .ok keys ∧ keys.shape = [n] ∧
      List.Forall₂ (fun row key =>
        ∃ x y theta, row = [x, y, theta] ∧ h.IsPoseKey x y theta key.toNat) t.rows keys.entries ∧
      (∃ rows poses, (Value.array .float64 (t.map .float) m).elements = .ok rows ∧
        (rows.mapM fun row => row.elements >>= ofAttributes) = .ok poses ∧
        List.Forall₂ IsPose poses t.rows) ∧
      ∀ (poses : List Value) (l : Mark), List.Forall₂ IsPose poses t.rows →
        ((∀ row ∈ t.rows, ¬ InfiniteHeading row) → h.keys (.list poses l) = .ok keys) ∧
        ((∃ row ∈ t.rows, InfiniteHeading row) →
          h.keys (.list poses l) = .error .infiniteHeading) := by
  obtain ⟨keys, hkeys, hcount, hentries⟩ := keys_poseTable hkind ht m
  have hlength : ∀ row ∈ t.rows, row.length = 3 := fun row => Tensor.length_of_mem_rows ht
  refine ⟨keys, hkeys, hcount, forall₂_isPoseKey hkind hlength hentries, ?_, ?_⟩
  · obtain ⟨poses, hposes, hbuilt⟩ := mapM_ofAttributes (slices_table ht)
    exact ⟨_, poses, elements_table ht m, hposes, hbuilt⟩
  · intro poses l hposes
    refine ⟨fun hfinite => ?_, fun hinfinite => keys_poses_infinite hkind hposes hinfinite l⟩
    rw [keys_poses hkind ht hposes hfinite l m]
    exact hkeys

/-- A heading above half a turn next to an infinite one. -/
theorem pose_keys_agree_infinite :
    let h : Hasher := ⟨.pose, [⟨.ofInt 2, none⟩, ⟨.zero true, none⟩, ⟨.one, none⟩], .w32, by simp,
      by simp⟩
    let t : Tensor Binary64 :=
      ⟨[2, 3], [.ofInt 5, .ofInt (-3), .ofInt 4, .one, .nan, .infinity true], rfl⟩
    let poses : List Value :=
      [.pose (.float (.ofInt 5) .none) (.float (.ofInt (-3)) .none) (.float (.ofInt 4) .none) .none,
        .pose (.float .one .none) (.float .nan .none) (.float (.infinity true) .none) .none]
    h.kind = .pose ∧ t.shape = [2, 3] ∧
      ∃ keys, h.keys (.array .float64 (t.map .float) .none) = .ok keys ∧ keys.shape = [2] ∧
        List.Forall₂ (fun row key =>
          ∃ x y theta, row = [x, y, theta] ∧ h.IsPoseKey x y theta key.toNat) t.rows keys.entries ∧
        h.keys (.list poses .none) = .error .infiniteHeading := by
  intro h t poses
  obtain ⟨keys, hkeys, hshape, hrows, -, hlists⟩ :=
    pose_keys_agree (h := h) rfl (t := t) (n := 2) rfl .none
  have hposes : List.Forall₂ IsPose poses t.rows :=
    .cons (.pose (.float _ _) (.float _ _) (.float _ _) _)
      (.cons (.pose (.float _ _) (.float _ _) (.float _ _) _) .nil)
  refine ⟨rfl, rfl, keys, hkeys, hshape, hrows, (hlists poses .none hposes).2 ?_⟩
  exact ⟨[.one, .nan, .infinity true], List.mem_cons_of_mem _ List.mem_cons_self, _, _, _, rfl⟩

end Hasher

end CellKeys
