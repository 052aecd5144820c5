import CellKeys.Proofs.Hasher.Pose
import CellKeys.Proofs.Hasher.Shape
import CellKeys.Proofs.Value.Equality

namespace CellKeys

open Value

open Binary64 (Alike)

theorem Reading.alike_of_same {a b : Reading} (h : a.same b = true) : a.value.Alike b.value := by
  rw [same, Bool.or_eq_true, Bool.and_eq_true, beq_iff_eq] at h
  rcases h with hnum | ⟨-, hobject⟩
  · exact Binary64.alike_of_numEq hnum
  · rw [hobject]
    apply Alike.refl

/-- Sizes that differ in the signs of zeros only give an array the same keys, or refuse it for the
    same reason. -/
theorem batchKeys_alike (w : Width) (t : Tensor Binary64) {ds es : List Value}
    {divs sizes : List Binary64} (hd : List.Forall₂ IsBinary64 ds divs)
    (he : List.Forall₂ IsBinary64 es sizes) (hsame : List.Forall₂ Alike divs sizes)
    (hne : divs ≠ []) :
    batchKeys w t ds = batchKeys w t es := by
  have hcount := hsame.length_eq
  have hsome := ne_nil_of_length_eq hcount.symm hne
  have hcells : ∀ row, cellsOf row divs = cellsOf row sizes := fun row =>
    cellsOf_alike (List.forall₂_same.mpr fun x _ => .refl x) hsame
  rw [batchKeys_eq_map w t hd hne, batchKeys_eq_map w t he hsome, hcount]
  simp only [hcells]

namespace Hasher

/-- Hashers of one class and one word size whose cell sizes differ at most in the signs of zeros. -/
structure Alike (g h : Hasher) : Prop where
  kind : g.kind = h.kind
  width : g.width = h.width
  cellSizes : List.Forall₂ Binary64.Alike g.cellSizes h.cellSizes

theorem alike_of_sameReadings {rs ss : List Reading} (h : sameReadings rs ss = true) :
    List.Forall₂ Binary64.Alike (rs.map Reading.value) (ss.map Reading.value) := by
  induction rs generalizing ss with
  | nil =>
    cases ss with
    | nil => exact .nil
    | cons => cases h
  | cons r rs ih =>
    cases ss with
    | nil => cases h
    | cons s ss =>
      rw [sameReadings, Bool.and_eq_true] at h
      exact .cons (Reading.alike_of_same h.1) (ih h.2)

theorem sameReadings_of_numEq {rs ss : List Reading}
    (h : List.Forall₂ (fun r s => r.value.numEq s.value = true) rs ss) :
    sameReadings rs ss = true := by
  induction h with
  | nil => rfl
  | cons hrs _ ih => rw [sameReadings, Reading.same, hrs, ih, Bool.true_or, Bool.and_self]

theorem alike_of_same {g h : Hasher} (hsame : g.same h = true) : g.Alike h := by
  simp only [same, Bool.and_eq_true, beq_iff_eq] at hsame
  obtain ⟨⟨hkind, hsizes⟩, hwidth⟩ := hsame
  exact ⟨hkind, hwidth, alike_of_sameReadings hsizes⟩

namespace Alike

variable {g h : Hasher} (hsame : g.Alike h)

include hsame

theorem dimensions : g.dimensions = h.dimensions := by
  rw [← length_cellSizes, ← length_cellSizes, hsame.cellSizes.length_eq]

/-- The hashers that equal pose hashers delegate to are equal. -/
theorem delegate : g.delegate.Alike h.delegate := ⟨rfl, hsame.width, hsame.cellSizes⟩

theorem readings (state : Value) : g.readings state = h.readings state := by
  simp only [Hasher.readings, hsame.kind, hsame.dimensions]

theorem axes (state : Value) : g.axes state = h.axes state := by
  simp only [Hasher.axes, hsame.kind, hsame.dimensions]

theorem axesTable (states : Value) : g.axesTable states = h.axesTable states := by
  simp only [Hasher.axesTable, hsame.kind, hsame.dimensions]

theorem sequenceKey (state : Value) : g.sequenceKey state = h.sequenceKey state := by
  have hstate : ∀ rs : List Reading, stateKey g.width (rs.map ofReading) g.divisors =
      stateKey h.width (rs.map ofReading) h.divisors := by
    intro rs
    have hrs := forall₂_ofReading rs
    have hcells : cellsOf (rs.map Reading.value) g.cellSizes =
        cellsOf (rs.map Reading.value) h.cellSizes :=
      cellsOf_alike (List.forall₂_same.mpr fun x _ => .refl x) hsame.cellSizes
    rw [hsame.width]
    exact stateKey_congr h.width hrs hrs (forall₂_ofReading g.resolution)
      (forall₂_ofReading h.resolution) rfl hsame.cellSizes.length_eq hcells
  simp only [Hasher.sequenceKey, hsame.readings, hstate]

theorem key (state : Value) : g.key state = h.key state := by
  simp only [Hasher.key, hsame.kind, hsame.sequenceKey, hsame.delegate.sequenceKey]

theorem tableKeys (t : Tensor Binary64) : g.tableKeys t = h.tableKeys t := by
  rw [Hasher.tableKeys, Hasher.tableKeys, hsame.width]
  exact batchKeys_alike h.width t (forall₂_ofReading g.resolution) (forall₂_ofReading h.resolution)
    hsame.cellSizes g.cellSizes_ne_nil

theorem keys (states : Value) : g.keys states = h.keys states := by
  simp only [Hasher.keys, hsame.kind, hsame.axesTable, hsame.tableKeys, hsame.delegate.tableKeys]

end Alike

/-- Poses whose attributes differ in the signs of zeros only have the same key, or none for the same
    reason. -/
theorem key_pose_alike {h : Hasher} (hkind : h.kind = .pose) {p q : Value} {xs ys : List Binary64}
    (hp : p.IsPose xs) (hq : q.IsPose ys) (hsame : List.Forall₂ Binary64.Alike xs ys) :
    h.key p = h.key q := by
  obtain ⟨x, y, theta, rfl⟩ := hp.row
  obtain ⟨x₂, y₂, theta₂, rfl⟩ := hq.row
  obtain _ | ⟨hx, _ | ⟨hy, _ | ⟨htheta, -⟩⟩⟩ := hsame
  rcases Heading.wrap_alike htheta with ⟨e, hwrap, hwrap₂⟩ | ⟨r, s, hwrap, hwrap₂, hrs⟩
  · rw [key_pose_error hkind hp hwrap, key_pose_error hkind hq hwrap₂]
  · rw [key_pose hkind hp hwrap, key_pose hkind hq hwrap₂,
      cellsOf_alike (.cons hx (.cons hy (.cons hrs .nil)))
        (List.forall₂_same.mpr fun x _ => .refl x)]

/-- Hashers are equal when they have one class and one word size and their cell sizes are equal as
    numbers, which zeros of different signs are. Equal hashers give every state the same key and
    every batch the same keys, and refuse the same ones for the same reason. Poses are equal when
    their attributes are equal as numbers, and every pose hasher gives equal poses the same key or
    refuses both. -/
theorem equality_keeps_keys :
    (∀ (g h : Hasher) (m n : Mark),
      (g.kind = h.kind → g.width = h.width →
        List.Forall₂ (fun d e => d.numEq e = true) g.cellSizes h.cellSizes →
        (Value.hasher g m).valueEq (.hasher h n) = .ok true) ∧
      ((Value.hasher g m).valueEq (.hasher h n) = .ok true → g.width = h.width ∧
        (∀ state, g.key state = h.key state) ∧ ∀ states, g.keys states = h.keys states)) ∧
    ∀ (p q : Value) (xs ys : List Binary64), p.IsPose xs → q.IsPose ys →
      (List.Forall₂ (fun x y => x.numEq y = true) xs ys → p.valueEq q = .ok true) ∧
      (p.valueEq q = .ok true → ∀ h : Hasher, h.kind = .pose → h.key p = h.key q) := by
  refine ⟨fun g h m n => ⟨?_, ?_⟩, fun p q xs ys hp hq => ⟨?_, ?_⟩⟩
  · intro hkind hwidth hsizes
    rw [cellSizes, cellSizes, List.forall₂_map_left_iff, List.forall₂_map_right_iff] at hsizes
    rw [valueEq_hashers, same, hkind, hwidth, sameReadings_of_numEq hsizes]
    simp
  · intro heq
    rw [valueEq_hashers] at heq
    have hsame := alike_of_same (Except.ok.inj heq)
    exact ⟨hsame.width, hsame.key, hsame.keys⟩
  · exact hp.valueEq_of_numEq hq
  · intro heq h hkind
    exact key_pose_alike hkind hp hq (hp.alike hq heq)

/-- Cell sizes, positions and headings that are zeros of different signs. -/
theorem equality_keeps_keys_zeros :
    let g : Hasher := ⟨.array, [.ofValue (.zero false), .ofValue .one], .w64, nofun, nofun⟩
    let h : Hasher := ⟨.array, [.ofValue (.zero true), .ofValue .one], .w64, nofun, nofun⟩
    let p : Value := .pose (.float (.zero false) none) (.float .nan (some 0))
      (.float (.zero true) none) none
    let q : Value := .pose (.float (.zero true) none) (.float .nan (some 0))
      (.float (.zero false) none) none
    let poses : Hasher := ⟨.pose, List.replicate 3 (.ofValue .one), .w32, nofun, fun _ => rfl⟩
    g.resolution ≠ h.resolution ∧ (Value.hasher g none).valueEq (.hasher h none) = .ok true ∧
      (∀ state, g.key state = h.key state) ∧ (∀ states, g.keys states = h.keys states) ∧
      p.valueEq q = .ok true ∧ poses.key p = poses.key q := by
  intro g h p q poses
  have hp : p.IsPose [.zero false, .nan, .zero true] :=
    .pose (.float _ _) (.float _ _) (.float _ _) _
  have hq : q.IsPose [.zero true, .nan, .zero false] :=
    .pose (.float _ _) (.float _ _) (.float _ _) _
  have hsizes : List.Forall₂ (fun d e => d.numEq e = true) g.cellSizes h.cellSizes := by
    refine .cons ?_ (.cons ?_ .nil)
    all_goals decide +kernel
  have hpose : p.valueEq q = .ok true := by decide +kernel
  obtain ⟨hhashers, hposes⟩ := equality_keeps_keys
  obtain ⟨hequal, hkeys⟩ := hhashers g h none none
  obtain ⟨-, hkey, hbatch⟩ := hkeys (hequal rfl rfl hsizes)
  exact ⟨by decide, hequal rfl rfl hsizes, hkey, hbatch, hpose,
    (hposes p q _ _ hp hq).2 hpose poses rfl⟩

end Hasher

end CellKeys
