import CellKeys.Proofs.Heading.Reduction
import CellKeys.Proofs.Key.Cells
import CellKeys.Proofs.Pose
import CellKeys.Value.Equality

namespace CellKeys

/-- The same number, or zeros of any signs. -/
inductive Binary64.Alike : Binary64 → Binary64 → Prop where
  | refl (x : Binary64) : Alike x x
  | zeros (s t : Bool) : Alike (.zero s) (.zero t)

namespace Binary64

theorem alike_of_numEq {x y : Binary64} (h : x.numEq y = true) : x.Alike y := by
  cases x with
  | nan => cases h
  | infinity s =>
    cases y with
    | nan | finite => cases h
    | infinity t =>
      have hsign : s = t := by simpa [numEq] using h
      rw [hsign]
      apply Alike.refl
  | finite s a ha =>
    cases y with
    | nan | infinity => cases h
    | finite t b hb =>
      have hunits : signedUnits s a = signedUnits t b := by simpa [numEq] using h
      -- Units determine the value unless they are zero.
      by_cases hzero : signedUnits t b = 0
      · have hfirst := hunits.trans hzero
        obtain ⟨u, hu⟩ := eq_zero_of_units? (x := finite s a ha) (congrArg some hfirst)
        obtain ⟨v, hv⟩ := eq_zero_of_units? (x := finite t b hb) (congrArg some hzero)
        rw [hu, hv]
        apply Alike.zeros
      · rw [eq_of_units? (x := finite s a ha) (y := finite t b hb) (congrArg some hunits) rfl hzero]
        apply Alike.refl

theorem Alike.cellOf {x y : Binary64} (h : x.Alike y) (div : Binary64) :
    cellOf x div = cellOf y div := by
  cases h with
  | refl => rfl
  | zeros s t => exact cellOf_zero s t div

/-- No coordinate has a cell of size zero. -/
theorem cellOf_div_zero (x : Binary64) (s : Bool) : CellKeys.cellOf x (zero s) = none := by
  rw [cellOf_eq, cell?_eq_none_iff]
  cases x with
  | nan | infinity => rfl
  | finite t a ha =>
    by_cases hzero : a = 0 <;> simp [zero, div, hzero, isFinite]

theorem Alike.cellOf_div {d e : Binary64} (h : d.Alike e) (x : Binary64) :
    CellKeys.cellOf x d = CellKeys.cellOf x e := by
  cases h with
  | refl => rfl
  | zeros s t => rw [cellOf_div_zero, cellOf_div_zero]

end Binary64

open Binary64 (Alike)

/-- Exact values are compared where there are any. -/
theorem Number.numEq_float (x y : Binary64) : (Number.float x).numEq (.float y) = x.numEq y := by
  cases x with
  | nan | infinity => cases y <;> rfl
  | finite s a ha =>
    cases y with
    | nan | infinity => rfl
    | finite t b hb =>
      rw [Bool.eq_iff_iff]
      simp only [numEq, rational?, Rat.mkRat_eq_div, Binary64.numEq, beq_iff_eq]
      exact Heading.div_unitsPerOne_eq_iff.trans Int.cast_inj

theorem cellsOf_alike {xs ys divs sizes : List Binary64} (hxs : List.Forall₂ Alike xs ys)
    (hdivs : List.Forall₂ Alike divs sizes) : cellsOf xs divs = cellsOf ys sizes :=
  cellsOf_eq_of_forall₂ (hxs.imp fun _ _ => Alike.cellOf) (hdivs.imp fun _ _ => Alike.cellOf_div)

namespace Heading

/-- A zero is a heading in the range, so wrapping keeps its sign. -/
theorem wrap_zero (s : Bool) : wrap (.zero s) = .ok (.zero s) := by
  obtain ⟨p, hp, hpi, htau⟩ := exists_units?_pi
  have hunits : (Binary64.zero s).units? = some 0 := by cases s <;> rfl
  rw [wrap_of_units? hunits, wrapEntry_of_le hp hpi htau hunits (by omega) (by omega)]

/-- Equal headings are wrapped to equal ones, or refused together. -/
theorem wrap_alike {a b : Binary64} (h : a.Alike b) :
    (∃ e, wrap a = .error e ∧ wrap b = .error e) ∨
      ∃ r s, wrap a = .ok r ∧ wrap b = .ok s ∧ r.Alike s := by
  cases h with
  | refl =>
    cases hwrap : wrap a with
    | error e => exact .inl ⟨e, rfl, rfl⟩
    | ok r => exact .inr ⟨r, r, rfl, rfl, .refl r⟩
  | zeros s t => exact .inr ⟨_, _, wrap_zero s, wrap_zero t, .zeros s t⟩

end Heading

namespace Value

theorem orIdentical_readings (r s : Reading) :
    orIdentical (ofReading r) (ofReading s) ((ofReading r).valueEq (ofReading s)) =
      .ok (r.same s) := by
  have hnumbers : (ofReading r).valueEq (ofReading s) = .ok (r.value.numEq s.value) :=
    congrArg Except.ok (Number.numEq_float r.value s.value)
  rw [orIdentical, hnumbers, Reading.same, Bool.or_comm]
  change (if (r.mark.isSome && r.mark == s.mark && r.value == s.value) = true then _ else _) = _
  split
  · next hsame => rw [hsame, Bool.true_or]
  · next hsame => rw [Bool.eq_false_of_not_eq_true hsame, Bool.false_or]

theorem allEq_readings (rs ss : List Reading) :
    allEq (rs.map ofReading) (ss.map ofReading) = .ok (Hasher.sameReadings rs ss) := by
  induction rs generalizing ss with
  | nil => cases ss <;> rfl
  | cons r rs ih =>
    cases ss with
    | nil => rfl
    | cons s ss =>
      rw [List.map_cons, List.map_cons, allEq, orIdentical_readings, ih, Hasher.sameReadings]
      cases r.same s <;> rfl

/-- Hashers are compared by their slots, those that were built by their configurations. -/
theorem valueEq_hashers (g h : Hasher) (m n : Mark) :
    (hasher g m).valueEq (hasher h n) = .ok (g.same h) := by
  have hrows : (tuple (g.resolution.map ofReading)).valueEq (tuple (h.resolution.map ofReading)) =
      .ok (Hasher.sameReadings g.resolution h.resolution) := allEq_readings _ _
  have hsizes : (width g.width).valueEq (width h.width) = .ok (g.width == h.width) := by
    cases g.width <;> cases h.width <;> rfl
  simp only [hasher, configured]
  rw [valueEq]
  simp only [orIdentical, identical, hrows, hsizes, Hasher.same, Bool.false_eq_true, if_false]
  by_cases hkind : g.kind = h.kind
  · rw [if_pos hkind, hkind, beq_self_eq_true, Bool.true_and]
    cases Hasher.sameReadings g.resolution h.resolution <;> rfl
  · rw [if_neg hkind, beq_eq_false_iff_ne.mpr hkind, Bool.false_and, Bool.false_and]

theorem both_eq_true {p q : Except Fault Bool} (h : both p q = .ok true) :
    p = .ok true ∧ q = .ok true := by
  rcases p with e | _ | _
  · cases h
  · cases h
  · exact ⟨rfl, h⟩

section

variable {a b : Value} {x y : Binary64} (ha : a.IsBinary64 x) (hb : b.IsBinary64 y)

include ha hb

/-- Numbers are compared as numbers, in arrays and outside them. -/
theorem valueEq_isBinary64 : a.valueEq b = .ok (x.numEq y) := by
  cases ha with
  | float _ m =>
    cases hb with
    | float _ n => exact congrArg Except.ok (Number.numEq_float x y)
    | scalar _ n => rfl
  | scalar _ m => cases hb <;> rfl

/-- A number is the same object as another one only if it is the same number. -/
theorem eq_of_identical (h : identical a b = true) : x = y := by
  cases ha with
  | float _ m =>
    cases hb with
    | float _ n => exact beq_iff_eq.mp (Bool.and_eq_true_iff.mp h).2
    | scalar _ n => cases h
  | scalar _ m =>
    cases hb with
    | float _ n => cases h
    | scalar _ n =>
      have hsame := beq_iff_eq.mp (Bool.and_eq_true_iff.mp h).2
      cases hsame
      rfl

theorem part_of_numEq (h : x.numEq y = true) : orIdentical a b (a.valueEq b) = .ok true := by
  rw [orIdentical, valueEq_isBinary64 ha hb, h, ite_self]

/-- Parts that are equal as numbers or the same object. -/
theorem alike_of_part (h : orIdentical a b (a.valueEq b) = .ok true) : x.Alike y := by
  rw [orIdentical] at h
  by_cases hsame : identical a b = true
  · rw [eq_of_identical ha hb hsame]
    apply Alike.refl
  · rw [if_neg hsame, valueEq_isBinary64 ha hb] at h
    exact Binary64.alike_of_numEq (Except.ok.inj h)

end

theorem IsPose.valueEq_of_numEq {p q : Value} {xs ys : List Binary64} (hp : p.IsPose xs)
    (hq : q.IsPose ys) (h : List.Forall₂ (fun x y => x.numEq y = true) xs ys) :
    p.valueEq q = .ok true := by
  cases hp with
  | pose hx hy ht m =>
    cases hq with
    | pose hx₂ hy₂ ht₂ n =>
      obtain _ | ⟨hfirst, _ | ⟨hsecond, _ | ⟨hthird, -⟩⟩⟩ := h
      rw [valueEq, part_of_numEq hx hx₂ hfirst, part_of_numEq hy hy₂ hsecond,
        part_of_numEq ht ht₂ hthird]
      rfl

/-- Equal poses have equal attributes. -/
theorem IsPose.alike {p q : Value} {xs ys : List Binary64} (hp : p.IsPose xs) (hq : q.IsPose ys)
    (h : p.valueEq q = .ok true) : List.Forall₂ Alike xs ys := by
  cases hp with
  | pose hx hy ht m =>
    cases hq with
    | pose hx₂ hy₂ ht₂ n =>
      rw [valueEq] at h
      obtain ⟨hfirst, hrest⟩ := both_eq_true h
      obtain ⟨hsecond, hthird⟩ := both_eq_true hrest
      exact .cons (alike_of_part hx hx₂ hfirst)
        (.cons (alike_of_part hy hy₂ hsecond) (.cons (alike_of_part ht ht₂ hthird) .nil))

end Value

end CellKeys
