import CellKeys.Pose
import CellKeys.Proofs.Heading.FullTurn
import CellKeys.Proofs.Value.Binary64

namespace CellKeys

open Binary64

namespace Heading

/-- A heading from minus half a turn to half a turn, both ends included. -/
def InRange (a : Binary64) : Prop :=
  ∃ p half : ℚ, fraction? a = some p ∧ fraction? pi = some half ∧ -half ≤ p ∧ p ≤ half

theorem inRange_iff {a : Binary64} {p u : Int} (hpi : pi.units? = some p) (ha : a.units? = some u) :
    InRange a ↔ -p ≤ u ∧ u ≤ p := by
  have hpos : (0 : ℚ) < unitsPerOne := by exact_mod_cast unitsPerOne_pos
  constructor
  · rintro ⟨_, _, hq, hhalf, hlo, hhi⟩
    obtain ⟨_, hv, rfl⟩ := fraction?_eq_some.mp hq
    obtain ⟨_, hw, rfl⟩ := fraction?_eq_some.mp hhalf
    cases ha.symm.trans hv
    cases hpi.symm.trans hw
    rw [← neg_div, div_le_div_iff_of_pos_right hpos] at hlo
    rw [div_le_div_iff_of_pos_right hpos] at hhi
    exact ⟨by exact_mod_cast hlo, by exact_mod_cast hhi⟩
  · rintro ⟨hlo, hhi⟩
    refine ⟨_, _, fraction?_eq_some.mpr ⟨u, ha, rfl⟩, fraction?_eq_some.mpr ⟨p, hpi, rfl⟩, ?_, ?_⟩
    · rw [← neg_div, div_le_div_iff_of_pos_right hpos]
      exact_mod_cast hlo
    · rw [div_le_div_iff_of_pos_right hpos]
      exact_mod_cast hhi

/-- Neither correction is made in the range. -/
theorem raise_lower_of_le {x : Binary64} {p r : Int} (hpi : pi.units? = some p)
    (hx : x.units? = some r) (hlo : -p ≤ r) (hhi : r ≤ p) : raise (lower x) = x := by
  have hlower : lower x = x := by
    rw [lower, lt_of_units? hpi hx, if_neg (by simpa using hhi)]
  rw [hlower, raise, lt_of_units? hx (units?_neg hpi), if_neg (by simpa using hlo)]

/-- A heading in the range is wrapped to itself, even if it is a zero. -/
theorem wrapEntry_of_le {theta : Binary64} {p u : Int} (hp : 0 < p) (hpi : pi.units? = some p)
    (htau : tau.units? = some (2 * p)) (h : theta.units? = some u) (hlo : -p ≤ u) (hhi : u ≤ p) :
    wrapEntry theta = theta := by
  rw [wrapEntry, fmod_of_lt h htau (by omega)]
  exact raise_lower_of_le hpi h hlo hhi

/-- Where a remainder is lowered the opposite one is raised, and both corrections are exact. -/
theorem raise_lower_neg_of_lt {x : Binary64} {p r : Int} (hpi : pi.units? = some p)
    (htau : tau.units? = some (2 * p)) (hx : x.units? = some r) (hlo : p < r) (hhi : r < 2 * p) :
    raise (lower x.neg) = (raise (lower x)).neg := by
  have hneg := units?_neg hx
  have hlower : lower x = x.sub tau := by
    rw [lower, lt_of_units? hpi hx, if_pos (decide_eq_true hlo)]
  have hkept : lower x.neg = x.neg := by
    rw [lower, lt_of_units? hpi hneg, if_neg (by simp only [decide_eq_true_eq]; omega)]
  have hraise : raise x.neg = x.neg.add tau := by
    rw [raise, lt_of_units? hneg (units?_neg hpi), if_pos (decide_eq_true (by omega))]
  rw [hlower, raise_sub_tau hpi htau hx hlo hhi, hkept, hraise]
  have hadded := units?_add_tau htau hneg (by omega) (by omega)
  have hopposite := units?_neg (units?_sub_tau htau hx hlo hhi)
  rw [Int.neg_sub, Int.sub_eq_add_neg, Int.add_comm] at hopposite
  exact eq_of_units? hadded hopposite (by omega)

theorem raise_lower_neg {x : Binary64} {p r : Int} (hpi : pi.units? = some p)
    (htau : tau.units? = some (2 * p)) (hx : x.units? = some r) (hlo : -(2 * p) < r)
    (hhi : r < 2 * p) : raise (lower x.neg) = (raise (lower x)).neg := by
  have hneg := units?_neg hx
  by_cases hlarge : p < r
  · exact raise_lower_neg_of_lt hpi htau hx hlarge hhi
  · by_cases hsmall : r < -p
    · -- The same correction seen from the other side.
      have hother := raise_lower_neg_of_lt hpi htau hneg (by omega) (by omega)
      rw [neg_neg] at hother
      rw [hother, neg_neg]
    · rw [raise_lower_of_le hpi hx (by omega) (by omega),
        raise_lower_of_le hpi hneg (by omega) (by omega)]

/-- The opposite heading is wrapped to the opposite one. -/
theorem wrapEntry_neg {theta : Binary64} (h : theta.isFinite = true) :
    wrapEntry theta.neg = (wrapEntry theta).neg := by
  obtain ⟨p, hp, hpi, htau⟩ := exists_units?_pi
  obtain ⟨r, hrest, hlo, hhi⟩ := units?_rest hp htau h
  rw [wrapEntry, wrapEntry, fmod_neg]
  exact raise_lower_neg hpi htau hrest hlo hhi

theorem wrapValue_of_units? {v : Value} {theta : Binary64} {u : Int} (hv : v.IsBinary64 theta)
    (h : theta.units? = some u) : wrapValue v = .ok (wrapEntry theta) := by
  simp only [wrapValue, hv.toBinary64, bind, Except.bind]
  exact wrap_of_units? h

/-- Wrapping a finite heading, however large, is exact: the result is in the range and a whole
    number of full turns away. What is in the range already stays as it is, so wrapping again
    changes nothing, and the opposite heading is wrapped to the opposite one, both bit by bit. Half
    a turn is the result for positive headings only and minus half a turn for negative ones only. -/
theorem wrapped_heading_exact {theta : Binary64} {q : ℚ} (h : fraction? theta = some q) :
    ∃ r : Binary64, (∀ v : Value, v.IsBinary64 theta → wrapValue v = .ok r) ∧
      InRange r ∧ FullTurnsApart theta r ∧ (InRange theta → r = theta) ∧
      (∀ v : Value, v.IsBinary64 r → wrapValue v = .ok r) ∧
      (∀ v : Value, v.IsBinary64 theta.neg → wrapValue v = .ok r.neg) ∧
      (r = pi → 0 < q) ∧ (r = pi.neg → q < 0) := by
  obtain ⟨p, hp, hpi, htau⟩ := exists_units?_pi
  obtain ⟨u, hu, rfl⟩ := fraction?_eq_some.mp h
  obtain ⟨r, hr, hlo, hhi, hturns, htop, hbottom⟩ := units?_wrapEntry hp hpi htau hu
  have hpos : (0 : ℚ) < unitsPerOne := by exact_mod_cast unitsPerOne_pos
  refine ⟨wrapEntry theta, fun v hv => wrapValue_of_units? hv hu, ?_, .of_units htau hu hr hturns,
    ?_, ?_, ?_, ?_, ?_⟩
  · exact (inRange_iff hpi hr).mpr ⟨hlo, hhi⟩
  · intro hrange
    obtain ⟨hfrom, hto⟩ := (inRange_iff hpi hu).mp hrange
    exact wrapEntry_of_le hp hpi htau hu hfrom hto
  · intro v hv
    rw [wrapValue_of_units? hv hr, wrapEntry_of_le hp hpi htau hr hlo hhi]
  · intro v hv
    rw [wrapValue_of_units? hv (units?_neg hu), wrapEntry_neg (isFinite_iff_units?.mpr ⟨u, hu⟩)]
  · intro hend
    rw [hend, hpi, Option.some.injEq] at hr
    exact div_pos (by exact_mod_cast htop hr.symm) hpos
  · intro hend
    rw [hend, units?_neg hpi, Option.some.injEq] at hr
    exact div_neg_of_neg_of_pos (by exact_mod_cast hbottom hr.symm) hpos

/-- A negative heading that is far too large to say where it points, and its opposite. -/
theorem wrapped_heading_exact_far :
    ∃ q r, fraction? (twoPow 1000).neg = some q ∧
      wrapValue (.float (twoPow 1000).neg none) = .ok r ∧ InRange r ∧
      FullTurnsApart (twoPow 1000).neg r ∧ wrapValue (.float r none) = .ok r ∧
      wrapValue (.float (twoPow 1000) none) = .ok r.neg ∧ r ≠ pi := by
  have hunits := units?_neg (units?_twoPow (n := 1000) (by decide))
  have hq := fraction?_eq_some.mpr ⟨_, hunits, rfl⟩
  obtain ⟨r, hwrap, hrange, hturns, -, hagain, hopposite, hend, -⟩ := wrapped_heading_exact hq
  rw [neg_neg] at hopposite
  refine ⟨_, r, hq, hwrap _ (.float _ _), hrange, hturns, hagain _ (.float _ _),
    hopposite _ (.float _ _), ?_⟩
  intro htop
  have hunsigned : 0 ≤ 2 ^ 1000 * (unitsPerOne : Int) :=
    Int.mul_nonneg (Int.pow_nonneg (by decide)) (Int.natCast_nonneg _)
  have hvalue : (0 : ℚ) ≤ (2 ^ 1000 * (unitsPerOne : Int) : Int) / unitsPerOne :=
    div_nonneg (by exact_mod_cast hunsigned) (Nat.cast_nonneg _)
  have hpositive := hend htop
  rw [Int.cast_neg, neg_div] at hpositive
  exact absurd hpositive (not_lt.mpr (neg_nonpos.mpr hvalue))

end Heading

end CellKeys
