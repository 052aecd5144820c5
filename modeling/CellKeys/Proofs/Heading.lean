import CellKeys.Heading
import CellKeys.Proofs.Binary64.Exact

namespace CellKeys

namespace Heading

open Binary64

/-- A full turn is exactly twice half a turn. -/
theorem exists_units?_pi :
    ∃ p : Int, 0 < p ∧ pi.units? = some p ∧ tau.units? = some (2 * p) :=
  ⟨0x1921fb54442d18 * 2 ^ 1023, by decide +kernel⟩

/-- The remainder by a full turn is less than a full turn away from zero. -/
theorem units?_rest {theta : Binary64} {p : Int} (hp : 0 < p) (htau : tau.units? = some (2 * p))
    (h : theta.isFinite = true) :
    ∃ r, (theta.fmod tau).units? = some r ∧ -(2 * p) < r ∧ r < 2 * p := by
  obtain ⟨u, hu⟩ := isFinite_iff_units?.mp h
  have hpos : 0 < 2 * p := by omega
  exact ⟨_, units?_fmod hu htau (Int.ne_of_gt hpos), Int.lt_tmod_of_pos u hpos,
    Int.tmod_lt_of_pos u hpos⟩

/-- The remainder of a heading that is not finite is NaN. -/
theorem fmod_of_not_finite {x : Binary64} (h : x.isFinite = false) (y : Binary64) :
    x.fmod y = nan := by
  cases x with
  | nan | infinity => rfl
  | finite => cases h

theorem lt_nan (x : Binary64) : x.lt nan = false := by cases x <;> rfl

theorem nan_lt (x : Binary64) : nan.lt x = false := by cases x <;> rfl

/-- Taking a full turn off a remainder of more than half a turn is exact. -/
theorem units?_sub_tau {rest : Binary64} {p r : Int} (htau : tau.units? = some (2 * p))
    (hrest : rest.units? = some r) (hlo : p < r) (hhi : r < 2 * p) :
    (rest.sub tau).units? = some (r - 2 * p) :=
  units?_sub_of_near hrest htau (by omega) (by omega)

/-- Adding a full turn to a remainder below minus half a turn is exact. -/
theorem units?_add_tau {rest : Binary64} {p r : Int} (htau : tau.units? = some (2 * p))
    (hrest : rest.units? = some r) (hlo : -(2 * p) < r) (hhi : r < -p) :
    (rest.add tau).units? = some (r + 2 * p) :=
  units?_add_of_near hrest htau (by omega) (by omega)

/-- A remainder that is lowered ends above minus half a turn, so it is not raised again. -/
theorem raise_sub_tau {rest : Binary64} {p r : Int} (hpi : pi.units? = some p)
    (htau : tau.units? = some (2 * p)) (hrest : rest.units? = some r) (hlo : p < r)
    (hhi : r < 2 * p) : raise (rest.sub tau) = rest.sub tau := by
  have hexact := units?_sub_tau htau hrest hlo hhi
  rw [raise, lt_of_units? hexact (units?_neg hpi), if_neg]
  simp only [decide_eq_true_eq]
  omega

/-- Wrapping in a batch is wrapping one by one, bit by bit, unless a heading is infinite. -/
theorem wrap_eq_wrapEntry {theta : Binary64} (h : ∀ s, theta ≠ .infinity s) :
    wrap theta = .ok (wrapEntry theta) := by
  have hwrap : wrap theta = .ok (if pi.lt (theta.fmod tau) then (theta.fmod tau).sub tau
      else raise (theta.fmod tau)) := by
    cases theta with
    | infinity s => exact absurd rfl (h s)
    | nan | finite => rfl
  rw [hwrap, wrapEntry, lower]
  by_cases hfinite : theta.isFinite = true
  · obtain ⟨p, hp, hpi, htau⟩ := exists_units?_pi
    obtain ⟨r, hrest, -, hhi⟩ := units?_rest hp htau hfinite
    have hlt := lt_of_units? hpi hrest
    -- A batch compares a second time, which could only matter after the remainder was lowered.
    by_cases hlo : p < r
    · rw [hlt, if_pos (decide_eq_true hlo), if_pos (decide_eq_true hlo),
        raise_sub_tau hpi htau hrest hlo hhi]
    · rw [hlt, if_neg (by simpa using hlo), if_neg (by simpa using hlo)]
  · rw [fmod_of_not_finite (by simpa using hfinite)]
    simp only [lt_nan, Bool.false_eq_true, if_false]

theorem wrap_infinity (s : Bool) : wrap (.infinity s) = .error .infiniteHeading := rfl

/-- In a batch an infinite heading becomes NaN, and NaN stays as it is. -/
theorem wrapEntry_of_not_finite {theta : Binary64} (h : theta.isFinite = false) :
    wrapEntry theta = nan := by
  rw [wrapEntry, fmod_of_not_finite h]
  simp only [lower, raise, lt_nan, nan_lt, Bool.false_eq_true, if_false]

end Heading

end CellKeys
