import CellKeys.Proofs.Binary64.Fraction
import CellKeys.Proofs.Heading
import Mathlib.Algebra.Order.Field.Basic
import Mathlib.Data.Rat.Cast.Order

namespace CellKeys

open Binary64

namespace Heading

/-- The exact value of a heading; infinities and NaN have none. -/
def fraction? (theta : Binary64) : Option ℚ := (Number.float theta).rational?

/-- Two headings whose exact difference is a whole number of full turns. -/
def FullTurnsApart (a b : Binary64) : Prop :=
  ∃ p q turn : ℚ, fraction? a = some p ∧ fraction? b = some q ∧ fraction? tau = some turn ∧
    ∃ k : ℤ, p - q = k * turn

/-- A heading that is half a turn away from zero, apart from full turns. -/
def PointsBack (a : Binary64) : Prop :=
  ∃ p half turn : ℚ, fraction? a = some p ∧ fraction? pi = some half ∧ fraction? tau = some turn ∧
    ∃ k : ℤ, |p| - half = k * turn

/-- Headings that are wrapped to opposite ends of the range: they point back, with different signs.
    -/
def OppositeEnds (a b : Binary64) : Prop :=
  a.isNegative ≠ b.isNegative ∧ PointsBack a ∧ PointsBack b

/-- Less than half a turn is left of a remainder that is lowered. -/
theorem units?_lower {x : Binary64} {p r : Int} (hpi : pi.units? = some p)
    (htau : tau.units? = some (2 * p)) (hx : x.units? = some r) (hhi : r < 2 * p) :
    (lower x).units? = some (if p < r then r - 2 * p else r) := by
  rw [lower, lt_of_units? hpi hx]
  by_cases hlarge : p < r
  · rw [if_pos (decide_eq_true hlarge), if_pos hlarge]
    exact units?_sub_tau htau hx hlarge hhi
  · rw [if_neg (by simpa using hlarge), if_neg hlarge]
    exact hx

theorem units?_raise {x : Binary64} {p r : Int} (hpi : pi.units? = some p)
    (htau : tau.units? = some (2 * p)) (hx : x.units? = some r) (hlo : -(2 * p) < r) :
    (raise x).units? = some (if r < -p then r + 2 * p else r) := by
  rw [raise, lt_of_units? hx (units?_neg hpi)]
  by_cases hsmall : r < -p
  · rw [if_pos (decide_eq_true hsmall), if_pos hsmall]
    exact units?_add_tau htau hx hlo hsmall
  · rw [if_neg (by simpa using hsmall), if_neg hsmall]
    exact hx

/-- A finite heading is wrapped, without rounding, to a number in the range that is a whole number
    of full turns away. It ends at an end of the range only on its own side of zero. -/
theorem units?_wrapEntry {theta : Binary64} {p u : Int} (hp : 0 < p) (hpi : pi.units? = some p)
    (htau : tau.units? = some (2 * p)) (h : theta.units? = some u) :
    ∃ r, (wrapEntry theta).units? = some r ∧ -p ≤ r ∧ r ≤ p ∧ 2 * p ∣ u - r ∧
      (r = p → 0 < u) ∧ (r = -p → u < 0) := by
  have hpos : 0 < 2 * p := by omega
  have hrest := units?_fmod h htau (Int.ne_of_gt hpos)
  have hlo := Int.lt_tmod_of_pos u hpos
  have hhi := Int.tmod_lt_of_pos u hpos
  obtain ⟨k, hk⟩ : 2 * p ∣ u - u.tmod (2 * p) := ⟨u.tdiv (2 * p), by
    have := Int.mul_tdiv_add_tmod u (2 * p)
    omega⟩
  have hright : 0 ≤ u → 0 ≤ u.tmod (2 * p) := Int.tmod_nonneg _
  have hleft : u ≤ 0 → u.tmod (2 * p) ≤ 0 := by
    intro hu
    have hneg := Int.tmod_nonneg (2 * p) (Int.neg_nonneg.mpr hu)
    rw [Int.neg_tmod] at hneg
    omega
  generalize u.tmod (2 * p) = rest at hrest hlo hhi hk hright hleft
  have hlower := units?_lower hpi htau hrest hhi
  have hraise := units?_raise hpi htau hlower (by split <;> omega)
  refine ⟨_, hraise, ?_⟩
  by_cases hlarge : p < rest
  · rw [if_pos hlarge, if_neg (by omega)]
    refine ⟨by omega, by omega, ⟨k + 1, ?_⟩, by omega, by omega⟩
    rw [Int.mul_add]
    omega
  · rw [if_neg hlarge]
    by_cases hsmall : rest < -p
    · rw [if_pos hsmall]
      refine ⟨by omega, by omega, ⟨k - 1, ?_⟩, by omega, by omega⟩
      rw [Int.mul_sub]
      omega
    · rw [if_neg hsmall]
      exact ⟨by omega, by omega, ⟨k, hk⟩, by omega, by omega⟩

/-- The exact value of a heading is its units as parts of one. -/
theorem fraction?_eq_some {a : Binary64} {q : ℚ} :
    fraction? a = some q ↔ ∃ u, a.units? = some u ∧ (u : ℚ) / unitsPerOne = q :=
  rational?_eq_some

theorem div_unitsPerOne_eq_iff {m n : ℚ} : m / unitsPerOne = n / unitsPerOne ↔ m = n := by
  have hne : (unitsPerOne : ℚ) ≠ 0 := by exact_mod_cast Nat.ne_of_gt unitsPerOne_pos
  exact div_left_inj' hne

theorem FullTurnsApart.units {a b : Binary64} (h : FullTurnsApart a b) {p : Int}
    (htau : tau.units? = some (2 * p)) :
    ∃ u v, a.units? = some u ∧ b.units? = some v ∧ 2 * p ∣ u - v := by
  obtain ⟨_, _, _, ha, hb, hturn, k, hk⟩ := h
  obtain ⟨u, hu, rfl⟩ := fraction?_eq_some.mp ha
  obtain ⟨v, hv, rfl⟩ := fraction?_eq_some.mp hb
  obtain ⟨t, ht, rfl⟩ := fraction?_eq_some.mp hturn
  rw [htau, Option.some.injEq] at ht
  subst ht
  rw [← sub_div, ← mul_div_assoc, div_unitsPerOne_eq_iff] at hk
  refine ⟨u, v, hu, hv, k, ?_⟩
  rw [Int.mul_comm]
  exact_mod_cast hk

theorem FullTurnsApart.of_units {a b : Binary64} {p u v : Int} (htau : tau.units? = some (2 * p))
    (ha : a.units? = some u) (hb : b.units? = some v) (h : 2 * p ∣ u - v) : FullTurnsApart a b := by
  obtain ⟨k, hk⟩ := h
  refine ⟨_, _, _, fraction?_eq_some.mpr ⟨u, ha, rfl⟩, fraction?_eq_some.mpr ⟨v, hb, rfl⟩,
    fraction?_eq_some.mpr ⟨2 * p, htau, rfl⟩, k, ?_⟩
  rw [← sub_div, ← mul_div_assoc, div_unitsPerOne_eq_iff]
  rw [Int.mul_comm] at hk
  exact_mod_cast hk

theorem pointsBack_iff {a : Binary64} {p u : Int} (hpi : pi.units? = some p)
    (htau : tau.units? = some (2 * p)) (ha : a.units? = some u) :
    PointsBack a ↔ 2 * p ∣ |u| - p := by
  have habs : |(u : ℚ) / unitsPerOne| = (|u| : ℤ) / unitsPerOne := by
    rw [abs_div, Nat.abs_cast, Int.cast_abs]
  constructor
  · rintro ⟨_, _, _, hq, hhalf, hturn, k, hk⟩
    obtain ⟨_, hv, rfl⟩ := fraction?_eq_some.mp hq
    obtain ⟨_, hw, rfl⟩ := fraction?_eq_some.mp hhalf
    obtain ⟨_, ht, rfl⟩ := fraction?_eq_some.mp hturn
    cases ha.symm.trans hv
    cases hpi.symm.trans hw
    cases htau.symm.trans ht
    rw [habs, ← sub_div, ← mul_div_assoc, div_unitsPerOne_eq_iff] at hk
    refine ⟨k, ?_⟩
    rw [Int.mul_comm]
    exact_mod_cast hk
  · rintro ⟨k, hk⟩
    refine ⟨_, _, _, fraction?_eq_some.mpr ⟨u, ha, rfl⟩, fraction?_eq_some.mpr ⟨p, hpi, rfl⟩,
      fraction?_eq_some.mpr ⟨2 * p, htau, rfl⟩, k, ?_⟩
    rw [habs, ← sub_div, ← mul_div_assoc, div_unitsPerOne_eq_iff]
    rw [Int.mul_comm] at hk
    exact_mod_cast hk

/-- The range holds one number for each heading, except that both of its ends point back. -/
theorem eq_or_ends {p r s : Int} (hp : 0 < p) (hr : -p ≤ r ∧ r ≤ p) (hs : -p ≤ s ∧ s ≤ p)
    (h : 2 * p ∣ r - s) : r = s ∨ r = p ∧ s = -p ∨ r = -p ∧ s = p := by
  obtain ⟨k, hk⟩ := h
  have hpos : 0 ≤ 2 * p := by omega
  rcases Int.lt_trichotomy k 0 with hneg | rfl | hone
  · have hle : 2 * p * k ≤ 2 * p * -1 := Int.mul_le_mul_of_nonneg_left (by omega) hpos
    omega
  · omega
  · have hge : 2 * p * 1 ≤ 2 * p * k := Int.mul_le_mul_of_nonneg_left (by omega) hpos
    omega

theorem isNegative_of_units? {a : Binary64} {u : Int} (ha : a.units? = some u) (hne : u ≠ 0) :
    a.isNegative = decide (u < 0) := by
  obtain ⟨s, n, hn, rfl, hs, habs⟩ := finite_of_units? ha
  cases s <;> simp only [signedUnits, Bool.false_eq_true, if_true, if_false] at hs
  · exact (decide_eq_false (by omega)).symm
  · exact (decide_eq_true (by omega)).symm

/-- A heading that is wrapped to an end of the range points back, and has the sign of that end. -/
theorem pointsBack_of_end {a : Binary64} {p u r : Int} (hp : 0 < p) (hpi : pi.units? = some p)
    (htau : tau.units? = some (2 * p)) (ha : a.units? = some u) (hdvd : 2 * p ∣ u - r)
    (hr : r = p ∧ 0 < u ∨ r = -p ∧ u < 0) : PointsBack a ∧ a.isNegative = decide (r < 0) := by
  rw [pointsBack_iff hpi htau ha, isNegative_of_units? ha (by omega)]
  rcases hr with ⟨rfl, hu⟩ | ⟨rfl, hu⟩
  · rw [abs_of_pos hu]
    exact ⟨hdvd, by rw [decide_eq_decide]; omega⟩
  · rw [abs_of_neg hu]
    refine ⟨?_, by rw [decide_eq_decide]; omega⟩
    rw [← Int.dvd_neg]
    convert hdvd using 1
    omega

/-- Headings a whole number of full turns apart are wrapped to the same number, unless they are
    wrapped to opposite ends of the range. -/
theorem FullTurnsApart.wrapEntry {a b : Binary64} (h : FullTurnsApart a b)
    (hends : ¬ OppositeEnds a b) :
    ∃ r, (Heading.wrapEntry a).units? = some r ∧ (Heading.wrapEntry b).units? = some r := by
  obtain ⟨p, hp, hpi, htau⟩ := exists_units?_pi
  obtain ⟨u, v, hu, hv, hdvd⟩ := h.units htau
  obtain ⟨r, hr, hrlo, hrhi, hur, hrtop, hrbottom⟩ := units?_wrapEntry hp hpi htau hu
  obtain ⟨s, hs, hslo, hshi, hvs, hstop, hsbottom⟩ := units?_wrapEntry hp hpi htau hv
  have hsame : 2 * p ∣ r - s := by
    have hdiff := Int.dvd_add (Int.dvd_sub hdvd hur) hvs
    convert hdiff using 1
    omega
  rcases eq_or_ends hp ⟨hrlo, hrhi⟩ ⟨hslo, hshi⟩ hsame with rfl | hopposite
  · exact ⟨r, hr, hs⟩
  · refine absurd ?_ hends
    obtain ⟨hback, hsign⟩ := pointsBack_of_end hp hpi htau hu hur (by omega)
    obtain ⟨hother, hothersign⟩ := pointsBack_of_end hp hpi htau hv hvs (by omega)
    refine ⟨?_, hback, hother⟩
    rw [hsign, hothersign, ne_eq, decide_eq_decide]
    omega

/-- A heading that points back is wrapped to the end of the range on its side of zero. -/
theorem PointsBack.wrapEntry {a : Binary64} (h : PointsBack a) :
    Heading.wrapEntry a = if a.isNegative then pi.neg else pi := by
  obtain ⟨p, hp, hpi, htau⟩ := exists_units?_pi
  obtain ⟨_, _, _, hq, -⟩ := id h
  obtain ⟨u, hu, -⟩ := fraction?_eq_some.mp hq
  have hback := (pointsBack_iff hpi htau hu).mp h
  have hne : u ≠ 0 := by
    rintro rfl
    have hle := Int.le_of_dvd hp ((Int.dvd_neg).mp (by simpa using hback))
    omega
  obtain ⟨r, hr, hlo, hhi, hdvd, htop, hbottom⟩ := units?_wrapEntry hp hpi htau hu
  rw [isNegative_of_units? hu hne]
  rcases Int.lt_or_gt_of_ne hne with hneg | hpos
  · have hend : 2 * p ∣ r - -p := by
      rw [abs_of_neg hneg] at hback
      rw [← Int.dvd_neg]
      convert Int.dvd_add hdvd hback using 1
      omega
    have hrp : r = -p := by
      rcases eq_or_ends hp ⟨hlo, hhi⟩ ⟨by omega, by omega⟩ hend with h | h | h <;> omega
    subst hrp
    rw [if_pos (decide_eq_true hneg)]
    exact eq_of_units? hr (units?_neg hpi) (by omega)
  · have hend : 2 * p ∣ r - p := by
      rw [abs_of_pos hpos] at hback
      convert Int.dvd_sub hback hdvd using 1
      omega
    have hrp : r = p := by
      rcases eq_or_ends hp ⟨hlo, hhi⟩ ⟨by omega, by omega⟩ hend with h | h | h <;> omega
    subst hrp
    rw [if_neg (by simpa using Int.le_of_lt hpos)]
    exact eq_of_units? hr hpi (by omega)

theorem wrap_of_units? {theta : Binary64} {u : Int} (h : theta.units? = some u) :
    wrap theta = .ok (wrapEntry theta) := by
  refine wrap_eq_wrapEntry ?_
  rintro s rfl
  cases h

theorem PointsBack.wrap {a : Binary64} (h : PointsBack a) :
    Heading.wrap a = .ok (if a.isNegative then pi.neg else pi) := by
  obtain ⟨_, _, _, hq, -⟩ := id h
  obtain ⟨u, hu, -⟩ := fraction?_eq_some.mp hq
  rw [wrap_of_units? hu, h.wrapEntry]

theorem OppositeEnds.wrap {a b : Binary64} (h : OppositeEnds a b) :
    Heading.wrap a = .ok .pi ∧ Heading.wrap b = .ok Binary64.pi.neg ∨
      Heading.wrap a = .ok Binary64.pi.neg ∧ Heading.wrap b = .ok .pi := by
  obtain ⟨hsign, hback, hother⟩ := h
  rw [hback.wrap, hother.wrap]
  cases ha : a.isNegative with
  | false =>
    have hb : b.isNegative = true := by simpa [ha] using hsign
    rw [hb, if_neg Bool.false_ne_true, if_pos rfl]
    exact .inl ⟨rfl, rfl⟩
  | true =>
    have hb : b.isNegative = false := by simpa [ha] using hsign
    rw [hb, if_neg Bool.false_ne_true, if_pos rfl]
    exact .inr ⟨rfl, rfl⟩

end Heading

end CellKeys
