import CellKeys.Binary64.Arithmetic
import CellKeys.Proofs.Binary64.Grid

namespace CellKeys.Binary64

/-- The exact value of a finite number, in units. Infinities and NaN have none. -/
def units? : Binary64 → Option Int
  | finite s a _ => some (signedUnits s a)
  | _ => none

theorem isFinite_iff_units? {x : Binary64} : x.isFinite = true ↔ ∃ u, x.units? = some u := by
  cases x with
  | nan | infinity => simp [isFinite, units?]
  | finite s a h => exact ⟨fun _ => ⟨_, rfl⟩, fun _ => rfl⟩

/-- A value with exact units is a finite one, on the grid. -/
theorem finite_of_units? {x : Binary64} {u : Int} (h : x.units? = some u) :
    ∃ s a ha, x = finite s a ha ∧ signedUnits s a = u ∧ u.natAbs = a := by
  cases x with
  | nan | infinity => cases h
  | finite s a ha =>
    cases h
    exact ⟨s, a, ha, rfl, rfl, natAbs_signedUnits s a⟩

theorem representable_of_units? {x : Binary64} {u : Int} (h : x.units? = some u) :
    Representable u.natAbs := by
  obtain ⟨s, a, ha, -, -, habs⟩ := finite_of_units? h
  rw [habs]
  exact ha

theorem cell?_of_units? {x : Binary64} {u : Int} (h : x.units? = some u) :
    x.cell? = some (u / (unitsPerOne : Int)) := by
  obtain ⟨s, a, ha, rfl, rfl, -⟩ := finite_of_units? h
  rfl

theorem truncate?_of_units? {x : Binary64} {u : Int} (h : x.units? = some u) :
    x.truncate? = some (u.tdiv unitsPerOne) := by
  obtain ⟨s, a, ha, rfl, rfl, -⟩ := finite_of_units? h
  rfl

theorem lt_of_units? {x y : Binary64} {u v : Int} (hx : x.units? = some u)
    (hy : y.units? = some v) : x.lt y = decide (u < v) := by
  obtain ⟨s, a, ha, rfl, rfl, -⟩ := finite_of_units? hx
  obtain ⟨t, b, hb, rfl, rfl, -⟩ := finite_of_units? hy
  rfl

theorem le_of_units? {x y : Binary64} {u v : Int} (hx : x.units? = some u)
    (hy : y.units? = some v) : x.le y = decide (u ≤ v) := by
  obtain ⟨s, a, ha, rfl, rfl, -⟩ := finite_of_units? hx
  obtain ⟨t, b, hb, rfl, rfl, -⟩ := finite_of_units? hy
  rw [Bool.eq_iff_iff]
  simp only [le, lt, numEq, Bool.or_eq_true, decide_eq_true_eq, beq_iff_eq]
  omega

theorem units?_neg {x : Binary64} {u : Int} (h : x.units? = some u) : x.neg.units? = some (-u) := by
  obtain ⟨s, a, ha, rfl, rfl, -⟩ := finite_of_units? h
  exact congrArg some (signedUnits_not s a)

/-- Exact units other than zero determine the value; both zeros have the units zero. -/
theorem eq_of_units? {x y : Binary64} {u : Int} (hx : x.units? = some u) (hy : y.units? = some u)
    (hne : u ≠ 0) : x = y := by
  obtain ⟨s, a, ha, rfl, hs, habs⟩ := finite_of_units? hx
  obtain ⟨t, b, hb, rfl, ht, rfl⟩ := finite_of_units? hy
  subst habs
  cases s <;> cases t <;> simp only [signedUnits, Bool.false_eq_true, if_true, if_false] at hs ht
  · rfl
  · omega
  · omega
  · rfl

theorem eq_zero_of_units? {x : Binary64} (h : x.units? = some 0) : ∃ s, x = zero s := by
  obtain ⟨s, a, ha, rfl, -, habs⟩ := finite_of_units? h
  subst habs
  exact ⟨s, rfl⟩

theorem signedUnits_natAbs (u : Int) : signedUnits (u < 0) u.natAbs = u := by
  unfold signedUnits
  by_cases h : u < 0
  · rw [if_pos (decide_eq_true h)]
    omega
  · rw [if_neg (by simpa using h)]
    omega

/-- Units that are on the grid round to themselves. -/
theorem units?_roundUnits (zeroNegative : Bool) {u : Int} (h : Representable u.natAbs) :
    (roundUnits zeroNegative u).units? = some u := by
  unfold roundUnits
  by_cases hzero : u = 0
  · rw [if_pos hzero, hzero]
    cases zeroNegative <;> rfl
  · rw [if_neg hzero, round_one_of_representable _ h]
    exact congrArg some (signedUnits_natAbs u)

/-- Nothing rounds to a zero of the given sign. -/
theorem round_zero (negative : Bool) {den : Nat} (h : den ≠ 0) :
    round negative 0 den = zero negative := by
  have hnearest : nearest 0 den = 0 := by
    have hstep := Nat.two_pow_pos (spacing 0)
    have hden : 0 < den * 2 ^ spacing 0 := Nat.mul_pos (Nat.pos_of_ne_zero h) hstep
    simp [nearest, nearestEven, hden]
  have hsmall : nearest 0 den < unitLimit := by
    rw [hnearest]
    exact unitLimit_pos
  rw [round, dif_pos hsmall, zero, finite.injEq]
  exact ⟨rfl, hnearest⟩

theorem units?_add {x y : Binary64} {u v : Int} (hx : x.units? = some u) (hy : y.units? = some v)
    (h : Representable (u + v).natAbs) : (x.add y).units? = some (u + v) := by
  obtain ⟨s, a, ha, rfl, rfl, -⟩ := finite_of_units? hx
  obtain ⟨t, b, hb, rfl, rfl, -⟩ := finite_of_units? hy
  exact units?_roundUnits _ h

theorem units?_sub {x y : Binary64} {u v : Int} (hx : x.units? = some u) (hy : y.units? = some v)
    (h : Representable (u - v).natAbs) : (x.sub y).units? = some (u - v) :=
  units?_add hx (units?_neg hy) h

/-- A difference is exact if neither number is more than twice the other. -/
theorem units?_sub_of_near {x y : Binary64} {u v : Int} (hx : x.units? = some u)
    (hy : y.units? = some v) (hle : u ≤ v) (htwice : v ≤ 2 * u) :
    (x.sub y).units? = some (u - v) := by
  have hgrid := (representable_of_units? hx).sub (representable_of_units? hy) (by omega) (by omega)
  have habs : (u - v).natAbs = v.natAbs - u.natAbs := by omega
  apply units?_sub hx hy
  rw [habs]
  exact hgrid

/-- So is the sum with a number that is near the opposite one. -/
theorem units?_add_of_near {x y : Binary64} {u v : Int} (hx : x.units? = some u)
    (hy : y.units? = some v) (hle : -v ≤ u) (htwice : 2 * u ≤ -v) :
    (x.add y).units? = some (u + v) := by
  have hgrid := (representable_of_units? hx).sub (representable_of_units? hy) (by omega) (by omega)
  have habs : (u + v).natAbs = v.natAbs - u.natAbs := by omega
  apply units?_add hx hy
  rw [habs]
  exact hgrid

/-- The floor of a value is exact. -/
theorem units?_floor {x : Binary64} {u : Int} (h : x.units? = some u) :
    x.floor.units? = some (u / (unitsPerOne : Int) * unitsPerOne) := by
  have hgrid := (representable_of_units? h).floor
  obtain ⟨s, a, ha, rfl, rfl, -⟩ := finite_of_units? h
  exact units?_roundUnits s hgrid

/-- The remainder of two finite values is exact and has the sign bit of the dividend. -/
theorem fmod_finite (s t : Bool) {a b : Nat} (ha : Representable a) (hb : Representable b)
    (hne : b ≠ 0) : (finite s a ha).fmod (finite t b hb) = finite s (a % b) (ha.mod hb) := by
  simp only [fmod, if_neg hne]
  exact round_one_of_representable s (ha.mod hb)

theorem units?_fmod {x y : Binary64} {u v : Int} (hx : x.units? = some u) (hy : y.units? = some v)
    (hne : v ≠ 0) : (x.fmod y).units? = some (u.tmod v) := by
  obtain ⟨s, a, ha, rfl, rfl, -⟩ := finite_of_units? hx
  obtain ⟨t, b, hb, rfl, hv, habs⟩ := finite_of_units? hy
  rw [fmod_finite s t ha hb (by omega)]
  subst hv
  cases s <;> cases t <;> simp [units?, signedUnits, Int.tmod_eq_emod_of_nonneg]

/-- A value of smaller size than the divisor is its own remainder, with its sign bit. -/
theorem fmod_of_lt {x y : Binary64} {u v : Int} (hx : x.units? = some u) (hy : y.units? = some v)
    (hlt : u.natAbs < v.natAbs) : x.fmod y = x := by
  obtain ⟨s, a, ha, rfl, rfl, habs⟩ := finite_of_units? hx
  obtain ⟨t, b, hb, rfl, rfl, hsize⟩ := finite_of_units? hy
  rw [fmod_finite s t ha hb (by omega), finite.injEq]
  exact ⟨rfl, Nat.mod_eq_of_lt (by omega)⟩

theorem neg_round (negative : Bool) (num den : Nat) :
    (round negative num den).neg = round (!negative) num den := by
  by_cases hsmall : nearest num den < unitLimit
  · rw [round, round, dif_pos hsmall, dif_pos hsmall, neg]
  · rw [round, round, dif_neg hsmall, dif_neg hsmall, neg]

/-- The remainder of the opposite value is the opposite remainder, also where it is a zero. -/
theorem fmod_neg (x y : Binary64) : x.neg.fmod y = (x.fmod y).neg := by
  cases x with
  | nan | infinity => rfl
  | finite s a ha =>
    cases y with
    | nan | infinity => rfl
    | finite t b hb =>
      by_cases hzero : b = 0
      · simp only [neg, fmod, if_pos hzero]
      · rw [neg, fmod, fmod, if_neg hzero, if_neg hzero, neg_round]

theorem units?_ofInt {n : Int} (h : Representable (n * unitsPerOne).natAbs) :
    (ofInt n).units? = some (n * unitsPerOne) :=
  units?_roundUnits false h

/-- Integers below half the size limit are not too large, whether they are rounded or not. -/
theorem isFinite_ofInt {n : Int} {k : Nat} (hk : k < 1024) (h : n.natAbs < 2 ^ k) :
    (ofInt n).isFinite = true := by
  obtain ⟨e, he, hone⟩ := exists_unitsPerOne
  obtain ⟨l, hl, hlimit⟩ := exists_unitLimit
  have hsmall : nearest (n * unitsPerOne).natAbs 1 < unitLimit := by
    rw [Int.natAbs_mul, Int.natAbs_natCast]
    calc nearest (n.natAbs * unitsPerOne) 1 ≤ 2 * (n.natAbs * unitsPerOne) := nearest_one_le _
      _ < 2 * (2 ^ k * unitsPerOne) :=
        Nat.mul_lt_mul_of_pos_left (Nat.mul_lt_mul_of_pos_right h unitsPerOne_pos) (by decide)
      _ = 2 ^ (k + e + 1) := by rw [hone, ← Nat.pow_add, Nat.pow_succ, Nat.mul_comm]
      _ ≤ unitLimit := by
        rw [hlimit]
        exact Nat.pow_le_pow_right (by decide) (by omega)
  unfold ofInt roundUnits
  split
  · rfl
  · rw [round, dif_pos hsmall, isFinite]

/-- Powers of two below the size limit are exact. -/
theorem units?_twoPow {n : Nat} (h : n < 1024) :
    (twoPow n).units? = some (2 ^ n * (unitsPerOne : Int)) := by
  apply units?_ofInt
  obtain ⟨e, he, hone⟩ := exists_unitsPerOne
  obtain ⟨l, hl, hlimit⟩ := exists_unitLimit
  have habs : ((2 : Int) ^ n * (unitsPerOne : Int)).natAbs = 1 * 2 ^ (n + e) := by
    rw [Int.natAbs_mul, Int.natAbs_pow, Int.natAbs_natCast, hone, Nat.one_mul, Nat.pow_add]
    rfl
  rw [habs]
  refine ⟨?_, two_pow_spacing_dvd (n + e) (Nat.one_le_two_pow)⟩
  rw [hlimit, Nat.one_mul]
  exact Nat.pow_lt_pow_right (by decide) (by omega)

end CellKeys.Binary64
