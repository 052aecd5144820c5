import CellKeys.Number
import CellKeys.Proofs.Binary64.Exact
import Mathlib.Algebra.Order.Field.Basic
import Mathlib.Data.Rat.Cast.Order

namespace CellKeys

namespace Binary64

/-- The exact value of a finite number is its units as parts of one. -/
theorem rational?_eq_some {x : Binary64} {q : ℚ} :
    (Number.float x).rational? = some q ↔ ∃ u, x.units? = some u ∧ (u : ℚ) / unitsPerOne = q := by
  cases x with
  | nan | infinity =>
    constructor
    · intro hq
      cases hq
    · rintro ⟨u, hu, -⟩
      cases hu
  | finite s n h =>
    have hvalue : (Number.float (.finite s n h)).rational? =
        some (mkRat (signedUnits s n) unitsPerOne) := rfl
    have hunits : (Binary64.finite s n h).units? = some (signedUnits s n) := rfl
    rw [hvalue, hunits, Rat.mkRat_eq_div]
    constructor
    · intro hq
      exact ⟨_, rfl, Option.some.inj hq⟩
    · rintro ⟨u, hu, rfl⟩
      cases hu
      rfl

/-- A value is a whole number if its units are that many times one. -/
theorem rational?_eq_intCast {x : Binary64} {n : ℤ} :
    (Number.float x).rational? = some (n : ℚ) ↔ x.units? = some (n * unitsPerOne) := by
  have hne : (unitsPerOne : ℚ) ≠ 0 := by exact_mod_cast Nat.ne_of_gt unitsPerOne_pos
  rw [rational?_eq_some]
  constructor
  · rintro ⟨u, hu, hn⟩
    rw [div_eq_iff hne] at hn
    rw [hu, Option.some.injEq]
    exact_mod_cast hn
  · intro hu
    refine ⟨_, hu, ?_⟩
    rw [div_eq_iff hne]
    push_cast
    rfl

end Binary64

end CellKeys
