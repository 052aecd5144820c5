import CellKeys.Key.State
import CellKeys.Value.Rectangle
import CellKeys.Value.Sequence
import Mathlib.Data.List.Forall2

namespace CellKeys

namespace Value

/-- A value that is this binary64 number. -/
inductive IsBinary64 : Value → Binary64 → Prop where
  | float (x : Binary64) (m : Mark) : IsBinary64 (.float x m) x
  | scalar (x : Binary64) (m : Mark) : IsBinary64 (.scalar ⟨.float64, .float x⟩ m) x

/-- A tuple, a list or an array with one axis that holds these binary64 numbers. -/
inductive IsVector : Value → List Binary64 → Prop where
  | tuple {items : List Value} {xs : List Binary64} (h : List.Forall₂ IsBinary64 items xs) :
    IsVector (.tuple items) xs
  | list {items : List Value} {xs : List Binary64} (m : Mark)
    (h : List.Forall₂ IsBinary64 items xs) : IsVector (.list items m) xs
  | array (xs : List Binary64) (m : Mark) :
    IsVector (.array .float64 ((Tensor.ofList xs).map .float) m) xs

theorem forall₂_isBinary64_map {α : Type} {f : α → Value} {g : α → Binary64}
    (h : ∀ a, IsBinary64 (f a) (g a)) (as : List α) :
    List.Forall₂ IsBinary64 (as.map f) (as.map g) := by
  rw [List.forall₂_map_left_iff, List.forall₂_map_right_iff, List.forall₂_same]
  exact fun a _ => h a

/-- Number objects are binary64 numbers. -/
theorem forall₂_ofReading (rs : List Reading) :
    List.Forall₂ IsBinary64 (rs.map ofReading) (rs.map Reading.value) :=
  forall₂_isBinary64_map (f := ofReading) (fun r => .float r.value r.mark) rs

theorem forall₂_scalars (xs : List Binary64) :
    List.Forall₂ IsBinary64 (xs.map fun x => .scalar ⟨.float64, .float x⟩ .none) xs := by
  have h := forall₂_isBinary64_map (g := id) (fun x => IsBinary64.scalar x .none) xs
  rwa [List.map_id] at h

theorem forall₂_ofBinary64 (xs : List Binary64) :
    List.Forall₂ IsBinary64 (xs.map ofBinary64) xs := by
  have h := forall₂_isBinary64_map (g := id) (fun x => IsBinary64.float x .none) xs
  rwa [List.map_id] at h

theorem IsVector.length {v : Value} {xs : List Binary64} (h : v.IsVector xs) :
    v.length = .ok xs.length := by
  cases h with
  | tuple h | list m h => exact congrArg Except.ok h.length_eq
  | array m => rfl

theorem IsVector.elements {v : Value} {xs : List Binary64} (h : v.IsVector xs) :
    ∃ items, v.elements = .ok items ∧ List.Forall₂ IsBinary64 items xs := by
  cases h with
  | tuple h | list m h => exact ⟨_, rfl, h⟩
  | array m =>
    refine ⟨xs.map fun x => .scalar ⟨.float64, .float x⟩ .none, ?_, forall₂_scalars xs⟩
    simp [Value.elements, slices, Tensor.ofList, Tensor.map]

theorem IsBinary64.cell {v : Value} {x : Binary64} (h : v.IsBinary64 x) : v.cell = .ok x.cell? := by
  cases h <;> rfl

theorem IsBinary64.toBinary64 {v : Value} {x : Binary64} (h : v.IsBinary64 x) :
    v.toBinary64 = .ok x := by
  cases h <;> rfl

end Value

/-- The quotient of binary64 numbers, also for a zero divisor: the signs of the operands give the
    sign of an infinity as the division of values does. -/
theorem quantizeNumber_float (x div : Binary64) :
    quantizeNumber (.float x) (.float div) = .ok (.float (x.div div)) := by
  by_cases hzero : div.isZero = true
  · cases div with
    | nan | infinity => cases hzero
    | finite t b hb =>
      have hb0 : b = 0 := by simpa [Binary64.isZero] using hzero
      subst hb0
      cases x with
      | nan | infinity => rfl
      | finite s a ha =>
        by_cases ha0 : a = 0
        · subst ha0
          rfl
        · have hquotient : (Number.float (.finite s a ha)).quotient (.float (.finite t 0 hb)) =
              .error .zeroDivision := rfl
          have hne : (a == 0) = false := beq_eq_false_iff_ne.mpr ha0
          simp only [quantizeNumber, hquotient, quotientByZero, Number.isZero, Binary64.isZero, hne,
            Number.toBinary64, Binary64.isNaN, Binary64.div, if_neg ha0, if_pos]
          rfl
  · have hquotient : (Number.float x).quotient (.float div) = .ok (.float (x.div div)) := by
      change Number.floatQuotient x div = _
      rw [Number.floatQuotient, if_neg hzero]
    rw [quantizeNumber, hquotient]

/-- Binary64 numbers are divided without a failure, outside arrays and in them. -/
theorem quantize_isBinary64 {v d : Value} {x div : Binary64} (hv : v.IsBinary64 x)
    (hd : d.IsBinary64 div) : ∃ q, quantize v d = .ok q ∧ q.IsBinary64 (x.div div) := by
  cases hv with
  | float _ m =>
    cases hd with
    | float _ n =>
      refine ⟨.ofBinary64 (x.div div), ?_, .float _ _⟩
      change (do return Value.ofNumber (← quantizeNumber (.float x) (.float div))) = _
      rw [quantizeNumber_float]
      rfl
    | scalar _ n => exact ⟨_, rfl, .scalar _ _⟩
  | scalar _ m =>
    cases hd with
    | float _ n => exact ⟨_, rfl, .scalar _ _⟩
    | scalar _ n => exact ⟨_, rfl, .scalar _ _⟩

end CellKeys
