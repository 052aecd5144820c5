import CellKeys.Proofs.Fault
import CellKeys.Proofs.Value.Binary64

namespace CellKeys

namespace Value

/-- A number with this nearest binary64 value. -/
inductive Widens : Value → Binary64 → Prop where
  | number {v : Value} {n : Number} {x : Binary64} (h : v.number? = some n)
    (hx : n.toBinary64 = .ok x) : Widens v x
  | scalar {s : Scalar} {x : Binary64} (m : Mark) (hx : s.element.toNumber.toBinary64 = .ok x) :
    Widens (.scalar s m) x

/-- A tuple, a list or an array with one axis whose items have these nearest binary64 values. -/
inductive WidensTo : Value → List Binary64 → Prop where
  | tuple {items : List Value} {xs : List Binary64} (h : List.Forall₂ Widens items xs) :
    WidensTo (.tuple items) xs
  | list {items : List Value} {xs : List Binary64} (m : Mark) (h : List.Forall₂ Widens items xs) :
    WidensTo (.list items m) xs
  | array (kind : ElementKind) {es : List Element} {xs : List Binary64} (m : Mark)
    (h : List.Forall₂ Widens (es.map fun e => .scalar ⟨kind, e⟩ .none) xs) :
    WidensTo (.array kind (.ofList es) m) xs

theorem IsBinary64.widens {v : Value} {x : Binary64} (h : v.IsBinary64 x) : v.Widens x := by
  cases h with
  | float _ m => exact .number rfl rfl
  | scalar _ m => exact .scalar m rfl

theorem IsVector.widensTo {v : Value} {xs : List Binary64} (h : v.IsVector xs) :
    v.WidensTo xs := by
  cases h with
  | tuple h => exact .tuple (h.imp fun _ _ => IsBinary64.widens)
  | list m h => exact .list m (h.imp fun _ _ => IsBinary64.widens)
  | array xs m =>
    have hshape : (Tensor.ofList xs).map Element.float = .ofList (xs.map .float) := by
      simp [Tensor.ofList, Tensor.map]
    rw [hshape]
    refine .array .float64 m ?_
    rw [List.map_map]
    exact (forall₂_scalars xs).imp fun _ _ => IsBinary64.widens

theorem Widens.toBinary64 {v : Value} {x : Binary64} (h : v.Widens x) : v.toBinary64 = .ok x := by
  cases h with
  | number h hx =>
    rw [Value.toBinary64, toNumber, h]
    exact hx
  | scalar m hx => exact hx

theorem Widens.toReading {v : Value} {x : Binary64} (h : v.Widens x) :
    ∃ r, v.toReading = .ok r ∧ r.value = x := by
  have hvalue := h.toBinary64
  have hread : (∀ y m, v ≠ .float y m) → (∀ s, v ≠ .text s) → v.toReading = .ok (.ofValue x) := by
    intro hfloat htext
    rw [Value.toReading, hvalue]
    · rfl
    · exact hfloat
    · exact htext
  cases h with
  | number hn hx =>
    cases v with
    | float y m =>
      cases hn
      cases hx
      exact ⟨⟨x, m⟩, rfl, rfl⟩
    | bool | int | width | fraction =>
      exact ⟨.ofValue x, hread (fun _ _ h => nomatch h) (fun _ h => nomatch h), rfl⟩
    | _ => cases hn
  | scalar m hx =>
    exact ⟨.ofValue x, hread (fun _ _ h => nomatch h) (fun _ h => nomatch h), rfl⟩

theorem mapM_toReading {vs : List Value} {xs : List Binary64} (h : List.Forall₂ Widens vs xs) :
    ∃ rs, vs.mapM toReading = .ok rs ∧ rs.map Reading.value = xs := by
  obtain ⟨rs, hrs, hvalues⟩ := mapM_forall₂ (h.imp fun _ _ hx => hx.toReading)
  refine ⟨rs, hrs, ?_⟩
  rwa [← List.forall₂_eq_eq_eq, List.forall₂_map_left_iff]

theorem WidensTo.length {v : Value} {xs : List Binary64} (h : v.WidensTo xs) :
    v.length = .ok xs.length := by
  cases h with
  | tuple h | list m h => exact congrArg Except.ok h.length_eq
  | array kind m h =>
    have hlength := h.length_eq
    rw [List.length_map] at hlength
    exact congrArg Except.ok hlength

theorem WidensTo.elements {v : Value} {xs : List Binary64} (h : v.WidensTo xs) :
    ∃ items, v.elements = .ok items ∧ List.Forall₂ Widens items xs := by
  cases h with
  | tuple h | list m h => exact ⟨_, rfl, h⟩
  | array kind m h => exact ⟨_, rfl, h⟩

end Value

end CellKeys
