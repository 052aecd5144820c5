import CellKeys.Proofs.Hasher.Sequence

namespace CellKeys

/-- The same number as no object in particular. -/
def Reading.unmarked (r : Reading) : Reading := .ofValue r.value

namespace Value

mutual

/-- What a value holds, without the marks that tell its objects from others. -/
def unmarked : Value → Value
  | float x _ => float x .none
  | scalar s _ => scalar s .none
  | tuple items => tuple (unmarkedAll items)
  | list items _ => list (unmarkedAll items) .none
  | array kind t _ => array kind t .none
  | pose x y theta _ => pose x.unmarked y.unmarked theta.unmarked .none
  | foreign name attributes values _ => foreign name attributes (unmarkedAll values) .none
  | slots kind resolution size bits underlying _ =>
    slots kind resolution.unmarked size.unmarked bits.unmarked underlying.unmarked .none
  | v => v

def unmarkedAll : List Value → List Value
  | [] => []
  | v :: vs => v.unmarked :: unmarkedAll vs

end

theorem unmarkedAll_eq (vs : List Value) : unmarkedAll vs = vs.map unmarked := by
  induction vs with
  | nil => rfl
  | cons v vs ih => rw [unmarkedAll, ih, List.map_cons]

theorem unmarkedAll_map {α : Type} {f : α → Value} (hf : ∀ a, (f a).unmarked = f a) (as : List α) :
    unmarkedAll (as.map f) = as.map f := by
  rw [unmarkedAll_eq, List.map_map]
  exact List.map_congr_left fun a _ => hf a

theorem unmarkedAll_slices (kind : ElementKind) (t : Tensor Element) :
    unmarkedAll (slices kind t) = slices kind t := by
  unfold slices
  split
  · exact unmarkedAll_map (fun e => rfl) _
  · exact unmarkedAll_map (fun s => rfl) _

theorem number?_unmarked (v : Value) : v.unmarked.number? = v.number? := by
  cases v <;> rfl

theorem element?_unmarked (v : Value) : v.unmarked.element? = v.element? := by
  cases v with
  | array kind t m =>
    rw [unmarked]
    -- Whether the array holds one entry is seen from its shape and its entries.
    rcases t with ⟨_ | ⟨n, shape⟩, _ | ⟨e, _ | ⟨f, rest⟩⟩, hlength⟩ <;> rfl
  | _ => rfl

theorem toBinary64_unmarked (v : Value) : v.unmarked.toBinary64 = v.toBinary64 := by
  rw [toBinary64, toNumber, number?_unmarked, element?_unmarked]
  rfl

theorem toReading_unmarked (v : Value) :
    v.unmarked.toReading = v.toReading.map Reading.unmarked := by
  have hread : ∀ r : Except Fault Binary64, (do return Reading.ofValue (← r)) =
      Except.map Reading.unmarked (do return Reading.ofValue (← r)) := by
    rintro (e | x) <;> rfl
  cases v with
  | float x m => rfl
  | text s => exact hread (readText s)
  | _ =>
    refine Eq.trans ?_ (hread (toBinary64 _))
    change (do return Reading.ofValue (← toBinary64 (unmarked _))) = _
    rw [toBinary64_unmarked]

theorem elements_unmarked (v : Value) : v.unmarked.elements = v.elements.map unmarkedAll := by
  cases v with
  | text s => exact congrArg Except.ok (unmarkedAll_map (fun c => rfl) _).symm
  | array kind t m =>
    rw [unmarked, elements, elements]
    split
    · rfl
    · exact congrArg Except.ok (unmarkedAll_slices kind t).symm
  | _ => rfl

theorem length_unmarked (v : Value) : v.unmarked.length = v.length := by
  cases v with
  | tuple items | list items m =>
    rw [unmarked, length, length, unmarkedAll_eq, List.length_map]
  | _ => rfl

theorem attribute?_unmarked (name : String) (attributes : List (String × Bool))
    (values : List Value) :
    attribute? name attributes (unmarkedAll values) =
      (attribute? name attributes values).map fun a => (a.1, a.2.unmarked) := by
  induction attributes generalizing values with
  | nil => cases values <;> rfl
  | cons entry attributes ih =>
    obtain ⟨n, callable⟩ := entry
    cases values with
    | nil => rfl
    | cons first values =>
      rw [unmarkedAll, attribute?, attribute?]
      by_cases hname : n = name
      · rw [if_pos hname, if_pos hname]
        rfl
      · rw [if_neg hname, if_neg hname]
        exact ih values

theorem call_unmarked (name : String) (attributes : List (String × Bool)) (values : List Value) :
    call name attributes (unmarkedAll values) = (call name attributes values).map unmarked := by
  rw [call, call, attribute?_unmarked]
  rcases attribute? name attributes values with _ | ⟨_ | _, v⟩ <;> rfl

theorem translation_unmarked (v : Value) :
    v.unmarked.translation = v.translation.map unmarked := by
  cases v with
  | foreign name attributes values m => exact call_unmarked _ _ _
  | _ => rfl

theorem angle_unmarked (v : Value) : v.unmarked.angle = v.angle.map unmarked := by
  cases v with
  | foreign name attributes values m => exact call_unmarked _ _ _
  | pose x y theta m =>
    simp only [unmarked, angle, wrapValue, toBinary64_unmarked]
    cases theta.toBinary64 with
    | error e => rfl
    | ok x =>
      simp only [bind, Except.bind]
      cases Heading.wrap x <;> rfl
  | _ => rfl

theorem poseAxes_unmarked (v : Value) : v.unmarked.poseAxes = v.poseAxes.map unmarkedAll := by
  simp only [poseAxes, translation_unmarked, angle_unmarked]
  cases v.translation with
  | error e => rfl
  | ok position =>
    simp only [Except.map, bind, Except.bind, elements_unmarked]
    cases position.elements with
    | error e => rfl
    | ok items =>
      -- Only two components go on to the heading.
      rcases items with _ | ⟨x, _ | ⟨y, _ | ⟨z, rest⟩⟩⟩
      · rfl
      · rfl
      · cases v.angle <;> rfl
      · rfl

end Value

open Value

theorem stateKey_unmarked (w : Width) (rs ds : List Reading) :
    stateKey w ((rs.map Reading.unmarked).map ofReading) (ds.map ofReading) =
      stateKey w (rs.map ofReading) (ds.map ofReading) := by
  have hsame : (rs.map Reading.unmarked).map Reading.value = rs.map Reading.value := by
    rw [List.map_map]
    rfl
  have hunmarked := forall₂_ofReading (rs.map Reading.unmarked)
  rw [hsame] at hunmarked
  have hdivs := forall₂_ofReading ds
  exact stateKey_congr w hunmarked (forall₂_ofReading rs) hdivs hdivs rfl rfl rfl

namespace Hasher

variable (h : Hasher)

theorem mapM_toReading_unmarked (items : List Value) :
    (unmarkedAll items).mapM toReading =
      (items.mapM toReading).map (List.map Reading.unmarked) := by
  induction items with
  | nil => rfl
  | cons item items ih =>
    rw [unmarkedAll, List.mapM_cons, List.mapM_cons, toReading_unmarked, ih]
    cases item.toReading with
    | error e => rfl
    | ok r => cases items.mapM toReading <;> rfl

theorem readings_unmarked (state : Value) :
    h.readings state.unmarked = (h.readings state).map (List.map Reading.unmarked) := by
  unfold readings HasherClass.readings
  rw [length_unmarked, elements_unmarked]
  cases h.kind with
  | plain => rfl
  | array =>
    cases state.elements with
    | error e => rfl
    | ok items =>
      simp only [Except.map, bind, Except.bind, mapM_toReading_unmarked]
      cases items.mapM toReading with
      | error e => rfl
      | ok rs =>
        simp only [List.length_map]
        split <;> rfl
  | tuple | pose =>
    cases state.length with
    | error e => rfl
    | ok n =>
      simp only [bind, Except.bind]
      split
      · rfl
      · cases state.elements with
        | error e => rfl
        | ok items => exact mapM_toReading_unmarked items

theorem sequenceKey_unmarked (state : Value) :
    h.sequenceKey state.unmarked = h.sequenceKey state := by
  rw [sequenceKey, sequenceKey, readings_unmarked]
  cases h.readings state with
  | error e => rfl
  | ok rs => exact stateKey_unmarked h.width rs h.resolution

/-- States that hold the same have the same key, or none for the same reason. -/
theorem key_unmarked (state : Value) : h.key state.unmarked = h.key state := by
  unfold key
  cases h.kind with
  | pose =>
    simp only [poseAxes_unmarked]
    cases state.poseAxes with
    | error e => rfl
    | ok items => exact h.delegate.sequenceKey_unmarked (.tuple items)
  | _ => exact h.sequenceKey_unmarked state

end Hasher

end CellKeys
