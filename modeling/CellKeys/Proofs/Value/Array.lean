import CellKeys.Key.Batch
import CellKeys.Proofs.Tensor
import CellKeys.Proofs.Value.Numeric

namespace CellKeys

namespace Value

/-- A number counts in an array as its nearest binary64 value. -/
theorem Widens.entry {v : Value} {x : Binary64} (h : v.Widens x) : v.entry = .ok x := by
  have hvalue := h.toBinary64
  cases h with
  | number hn hx =>
    cases v with
    | bool | int | width | float | fraction => exact hvalue
    | _ => cases hn
  | scalar m hx => exact hvalue

theorem Widens.shape? {v : Value} {x : Binary64} (h : v.Widens x) : v.shape? = some [] := by
  cases h with
  | number hn hx =>
    cases v with
    | bool | int | width | float | fraction => rw [Value.shape?] <;> nofun
    | _ => cases hn
  | scalar m hx => rw [Value.shape?] <;> nofun

theorem Widens.leaves {v : Value} {x : Binary64} (h : v.Widens x) : v.leaves = [v] := by
  cases h with
  | number hn hx =>
    cases v with
    | bool | int | width | float | fraction => rw [Value.leaves] <;> nofun
    | _ => cases hn
  | scalar m hx => rw [Value.leaves] <;> nofun

theorem shapes?_eq {β : Type} {g : β → List Nat} {R : Value → β → Prop} {vs : List Value}
    {bs : List β} (h : List.Forall₂ R vs bs) (hR : ∀ v b, R v b → v.shape? = some (g b)) :
    shapes? vs = some (bs.map g) := by
  induction h with
  | nil => rfl
  | cons hvb _ ih => rw [shapes?, hR _ _ hvb, ih, List.map_cons]

theorem map_value_float (t : Tensor Binary64) : (t.map Element.float).map Element.value = t := by
  simp [Tensor.map, Function.comp_def, Element.value]

/-- An array of binary64 numbers is read as it is. -/
theorem toTensor_array {t : Tensor Binary64} (haxes : t.shape.length ≤ axisLimit) (m : Mark) :
    (Value.array .float64 (t.map .float) m).toTensor = .ok t := by
  have hentries : ((Value.array .float64 (t.map .float) m).leaves).mapM entry = .ok t.entries := by
    have hleaves := mapM_eq_ok (g := id) (forall₂_scalars t.entries) fun _ _ h => h.widens.entry
    rw [List.map_id] at hleaves
    simpa only [leaves, Tensor.map, List.map_map, Function.comp_def] using hleaves
  have hshape : ¬ axisLimit < (t.map Element.float).shape.length := by
    rw [Tensor.shape_map]
    omega
  simp only [toTensor, shape?, hentries, if_neg hshape]
  simp only [bind, Except.bind, Tensor.shape_map, Tensor.ofEntries?_entries]
  rfl

theorem elements_table {t : Tensor Binary64} {n d : Nat} (h : t.shape = [n, d]) (m : Mark) :
    (Value.array .float64 (t.map .float) m).elements =
      .ok (slices .float64 (t.map .float)) := by
  rw [elements, Tensor.shape_map, h, if_neg (List.cons_ne_nil _ _)]

/-- The slices of a table are its rows, each an array with one axis. -/
theorem slices_table {t : Tensor Binary64} {n d : Nat} (h : t.shape = [n, d]) :
    List.Forall₂ (fun row xs => row.IsVector xs ∧ xs.length = d)
      (slices .float64 (t.map .float)) t.rows := by
  have hslice : ∀ xs ∈ t.rows, Tensor.ofEntries? [d] (xs.map Element.float) =
      some ((Tensor.ofList xs).map .float) := by
    intro xs hxs
    have hlength := Tensor.length_of_mem_rows h hxs
    subst hlength
    simp [Tensor.ofEntries?, volume, Tensor.ofList, Tensor.map]
  have hslices : slices .float64 (t.map .float) =
      t.rows.map fun xs => .array .float64 ((Tensor.ofList xs).map .float) .none := by
    have hshape : (t.map Element.float).shape = [n, d] := h
    simp only [slices, hshape, Tensor.slices, List.tail_cons, Tensor.rows_map, List.filterMap_map,
      Function.comp_def]
    rw [List.filterMap_congr hslice, List.filterMap_eq_map', List.map_map]
    rfl
  rw [hslices, List.forall₂_map_left_iff, List.forall₂_same]
  intro xs hxs
  exact ⟨.array xs .none, Tensor.length_of_mem_rows h hxs⟩

/-- Values of one shape together have a further axis in front; without values there is no other. -/
theorem shape?_of_same_shapes {β : Type} {v : Value} {vs : List Value}
    (hv : v = .tuple vs ∨ ∃ m, v = .list vs m) {bs : List β} {s : List Nat}
    (h : shapes? vs = some (bs.map fun _ => s)) :
    v.shape? = some (if bs.isEmpty then [0] else bs.length :: s) := by
  cases bs with
  | nil => rcases hv with rfl | ⟨m, rfl⟩ <;> rw [shape?, h] <;> rfl
  | cons b bs => rcases hv with rfl | ⟨m, rfl⟩ <;> simp [shape?, h]

theorem WidensTo.shape? {v : Value} {xs : List Binary64} (h : v.WidensTo xs) :
    v.shape? = some [xs.length] := by
  have hitems : ∀ {items : List Value}, List.Forall₂ Widens items xs →
      v = .tuple items ∨ (∃ m, v = .list items m) → v.shape? = some [xs.length] := by
    intro items h hv
    have hshapes := shapes?_eq (g := fun _ => []) h fun _ _ hx => hx.shape?
    rw [shape?_of_same_shapes hv hshapes]
    cases xs <;> rfl
  cases h with
  | tuple h => exact hitems h (.inl rfl)
  | list m h => exact hitems h (.inr ⟨m, rfl⟩)
  | array kind m h =>
    have hlength := h.length_eq
    rw [List.length_map] at hlength
    rw [← hlength]
    rfl

theorem leaves_of_forall₂ {items : List Value} {xs : List Binary64}
    (h : List.Forall₂ Widens items xs) : leavesAll items = items := by
  induction h with
  | nil => rfl
  | cons hx _ ih =>
    rw [leavesAll, hx.leaves, ih]
    rfl

theorem WidensTo.leaves {v : Value} {xs : List Binary64} (h : v.WidensTo xs) :
    List.Forall₂ Widens v.leaves xs := by
  cases h with
  | tuple h | list m h =>
    rw [Value.leaves, leaves_of_forall₂ h]
    exact h
  | array kind m h => exact h

theorem leavesAll_rows {vs : List Value} {rows : List (List Binary64)}
    (h : List.Forall₂ WidensTo vs rows) : List.Forall₂ Widens (leavesAll vs) rows.flatten := by
  induction h with
  | nil => exact .nil
  | cons hrow _ ih => exact List.rel_append hrow.leaves ih

/-- A list of rows of one length is read as the entries of the rows in order. Without rows it has
    one axis only. -/
theorem toTensor_rows {vs : List Value} {rows : List (List Binary64)} {d : Nat}
    (h : List.Forall₂ (fun v row => v.WidensTo row ∧ row.length = d) vs rows) (m : Mark) :
    ∃ t, (Value.list vs m).toTensor = .ok t ∧ t.entries = rows.flatten ∧
      t.shape = if rows.isEmpty then [0] else [rows.length, d] := by
  have hshapes := shapes?_eq (g := fun _ => [d]) h fun v row hrow => by
    rw [hrow.1.shape?, hrow.2]
  have hshape := shape?_of_same_shapes (v := .list vs m) (.inr ⟨m, rfl⟩) hshapes
  have hleaves := leavesAll_rows (h.imp fun _ _ hrow => hrow.1)
  have hentries := mapM_eq_ok (g := id) hleaves fun _ _ hx => hx.entry
  rw [List.map_id] at hentries
  have hvolume : rows.flatten.length = volume (if rows.isEmpty then [0] else [rows.length, d]) := by
    rw [Tensor.length_flatten (forall_of_forall₂ h fun _ _ hrow => hrow.2)]
    cases rows <;> simp [volume]
  have haxes : ¬ axisLimit < (if rows.isEmpty then [0] else [rows.length, d]).length := by
    cases rows <;> simp [axisLimit]
  refine ⟨⟨_, rows.flatten, hvolume⟩, ?_, rfl, rfl⟩
  simp only [toTensor, hshape, if_neg haxes, Value.leaves, hentries, bind, Except.bind,
    Tensor.ofEntries?, dif_pos hvolume]
  rfl

/-- A list of binary64 numbers is divided by a scalar entry by entry. -/
theorem combine_divide_scalar (xs : List Binary64) (y : Binary64) (m : Mark) :
    (Operand.value (ofTensor (.ofList xs))).combine .divide
      (.value (.scalar ⟨.float64, .float y⟩ m)) =
      .ok (.value (ofTensor (.ofList (divideBy xs y)))) := by
  have hcombine : (Operand.value (ofTensor (.ofList xs))).combine .divide
      (.value (.scalar ⟨.float64, .float y⟩ m)) = Operand.combineEntries .divide
        (.sized .float64 ((Tensor.ofList xs).map .float))
        (.sized .float64 (.single (.float y))) := rfl
  have hkind : Entries.kind? (.sized .float64 ((Tensor.ofList xs).map .float))
      (.sized .float64 (.single (.float y))) = some .float64 := rfl
  have hwork : Operator.divide.workKind? .float64 = some .float64 := rfl
  have hleft : Entries.inKind .float64 (.sized .float64 ((Tensor.ofList xs).map .float)) =
      .ok (Tensor.ofList (xs.map .float)) := by
    simp [Entries.inKind, Tensor.map, Tensor.ofList, Element.cast, Element.value]
  have hright : Entries.inKind .float64 (.sized .float64 (.single (.float y))) =
      .ok (.single (.float y)) := rfl
  simp only [hcombine, Operand.combineEntries, hkind, hwork, hleft, hright, bind, Except.bind,
    Tensor.zip?_single]
  simp [ofEntries, ofTensor, Tensor.ofList, Tensor.map, divideBy]
  rfl

end Value

end CellKeys
