import CellKeys.Key.Batch
import CellKeys.Proofs.Axis.Lane
import CellKeys.Proofs.Key.State
import CellKeys.Proofs.Value.Array

namespace CellKeys

open Value

/-- The quotients of a row, each as a function of the row, for the axes from this index on. -/
def rowQuotients (index : Nat) (divs : List Binary64) : List (List Binary64 → Binary64) :=
  divs.mapIdx fun i div row => (row.getD (index + i) .nan).div div

theorem rowQuotients_cons (index : Nat) (div : Binary64) (divs : List Binary64) :
    rowQuotients index (div :: divs) =
      (fun row => (row.getD index .nan).div div) :: rowQuotients (index + 1) divs := by
  simp only [rowQuotients, List.mapIdx_cons, Nat.add_zero, Nat.add_assoc, Nat.add_comm 1]

/-- The floors of the quotients of a row are its cells. -/
theorem rowQuotients_cells {row divs : List Binary64} (h : row.length = divs.length) :
    ((rowQuotients 0 divs).map fun f => (f row).cell?) = cellsOf row divs := by
  apply List.ext_getElem
  · rw [length_cellsOf h]
    simp [rowQuotients]
  · intro i hi hcells
    have hrow : i < row.length := by
      rw [length_cellsOf h] at hcells
      omega
    simp [rowQuotients, cellsOf, cellOf_eq, List.getD_eq_getElem?_getD, hrow]

/-- A column is divided entry by entry, by a number outside arrays and by a scalar. -/
theorem divideColumn_isBinary64 (column : List Binary64) {d : Value} {div : Binary64}
    (hd : d.IsBinary64 div) : divideColumn column d = .ok (.ofList (divideBy column div)) := by
  cases hd with
  | float _ m => rfl
  | scalar _ m =>
    have hquotients := combine_divide_scalar column div m
    have hread := toTensor_array (t := .ofList (divideBy column div))
      (by simp [Tensor.ofList, axisLimit]) .none
    simp only [divideColumn, hquotients, bind, Except.bind]
    exact hread

theorem divideTable_eq {table : Tensor Binary64} {n d : Nat} (htable : table.shape = [n, d])
    {ds : List Value} {divs : List Binary64} (hd : List.Forall₂ IsBinary64 ds divs) {axis : Nat}
    (haxis : axis + divs.length ≤ d) :
    divideTable table axis ds =
      .ok ((rowQuotients axis divs).map fun f => Tensor.ofList (table.rows.map f)) := by
  induction hd generalizing axis with
  | nil => rfl
  | @cons v div ds divs hdiv hdivs ih =>
    rw [List.length_cons] at haxis
    have hcolumn : table.column axis = table.rows.map fun row => row.getD axis .nan :=
      Tensor.column_eq htable (by omega) .nan
    rw [divideTable, divideColumn_isBinary64 _ hdiv, ih (by omega), hcolumn, rowQuotients_cons,
      List.map_cons, divideBy, List.map_map]
    rfl

/-- Folding columns folds each row by itself. -/
theorem foldColumns_eq (w : Width) (bits : Nat) (rows : List (List Binary64)) (axis : Nat)
    (fs : List (List Binary64 → Binary64)) (g : List Binary64 → UInt64) :
    (foldColumns w bits axis (fs.map fun f => rows.map f) (rows.map g)).map UInt64.toNat =
      rows.map fun row =>
        (g row).toNat ^^^ (w.cellFold bits axis (fs.map fun f => (f row).cell?)).toNat := by
  -- The words gathered so far are again a function of the row, which the induction is over.
  induction fs generalizing axis g with
  | nil =>
    simp only [List.map_nil, foldColumns, Width.cellFold_nil, List.map_map]
    simp
  | cons f fs ih =>
    have hword : ∀ row, (w.laneAxisWord (bits * axis) (f row)).toNat =
        (w.axisBits bits axis (f row).cell?).toNat := by
      intro row
      have h := w.toNat_laneAxisWord (bits * axis) (f row)
      rw [w.axisWord_natCast] at h
      exact_mod_cast h
    have hcolumn : List.zipWith (· ^^^ ·) (rows.map g)
        (w.laneWords (rows.map f) ((bits : Int) * (axis : Int))) =
        rows.map fun row => g row ^^^ w.laneAxisWord (bits * axis) (f row) := by
      rw [Width.laneWords, List.map_map, List.zipWith_map, List.zipWith_self]
      rfl
    rw [List.map_cons, foldColumns, hcolumn, ih]
    apply List.map_congr_left
    intro row _
    rw [UInt64.toNat_xor, hword, List.map_cons, Width.cellFold_cons, BitVec.toNat_xor,
      Nat.xor_assoc]

theorem tableOf_eq {t : Tensor Binary64} {n axes : Nat} (h : t.shape = [n, axes])
    (haxes : axes ≠ 0) : tableOf axes t = .ok t := by
  have htable : (if t.isEmpty then Tensor.empty [axes] else t) = t := by
    by_cases hempty : t.isEmpty = true
    · rw [if_pos hempty, ← Tensor.eq_empty_of_isEmpty h haxes hempty]
    · rw [if_neg hempty]
  simp only [tableOf, htable, h, if_true]

/-- An array without entries is taken for a table without rows, whatever its shape is. -/
theorem tableOf_of_isEmpty (axes : Nat) {t : Tensor Binary64} (h : t.isEmpty = true) :
    tableOf axes t = .ok (.empty [axes]) := by
  simp only [tableOf, h, if_true, Tensor.empty]

/-- Rows read from a list are taken for the table of these rows, also where there are none. -/
theorem tableOf_rows {s t : Tensor Binary64} {rows : List (List Binary64)} {d : Nat} (hd : d ≠ 0)
    (ht : t.shape = [rows.length, d]) (hrows : t.rows = rows) (hentries : s.entries = rows.flatten)
    (hshape : s.shape = if rows.isEmpty then [0] else [rows.length, d]) :
    tableOf d s = .ok t := by
  cases rows with
  | nil =>
    have hempty : s.isEmpty = true := by rw [Tensor.isEmpty, hentries]; rfl
    have hnone : t.isEmpty = true := by
      rw [Tensor.isEmpty, ← Tensor.flatten_rows ht, hrows]
      rfl
    rw [tableOf_of_isEmpty d hempty, Tensor.eq_empty_of_isEmpty ht hd hnone]
  | cons row rows =>
    have hlength : ∀ other ∈ row :: rows, other.length = d := by
      rw [← hrows]
      exact fun other => Tensor.length_of_mem_rows ht
    have hsame : s.rows = t.rows := by
      rw [hrows]
      exact Tensor.rows_of_flatten hshape hlength hentries
    rw [Tensor.eq_of_rows hshape ht hsame]
    exact tableOf_eq ht hd

/-- Only the table that an array is taken for matters for its keys. -/
theorem batchKeys_congr (w : Width) {s t : Tensor Binary64} {ds : List Value}
    (h : tableOf ds.length s = tableOf ds.length t) : batchKeys w s ds = batchKeys w t ds := by
  rw [batchKeys, batchKeys, h]

theorem fitColumn_ofList {xs : List Binary64} {n : Nat} (h : xs.length = n) :
    fitColumn n (.ofList xs) = .ok xs := by
  subst h
  have hsame : Tensor.spreadOver? [xs.length] [xs.length] xs = some xs := if_pos rfl
  simp only [fitColumn, Tensor.ofList, hsame]

/-- The keys of a table are those of the cells of its rows. -/
theorem batchKeys_eq (w : Width) {t : Tensor Binary64} {n : Nat} {ds : List Value}
    {divs : List Binary64} (ht : t.shape = [n, divs.length])
    (hd : List.Forall₂ IsBinary64 ds divs) (hne : divs ≠ []) :
    ∃ keys, batchKeys w t ds = .ok keys ∧ keys.shape = [n] ∧
      keys.entries.map UInt64.toNat =
        t.rows.map fun row => (w.cellKey (cellsOf row divs)).toNat := by
  have hlength := hd.length_eq
  have hrows := t.length_rows ht
  have hempty := List.isEmpty_eq_false_iff.mpr (ne_nil_of_length_eq hlength hne)
  have htable : tableOf ds.length t = .ok t := by
    rw [hlength]
    exact tableOf_eq ht (Nat.ne_of_gt (List.length_pos_iff.mpr hne))
  have hquotients : divideTable t 0 ds =
      .ok ((rowQuotients 0 divs).map fun f => Tensor.ofList (t.rows.map f)) :=
    divideTable_eq ht hd (by omega)
  have hcolumns : ((rowQuotients 0 divs).map fun f => Tensor.ofList (t.rows.map f)).mapM
      (fitColumn t.rows.length) = .ok ((rowQuotients 0 divs).map fun f => t.rows.map f) := by
    exact mapM_map_eq_ok fun f _ => fitColumn_ofList (List.length_map f)
  have hfold := foldColumns_eq w (w.bitsPerAxis ds.length) t.rows 0 (rowQuotients 0 divs) fun _ => 0
  rw [List.map_const'] at hfold
  refine ⟨.ofList (foldColumns w (w.bitsPerAxis ds.length) 0
    ((rowQuotients 0 divs).map fun f => t.rows.map f) (List.replicate t.rows.length 0)), ?_, ?_, ?_⟩
  · simp only [batchKeys, hempty, htable, hquotients, hcolumns, bind, Except.bind]
    rfl
  · have hcount := congrArg List.length hfold
    rw [List.length_map, List.length_map] at hcount
    exact congrArg (fun count => [count]) (hcount.trans hrows)
  · refine hfold.trans (List.map_congr_left ?_)
    intro row hrow
    have hcells := rowQuotients_cells (Tensor.length_of_mem_rows ht hrow)
    rw [hcells, Width.cellKey, length_cellsOf (Tensor.length_of_mem_rows ht hrow), hlength]
    exact Nat.zero_xor _

theorem keysOfBatch_eq (w : Width) {t : Tensor Binary64} {n : Nat} {resolution : Value}
    {divs : List Binary64} (ht : t.shape = [n, divs.length]) (hr : resolution.IsVector divs)
    (hne : divs ≠ []) (m : Mark) :
    ∃ keys, keysOfBatch w (.array .float64 (t.map .float) m) resolution = .ok keys ∧
      keys.shape = [n] ∧
      keys.entries.map UInt64.toNat =
        t.rows.map fun row => (w.cellKey (cellsOf row divs)).toNat := by
  obtain ⟨ds, hds, hdx⟩ := hr.elements
  obtain ⟨keys, hkeys, hshape, hentries⟩ := batchKeys_eq w ht hdx hne
  have htensor := toTensor_array (t := t) (by simp [ht, axisLimit]) m
  have haxes : divs.length ≠ 0 := Nat.ne_of_gt (List.length_pos_iff.mpr hne)
  refine ⟨keys, ?_, hshape, hentries⟩
  rw [keysOfBatch, hr.length]
  simp only [bind, Except.bind, if_neg haxes, htensor, hds]
  exact hkeys

/-- Keys of rows that are known by their cells are the keys that the rows have one by one. -/
theorem forall₂_keyOfState (w : Width) {t : Tensor Binary64} {n : Nat} {resolution : Value}
    {divs : List Binary64} (ht : t.shape = [n, divs.length]) (hr : resolution.IsVector divs)
    (hne : divs ≠ []) {keys : List UInt64}
    (hkeys : keys.map UInt64.toNat =
      t.rows.map fun row => (w.cellKey (cellsOf row divs)).toNat) :
    List.Forall₂ (fun row key => keyOfState w row resolution = .ok key.toNat)
      (slices .float64 (t.map .float)) keys := by
  have hrows := (slices_table ht).imp fun row xs hrow =>
    keyOfState_eq w hrow.1 hr hrow.2 hne
  rw [← List.forall₂_map_right_iff (R := fun row key => keyOfState w row resolution = .ok key),
    ← hkeys, List.forall₂_map_right_iff] at hrows
  exact hrows

/-- For both word sizes, any number of axes and all binary64 cell sizes, an array of binary64 states
    has as many keys as rows, and each key is the one that its row has by itself. -/
theorem batch_keys_match_rows (w : Width) {t : Tensor Binary64} {n : Nat} {resolution : Value}
    {divs : List Binary64} (ht : t.shape = [n, divs.length]) (hr : resolution.IsVector divs)
    (hne : divs ≠ []) (m : Mark) :
    ∃ rows keys, (Value.array .float64 (t.map .float) m).elements = .ok rows ∧ rows.length = n ∧
      keysOfBatch w (.array .float64 (t.map .float) m) resolution = .ok keys ∧
      keys.shape = [n] ∧
      List.Forall₂ (fun row key => keyOfState w row resolution = .ok key.toNat) rows
        keys.entries := by
  obtain ⟨keys, hkeys, hshape, hentries⟩ := keysOfBatch_eq w ht hr hne m
  refine ⟨slices .float64 (t.map .float), keys, elements_table ht m, ?_, hkeys, hshape,
    forall₂_keyOfState w ht hr hne hentries⟩
  rw [(slices_table ht).length_eq, t.length_rows ht]

/-- A row with a NaN and an infinity between two others, for a negative cell size and a zero. -/
theorem batch_keys_match_rows_mixed :
    let t : Tensor Binary64 :=
      ⟨[3, 2], [.ofInt 3, .ofInt 5, .nan, .infinity true, .ofInt (-3), .zero true], rfl⟩
    let resolution := Value.tuple [.float (.ofInt (-2)) .none, .float (.zero false) .none]
    t.shape = [3, 2] ∧ resolution.IsVector [.ofInt (-2), .zero false] ∧
      ∃ rows keys, (Value.array .float64 (t.map .float) .none).elements = .ok rows ∧
        rows.length = 3 ∧
        keysOfBatch .w32 (.array .float64 (t.map .float) .none) resolution = .ok keys ∧
        keys.shape = [3] ∧
        List.Forall₂ (fun row key => keyOfState .w32 row resolution = .ok key.toNat) rows
          keys.entries := by
  intro t resolution
  have hr : resolution.IsVector [.ofInt (-2), .zero false] :=
    .tuple (.cons (.float _ _) (.cons (.float _ _) .nil))
  exact ⟨rfl, hr, batch_keys_match_rows .w32 (t := t) rfl hr (by simp) .none⟩

end CellKeys
