import CellKeys.Tensor.Broadcast

namespace CellKeys

namespace Tensor

variable {α β : Type}

theorem ofEntries?_entries (t : Tensor α) : ofEntries? t.shape t.entries = some t :=
  dif_pos t.length_entries

theorem eq_ofList {t : Tensor α} {n : Nat} (h : t.shape = [n]) : t = ofList t.entries := by
  obtain ⟨shape, entries, hlength⟩ := t
  subst h
  have hn : entries.length = n := by simpa [volume] using hlength
  subst hn
  rfl

theorem length_of_mem_pieces {size count : Nat} {xs : List α} (h : xs.length = count * size)
    {row : List α} (hrow : row ∈ pieces size count xs) : row.length = size := by
  induction count generalizing xs with
  | zero => cases hrow
  | succ count ih =>
    rw [Nat.succ_mul] at h
    cases hrow with
    | head =>
      rw [List.length_take]
      omega
    | tail _ hrest =>
      refine ih ?_ hrest
      rw [List.length_drop]
      omega

theorem flatten_pieces {size count : Nat} {xs : List α} (h : xs.length = count * size) :
    (pieces size count xs).flatten = xs := by
  induction count generalizing xs with
  | zero =>
    rw [Nat.zero_mul] at h
    rw [List.eq_nil_of_length_eq_zero h]
    rfl
  | succ count ih =>
    rw [Nat.succ_mul] at h
    have hrest : (xs.drop size).length = count * size := by
      rw [List.length_drop]
      omega
    rw [pieces, List.flatten_cons, ih hrest, List.take_append_drop]

theorem pieces_flatten {size : Nat} {rows : List (List α)} (h : ∀ row ∈ rows, row.length = size) :
    pieces size rows.length rows.flatten = rows := by
  induction rows with
  | nil => rfl
  | cons row rows ih =>
    have hrow := h row List.mem_cons_self
    rw [List.length_cons, List.flatten_cons, pieces, List.take_left' hrow, List.drop_left' hrow,
      ih fun other hother => h other (List.mem_cons_of_mem _ hother)]

theorem pieces_map (f : α → β) (size count : Nat) (xs : List α) :
    pieces size count (xs.map f) = (pieces size count xs).map (List.map f) := by
  induction count generalizing xs with
  | zero => rfl
  | succ count ih =>
    simp only [pieces, List.map_cons, List.map_take, ← List.map_drop, ih]

theorem rows_map (f : α → β) (t : Tensor α) : (t.map f).rows = t.rows.map (List.map f) := by
  obtain ⟨shape, entries, hlength⟩ := t
  cases shape with
  | nil => rfl
  | cons n rest => exact pieces_map f (volume rest) n entries

theorem length_of_mem_rows {t : Tensor α} {n d : Nat} (h : t.shape = [n, d]) {row : List α}
    (hrow : row ∈ t.rows) : row.length = d := by
  obtain ⟨shape, entries, hlength⟩ := t
  subst h
  have hsize := length_of_mem_pieces hlength hrow
  simpa [volume] using hsize

theorem flatten_rows {t : Tensor α} {n d : Nat} (h : t.shape = [n, d]) :
    t.rows.flatten = t.entries := by
  obtain ⟨shape, entries, hlength⟩ := t
  subst h
  exact flatten_pieces hlength

theorem length_flatten {rows : List (List α)} {d : Nat} (h : ∀ row ∈ rows, row.length = d) :
    rows.flatten.length = rows.length * d := by
  rw [List.length_flatten, List.map_congr_left h, List.map_const', List.sum_replicate_nat]

theorem rows_of_flatten {t : Tensor α} {d : Nat} {rows : List (List α)}
    (ht : t.shape = [rows.length, d]) (hrows : ∀ row ∈ rows, row.length = d)
    (hentries : t.entries = rows.flatten) : t.rows = rows := by
  obtain ⟨shape, entries, hlength⟩ := t
  subst ht hentries
  have hsize : volume [d] = d := Nat.mul_one d
  simp only [Tensor.rows, hsize]
  exact pieces_flatten hrows

/-- Rows of one length make a table. -/
theorem exists_rows {rows : List (List α)} {d : Nat} (h : ∀ row ∈ rows, row.length = d) :
    ∃ t : Tensor α, t.shape = [rows.length, d] ∧ t.rows = rows := by
  have hlength : rows.flatten.length = volume [rows.length, d] := by
    rw [length_flatten h, volume, volume, volume, Nat.mul_one]
  exact ⟨⟨[rows.length, d], rows.flatten, hlength⟩, rfl, rows_of_flatten rfl h rfl⟩

/-- A table is determined by its rows. -/
theorem eq_of_rows {s t : Tensor α} {n d : Nat} (hs : s.shape = [n, d]) (ht : t.shape = [n, d])
    (h : s.rows = t.rows) : s = t := by
  have hentries : s.entries = t.entries := by rw [← flatten_rows hs, ← flatten_rows ht, h]
  have hshape : s.shape = t.shape := hs.trans ht.symm
  cases s
  cases t
  cases hshape
  cases hentries
  rfl

/-- A column takes the entry at its place from every row. -/
theorem column_eq {t : Tensor α} {n d : Nat} (h : t.shape = [n, d]) {place : Nat}
    (hplace : place < d) (default : α) :
    t.column place = t.rows.map fun row => row.getD place default := by
  have hentry : ∀ row ∈ t.rows, row[place]? = some (row.getD place default) := by
    intro row hrow
    have hlength := length_of_mem_rows h hrow
    rw [List.getD_eq_getElem?_getD, List.getElem?_eq_getElem (by omega)]
    rfl
  unfold column
  generalize t.rows = rows at hentry ⊢
  induction rows with
  | nil => rfl
  | cons row rows ih =>
    rw [List.filterMap_cons, hentry row List.mem_cons_self, List.map_cons]
    exact congrArg _ (ih fun other hother => hentry other (List.mem_cons_of_mem _ hother))

/-- A table with columns but without entries is the one without rows. -/
theorem eq_empty_of_isEmpty {t : Tensor α} {n d : Nat} (h : t.shape = [n, d]) (hd : d ≠ 0)
    (hempty : t.isEmpty = true) : t = empty [d] := by
  obtain ⟨shape, entries, hlength⟩ := t
  subst h
  have hentries : entries = [] := List.isEmpty_iff.mp hempty
  subst hentries
  have hn : n = 0 := by
    simp only [List.length_nil, volume, Nat.mul_one] at hlength
    rcases Nat.mul_eq_zero.mp hlength.symm with hn | hd0
    · exact hn
    · exact absurd hd0 hd
  subst hn
  rfl

/-- A single entry is spread over a list that it stands beside. -/
theorem zip?_single (xs : List α) (y : β) :
    (ofList xs).zip? (single y) = some (ofList (xs.map fun x => (x, y))) := by
  have hjoin : joinShapes? [xs.length] [] = some [xs.length] := rfl
  have hself : spreadOver? [xs.length] [xs.length] xs = some xs := if_pos rfl
  have hspread : spreadOver? [] [xs.length] [y] = some (List.replicate xs.length y) := by
    by_cases hone : 1 = xs.length
    · rw [← hone]
      rfl
    · simp [spreadOver?, spread?, pieces, volume, hone]
  have hpairs : xs.zip (List.replicate xs.length y) = xs.map fun x => (x, y) := by
    rw [← List.map_const', List.map_prod_left_eq_zip]
  have hentries : ofEntries? [xs.length] (xs.map fun x => (x, y)) =
      some (ofList (xs.map fun x => (x, y))) := by
    simp [ofEntries?, ofList, volume]
  simp only [zip?, ofList, single, hjoin, hself, hspread, Option.bind_eq_bind, Option.bind_some]
  rw [hpairs]
  exact hentries

end Tensor

end CellKeys
