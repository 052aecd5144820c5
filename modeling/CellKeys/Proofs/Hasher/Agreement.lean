import CellKeys.Proofs.Hasher.Sequence

namespace CellKeys

namespace Hasher

open Value

/-- What makes a key the key of a state with these items, for a hasher of tuples and a hasher of
    lists with one resolution and one word size. -/
structure IsCommonKey (tuples lists : Hasher) (w : Width) (resolution : Value) (items : List Value)
    (key : Nat) : Prop where
  tuple : tuples.key (.tuple items) = .ok key
  list : ∀ m, lists.key (.list items m) = .ok key
  /-- The nearest binary64 values of the items have the key without a hasher. -/
  widened : ∃ rs, items.mapM toReading = .ok rs ∧
    ∀ m, keyOfState w (.list (rs.map ofReading) m) resolution = .ok key

theorem isCommonKey_cells {tuples lists : Hasher} (htuples : tuples.kind = .tuple)
    (hlists : lists.kind = .array) (hresolution : lists.resolution = tuples.resolution)
    (hwidth : lists.width = tuples.width) {resolution : Value}
    (hr : resolution.IsVector tuples.cellSizes) {items : List Value} {xs : List Binary64}
    (hitems : List.Forall₂ Widens items xs) (hlength : xs.length = tuples.dimensions) :
    IsCommonKey tuples lists tuples.width resolution items
      (tuples.width.cellKey (cellsOf xs tuples.cellSizes)).toNat where
  tuple := key_sequence (.inr htuples) (.tuple hitems) hlength
  list := by
    intro m
    have hdimensions : xs.length = lists.dimensions := by
      rw [hlength, dimensions, dimensions, hresolution]
    have hkey := key_sequence (.inl hlists) (.list m hitems) hdimensions
    rwa [cellSizes, hresolution, hwidth] at hkey
  widened := by
    obtain ⟨rs, hrs, rfl⟩ := mapM_toReading hitems
    refine ⟨rs, hrs, fun m => ?_⟩
    rw [← length_cellSizes] at hlength
    exact keyOfState_eq tuples.width (.list m (forall₂_ofReading rs)) hr hlength
      tuples.cellSizes_ne_nil

theorem keys_tuples {h : Hasher} (hkind : h.kind = .tuple) {t : Tensor Binary64}
    {items : List (List Value)} (hitems : List.Forall₂ (List.Forall₂ Widens) items t.rows)
    (ht : t.shape = [t.rows.length, h.dimensions]) (m : Mark) :
    h.keys (.list (items.map .tuple) m) = h.tableKeys t := by
  have hlength : ∀ row ∈ t.rows, row.length = h.dimensions := fun row =>
    Tensor.length_of_mem_rows ht
  have haxes : List.Forall₂ (fun s row => ∃ a, h.axes s = .ok a ∧ a.WidensTo row ∧
      row.length = h.dimensions) (items.map .tuple) t.rows := by
    rw [List.forall₂_map_left_iff]
    exact forall₂_imp_of_mem hitems fun _ row hrow hwiden =>
      axes_tuple hkind (.tuple hwiden) (hlength row hrow)
  obtain ⟨table, htable, hshape, hrows⟩ := axesRows_eq haxes m
  rw [Tensor.eq_of_rows hshape ht hrows, hkind] at htable
  simp only [keys, axesTable, HasherClass.axesTable, hkind, htable, bind, Except.bind]

theorem keys_states {h : Hasher} (hkind : h.kind = .array) {t : Tensor Binary64}
    {states : List Value}
    (hstates : List.Forall₂ (fun s row => s.WidensTo row ∧ row.length = h.dimensions) states t.rows)
    (ht : t.shape = [t.rows.length, h.dimensions]) (m : Mark) :
    h.keys (.list states m) = h.tableKeys t := by
  obtain ⟨s, hs, hentries, hshape⟩ := toTensor_rows hstates m
  have haxes : h.dimensions ≠ 0 := Nat.ne_of_gt h.dimensions_pos
  have htable : tableOf h.divisors.length s = tableOf h.divisors.length t := by
    have hcount : h.divisors.length = h.dimensions := List.length_map _
    rw [hcount, tableOf_rows haxes ht rfl hentries hshape, tableOf_eq ht haxes]
  simp only [keys, axesTable, HasherClass.axesTable, hkind, hs, bind, Except.bind]
  exact batchKeys_congr h.width htable

/-- For every resolution and word size, every state of as many numbers of any kinds as there are
    axes has one key: as a tuple for a hasher of tuples, as a list for a hasher of lists, and as a
    list of its nearest binary64 values without a hasher. A list of states has these keys in order,
    also if it is empty: as a list of tuples and as a table for a hasher of tuples, and as it is for
    a hasher of lists. -/
theorem keys_agree_across_classes {resolution : Value} {divs : List Binary64}
    (hr : resolution.IsVector divs) (hne : divs ≠ []) {width : Value} {w : Width}
    (hw : Width.ofValue width = .ok w) :
    ∃ tuples lists : Hasher, buildFrom .tuple resolution width = .ok tuples ∧
      buildFrom .array resolution width = .ok lists ∧
      ∀ (states : List Value) (rows : List (List Binary64)),
        List.Forall₂ (fun s row => s.WidensTo row ∧ row.length = divs.length) states rows →
        ∃ (items : List (List Value)) (keys : List UInt64) (t : Tensor Binary64),
          states.mapM elements = .ok items ∧ keys.length = states.length ∧
          List.Forall₂ (fun items key => IsCommonKey tuples lists w resolution items key.toNat)
            items keys ∧
          t.shape = [states.length, divs.length] ∧ t.rows = rows ∧
          ∀ m, tuples.keys (.list (items.map .tuple) m) = .ok (.ofList keys) ∧
            tuples.keys (.array .float64 (t.map .float) m) = .ok (.ofList keys) ∧
            lists.keys (.list states m) = .ok (.ofList keys) := by
  obtain ⟨rs, hdivs, hbuild⟩ := buildFrom_sequence hr.widensTo hne hw
  obtain ⟨tuples, htuples, htkind, htres, rfl⟩ := hbuild .tuple (HasherClass.noConfusion ·)
  obtain ⟨lists, hlists, hlkind, hlres, hwidth⟩ := hbuild .array (HasherClass.noConfusion ·)
  have hresolution : lists.resolution = tuples.resolution := hlres.trans htres.symm
  have hsizes : tuples.cellSizes = divs := by rw [cellSizes, htres, hdivs]
  subst hsizes
  refine ⟨tuples, lists, htuples, hlists, ?_⟩
  intro states rows hstates
  rw [length_cellSizes] at hstates ⊢
  have hlength := forall_of_forall₂ hstates fun _ _ hrow => hrow.2
  obtain ⟨t, ht, rfl⟩ := Tensor.exists_rows hlength
  obtain ⟨items, hitems, hwiden⟩ := mapM_forall₂ (f := elements)
    (hstates.imp fun _ _ hrow => hrow.1.elements)
  obtain ⟨keys, hkeys, hshape, hentries⟩ := tuples.tableKeys_eq ht
  rw [Tensor.eq_ofList hshape] at hkeys
  have hcommon : List.Forall₂ (fun items key =>
      IsCommonKey tuples lists tuples.width resolution items key.toNat) items keys.entries := by
    have hrows : List.Forall₂ (fun items row =>
        IsCommonKey tuples lists tuples.width resolution items
          (tuples.width.cellKey (cellsOf row tuples.cellSizes)).toNat) items t.rows :=
      forall₂_imp_of_mem hwiden fun _ row hrow hitems =>
        isCommonKey_cells htkind hlkind hresolution hwidth hr hitems (hlength row hrow)
    rw [← List.forall₂_map_right_iff
      (R := fun items key => IsCommonKey tuples lists tuples.width resolution items key),
      hentries, List.forall₂_map_right_iff]
    exact hrows
  have hcount : keys.entries.length = states.length := by
    rw [← hcommon.length_eq, hwiden.length_eq, hstates.length_eq]
  refine ⟨items, keys.entries, t, hitems, hcount, hcommon, ?_, rfl, ?_⟩
  · rw [ht, hstates.length_eq]
  · intro m
    refine ⟨?_, ?_, ?_⟩
    · rw [keys_tuples htkind hwiden ht m, hkeys]
    · simp only [Hasher.keys, axesTable, HasherClass.axesTable, htkind, map_value_float, bind,
        Except.bind]
      exact hkeys
    · have hdimensions : lists.dimensions = tuples.dimensions := by
        rw [dimensions, dimensions, hresolution]
      have hsame : lists.tableKeys t = tuples.tableKeys t := by
        simp only [tableKeys, divisors, hresolution, hwidth]
      rw [keys_states hlkind (hdimensions ▸ hstates) (hdimensions ▸ ht) m, hsame, hkeys]

/-- A tuple, an array of small integers and a list of other numbers, for a cell size of minus zero.
    -/
theorem keys_agree_across_classes_mixed :
    let resolution := Value.tuple [.float (.ofInt 2) .none, .float (.zero true) .none]
    let states : List Value :=
      [.tuple [.int 3, .fraction (7 / 2)],
        .array (.signed 16) (.ofList [.int (-5), .int 4]) .none,
        .list [.bool true, .float .nan .none] .none]
    let rows : List (List Binary64) :=
      [[.ofInt 3, .ofRat (7 / 2)], [.ofInt (-5), .ofInt 4], [.ofInt 1, .nan]]
    resolution.IsVector [.ofInt 2, .zero true] ∧ Width.ofValue (.int 32) = .ok .w32 ∧
      List.Forall₂ (fun s row => s.WidensTo row ∧ row.length = 2) states rows ∧
      ∃ (tuples lists : Hasher) (keys : List UInt64), keys.length = 3 ∧
        tuples.keys (.list [.tuple [.int 3, .fraction (7 / 2)],
          .tuple [.scalar ⟨.signed 16, .int (-5)⟩ .none, .scalar ⟨.signed 16, .int 4⟩ .none],
          .tuple [.bool true, .float .nan .none]] .none) = .ok (.ofList keys) ∧
        lists.keys (.list states .none) = .ok (.ofList keys) := by
  intro resolution states rows
  have hr : resolution.IsVector [.ofInt 2, .zero true] :=
    .tuple (.cons (.float _ _) (.cons (.float _ _) .nil))
  have hw : Width.ofValue (.int 32) = .ok .w32 := by decide +kernel
  have hint : ∀ n ∈ [3, -5, 4, 1], (Number.int n).toBinary64 = .ok (.ofInt n) := by decide +kernel
  have hfraction : (Number.fraction (7 / 2)).toBinary64 = .ok (.ofRat (7 / 2)) := by decide +kernel
  have hstates : List.Forall₂ (fun s row => s.WidensTo row ∧ row.length = 2) states rows := by
    refine .cons ⟨.tuple (.cons (.number rfl ?_) (.cons (.number rfl hfraction) .nil)), rfl⟩
      (.cons ⟨.array _ _ (.cons (.scalar _ ?_) (.cons (.scalar _ ?_) .nil)), rfl⟩
        (.cons ⟨.list _ (.cons (.number rfl ?_) (.cons (.number rfl rfl) .nil)), rfl⟩ .nil))
    all_goals exact hint _ (by decide)
  obtain ⟨tuples, lists, -, -, hkeys⟩ := keys_agree_across_classes hr (by simp) hw
  obtain ⟨items, keys, t, hitems, hcount, -, -, -, hequal⟩ := hkeys states rows hstates
  cases hitems
  exact ⟨hr, hw, hstates, tuples, lists, keys, hcount, (hequal .none).1, (hequal .none).2.2⟩

end Hasher

end CellKeys
