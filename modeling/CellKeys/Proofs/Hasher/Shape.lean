import CellKeys.Proofs.Hasher.Sequence

namespace CellKeys

open Value

/-- That no state is dropped from a batch: it is refused for its shape or has as many keys as
    states, and it is refused wherever one of its states is refused for its number of axes. -/
structure CountsStates (w : Width) (resolution : Value) (axes : Nat) (states : Value)
    (shape : List Nat)
    (result : Except Fault (Tensor UInt64)) : Prop where
  counted : result = .error (.batchShape axes shape) ∨
    ∃ keys n, result = .ok keys ∧ states.length = .ok n ∧ keys.shape = [n]
  refused : ∀ rows, states.elements = .ok rows → ∀ row ∈ rows, ∀ given,
    keyOfState w row resolution = .error (.axisCount given axes) →
      result = .error (.batchShape axes shape)

theorem isEmpty_iff_volume {α : Type} (t : Tensor α) : t.isEmpty = true ↔ volume t.shape = 0 := by
  rw [Tensor.isEmpty, List.isEmpty_iff, ← t.length_entries, List.length_eq_zero_iff]

theorem tableOf_of_not_isEmpty (axes : Nat) {t : Tensor Binary64} (h : ¬ t.isEmpty = true) :
    (∃ n, t.shape = [n, axes]) ∧ tableOf axes t = .ok t ∨
      (¬ ∃ n, t.shape = [n, axes]) ∧ tableOf axes t = .error (.batchShape axes t.shape) := by
  by_cases hshape : ∃ n, t.shape = [n, axes]
  · obtain ⟨n, hn⟩ := hshape
    refine .inl ⟨⟨n, hn⟩, ?_⟩
    simp only [tableOf, if_neg h, hn, if_true]
  · refine .inr ⟨hshape, ?_⟩
    rw [not_exists] at hshape
    simp only [tableOf, if_neg h]
    split
    · next n d hd =>
      have hne : d ≠ axes := by
        rintro rfl
        exact hshape n hd
      rw [if_neg hne, hd]
    · rfl

theorem batchKeys_of_refused (w : Width) {t : Tensor Binary64} {ds : List Value} {e : Fault}
    (hds : ds ≠ []) (h : tableOf ds.length t = .error e) : batchKeys w t ds = .error e := by
  have hempty : ds.isEmpty = false := List.isEmpty_eq_false_iff.mpr hds
  simp only [batchKeys, hempty, h, bind, Except.bind]
  rfl

theorem shape_of_tableOf {axes : Nat} {t table : Tensor Binary64} (h : tableOf axes t = .ok table) :
    ∃ n, table.shape = [n, axes] := by
  by_cases hempty : t.isEmpty = true
  · rw [tableOf_of_isEmpty axes hempty] at h
    cases h
    exact ⟨0, rfl⟩
  · rcases tableOf_of_not_isEmpty axes hempty with ⟨hshape, hkept⟩ | ⟨-, hrefused⟩
    · rw [hkept] at h
      cases h
      exact hshape
    · rw [hrefused] at h
      cases h

/-- The keys of an array are those of the cells of the table that it is taken for. -/
theorem batchKeys_eq_map (w : Width) (t : Tensor Binary64) {ds : List Value} {divs : List Binary64}
    (hd : List.Forall₂ IsBinary64 ds divs) (hne : divs ≠ []) :
    batchKeys w t ds = (tableOf divs.length t).map fun table =>
      .ofList (table.rows.map fun row => .ofNat (w.cellKey (cellsOf row divs)).toNat) := by
  have hlength := hd.length_eq
  cases htable : tableOf divs.length t with
  | error e =>
    rw [← hlength] at htable
    exact batchKeys_of_refused w (ne_nil_of_length_eq hlength hne) htable
  | ok table =>
    obtain ⟨n, hn⟩ := shape_of_tableOf htable
    obtain ⟨keys, hkeys, hshape, hentries⟩ := batchKeys_eq w hn hd hne
    have hsame : batchKeys w t ds = batchKeys w table ds := by
      apply batchKeys_congr
      rw [hlength, htable, tableOf_eq hn (Nat.ne_of_gt (List.length_pos_iff.mpr hne))]
    have hwords : keys.entries = (keys.entries.map UInt64.toNat).map UInt64.ofNat := by
      simp [Function.comp_def]
    rw [hsame, hkeys, Tensor.eq_ofList hshape, hwords, hentries, List.map_map]
    rfl

theorem batchKeys_of_isEmpty (w : Width) {t : Tensor Binary64} (h : t.isEmpty = true)
    {ds : List Value} {divs : List Binary64} (hd : List.Forall₂ IsBinary64 ds divs)
    (hne : divs ≠ []) :
    ∃ keys, batchKeys w t ds = .ok keys ∧ keys.shape = [0] := by
  have hkeys := batchKeys_eq_map w t hd hne
  rw [tableOf_of_isEmpty _ h] at hkeys
  exact ⟨_, hkeys, rfl⟩

theorem slices_eq_nil {kind : ElementKind} {t : Tensor Element} {rest : List Nat}
    (h : t.shape = 0 :: rest) : slices kind t = [] := by
  have hrows : t.rows = [] := List.eq_nil_of_length_eq_zero (t.length_rows h)
  have hentries : t.entries = [] := by
    apply List.eq_nil_of_length_eq_zero
    rw [t.length_entries, h, volume, Nat.zero_mul]
  unfold slices
  split
  · rw [hentries, List.map_nil]
  · rw [Tensor.slices, hrows, List.filterMap_nil, List.map_nil]

theorem keyOfState_row (w : Width) {t : Tensor Binary64} {n : Nat} {resolution : Value}
    {divs : List Binary64} (ht : t.shape = [n, divs.length]) (hr : resolution.IsVector divs)
    (hne : divs ≠ []) : ∀ row ∈ slices .float64 (t.map .float), ∃ key,
      keyOfState w row resolution = .ok key := by
  refine forall_of_forall₂ (slices_table ht).flip fun xs row hrow => ?_
  exact ⟨_, keyOfState_eq w hrow.1 hr hrow.2 hne⟩

section

variable (w : Width) {t : Tensor Binary64} {n : Nat} {rest : List Nat} (ht : t.shape = n :: rest)
  {resolution : Value} {divs : List Binary64} (hr : resolution.IsVector divs) (hne : divs ≠ [])
  (m : Mark) {ds : List Value} (hd : List.Forall₂ IsBinary64 ds divs)

include ht

theorem length_array : (Value.array .float64 (t.map .float) m).length = .ok n := by
  simp only [Value.length, Tensor.shape_map, ht]

theorem elements_array :
    (Value.array .float64 (t.map .float) m).elements = .ok (slices .float64 (t.map .float)) := by
  rw [elements, Tensor.shape_map, ht, if_neg (List.cons_ne_nil _ _)]

include hne hd

/-- Where the states of an array are counted although it has no entries, there are no states. -/
theorem eq_zero_of_countsStates (hempty : t.isEmpty = true)
    (hcounts : CountsStates w resolution divs.length (.array .float64 (t.map .float) m) t.shape
      (batchKeys w t ds)) : n = 0 := by
  obtain ⟨keys, hkeys, hnone⟩ := batchKeys_of_isEmpty w hempty hd hne
  rcases hcounts.counted with hrefused | ⟨others, k, hothers, hk, hcount⟩
  · rw [hkeys] at hrefused
    cases hrefused
  · rw [hkeys] at hothers
    rw [length_array ht m] at hk
    cases hothers
    cases hk
    rw [hnone, List.cons.injEq] at hcount
    exact hcount.1.symm

theorem countsStates_of_zero (hn : n = 0) :
    CountsStates w resolution divs.length (.array .float64 (t.map .float) m) t.shape
      (batchKeys w t ds) := by
  subst hn
  have hempty : t.isEmpty = true := by
    rw [isEmpty_iff_volume, ht, volume, Nat.zero_mul]
  obtain ⟨keys, hkeys, hcount⟩ := batchKeys_of_isEmpty w hempty hd hne
  refine ⟨.inr ⟨keys, 0, hkeys, length_array ht m, hcount⟩, ?_⟩
  -- There are no states that could be refused.
  intro rows hrows row hrow
  rw [elements_array ht m, slices_eq_nil (t := t.map .float) ht] at hrows
  cases hrows
  cases hrow

include hr

theorem countsStates_of_not_isEmpty (hempty : ¬ t.isEmpty = true) :
    CountsStates w resolution divs.length (.array .float64 (t.map .float) m) t.shape
      (batchKeys w t ds) := by
  have hds := hd.length_eq
  have hsome := ne_nil_of_length_eq hds hne
  rcases tableOf_of_not_isEmpty ds.length hempty with ⟨⟨k, hk⟩, -⟩ | ⟨-, hrefused⟩
  · rw [hds] at hk
    have hn : n = k := by
      rw [ht, List.cons.injEq] at hk
      exact hk.1
    subst hn
    obtain ⟨keys, hkeys, hcount, -⟩ := batchKeys_eq w hk hd hne
    refine ⟨.inr ⟨keys, n, hkeys, length_array ht m, hcount⟩, ?_⟩
    -- Every row of the table has a key.
    intro rows hrows row hrow given hrefused
    rw [elements_array ht m] at hrows
    cases hrows
    obtain ⟨key, hkey⟩ := keyOfState_row w hk hr hne row hrow
    rw [hkey] at hrefused
    cases hrefused
  · have hresult := batchKeys_of_refused w hsome hrefused
    rw [hds] at hresult
    exact ⟨.inl hresult, fun _ _ _ _ _ _ => hresult⟩

theorem countsStates_iff :
    CountsStates w resolution divs.length (.array .float64 (t.map .float) m) t.shape
      (batchKeys w t ds) ↔ n = 0 ∨ volume rest ≠ 0 := by
  have hvolume : t.isEmpty = true ↔ n = 0 ∨ volume rest = 0 := by
    rw [isEmpty_iff_volume, ht, volume, Nat.mul_eq_zero]
  constructor
  · intro hcounts
    by_cases hrest : volume rest = 0
    · exact .inl (eq_zero_of_countsStates w ht hne m hd (hvolume.mpr (.inr hrest)) hcounts)
    · exact .inr hrest
  · intro hstates
    by_cases hn : n = 0
    · exact countsStates_of_zero w ht hne m hd hn
    · have hrest := hstates.resolve_left hn
      refine countsStates_of_not_isEmpty w ht hr hne m hd fun hempty => ?_
      exact (hvolume.mp hempty).elim hn hrest

end

theorem keysOfBatch_array (w : Width) {t : Tensor Binary64} (haxes : t.shape.length ≤ axisLimit)
    {resolution : Value} {divs : List Binary64} (hr : resolution.IsVector divs) (hne : divs ≠ [])
    (m : Mark) :
    ∃ ds, List.Forall₂ IsBinary64 ds divs ∧
      keysOfBatch w (.array .float64 (t.map .float) m) resolution = batchKeys w t ds := by
  obtain ⟨ds, hds, hd⟩ := hr.elements
  have hpos : divs.length ≠ 0 := Nat.ne_of_gt (List.length_pos_iff.mpr hne)
  refine ⟨ds, hd, ?_⟩
  rw [keysOfBatch, hr.length]
  simp only [bind, Except.bind, if_neg hpos, toTensor_array haxes m, hds]

/-- For every resolution and word size and every array with an axis, no state is dropped, with a
    hasher and without one, just where the array has an empty first axis or no other empty axis. An
    array of states without entries has no keys at all, although each of its states is refused or
    has entries missing. -/
theorem states_dropped_iff {resolution : Value} {divs : List Binary64}
    (hr : resolution.IsVector divs)
    (hne : divs ≠ []) {width : Value} {w : Width} (hw : Width.ofValue width = .ok w)
    {t : Tensor Binary64} {n : Nat} {rest : List Nat} (ht : t.shape = n :: rest)
    (haxes : t.shape.length ≤ axisLimit) (m : Mark) :
    ∃ h, Hasher.buildFrom .array resolution width = .ok h ∧
      ∀ result, result = keysOfBatch w (.array .float64 (t.map .float) m) resolution ∨
          result = h.keys (.array .float64 (t.map .float) m) →
        (CountsStates w resolution divs.length (.array .float64 (t.map .float) m) t.shape result ↔
          n = 0 ∨ volume rest ≠ 0) ∧
        (volume rest = 0 → ∃ keys, result = .ok keys ∧ keys.shape = [0]) := by
  obtain ⟨rs, rfl, hbuild⟩ := Hasher.buildFrom_sequence hr.widensTo hne hw
  obtain ⟨h, hh, hkind, rfl, rfl⟩ := hbuild .array (HasherClass.noConfusion ·)
  refine ⟨h, hh, ?_⟩
  -- Both ways to the keys lead to the same batch.
  have hbatch : ∀ result,
      result = keysOfBatch h.width (.array .float64 (t.map .float) m) resolution ∨
      result = h.keys (.array .float64 (t.map .float) m) →
      ∃ ds, List.Forall₂ IsBinary64 ds (h.resolution.map Reading.value) ∧
        result = batchKeys h.width t ds := by
    rintro result (rfl | rfl)
    · exact keysOfBatch_array h.width haxes hr hne m
    · refine ⟨h.divisors, forall₂_ofReading h.resolution, ?_⟩
      simp only [Hasher.keys, Hasher.axesTable, HasherClass.axesTable, hkind,
        toTensor_array haxes m, bind, Except.bind]
      rfl
  intro result hresult
  obtain ⟨ds, hd, rfl⟩ := hbatch result hresult
  refine ⟨countsStates_iff h.width ht hr hne m hd, fun hrest => ?_⟩
  refine batchKeys_of_isEmpty h.width ?_ hd hne
  rw [isEmpty_iff_volume, ht, volume, hrest, Nat.mul_zero]

/-- Two states without coordinates for one axis are neither refused nor given keys. -/
theorem states_dropped_iff_two :
    let resolution := Value.tuple [.float .one .none]
    let t : Tensor Binary64 := ⟨[2, 0], [], rfl⟩
    resolution.IsVector [.one] ∧ Width.ofValue (.int 64) = .ok .w64 ∧ t.shape = [2, 0] ∧
      t.shape.length ≤ axisLimit ∧
      ∃ h keys, Hasher.buildFrom .array resolution (.int 64) = .ok h ∧
        h.keys (.array .float64 (t.map .float) .none) = .ok keys ∧ keys.shape = [0] ∧
        ¬ CountsStates .w64 resolution 1 (.array .float64 (t.map .float) .none) [2, 0]
          (.ok keys) := by
  intro resolution t
  have hr : resolution.IsVector [.one] := .tuple (.cons (.float _ _) .nil)
  have hw : Width.ofValue (.int 64) = .ok .w64 := by decide +kernel
  have haxes : t.shape.length ≤ axisLimit := by decide
  obtain ⟨h, hh, hresult⟩ := states_dropped_iff hr (by simp) hw (t := t) rfl haxes .none
  obtain ⟨hcounts, hnone⟩ := hresult _ (.inr rfl)
  obtain ⟨keys, hkeys, hshape⟩ := hnone rfl
  rw [hkeys] at hcounts
  have hdropped := mt hcounts.mp (by simp [volume])
  exact ⟨hr, hw, rfl, haxes, h, keys, hh, hkeys, hshape, hdropped⟩

/-- An array of two states without coordinates has no keys, although each of them is refused by
    itself. -/
theorem not_countsStates_two :
    let resolution := Value.tuple [.float .one .none]
    let t : Tensor Binary64 := ⟨[2, 0], [], rfl⟩
    let states := Value.array .float64 (t.map .float) .none
    (∃ keys, keysOfBatch .w64 states resolution = .ok keys ∧ keys.shape = [0]) ∧
      (∃ row, states.elements = .ok [row, row] ∧
        keyOfState .w64 row resolution = .error (.axisCount 0 1)) ∧
      ¬ CountsStates .w64 resolution 1 states [2, 0] (keysOfBatch .w64 states resolution) := by
  intro resolution t states
  have hr : resolution.IsVector [.one] := .tuple (.cons (.float _ _) .nil)
  obtain ⟨ds, hd, hkeys⟩ := keysOfBatch_array .w64 (t := t) (by decide) hr (by simp) .none
  obtain ⟨keys, hresult, hshape⟩ := batchKeys_of_isEmpty .w64 (t := t) rfl hd (by simp)
  refine ⟨⟨keys, hkeys.trans hresult, hshape⟩, ⟨.array .float64 (.empty []) .none, rfl, ?_⟩, ?_⟩
  · exact keyOfState_of_length_ne .w64 (.array [] .none) hr (by simp)
  · rw [hkeys]
    exact mt (countsStates_iff .w64 (t := t) rfl hr (by simp) .none hd).mp (by simp [volume])

end CellKeys
