import CellKeys.Hasher.Keys
import CellKeys.Proofs.Key.Batch

namespace CellKeys

theorem Width.ofValue_width (w : Width) : Width.ofValue (.width w) = .ok w := by cases w <;> rfl

namespace Hasher

open Value

theorem length_cellSizes (h : Hasher) : h.cellSizes.length = h.dimensions := List.length_map _

theorem cellSizes_ne_nil (h : Hasher) : h.cellSizes ≠ [] := by
  rw [cellSizes, ne_eq, List.map_eq_nil_iff]
  exact h.resolution_ne_nil

/-- A resolution of at least one number and a word size build one hasher of each class for
    sequences, all of them with the same number objects as resolution. -/
theorem buildFrom_sequence {resolution : Value} {divs : List Binary64}
    (hr : resolution.WidensTo divs) (hne : divs ≠ []) {width : Value} {w : Width}
    (hw : Width.ofValue width = .ok w) :
    ∃ rs : List Reading, rs.map Reading.value = divs ∧ ∀ kind : HasherClass, kind ≠ .pose →
      ∃ h, buildFrom kind resolution width = .ok h ∧ h.kind = kind ∧ h.resolution = rs ∧
        h.width = w := by
  obtain ⟨items, hitems, hwiden⟩ := hr.elements
  obtain ⟨rs, hrs, rfl⟩ := mapM_toReading hwiden
  have hsome : rs ≠ [] := by
    rintro rfl
    exact hne rfl
  refine ⟨rs, rfl, fun kind hkind => ?_⟩
  have hpose : kind = .pose → rs.length = 3 := fun h => absurd h hkind
  refine ⟨⟨kind, rs, w, hsome, hpose⟩, ?_, rfl, rfl, rfl⟩
  simp only [buildFrom, hitems, build, hrs, hw, ofReadings, bind, Except.bind, dif_pos hsome,
    dif_pos hpose]

/-- The tuple hasher with the resolution and the word size of a hasher is the one that a pose hasher
    delegates to. -/
theorem buildFrom_tuple (h : Hasher) :
    buildFrom .tuple (.tuple h.divisors) (.width h.width) = .ok h.delegate := by
  have hreadings : h.divisors.mapM toReading = .ok h.resolution := by
    have hread : h.divisors.mapM toReading = .ok (h.resolution.map id) :=
      mapM_map_eq_ok fun _ _ => rfl
    rwa [List.map_id] at hread
  have hpose : HasherClass.tuple = .pose → h.resolution.length = 3 := nofun
  simp only [buildFrom, elements, build, hreadings, Width.ofValue_width, ofReadings, bind,
    Except.bind, dif_pos h.resolution_ne_nil, dif_pos hpose]
  rfl

theorem readings_eq {h : Hasher} (hkind : h.kind ≠ .plain) {state : Value} {xs : List Binary64}
    (hs : state.WidensTo xs) (hlength : xs.length = h.dimensions) :
    ∃ rs, h.readings state = .ok rs ∧ rs.map Reading.value = xs := by
  obtain ⟨items, hitems, hwiden⟩ := hs.elements
  obtain ⟨rs, hrs, rfl⟩ := mapM_toReading hwiden
  rw [List.length_map] at hlength
  refine ⟨rs, ?_, rfl⟩
  cases hclass : h.kind with
  | plain => exact absurd hclass hkind
  | array =>
    simp only [readings, HasherClass.readings, hclass, hitems, hrs, hlength, bind, Except.bind,
      ne_eq, not_true_eq_false, if_false]
    rfl
  | tuple | pose =>
    simp only [readings, HasherClass.readings, hclass, hs.length, List.length_map, hlength, hitems,
      hrs, bind, Except.bind, ne_eq, not_true_eq_false, if_false]

/-- The key of a sequence of numbers is the key of their cells. -/
theorem sequenceKey_eq {h : Hasher} (hkind : h.kind ≠ .plain) {state : Value} {xs : List Binary64}
    (hs : state.WidensTo xs) (hlength : xs.length = h.dimensions) :
    h.sequenceKey state = .ok (h.width.cellKey (cellsOf xs h.cellSizes)).toNat := by
  obtain ⟨rs, hrs, rfl⟩ := readings_eq hkind hs hlength
  simp only [sequenceKey, hrs, bind, Except.bind]
  rw [← length_cellSizes] at hlength
  exact stateKey_eq h.width (forall₂_ofReading rs) (forall₂_ofReading h.resolution) hlength
    h.cellSizes_ne_nil

theorem sequenceKey_delegate (h : Hasher) {state : Value} {xs : List Binary64}
    (hs : state.WidensTo xs) (hlength : xs.length = h.dimensions) :
    h.delegate.sequenceKey state = .ok (h.width.cellKey (cellsOf xs h.cellSizes)).toNat :=
  sequenceKey_eq (h := h.delegate) (fun hplain => HasherClass.noConfusion hplain) hs hlength

theorem key_sequence {h : Hasher} (hkind : h.kind = .array ∨ h.kind = .tuple) {state : Value}
    {xs : List Binary64} (hs : state.WidensTo xs) (hlength : xs.length = h.dimensions) :
    h.key state = .ok (h.width.cellKey (cellsOf xs h.cellSizes)).toNat := by
  have hkey : h.key state = h.sequenceKey state := by
    rcases hkind with hkind | hkind <;> simp only [key, hkind]
  have hplain : h.kind ≠ .plain := by
    rintro hplain
    rcases hkind with hkind | hkind <;> cases hplain.symm.trans hkind
  rw [hkey, sequenceKey_eq hplain hs hlength]

theorem axes_of_kind {h : Hasher} (hkind : h.kind = .array ∨ h.kind = .tuple) (state : Value) :
    h.axes state = do
      let readings ← h.readings state
      return if h.kind = .array then .list (readings.map .ofReading) none
        else .tuple (readings.map .ofReading) := by
  rcases hkind with hkind | hkind <;> simp [axes, HasherClass.axes, readings, hkind]

theorem axes_tuple {h : Hasher} (hkind : h.kind = .tuple) {state : Value} {xs : List Binary64}
    (hs : state.WidensTo xs) (hlength : xs.length = h.dimensions) :
    ∃ a, h.axes state = .ok a ∧ a.WidensTo xs ∧ xs.length = h.dimensions := by
  obtain ⟨rs, hrs, rfl⟩ := readings_eq (by rw [hkind]; nofun) hs hlength
  refine ⟨.tuple (rs.map ofReading), ?_, (IsVector.tuple (forall₂_ofReading rs)).widensTo, hlength⟩
  rw [axes_of_kind (.inr hkind), hrs, hkind]
  rfl

theorem axesRows_eq {h : Hasher} {states : List Value} {rows : List (List Binary64)}
    (haxes : List.Forall₂ (fun s row => ∃ a, h.axes s = .ok a ∧ a.WidensTo row ∧
      row.length = h.dimensions) states rows) (m : Mark) :
    ∃ table, h.kind.axesRows (.ok h.dimensions) (.list states m) = .ok table ∧
      table.shape = [rows.length, h.dimensions] ∧ table.rows = rows := by
  obtain ⟨vs, hvs, hrows⟩ := mapM_forall₂ haxes
  have hlength := forall_of_forall₂ hrows fun _ _ hrow => hrow.2
  obtain ⟨t, ht, hentries, -⟩ := toTensor_rows hrows .none
  have hvolume : t.entries.length = volume [rows.length, h.dimensions] := by
    rw [hentries, Tensor.length_flatten hlength]
    simp only [volume, Nat.mul_one]
  refine ⟨⟨[rows.length, h.dimensions], t.entries, hvolume⟩, ?_, rfl,
    Tensor.rows_of_flatten rfl hlength hentries⟩
  have hvalues : states.mapM (h.kind.axes (.ok h.dimensions)) = .ok vs := hvs
  simp only [HasherClass.axesRows, elements, hvalues, ht, hrows.length_eq, Tensor.reshape?,
    Tensor.ofEntries?, dif_pos hvolume, bind, Except.bind]
  rfl

theorem tableKeys_eq (h : Hasher) {t : Tensor Binary64} {n : Nat}
    (ht : t.shape = [n, h.dimensions]) :
    ∃ keys, h.tableKeys t = .ok keys ∧ keys.shape = [n] ∧
      keys.entries.map UInt64.toNat =
        t.rows.map fun row => (h.width.cellKey (cellsOf row h.cellSizes)).toNat := by
  rw [← length_cellSizes] at ht
  exact batchKeys_eq h.width ht (forall₂_ofReading h.resolution) h.cellSizes_ne_nil

end Hasher

end CellKeys
