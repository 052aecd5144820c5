import CellKeys.Proofs.Session.Store

namespace CellKeys

open Value

namespace Store

/-- Keeping number objects marks them and leaves the numbers and all objects as they are. -/
theorem keepAll_readings (s : Store) (rs : List Reading) :
    ∃ ss : List Reading, (s.keepAll (rs.map ofReading)).1 = ss.map ofReading ∧
      ss.map Reading.value = rs.map Reading.value ∧
      (s.keepAll (rs.map ofReading)).2.objects = s.objects := by
  induction rs generalizing s with
  | nil => exact ⟨[], rfl, rfl, rfl⟩
  | cons r rs ih =>
    have hfirst : ∃ q : Reading, (s.keep (ofReading r)).1 = ofReading q ∧ q.value = r.value ∧
        (s.keep (ofReading r)).2.objects = s.objects := by
      obtain ⟨x, _ | m⟩ := r
      · exact ⟨⟨x, some s.numbers⟩, rfl, rfl, rfl⟩
      · exact ⟨⟨x, some m⟩, rfl, rfl, rfl⟩
    obtain ⟨q, hq, hvalue, hobjects⟩ := hfirst
    obtain ⟨ss, hss, hvalues, hrest⟩ := ih (s.keep (ofReading r)).2
    refine ⟨q :: ss, ?_, ?_, hrest.trans hobjects⟩
    · change (s.keep (ofReading r)).1 :: ((s.keep (ofReading r)).2.keepAll (rs.map ofReading)).1 = _
      rw [hq, hss, List.map_cons]
    · rw [List.map_cons, List.map_cons, hvalue, hvalues]

/-- A new hasher is kept as an object with the same configuration. If it delegates, the hasher that
    it delegates to is kept first. -/
theorem keep_hasher (s : Store) (h : Hasher) :
    ∃ (g : Hasher) (t : Store), g.kind = h.kind ∧ g.records = h.records ∧ t.objects = s.objects ∧
      s.keep (hasher h .none) =
        if h.kind = .pose then
          (t.add (hasher g.delegate .none)).2.add (configured g (.object s.objects.length) .none)
        else t.add (hasher g .none) := by
  obtain ⟨ss, hss, hvalues, hobjects⟩ := keepAll_readings s h.resolution
  have hlength : ss.length = h.resolution.length := by
    rw [← List.length_map (f := Reading.value), hvalues, List.length_map]
  let t := (s.keepAll (h.resolution.map ofReading)).2
  let g : Hasher :=
    ⟨h.kind, ss, h.width, ne_nil_of_length_eq hlength h.resolution_ne_nil,
      fun hkind => hlength.trans (h.length_of_pose hkind)⟩
  refine ⟨g, t, rfl, Hasher.records_congr rfl hvalues rfl, hobjects, ?_⟩
  have hbits : g.bitsPerAxis = h.bitsPerAxis := Hasher.bitsPerAxis_congr hvalues rfl
  have hdelegate : g.delegate.bitsPerAxis = h.delegate.bitsPerAxis :=
    Hasher.bitsPerAxis_congr hvalues rfl
  by_cases hkind : h.kind = .pose
  · rw [if_pos hkind, hasher_of_pose hkind, ← hobjects]
    simp only [hasher_delegate, configured, keep, keepOwn, hss, hbits, hdelegate]
    rfl
  · rw [if_neg hkind, hasher, if_neg hkind, hasher, if_neg hkind]
    simp only [configured, keep, keepOwn, hss, hbits]
    rfl

mutual

theorem isKept_keep (s : Store) (v : Value) : (s.keep v).1.IsKept := by
  cases v with
  | tuple items => exact ⟨eachHasher_tuple.mpr (holdsNone_keepAll s items), nofun⟩
  | list items m => cases m <;> exact ⟨trivial, nofun⟩
  | pose x y theta m => cases m <;> exact ⟨trivial, nofun⟩
  | foreign name attributes values m => cases m <;> exact ⟨trivial, nofun⟩
  | float x m => cases m <;> exact ⟨trivial, nofun⟩
  | scalar x m => cases m <;> exact ⟨trivial, nofun⟩
  | array kind t m => cases m <;> exact ⟨trivial, nofun⟩
  | slots kind resolution size bits underlying m => cases m <;> exact ⟨trivial, nofun⟩
  | _ => exact ⟨trivial, nofun⟩

theorem holdsNone_keepAll (s : Store) (vs : List Value) :
    ∀ v ∈ (s.keepAll vs).1, v.HoldsNone := by
  cases vs with
  | nil => nofun
  | cons v vs =>
    change ∀ w ∈ (s.keep v).1 :: ((s.keep v).2.keepAll vs).1, w.HoldsNone
    rw [List.forall_mem_cons]
    exact ⟨(isKept_keep s v).holdsNone, holdsNone_keepAll (s.keep v).2 vs⟩

end

variable {log : List BuildRecord} {s : Store}

theorem IsRecorded.add (hs : s.IsRecorded log) {o : Value} (ho : o.HoldsNone)
    (hobject : ∀ place, o ≠ .object place) : (s.add o).2.IsRecorded log :=
  isRecorded_add hs (.inl ⟨ho, hobject⟩)

/-- A new hasher lies behind all other objects, and so does, before it, the one that it delegates
    to. -/
theorem isRecorded_keep_hasher (hs : s.IsRecorded log) {h : Hasher} (hh : h.RecordedIn log) :
    (s.keep (hasher h .none)).2.IsRecorded log := by
  obtain ⟨g, t, hkind, hrecords, hobjects, hkept⟩ := keep_hasher s h
  have hg : g.RecordedIn log := by rwa [Hasher.RecordedIn, hrecords]
  have ht := hs.of_objects_eq hobjects
  have hadded : ∀ (t : Store) (o : Value), (t.add o).2.objects[t.objects.length]? = some o :=
    fun t o => List.getElem?_concat_length
  rw [hkept, ← hkind, ← hobjects]
  by_cases hpose : g.kind = .pose
  · rw [if_pos hpose]
    have hown := hadded t (hasher g.delegate .none)
    have hdelegate : (t.add (hasher g.delegate .none)).2.IsRecorded log := isRecorded_add ht
      (.inr ⟨g.delegate, .alone (by nofun) hown, hg.delegate hpose⟩)
    have hstored := (extends_add _ (configured g (.object t.objects.length) .none)).getElem? hown
    exact isRecorded_add hdelegate (.inr ⟨g, .delegating _ hpose (hadded _ _) hstored, hg⟩)
  · rw [if_neg hpose, hasher, if_neg hpose]
    exact isRecorded_add ht (.inr ⟨g, .alone hpose (hadded _ _), hg⟩)

mutual

/-- Keeping a value with recorded hashers adds recorded hashers and objects that hold them by place.
    -/
theorem isRecorded_keep {s : Store} (hs : s.IsRecorded log) {v : Value} (hv : v.RecordedIn log) :
    (s.keep v).2.IsRecorded log := by
  cases v with
  | tuple items => exact isRecorded_keepAll hs (eachHasher_tuple.mp hv)
  | list items m =>
    cases m with
    | none =>
      have hitems := isRecorded_keepAll hs (eachHasher_list.mp hv)
      exact hitems.add (eachHasher_list.mpr (holdsNone_keepAll s items)) nofun
    | some place => exact hs
  | pose x y theta m =>
    cases m with
    | none =>
      obtain ⟨hx, hy, htheta⟩ := eachHasher_pose.mp hv
      have hparts := isRecorded_keep (isRecorded_keep (isRecorded_keep hs hx) hy) htheta
      refine hparts.add (eachHasher_pose.mpr ⟨?_, ?_, ?_⟩) nofun
      · exact (isKept_keep s x).holdsNone
      · exact (isKept_keep (s.keep x).2 y).holdsNone
      · exact (isKept_keep ((s.keep x).2.keep y).2 theta).holdsNone
    | some place => exact hs
  | foreign name attributes values m =>
    cases m with
    | none =>
      have hvalues := isRecorded_keepAll hs (eachHasher_foreign.mp hv)
      exact hvalues.add (eachHasher_foreign.mpr (holdsNone_keepAll s values)) nofun
    | some place => exact hs
  | float x m => cases m <;> exact hs.of_objects_eq rfl
  | scalar x m => cases m <;> exact hs.of_objects_eq rfl
  | array kind t m =>
    cases m with
    | none => exact hs.add trivial nofun
    | some place => exact hs
  | slots kind resolution size bits underlying m =>
    cases m with
    | none =>
      obtain ⟨h, hh, hrecorded⟩ := hv
      rw [hh.built rfl]
      exact isRecorded_keep_hasher hs hrecorded
    | some place => exact hs
  | _ => exact hs

theorem isRecorded_keepAll {s : Store} (hs : s.IsRecorded log) {vs : List Value}
    (hvs : ∀ v ∈ vs, v.RecordedIn log) : (s.keepAll vs).2.IsRecorded log := by
  cases vs with
  | nil => exact hs
  | cons v vs =>
    rw [List.forall_mem_cons] at hvs
    exact isRecorded_keepAll (isRecorded_keep hs hvs.1) hvs.2

end

end Store

end CellKeys
