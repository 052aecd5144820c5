import CellKeys.Proofs.Value.Hashers
import CellKeys.Session.Growth
import CellKeys.Session.Step

namespace CellKeys

open Value

/-- Whether a hasher has left all of its records in a log. -/
def Hasher.RecordedIn (log : List BuildRecord) (h : Hasher) : Prop := h.records ⊆ log

namespace Hasher

variable {log more : List BuildRecord} {g h : Hasher}

theorem record_mem_records (h : Hasher) : h.record ∈ h.records := by
  rw [records]
  split <;> exact List.mem_cons_self

theorem RecordedIn.delegate (hkind : h.kind = .pose) (hh : h.RecordedIn log) :
    h.delegate.RecordedIn log := by
  have hrecords : h.records = [h.record, h.delegate.record] := if_pos hkind
  have hdelegate : h.delegate.records = [h.delegate.record] := rfl
  unfold RecordedIn at hh ⊢
  rw [hrecords] at hh
  rw [hdelegate]
  exact List.Subset.trans (List.subset_cons_self _ _) hh

theorem bitsPerAxis_eq (h : Hasher) : h.bitsPerAxis = h.width.bitsPerAxis h.cellSizes.length := by
  rw [bitsPerAxis, dimensions, cellSizes, List.length_map]

theorem bitsPerAxis_congr (hsizes : g.cellSizes = h.cellSizes) (hwidth : g.width = h.width) :
    g.bitsPerAxis = h.bitsPerAxis := by
  rw [bitsPerAxis_eq, bitsPerAxis_eq, hsizes, hwidth]

theorem record_congr (hkind : g.kind = h.kind) (hsizes : g.cellSizes = h.cellSizes)
    (hwidth : g.width = h.width) : g.record = h.record := by
  rw [record, record, hkind, hsizes, hwidth, bitsPerAxis_congr hsizes hwidth]

/-- What is recorded about a hasher does not depend on which objects its numbers are. -/
theorem records_congr (hkind : g.kind = h.kind) (hsizes : g.cellSizes = h.cellSizes)
    (hwidth : g.width = h.width) : g.records = h.records := by
  have hdelegate : g.delegate.record = h.delegate.record := record_congr rfl hsizes hwidth
  rw [records, records, record_congr hkind hsizes hwidth, hdelegate, hkind]

end Hasher

namespace Value

/-- Whether all hashers that a value holds have left their records in a log. -/
def RecordedIn (log : List BuildRecord) (v : Value) : Prop := v.EachHasher (Hasher.RecordedIn log)

theorem RecordedIn.mono {log more : List BuildRecord} {v : Value} (hv : v.RecordedIn log)
    (hlog : log ⊆ more) : v.RecordedIn more :=
  EachHasher.mono (fun _ hh => List.Subset.trans hh hlog) hv

/-- What stands for a kept value: hashers and arrays are held by their places only. -/
structure IsKept (v : Value) : Prop where
  holdsNone : v.HoldsNone
  array : ∀ kind t m, v ≠ .array kind t m

end Value

namespace Store

/-- The object at a place is the hasher with this configuration. A pose hasher delegates to a hasher
    of its own, which lies at another place and has the same resolution and word size. -/
inductive HasherAt (s : Store) (place : Nat) (h : Hasher) : Prop where
  | alone (hkind : h.kind ≠ .pose) (hobject : s.objects[place]? = some (configured h .none .none))
  | delegating (own : Nat) (hkind : h.kind = .pose)
    (hobject : s.objects[place]? = some (configured h (.object own) .none))
    (hown : s.objects[own]? = some (configured h.delegate .none .none))

variable {s t u : Store} {place : Nat} {h : Hasher}

theorem HasherAt.object (hh : s.HasherAt place h) :
    ∃ underlying, s.objects[place]? = some (configured h underlying .none) := by
  cases hh with
  | alone hkind hobject => exact ⟨_, hobject⟩
  | delegating own hkind hobject hown => exact ⟨_, hobject⟩

/-- Every hasher of the first store is at its place in the second, with the same in all of its
    slots. -/
def Keeps (s t : Store) : Prop :=
  ∀ (place : Nat) (o : Value), o.isHasher = true →
    s.objects[place]? = some o → t.objects[place]? = some o

theorem Keeps.refl (s : Store) : s.Keeps s := fun _ _ _ h => h

theorem Keeps.trans (hst : s.Keeps t) (htu : t.Keeps u) : s.Keeps u :=
  fun place o hhasher ho => htu place o hhasher (hst place o hhasher ho)

theorem Keeps.hasherAt (hst : s.Keeps t) (hh : s.HasherAt place h) : t.HasherAt place h := by
  cases hh with
  | alone hkind hobject => exact .alone hkind (hst _ _ rfl hobject)
  | delegating own hkind hobject hown =>
    exact .delegating own hkind (hst _ _ rfl hobject) (hst _ _ rfl hown)

theorem Extends.keeps (hst : s.Extends t) : s.Keeps t := fun _ _ _ ho => hst.getElem? ho

/-- No hasher lies at a place. -/
def NoHasherAt (s : Store) (place : Nat) : Prop :=
  ∀ o, s.objects[place]? = some o → o.isHasher = false

theorem keeps_replace (hplace : s.NoHasherAt place) (v : Value) : s.Keeps (s.replace place v) := by
  intro other o hhasher ho
  have hne : place ≠ other := by
    rintro rfl
    rw [hplace o ho] at hhasher
    cases hhasher
  rw [replace, List.getElem?_set_ne hne, ho]

/-- An object at a place: a recorded hasher, or something that holds hashers by their places only.
    -/
def IsStored (log : List BuildRecord) (s : Store) (place : Nat) (o : Value) : Prop :=
  (o.HoldsNone ∧ ∀ other, o ≠ .object other) ∨ ∃ h, s.HasherAt place h ∧ h.RecordedIn log

/-- Whether all objects are recorded hashers or hold hashers by place. -/
def IsRecorded (log : List BuildRecord) (s : Store) : Prop :=
  ∀ place o, s.objects[place]? = some o → s.IsStored log place o

variable {log more : List BuildRecord} {o : Value}

theorem IsStored.mono (ho : s.IsStored log place o) (hst : s.Keeps t) (hlog : log ⊆ more) :
    t.IsStored more place o :=
  ho.imp_right fun ⟨h, hh, hrecorded⟩ => ⟨h, hst.hasherAt hh, List.Subset.trans hrecorded hlog⟩

theorem IsRecorded.mono (hs : s.IsRecorded log) (hlog : log ⊆ more) : s.IsRecorded more :=
  fun place o ho => (hs place o ho).mono (.refl s) hlog

theorem IsRecorded.of_objects_eq (hs : s.IsRecorded log) (heq : t.objects = s.objects) :
    t.IsRecorded log := by
  have hst : s.Keeps t := Extends.keeps ⟨[], by rw [heq, List.append_nil]⟩
  intro place o ho
  rw [heq] at ho
  exact (hs place o ho).mono hst (List.Subset.refl _)

/-- A hasher in a recorded store has a configuration, whatever lies in its slots. -/
theorem IsRecorded.hasherAt (hs : s.IsRecorded log) (ho : s.objects[place]? = some o)
    (hhasher : o.isHasher = true) : ∃ h, s.HasherAt place h ∧ h.RecordedIn log := by
  rcases hs place o ho with ⟨hnone, -⟩ | hrecorded
  · rw [hnone.isHasher] at hhasher
    cases hhasher
  · exact hrecorded

theorem isRecorded_add (hs : s.IsRecorded log)
    (ho : (s.add o).2.IsStored log s.objects.length o) : (s.add o).2.IsRecorded log := by
  intro place other hother
  rcases Nat.lt_or_ge place s.objects.length with hlt | hge
  · rw [add, List.getElem?_append_left hlt] at hother
    exact (hs place other hother).mono (extends_add s o).keeps (List.Subset.refl _)
  · obtain rfl : place = s.objects.length := by
      have hbound := (List.getElem?_eq_some_iff.mp hother).1
      rw [add, List.length_append, List.length_singleton] at hbound
      omega
    rw [add, List.getElem?_concat_length] at hother
    cases hother
    exact ho

theorem isRecorded_replace (hs : s.IsRecorded log) (hplace : s.NoHasherAt place) (ho : o.HoldsNone)
    (hobject : ∀ other, o ≠ .object other) : (s.replace place o).IsRecorded log := by
  intro other v hv
  have hkeeps := keeps_replace hplace o
  by_cases heq : place = other
  · subst heq
    have hbound : place < s.objects.length := by
      have hlt := (List.getElem?_eq_some_iff.mp hv).1
      rwa [replace, List.length_set] at hlt
    rw [replace, List.getElem?_set_self hbound] at hv
    cases hv
    exact .inl ⟨ho, hobject⟩
  · rw [replace, List.getElem?_set_ne heq] at hv
    exact (hs other v hv).mono hkeeps (List.Subset.refl _)

end Store

end CellKeys
