import CellKeys.Proofs.Session.Store

namespace CellKeys

open Value

namespace Value

variable {P : Hasher → Prop} {f : Nat → Value}

mutual

theorem HoldsNone.substitute (hf : ∀ place, (f place).EachHasher P) {v : Value}
    (hv : v.HoldsNone) : (v.substitute f).EachHasher P := by
  cases v with
  | tuple items =>
    exact eachHasher_tuple.mpr (eachHasher_substituteAll hf (eachHasher_tuple.mp hv))
  | list items m =>
    exact eachHasher_list.mpr (eachHasher_substituteAll hf (eachHasher_list.mp hv))
  | pose x y theta m =>
    obtain ⟨hx, hy, htheta⟩ := eachHasher_pose.mp hv
    exact eachHasher_pose.mpr ⟨HoldsNone.substitute hf hx, HoldsNone.substitute hf hy,
      HoldsNone.substitute hf htheta⟩
  | foreign name attributes values m =>
    exact eachHasher_foreign.mpr (eachHasher_substituteAll hf (eachHasher_foreign.mp hv))
  | slots => cases hv.isHasher
  | object place => exact hf place
  | _ => trivial

theorem eachHasher_substituteAll (hf : ∀ place, (f place).EachHasher P) {vs : List Value}
    (hvs : ∀ v ∈ vs, v.HoldsNone) : ∀ v ∈ substituteAll f vs, v.EachHasher P := by
  cases vs with
  | nil => nofun
  | cons v vs =>
    rw [List.forall_mem_cons] at hvs
    exact List.forall_mem_cons.mpr
      ⟨HoldsNone.substitute hf hvs.1, eachHasher_substituteAll hf hvs.2⟩

end

theorem isHasher_substitute {v : Value} (hv : v.isHasher = false)
    (hobject : ∀ place, v ≠ .object place) :
    (v.substitute f).isHasher = false := by
  cases v with
  | slots => cases hv
  | object place => exact absurd rfl (hobject place)
  | _ => rfl

/-- The numbers in the slots of a hasher are no objects in a store. -/
theorem substitute_configured (h : Hasher) (underlying : Value) (m : Mark) :
    (configured h underlying m).substitute f = configured h (underlying.substitute f) m := by
  have hnumbers : ∀ rs : List Reading, substituteAll f (rs.map ofReading) = rs.map ofReading := by
    intro rs
    induction rs with
    | nil => rfl
    | cons r rs ih =>
      rw [List.map_cons, substituteAll, ih]
      rfl
  simp only [configured, substitute, hnumbers]

end Value

namespace Store

variable {log : List BuildRecord} {s : Store} {place : Nat} {h : Hasher}

theorem fetch_configured {underlying : Value}
    (hobject : s.objects[place]? = some (configured h underlying .none)) (depth : Nat) :
    s.fetch (depth + 1) place =
      configured h (underlying.substitute (s.fetch depth)) (some place) := by
  rw [fetch, hobject]
  simp only [substitute_configured]
  rfl

theorem isHasher_fetch (hh : s.HasherAt place h) (depth : Nat) :
    (s.fetch (depth + 1) place).IsHasher h := by
  cases hh with
  | alone hkind hobject =>
    rw [fetch_configured hobject]
    exact isHasher_kept (fun hpose => absurd hpose hkind) place
  | delegating own hkind hobject hown =>
    rw [fetch_configured hobject]
    refine isHasher_kept (fun _ => ?_) place
    cases depth with
    | zero => exact .inl rfl
    | succ depth => exact .inr ⟨some own, fetch_configured hown depth⟩

theorem recordedIn_fetch (hs : s.IsRecorded log) (depth place : Nat) :
    (s.fetch depth place).RecordedIn log := by
  induction depth generalizing place with
  | zero => trivial
  | succ depth ih =>
    cases ho : s.objects[place]? with
    | none =>
      rw [fetch, ho]
      trivial
    | some o =>
      rcases hs place o ho with ⟨hnone, hobject⟩ | ⟨h, hh, hrecorded⟩
      · rw [fetch, ho]
        exact EachHasher.withMark (hnone.substitute ih)
          (isHasher_substitute hnone.isHasher hobject) _
      · exact (isHasher_fetch hh depth).each hrecorded

theorem current_alone (hobject : s.objects[place]? = some (configured h .none .none)) :
    s.current (.object place) = configured h .none (some place) := fetch_configured hobject _

/-- There are enough places to read the hasher that a pose hasher delegates to. -/
theorem current_delegating {own : Nat}
    (hobject : s.objects[place]? = some (configured h (.object own) .none))
    (hown : s.objects[own]? = some (configured h.delegate .none .none)) :
    s.current (.object place) = configured h (hasher h.delegate (some own)) (some place) := by
  obtain ⟨depth, hdepth⟩ : ∃ depth, s.objects.length = depth + 1 :=
    Nat.exists_eq_add_one.mpr (Nat.zero_lt_of_lt (List.getElem?_eq_some_iff.mp hown).1)
  have hread : s.fetch s.objects.length own = hasher h.delegate (some own) := by
    rw [hdepth, fetch_configured hown]
    rfl
  calc s.current (.object place)
      = configured h (s.fetch s.objects.length own) (some place) := fetch_configured hobject _
    _ = configured h (hasher h.delegate (some own)) (some place) := by rw [hread]

/-- A kept hasher is the same value later on. -/
theorem Keeps.current_object {t : Store} (hst : s.Keeps t) (hh : s.HasherAt place h) :
    t.current (.object place) = s.current (.object place) := by
  cases hh with
  | alone hkind hobject => rw [current_alone hobject, current_alone (hst _ _ rfl hobject)]
  | delegating own hkind hobject hown =>
    rw [current_delegating hobject hown,
      current_delegating (hst _ _ rfl hobject) (hst _ _ rfl hown)]

theorem recordedIn_current (hs : s.IsRecorded log) {v : Value} (hv : v.IsKept) :
    (s.current v).RecordedIn log := hv.holdsNone.substitute (recordedIn_fetch hs _)

end Store

namespace Value

/-- What an evaluated array or hasher that is kept has to do with the object at its place. -/
structure Matches (s : Store) (v : Value) : Prop where
  array : ∀ kind t place, v = .array kind t (some place) → s.NoHasherAt place
  hasher : ∀ place, v.isHasher = true → v.mark = some place → v = s.current (.object place)

theorem matches_of_ne {s : Store} {v : Value}
    (harray : ∀ kind t place, v ≠ .array kind t (some place))
    (hhasher : ∀ place, v.isHasher = true → v.mark ≠ some place) : v.Matches s where
  array := fun kind t place heq => absurd heq (harray kind t place)
  hasher := fun place hv hmark => absurd hmark (hhasher place hv)

end Value

namespace Store

variable {log : List BuildRecord} {s : Store}

theorem matches_current_object (hs : s.IsRecorded log) (place : Nat) :
    (s.current (.object place)).Matches s := by
  change (s.fetch (s.objects.length + 1) place).Matches s
  cases ho : s.objects[place]? with
  | none =>
    rw [fetch, ho]
    exact matches_of_ne nofun nofun
  | some o =>
    rcases hs place o ho with ⟨hnone, hobject⟩ | ⟨h, hh, -⟩
    · have hfree : s.NoHasherAt place := by
        intro other hother
        cases ho.symm.trans hother
        exact hnone.isHasher
      rw [fetch, ho]
      cases o with
      | array kind t m =>
        refine ⟨?_, nofun⟩
        rintro _ _ _ heq
        cases heq
        exact hfree
      | slots => cases hnone.isHasher
      | object other => exact absurd rfl (hobject other)
      | _ => exact matches_of_ne nofun nofun
    · obtain ⟨underlying, hobject⟩ := hh.object
      have heq := fetch_configured hobject s.objects.length
      refine ⟨fun kind t other harray => ?_, fun other _ hmark => ?_⟩
      · rw [heq] at harray
        cases harray
      · rw [heq] at hmark
        cases hmark
        rfl

theorem matches_current (hs : s.IsRecorded log) {v : Value} (hv : v.IsKept) :
    (s.current v).Matches s := by
  cases v with
  | object place => exact matches_current_object hs place
  | array kind t m => exact absurd rfl (hv.array kind t m)
  | slots => cases hv.holdsNone.isHasher
  | _ => exact matches_of_ne nofun nofun

end Store

end CellKeys
