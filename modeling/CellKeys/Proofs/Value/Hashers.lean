import CellKeys.Pose
import CellKeys.Proofs.Fault
import CellKeys.Value.Attribute
import CellKeys.Value.Operand

namespace CellKeys

namespace Value

/-- A hasher with this configuration. One that is not kept is as it was built. A kept one that
    delegates does so to a tuple hasher of its own, which is cut off deep inside a value that leads
    back to itself. -/
structure IsHasher (h : Hasher) (v : Value) : Prop where
  slots : ∃ underlying, v = configured h underlying v.mark ∧
    (h.kind = .pose → underlying = .endless ∨ ∃ m, underlying = hasher h.delegate m)
  built : v.mark = .none → v = hasher h .none

theorem hasher_delegate (h : Hasher) (m : Mark) :
    hasher h.delegate m = configured h.delegate .none m := rfl

theorem hasher_of_pose {h : Hasher} (hkind : h.kind = .pose) (m : Mark) :
    hasher h m = configured h (hasher h.delegate .none) m := by
  rw [hasher, if_pos hkind, hasher_delegate]

theorem isHasher_hasher (h : Hasher) (m : Mark) : (hasher h m).IsHasher h where
  slots := by
    refine ⟨_, rfl, fun hkind => .inr ⟨.none, ?_⟩⟩
    rw [if_pos hkind, hasher_delegate]
  built := by
    rintro rfl
    rfl

theorem isHasher_kept {h : Hasher} {underlying : Value}
    (hunderlying : h.kind = .pose → underlying = .endless ∨ ∃ m, underlying = hasher h.delegate m)
    (place : Nat) : (configured h underlying (some place)).IsHasher h where
  slots := ⟨underlying, rfl, hunderlying⟩
  built := nofun

mutual

/-- Every hasher that a value holds, itself included, has a configuration with this property. -/
def EachHasher (P : Hasher → Prop) : Value → Prop
  | tuple items | list items _ | foreign _ _ items _ => AllEachHasher P items
  | pose x y theta _ => x.EachHasher P ∧ y.EachHasher P ∧ theta.EachHasher P
  | slots kind resolution size bits underlying m =>
    ∃ h, (slots kind resolution size bits underlying m).IsHasher h ∧ P h
  | _ => True

def AllEachHasher (P : Hasher → Prop) : List Value → Prop
  | [] => True
  | v :: vs => v.EachHasher P ∧ AllEachHasher P vs

end

variable {P : Hasher → Prop}

theorem allEachHasher_iff {vs : List Value} : AllEachHasher P vs ↔ ∀ v ∈ vs, v.EachHasher P := by
  induction vs with
  | nil => exact ⟨fun _ => nofun, fun _ => trivial⟩
  | cons v vs ih => rw [AllEachHasher, ih, List.forall_mem_cons]

theorem eachHasher_tuple {items : List Value} :
    (tuple items).EachHasher P ↔ ∀ v ∈ items, v.EachHasher P := by
  rw [EachHasher, allEachHasher_iff]

theorem eachHasher_list {items : List Value} {m : Mark} :
    (list items m).EachHasher P ↔ ∀ v ∈ items, v.EachHasher P := by
  rw [EachHasher, allEachHasher_iff]

theorem eachHasher_foreign {name : String} {attributes : List (String × Bool)}
    {values : List Value} {m : Mark} :
    (foreign name attributes values m).EachHasher P ↔ ∀ v ∈ values, v.EachHasher P := by
  rw [EachHasher, allEachHasher_iff]

theorem eachHasher_pose {x y theta : Value} {m : Mark} :
    (pose x y theta m).EachHasher P ↔
      x.EachHasher P ∧ y.EachHasher P ∧ theta.EachHasher P := by
  rw [EachHasher]

theorem IsHasher.each {h : Hasher} {v : Value} (hv : v.IsHasher h) (hh : P h) : v.EachHasher P := by
  obtain ⟨underlying, heq, -⟩ := hv.slots
  rw [configured] at heq
  generalize v.mark = m at heq
  subst heq
  exact ⟨h, hv, hh⟩

theorem EachHasher.isHasher {v : Value} (hv : v.EachHasher P) (hhasher : v.isHasher = true) :
    ∃ h, v.IsHasher h ∧ P h := by
  cases v with
  | slots => exact hv
  | _ => cases hhasher

theorem eachHasher_hasher {h : Hasher} (hh : P h) (m : Mark) : (hasher h m).EachHasher P :=
  (isHasher_hasher h m).each hh

mutual

theorem EachHasher.mono {Q : Hasher → Prop} (hPQ : ∀ h, P h → Q h) {v : Value}
    (hv : v.EachHasher P) : v.EachHasher Q := by
  cases v with
  | tuple items => exact allEachHasher_mono hPQ hv
  | list items m => exact allEachHasher_mono hPQ hv
  | foreign name attributes values m => exact allEachHasher_mono hPQ hv
  | pose x y theta m =>
    obtain ⟨hx, hy, htheta⟩ := eachHasher_pose.mp hv
    exact eachHasher_pose.mpr ⟨hx.mono hPQ, hy.mono hPQ, htheta.mono hPQ⟩
  | slots kind resolution size bits underlying m =>
    obtain ⟨h, hh, hP⟩ := hv
    exact ⟨h, hh, hPQ h hP⟩
  | _ => trivial

theorem allEachHasher_mono {Q : Hasher → Prop} (hPQ : ∀ h, P h → Q h) {vs : List Value}
    (hvs : AllEachHasher P vs) : AllEachHasher Q vs := by
  cases vs with
  | nil => trivial
  | cons v vs => exact ⟨hvs.1.mono hPQ, allEachHasher_mono hPQ hvs.2⟩

end

/-- A value that holds no hasher. -/
def HoldsNone (v : Value) : Prop := v.EachHasher fun _ => False

theorem HoldsNone.each {v : Value} (hv : v.HoldsNone) : v.EachHasher P :=
  EachHasher.mono (fun _ hh => hh.elim) hv

theorem HoldsNone.isHasher {v : Value} (hv : v.HoldsNone) : v.isHasher = false := by
  cases hhasher : v.isHasher with
  | false => rfl
  | true =>
    obtain ⟨h, -, hfalse⟩ := EachHasher.isHasher hv hhasher
    exact hfalse.elim

theorem EachHasher.withMark {v : Value} (hv : v.EachHasher P) (hhasher : v.isHasher = false)
    (m : Mark) : (v.withMark m).EachHasher P := by
  cases v with
  | slots => cases hhasher
  | _ => exact hv

theorem eachHasher_ofNumber (n : Number) : (ofNumber n).EachHasher P := by
  cases n <;> trivial

theorem eachHasher_ofEntries (kind : ElementKind) (t : Tensor Element) :
    (ofEntries kind t).EachHasher P := by
  unfold ofEntries
  split <;> trivial

theorem gives_elements {v : Value} (hv : v.EachHasher P) :
    Gives v.elements fun items => ∀ item ∈ items, item.EachHasher P := by
  unfold elements
  split
  · refine Gives.pure fun item hitem => ?_
    obtain ⟨c, -, rfl⟩ := List.mem_map.mp hitem
    trivial
  · exact Gives.pure (eachHasher_tuple.mp hv)
  · exact Gives.pure (eachHasher_list.mp hv)
  · exact Gives.pure nofun
  · split
    · exact Gives.error _ _
    · refine Gives.pure fun item hitem => ?_
      unfold slices at hitem
      split at hitem
      all_goals
        obtain ⟨e, -, rfl⟩ := List.mem_map.mp hitem
        trivial
  · exact Gives.error _ _

theorem eachHasher_attribute? {name : String} {attributes : List (String × Bool)}
    {values : List Value} (hvalues : ∀ v ∈ values, v.EachHasher P) {callable : Bool} {v : Value}
    (h : attribute? name attributes values = some (callable, v)) : v.EachHasher P := by
  fun_induction attribute? name attributes values with
  | case1 names first values =>
    cases h
    exact hvalues _ List.mem_cons_self
  | case2 n c names first values hne ih =>
    exact ih (fun other hother => hvalues other (List.mem_cons_of_mem _ hother)) h
  | case3 => cases h

theorem gives_call {name : String} {attributes : List (String × Bool)} {values : List Value}
    (hvalues : ∀ v ∈ values, v.EachHasher P) :
    Gives (call name attributes values) (EachHasher P) := by
  unfold call
  split
  · next v hv => exact Gives.pure (eachHasher_attribute? hvalues hv)
  · exact Gives.error _ _
  · exact Gives.error _ _

theorem gives_translation {v : Value} (hv : v.EachHasher P) :
    Gives v.translation (EachHasher P) := by
  unfold translation
  split
  · obtain ⟨hx, hy, -⟩ := eachHasher_pose.mp hv
    exact Gives.pure (eachHasher_tuple.mpr (by simp [hx, hy]))
  · exact gives_call (eachHasher_foreign.mp hv)
  · exact Gives.error _ _

theorem gives_angle {v : Value} (hv : v.EachHasher P) : Gives v.angle (EachHasher P) := by
  unfold angle
  split
  · exact Gives.last fun theta => Gives.pure trivial
  · exact gives_call (eachHasher_foreign.mp hv)
  · exact Gives.error _ _

theorem gives_poseAxes {v : Value} (hv : v.EachHasher P) :
    Gives v.poseAxes fun items => ∀ item ∈ items, item.EachHasher P := by
  unfold poseAxes
  refine Gives.bind (gives_translation hv) fun position hposition => ?_
  refine Gives.bind (gives_elements hposition) fun items hitems => ?_
  split
  · refine Gives.bind (gives_angle hv) fun heading hheading => Gives.pure ?_
    simpa [hheading] using hitems
  · exact Gives.error _ _

theorem eachHasher_map {α : Type} {f : α → Value} (hf : ∀ a, (f a).EachHasher P) (as : List α) :
    (tuple (as.map f)).EachHasher P := by
  rw [eachHasher_tuple, List.forall_mem_map]
  exact fun a _ => hf a

theorem gives_readSlot {kind : HasherClass} {resolution size bits underlying : Value}
    (hresolution : resolution.EachHasher P) (hsize : size.EachHasher P) (hbits : bits.EachHasher P)
    (hunderlying : kind = .pose → underlying.EachHasher P) (name : String) :
    Gives (readSlot kind resolution size bits underlying name) (EachHasher P) := by
  unfold readSlot
  split
  · exact Gives.pure hresolution
  · exact Gives.pure hresolution
  · exact Gives.pure hsize
  · exact Gives.pure hsize
  · exact Gives.last fun n => Gives.pure trivial
  · exact Gives.pure hbits
  · exact Gives.pure hbits
  · split
    · next hpose => exact Gives.pure (hunderlying hpose)
    · exact Gives.error _ _
  · exact Gives.ite (Gives.pure trivial) (Gives.error _ _)

/-- What lies in the slots of a hasher holds no other hashers than the one it delegates to. -/
theorem IsHasher.gives_readAttribute (hP : ∀ h, h.kind = .pose → P h → P h.delegate) {h : Hasher}
    {v : Value} (hv : v.IsHasher h) (hh : P h) (name : String) :
    Gives (v.readAttribute name) (EachHasher P) := by
  obtain ⟨underlying, heq, hunderlying⟩ := hv.slots
  have hnumber : ∀ r, (ofReading r).EachHasher P := fun r => trivial
  have hsize : (width h.width).EachHasher P := trivial
  have hbits : (int h.bitsPerAxis).EachHasher P := trivial
  rw [heq]
  refine gives_readSlot (eachHasher_map hnumber _) hsize hbits (fun hpose => ?_) name
  rcases hunderlying hpose with rfl | ⟨m, rfl⟩
  · trivial
  · exact eachHasher_hasher (hP h hpose hh) m

theorem gives_ofAttributes (given : List Value) :
    Gives (ofAttributes given) fun v =>
      v.EachHasher P ∧ ∃ x y theta, v = .pose x y theta .none := by
  unfold ofAttributes
  split
  · exact Gives.error _ _
  · refine Gives.last fun rs => Gives.pure ⟨?_, _, _, _, rfl⟩
    have hpart : ∀ o : Option Reading,
        ((o.map ofReading).getD (ofBinary64 (.zero false))).EachHasher P := by
      intro o
      cases o <;> trivial
    exact eachHasher_pose.mpr ⟨hpart _, hpart _, hpart _⟩

/-- A part of a value holds the hashers of the value, or is the one that a pose hasher delegates to.
    -/
theorem gives_readAttribute (hP : ∀ h, h.kind = .pose → P h → P h.delegate) {v : Value}
    (hv : v.EachHasher P) (name : String) : Gives (v.readAttribute name) (EachHasher P) := by
  cases v with
  | slots kind resolution size bits underlying m =>
    obtain ⟨h, hh, hPh⟩ := hv
    exact hh.gives_readAttribute hP hPh name
  | pose x y theta m =>
    obtain ⟨hx, hy, htheta⟩ := eachHasher_pose.mp hv
    simp only [readAttribute]
    split
    · exact Gives.pure hx
    · exact Gives.pure hy
    · exact Gives.pure htheta
    · exact Gives.pure trivial
    · exact Gives.pure trivial
    · exact Gives.error _ _
  | width w =>
    simp only [readAttribute, Width.readAttribute]
    split
    any_goals exact Gives.pure trivial
    exact Gives.error _ _
  | foreign typeName attributes values m =>
    simp only [readAttribute]
    split
    · exact Gives.pure trivial
    · next v hattribute =>
      exact Gives.pure (eachHasher_attribute? (eachHasher_foreign.mp hv) hattribute)
    · exact Gives.error _ _
  | array kind t m =>
    simp only [readAttribute]
    split
    · have hextent : ∀ n : Nat, (int n).EachHasher P := fun n => trivial
      exact Gives.pure (eachHasher_map hextent _)
    · exact Gives.pure trivial
    · exact Gives.pure trivial
    · exact Gives.error _ _
  | _ => exact Gives.error _ _

end Value

end CellKeys
