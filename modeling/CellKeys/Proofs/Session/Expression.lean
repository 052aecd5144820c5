import CellKeys.Proofs.Session.Recorded

namespace CellKeys

open Value

namespace Value

mutual

/-- Whether a value was just written down: it is no object that is kept, and it holds no hasher. -/
def isFresh : Value → Bool
  | float _ m | scalar _ m | array _ _ m => m.isNone
  | tuple items => allFresh items
  | list items m => m.isNone && allFresh items
  | pose x y theta m => m.isNone && x.isFresh && y.isFresh && theta.isFresh
  | foreign _ _ values m => m.isNone && allFresh values
  | slots .. | object _ | endless => false
  | _ => true

def allFresh : List Value → Bool
  | [] => true
  | v :: vs => v.isFresh && allFresh vs

end

mutual

theorem holdsNone_of_isFresh {v : Value} (hv : v.isFresh = true) : v.HoldsNone := by
  cases v with
  | tuple items => exact eachHasher_tuple.mpr (holdsNone_of_allFresh hv)
  | list items m =>
    simp only [isFresh, Bool.and_eq_true] at hv
    exact eachHasher_list.mpr (holdsNone_of_allFresh hv.2)
  | pose x y theta m =>
    simp only [isFresh, Bool.and_eq_true] at hv
    obtain ⟨⟨⟨-, hx⟩, hy⟩, htheta⟩ := hv
    exact eachHasher_pose.mpr
      ⟨holdsNone_of_isFresh hx, holdsNone_of_isFresh hy, holdsNone_of_isFresh htheta⟩
  | foreign name attributes values m =>
    simp only [isFresh, Bool.and_eq_true] at hv
    exact eachHasher_foreign.mpr (holdsNone_of_allFresh hv.2)
  | slots => cases hv
  | _ => trivial

theorem holdsNone_of_allFresh {vs : List Value} (hvs : allFresh vs = true) :
    ∀ v ∈ vs, v.HoldsNone := by
  cases vs with
  | nil => nofun
  | cons v vs =>
    simp only [allFresh, Bool.and_eq_true] at hvs
    exact List.forall_mem_cons.mpr ⟨holdsNone_of_isFresh hvs.1, holdsNone_of_allFresh hvs.2⟩

end

theorem matches_of_isFresh {s : Store} {v : Value} (hv : v.isFresh = true) : v.Matches s where
  array := by
    rintro kind t place rfl
    cases hv
  hasher := by
    intro place hhasher
    rw [(holdsNone_of_isFresh hv).isHasher] at hhasher
    cases hhasher

end Value

namespace Expression

mutual

/-- The values that an expression gives as they are. -/
def literals : Expression → List Value
  | value v => [v]
  | tuple items | list items | pose items => literalsAll items
  | otherPose _ position heading => position.literals ++ heading.literals
  | hasher _ args .none => literalsAll args
  | hasher _ args (some size) => literalsAll args ++ size.literals
  | name _ => []

def literalsAll : List Expression → List Value
  | [] => []
  | e :: es => e.literals ++ literalsAll es

end

open Recorded

variable {past : List BuildRecord} {s : Store} {lookup : String → Option Value}

mutual

/-- The value of an expression with fresh literals holds recorded hashers and is what lies at its
    place, if that is so for the values that names stand for. -/
theorem yields_eval (hnames : ∀ name v, lookup name = some v → v.RecordedIn past ∧ v.Matches s)
    {e : Expression} (he : ∀ v ∈ e.literals, v.isFresh = true) :
    Yields (knownAfter past s) [] (e.eval lookup) ([·]) := by
  cases e with
  | value v =>
    have hv := he v List.mem_cons_self
    rw [eval]
    refine .pure fun log _ => List.forall_mem_singleton.mpr ⟨?_, matches_of_isFresh hv⟩
    exact (holdsNone_of_isFresh hv).each
  | tuple items =>
    rw [literals] at he
    rw [eval]
    refine .bind (yields_evalAll hnames he) fun vs => .pure fun log hvs => ?_
    refine List.forall_mem_singleton.mpr ⟨?_, matches_of_ne nofun nofun⟩
    exact eachHasher_tuple.mpr fun v hv => (hvs v hv).1
  | list items =>
    rw [literals] at he
    rw [eval]
    refine .bind (yields_evalAll hnames he) fun vs => .pure fun log hvs => ?_
    refine List.forall_mem_singleton.mpr ⟨?_, matches_of_ne nofun nofun⟩
    exact eachHasher_list.mpr fun v hv => (hvs v hv).1
  | pose attributes =>
    rw [literals] at he
    rw [eval]
    refine .bind (yields_evalAll hnames he) fun vs => .of fun log _ v hv => ?_
    refine List.forall_mem_singleton.mpr ⟨(gives_ofAttributes vs v hv).1, ?_⟩
    obtain ⟨x, y, theta, rfl⟩ := (gives_ofAttributes (P := fun _ => True) vs v hv).2
    exact matches_of_ne nofun nofun
  | otherPose typeName position heading =>
    rw [literals, List.forall_mem_append] at he
    rw [eval]
    refine .bind (yields_eval hnames he.1) fun p => ?_
    refine .bind ((yields_eval hnames he.2).weaken (List.nil_subset _)) fun q =>
      .pure fun log hvs => ?_
    refine List.forall_mem_singleton.mpr ⟨?_, matches_of_ne nofun nofun⟩
    exact eachHasher_foreign.mpr fun v hv => (hvs v hv).1
  | hasher c args size =>
    have hbuilt : ∀ log h, h.RecordedIn log →
        (knownAfter past s).holds log (.hasher h .none) := by
      intro log h hh
      have hrecorded := List.Subset.trans hh (List.subset_append_right past log)
      exact ⟨eachHasher_hasher hrecorded .none, matches_of_ne nofun nofun⟩
    rw [eval]
    cases size with
    | none =>
      rw [literals] at he
      refine .bind (yields_evalAll hnames he) fun vs => ?_
      exact .bind (.hasher hbuilt _) fun h => .known_parts (List.subset_append_right _ _)
    | some size =>
      rw [literals, List.forall_mem_append] at he
      refine .bind (yields_evalAll hnames he.1) fun vs => ?_
      refine .bind ((yields_eval hnames he.2).weaken (List.nil_subset _)) fun w => ?_
      exact .bind (.hasher hbuilt _) fun h => .known_parts (List.subset_append_right _ _)
  | name name =>
    rw [eval]
    split
    · next v hv =>
      obtain ⟨hrecorded, hmatches⟩ := hnames name v hv
      refine .pure fun log _ => List.forall_mem_singleton.mpr ⟨?_, hmatches⟩
      exact hrecorded.mono (List.subset_append_left _ _)
    · exact .throw _

theorem yields_evalAll (hnames : ∀ name v, lookup name = some v → v.RecordedIn past ∧ v.Matches s)
    {es : List Expression} (hes : ∀ v ∈ literalsAll es, v.isFresh = true) :
    Yields (knownAfter past s) [] (evalAll lookup es) id := by
  cases es with
  | nil =>
    rw [evalAll]
    exact .known_parts (List.nil_subset _)
  | cons e es =>
    rw [literalsAll, List.forall_mem_append] at hes
    rw [evalAll]
    refine .bind (yields_eval hnames hes.1) fun v => ?_
    refine .bind ((yields_evalAll hnames hes.2).weaken (List.nil_subset _)) fun vs =>
      .known_parts ?_
    simp

end

end Expression

end CellKeys
