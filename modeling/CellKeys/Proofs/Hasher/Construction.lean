import CellKeys.Proofs.Hasher.Sequence
import CellKeys.Proofs.Value.WordSize
import CellKeys.Session.Expression

namespace CellKeys

open Value

/-- A value that is read as this number. -/
def Value.ReadsAs (v : Value) (x : Binary64) : Prop := ∃ r, v.toReading = .ok r ∧ r.value = x

theorem Value.ReadsAs.unique {v : Value} {x y : Binary64} (hx : v.ReadsAs x) (hy : v.ReadsAs y) :
    x = y := by
  obtain ⟨r, hr, rfl⟩ := hx
  obtain ⟨r', hr', rfl⟩ := hy
  cases hr.symm.trans hr'
  rfl

namespace HasherClass

/-- Whether hashers of this class take this many resolutions. -/
def Takes (kind : HasherClass) (count : Nat) : Prop :=
  kind = .pose → count = 0 ∨ count = 2 ∨ count = 3

/-- What the axes get of the resolutions that a hasher of this class is given: poses have three
    axes, and all of them get one or the components of the position share a resolution. -/
def onAxes {α : Type} (kind : HasherClass) (one : α) (given : List α) : List α :=
  match kind, given with
  | .pose, [] => [one, one, one]
  | .pose, [linear, angular] => [linear, linear, angular]
  | _, given => given

/-- The classes of the hashers that building one of this class builds, in order. -/
def builds : HasherClass → List HasherClass
  | .pose => [.pose, .tuple]
  | kind => [kind]

section

variable {α β : Type} {kind : HasherClass}

theorem onAxes_of_ne (hkind : kind ≠ .pose) (one : α) (given : List α) :
    kind.onAxes one given = given := by
  cases kind with
  | pose => exact absurd rfl hkind
  | plain | array | tuple => rfl

theorem map_onAxes (f : α → β) (kind : HasherClass) (one : α) (given : List α) :
    (kind.onAxes one given).map f = kind.onAxes (f one) (given.map f) := by
  rcases given with _ | ⟨a, _ | ⟨b, _ | ⟨c, rest⟩⟩⟩ <;> cases kind <;> rfl

/-- The resolutions that poses take. -/
theorem Takes.shapes {given : List α} (h : HasherClass.pose.Takes given.length) :
    given = [] ∨ (∃ linear angular, given = [linear, angular]) ∨
      ∃ x y theta, given = [x, y, theta] := by
  rcases h rfl with hlength | hlength | hlength
  · exact .inl (List.eq_nil_of_length_eq_zero hlength)
  · exact .inr (.inl (List.length_eq_two.mp hlength))
  · exact .inr (.inr (List.length_eq_three.mp hlength))

/-- Poses get a resolution for each of their three axes. -/
theorem length_onAxes_pose {given : List α} (h : HasherClass.pose.Takes given.length) (one : α) :
    (HasherClass.pose.onAxes one given).length = 3 := by
  rcases h.shapes with rfl | ⟨linear, angular, rfl⟩ | ⟨x, y, theta, rfl⟩ <;> rfl

theorem onAxes_ne_nil (one : α) {given : List α} (h : kind.Takes given.length)
    (hsome : kind = .pose ∨ given ≠ []) : kind.onAxes one given ≠ [] := by
  by_cases hkind : kind = .pose
  · subst hkind
    exact List.ne_nil_of_length_pos (by rw [length_onAxes_pose h]; decide)
  · rw [onAxes_of_ne hkind]
    exact hsome.resolve_left hkind

end

end HasherClass

namespace Hasher

/-- How a constructor is called with resolutions for a hasher of this class and with a word size,
    which may be named, come last or be left out. -/
inductive Constructor.Calls : Constructor → List Value → Option Value → HasherClass → List Value →
    Value → Prop where
  | sequence {kind : HasherClass} (hkind : kind ≠ .pose) {resolution : Value} {given : List Value}
    (hgiven : resolution.elements = .ok given) (width : Option Value) :
    Calls (.sequence kind) [resolution] width kind given (width.getD defaultWidth)
  | sequence_last {kind : HasherClass} (hkind : kind ≠ .pose) {resolution : Value}
    {given : List Value} (hgiven : resolution.elements = .ok given) (width : Value) :
    Calls (.sequence kind) [resolution, width] .none kind given width
  | pose (given : List Value) (width : Option Value) :
    Calls .pose given width .pose given (width.getD defaultWidth)
  | poseAxes (x y theta : Value) (width : Option Value) :
    Calls .poseAxes [x, y, theta] width .pose [x, y, theta] (width.getD defaultWidth)
  | poseAxes_last (x y theta width : Value) :
    Calls .poseAxes [x, y, theta, width] .none .pose [x, y, theta] width
  | poseLinearAngular (linear angular : Value) (width : Option Value) :
    Calls .poseLinearAngular [linear, angular] width .pose [linear, angular]
      (width.getD defaultWidth)
  | poseLinearAngular_last (linear angular width : Value) :
    Calls .poseLinearAngular [linear, angular, width] .none .pose [linear, angular] width

/-- What passes all checks. -/
structure Accepted (kind : HasherClass) (given : List Value) (width : Value) : Prop where
  count : kind.Takes given.length
  numbers : ∀ v ∈ given, ∃ x, v.ReadsAs x
  width : ∃ w : Width, w.Equals width
  /-- A pose has axes whatever is given. -/
  axes : kind = .pose ∨ given ≠ []

/-- The first check that fails, with the reason. -/
inductive Refused (kind : HasherClass) (given : List Value) (width : Value) : Fault → Prop where
  | count (hcount : ¬ kind.Takes given.length) :
    Refused kind given width (.resolutionCount given.length)
  | number (hcount : kind.Takes given.length) {before after : List Value} {v : Value} {e : Fault}
    (hsplit : given = before ++ v :: after) (hbefore : ∀ u ∈ before, ∃ x, u.ReadsAs x)
    (he : v.toReading = .error e) : Refused kind given width e
  | width (hcount : kind.Takes given.length) (hnumbers : ∀ v ∈ given, ∃ x, v.ReadsAs x)
    (hwidth : ∀ w : Width, ¬ w.Equals width) : Refused kind given width (.wordWidth width.shown)
  | axes (hcount : kind.Takes given.length) (hnumbers : ∀ v ∈ given, ∃ x, v.ReadsAs x)
    (hwidth : ∃ w : Width, w.Equals width) (hkind : kind ≠ .pose) (hnone : given = []) :
    Refused kind given width (.noAxes "0")

/-- Builds a hasher of a class from the resolutions that it is given. -/
def buildGiven (kind : HasherClass) (given : List Value) (width : Value) : Except Fault Hasher :=
  if kind = .pose then buildPose given width else build kind given width

theorem Constructor.Calls.apply_eq {c : Constructor} {args given : List Value}
    {named : Option Value} {kind : HasherClass} {width : Value}
    (h : c.Calls args named kind given width) :
    c.apply args named = buildGiven kind given width := by
  cases h with
  | sequence hkind hgiven width | sequence_last hkind hgiven width =>
    rw [buildGiven, if_neg hkind]
    change buildFrom kind _ _ = _
    rw [buildFrom, hgiven]
    rfl
  | pose | poseAxes | poseAxes_last | poseLinearAngular | poseLinearAngular_last => rfl

variable {kind : HasherClass} {given : List Value} {width : Value}

theorem poseResolution_eq (h : HasherClass.pose.Takes given.length) :
    poseResolution given = .ok (HasherClass.pose.onAxes (.ofBinary64 .one) given) := by
  rcases h.shapes with rfl | ⟨linear, angular, rfl⟩ | ⟨x, y, theta, rfl⟩ <;> rfl

theorem poseResolution_error (h : ¬ HasherClass.pose.Takes given.length) :
    poseResolution given = .error (.resolutionCount given.length) := by
  unfold poseResolution
  split
  · exact absurd (fun _ => .inl rfl) h
  · exact absurd (fun _ => .inr (.inl rfl)) h
  · exact absurd (fun _ => .inr (.inr rfl)) h
  · rfl

/-- A resolution that two axes share is read once or twice with the same result. -/
theorem mapM_onAxes (h : kind.Takes given.length) :
    (kind.onAxes (.ofBinary64 .one) given).mapM toReading =
      (given.mapM toReading).map (kind.onAxes (Reading.ofValue .one)) := by
  by_cases hkind : kind = .pose
  · subst hkind
    rcases h.shapes with rfl | ⟨linear, angular, rfl⟩ | ⟨x, y, theta, rfl⟩
    · rfl
    · simp only [HasherClass.onAxes, List.mapM_cons, List.mapM_nil]
      cases linear.toReading <;> cases angular.toReading <;> rfl
    · simp only [HasherClass.onAxes, List.mapM_cons, List.mapM_nil]
      cases x.toReading <;> cases y.toReading <;> cases theta.toReading <;> rfl
  · have hid : kind.onAxes (Reading.ofValue .one) = id :=
      funext (HasherClass.onAxes_of_ne hkind _)
    rw [HasherClass.onAxes_of_ne hkind, hid]
    cases given.mapM toReading <;> rfl

theorem buildGiven_eq (h : kind.Takes given.length) (width : Value) :
    buildGiven kind given width =
      (do
        let rs ← given.mapM toReading
        let w ← Width.ofValue width
        ofReadings kind (kind.onAxes (Reading.ofValue .one) rs) w) := by
  have hbuild : buildGiven kind given width =
      build kind (kind.onAxes (.ofBinary64 .one) given) width := by
    by_cases hkind : kind = .pose
    · subst hkind
      rw [buildGiven, if_pos rfl, buildPose, poseResolution_eq h]
      rfl
    · rw [buildGiven, if_neg hkind, HasherClass.onAxes_of_ne hkind]
  rw [hbuild, build, mapM_onAxes h]
  cases given.mapM toReading <;> rfl

theorem exists_readings (h : ∀ v ∈ given, ∃ x, v.ReadsAs x) :
    ∃ rs, given.mapM toReading = .ok rs := by
  cases hread : given.mapM toReading with
  | ok rs => exact ⟨rs, rfl⟩
  | error e =>
    obtain ⟨before, v, after, rfl, -, hv⟩ := exists_of_mapM_error hread
    obtain ⟨x, r, hr, -⟩ := h v (List.mem_append_right _ List.mem_cons_self)
    cases hv.symm.trans hr

/-- All values are read as numbers, or there is a first one that is not. -/
theorem reads_or_fails (given : List Value) :
    (∀ v ∈ given, ∃ x, v.ReadsAs x) ∨ ∃ before v after e, given = before ++ v :: after ∧
      (∀ u ∈ before, ∃ x, u.ReadsAs x) ∧ v.toReading = .error e := by
  have hreads : ∀ v r, toReading v = .ok r → ∃ x, v.ReadsAs x := fun v r hr => ⟨r.value, r, hr, rfl⟩
  cases hread : given.mapM toReading with
  | ok rs => exact .inl (forall_of_forall₂ (forall₂_of_mapM hread).flip fun r v hr => hreads v r hr)
  | error e =>
    obtain ⟨before, v, after, hsplit, hbefore, hv⟩ := exists_of_mapM_error hread
    refine .inr ⟨before, v, after, e, hsplit, fun u hu => ?_, hv⟩
    obtain ⟨r, hr⟩ := hbefore u hu
    exact hreads u r hr

/-- What passes the checks is built. -/
theorem Accepted.built (h : Accepted kind given width) :
    ∃ g xs, buildGiven kind given width = .ok g ∧ g.kind = kind ∧
      List.Forall₂ ReadsAs given xs ∧ g.cellSizes = kind.onAxes .one xs ∧ g.width.Equals width := by
  obtain ⟨w, hw⟩ := h.width
  obtain ⟨rs, hrs⟩ := exists_readings h.numbers
  have hreads := forall₂_of_mapM hrs
  have hlength := hreads.length_eq
  have hcount := h.count
  have hsome : kind = .pose ∨ rs ≠ [] := h.axes.imp_right (ne_nil_of_length_eq hlength.symm)
  rw [hlength] at hcount
  have hne := HasherClass.onAxes_ne_nil (Reading.ofValue .one) hcount hsome
  have hpose : kind = .pose → (kind.onAxes (Reading.ofValue .one) rs).length = 3 := by
    rintro rfl
    exact HasherClass.length_onAxes_pose hcount _
  refine ⟨⟨kind, _, w, hne, hpose⟩, rs.map Reading.value, ?_, rfl, ?_, ?_, hw⟩
  · rw [buildGiven_eq h.count, hrs, Width.ofValue_eq_ok_iff.mpr hw]
    simp only [bind, Except.bind, ofReadings, dif_pos hne, dif_pos hpose]
  · rw [List.forall₂_map_right_iff]
    exact hreads.imp fun v r hr => ⟨r, hr, rfl⟩
  · simp only [cellSizes, HasherClass.map_onAxes, Reading.ofValue]

/-- The first check that fails is the reason why nothing is built. -/
theorem Refused.buildGiven_eq {e : Fault} (h : Refused kind given width e) :
    buildGiven kind given width = .error e := by
  cases h with
  | count hcount =>
    have hkind : kind = .pose := by_contra fun hkind => hcount fun h => absurd h hkind
    subst hkind
    rw [buildGiven, if_pos rfl, buildPose, poseResolution_error hcount]
    rfl
  | @number hcount before after v e hsplit hbefore he =>
    obtain ⟨rs, hrs⟩ := exists_readings hbefore
    rw [Hasher.buildGiven_eq hcount, hsplit, List.mapM_append, hrs, List.mapM_cons, he]
    rfl
  | width hcount hnumbers hwidth =>
    obtain ⟨rs, hrs⟩ := exists_readings hnumbers
    rw [Hasher.buildGiven_eq hcount, hrs, Width.ofValue_eq_error hwidth]
    rfl
  | axes hcount hnumbers hwidth hkind hnone =>
    obtain ⟨w, hw⟩ := hwidth
    subst hnone
    rw [Hasher.buildGiven_eq hcount, Width.ofValue_eq_ok_iff.mpr hw]
    simp only [HasherClass.onAxes_of_ne hkind, List.mapM_nil]
    rfl

/-- Something passes all checks, or one of them is the first that fails. -/
theorem accepted_or_refused (kind : HasherClass) (given : List Value) (width : Value) :
    Accepted kind given width ∨ ∃ e, Refused kind given width e := by
  -- The checks one after the other, in the order in which they are made.
  by_cases hcount : kind.Takes given.length
  swap
  · exact .inr ⟨_, .count hcount⟩
  rcases reads_or_fails given with hnumbers | ⟨before, v, after, e, hsplit, hbefore, he⟩
  swap
  · exact .inr ⟨e, .number hcount hsplit hbefore he⟩
  by_cases hwidth : ∃ w : Width, w.Equals width
  swap
  · exact .inr ⟨_, .width hcount hnumbers (not_exists.mp hwidth)⟩
  by_cases hsome : kind = .pose ∨ given ≠ []
  · exact .inl ⟨hcount, hnumbers, hwidth, hsome⟩
  · obtain ⟨hkind, hnone⟩ := not_or.mp hsome
    exact .inr ⟨_, .axes hcount hnumbers hwidth hkind (not_not.mp hnone)⟩

/-- Building fails for the reason of the first check that fails, and only for that. -/
theorem buildGiven_eq_error_iff {e : Fault} :
    buildGiven kind given width = .error e ↔ Refused kind given width e := by
  constructor
  · intro h
    rcases accepted_or_refused kind given width with haccepted | ⟨e', hrefused⟩
    · obtain ⟨g, xs, hg, -⟩ := haccepted.built
      cases hg.symm.trans h
    · cases hrefused.buildGiven_eq.symm.trans h
      exact hrefused
  · exact Refused.buildGiven_eq

/-- Building succeeds for what passes all checks, and only for that. -/
theorem exists_buildGiven_iff :
    (∃ g, buildGiven kind given width = .ok g) ↔ Accepted kind given width := by
  constructor
  · rintro ⟨g, hg⟩
    rcases accepted_or_refused kind given width with haccepted | ⟨e, hrefused⟩
    · exact haccepted
    · cases hrefused.buildGiven_eq.symm.trans hg
  · intro h
    obtain ⟨g, xs, hg, -⟩ := h.built
    exact ⟨g, hg⟩

/-- What was built of what was given, and the records that it left. -/
structure IsBuilt (kind : HasherClass) (given : List Value) (width : Value) (h : Hasher)
    (records : List BuildRecord) : Prop where
  kind_eq : h.kind = kind
  resolution : ∃ xs, List.Forall₂ ReadsAs given xs ∧ h.cellSizes = kind.onAxes .one xs
  width_eq : h.width.Equals width
  /-- One record, or two alike for poses. -/
  records_eq : records = kind.builds.map fun k =>
    ⟨k, h.cellSizes, h.width, h.width.bits / h.cellSizes.length⟩
  axes_of_pose : kind = .pose → h.cellSizes.length = 3
  /-- The second record of a pose hasher is that of the tuple hasher built from it, which cannot
      fail. -/
  inner : kind = .pose → ∃ inner,
    buildFrom .tuple (.tuple h.divisors) (.width h.width) = .ok inner ∧
      records = h.record :: inner.records

theorem records_eq_map_builds (h : Hasher) : h.records = h.kind.builds.map fun k =>
    ⟨k, h.cellSizes, h.width, h.width.bits / h.cellSizes.length⟩ := by
  have hbits : h.bitsPerAxis = h.width.bits / h.cellSizes.length := by
    rw [length_cellSizes]
    rfl
  rw [← hbits]
  cases hkind : h.kind with
  | pose =>
    rw [records, if_pos hkind, record, hkind]
    rfl
  | plain | array | tuple =>
    rw [records, if_neg (by rw [hkind]; decide), record, hkind]
    rfl

theorem isBuilt_of_buildGiven {h : Hasher} (hbuilt : buildGiven kind given width = .ok h) :
    IsBuilt kind given width h h.records := by
  obtain ⟨g, xs, hg, hkind, hxs, hsizes, hwidth⟩ := (exists_buildGiven_iff.mp ⟨h, hbuilt⟩).built
  cases hg.symm.trans hbuilt
  refine ⟨hkind, ⟨xs, hxs, hsizes⟩, hwidth, ?_, ?_, ?_⟩
  · rw [← hkind]
    exact h.records_eq_map_builds
  · intro hpose
    rw [length_cellSizes]
    exact h.length_of_pose (hkind.trans hpose)
  · intro hpose
    refine ⟨h.delegate, h.buildFrom_tuple, ?_⟩
    rw [records, if_pos (hkind.trans hpose)]
    rfl

/-- A constructor that is called with resolutions and a word size builds a hasher if and only if all
    checks are passed; otherwise the first check that fails, in their fixed order, is the reason. A
    failure leaves no record. A success leaves one, or two for poses, the second of them that of the
    tuple hasher inside. -/
theorem construction_all_or_nothing {c : Constructor} {args given : List Value}
    {named : Option Value} {kind : HasherClass} {width : Value}
    (hcall : c.Calls args named kind given width) (log : List BuildRecord) :
    ((∃ h after, (Recorded.hasher (c.apply args named)).run log = (.ok h, after)) ↔
      Accepted kind given width) ∧
    (∀ e after, (Recorded.hasher (c.apply args named)).run log = (.error e, after) ↔
      Refused kind given width e ∧ after = log) ∧
    ∀ h after, (Recorded.hasher (c.apply args named)).run log = (.ok h, after) →
      ∃ records, after = log ++ records ∧ IsBuilt kind given width h records := by
  rw [hcall.apply_eq]
  rcases hbuilt : buildGiven kind given width with e | h
  · have hrun : (Recorded.hasher (.error e)).run log = (.error e, log) := rfl
    rw [hrun]
    refine ⟨?_, ?_, nofun⟩
    · rw [← exists_buildGiven_iff, hbuilt]
      exact ⟨nofun, nofun⟩
    · intro e' after
      rw [← buildGiven_eq_error_iff, hbuilt, Prod.mk.injEq, Except.error.injEq,
        eq_comm (a := log)]
  · have hrun : (Recorded.hasher (.ok h)).run log = (.ok h, log ++ h.records) := rfl
    rw [hrun]
    refine ⟨⟨fun _ => exists_buildGiven_iff.mp ⟨h, hbuilt⟩, fun _ => ⟨h, _, rfl⟩⟩, ?_, ?_⟩
    · intro e after
      rw [← buildGiven_eq_error_iff, hbuilt]
      exact ⟨nofun, nofun⟩
    · intro g after hg
      cases hg
      exact ⟨h.records, rfl, isBuilt_of_buildGiven hbuilt⟩

/-- Two resolutions for poses, and three faults of which the first in the order of the checks
    counts. -/
theorem construction_all_or_nothing_runs :
    (∃ h sizes, (Recorded.hasher (Constructor.pose.apply [.float .one .none, .float .nan .none]
        (some (.width .w32)))).run [] =
      (.ok h, [⟨.pose, sizes, h.width, 10⟩, ⟨.tuple, sizes, h.width, 10⟩])) ∧
    (Recorded.hasher ((Constructor.sequence .array).apply
        [.list [.float .one .none, .none, .text "x"] .none, .int 7] .none)).run [] =
      (.error .notNumeric, []) := by
  constructor
  · obtain ⟨hiff, -, hleft⟩ := construction_all_or_nothing
      (.pose [.float .one .none, .float .nan .none] (some (.width .w32))) []
    have hreads : ∀ v ∈ [Value.float .one .none, .float .nan .none], ∃ x, v.ReadsAs x :=
      List.forall_mem_cons.mpr ⟨⟨_, _, rfl, rfl⟩, List.forall_mem_singleton.mpr ⟨_, _, rfl, rfl⟩⟩
    obtain ⟨h, after, hrun⟩ := hiff.mpr
      ⟨fun _ => .inr (.inl rfl), hreads, ⟨.w32, _, rfl, rfl⟩, .inl rfl⟩
    obtain ⟨records, rfl, hbuilt⟩ := hleft h after hrun
    have hwidth : h.width = .w32 := hbuilt.width_eq.unique ⟨_, rfl, rfl⟩
    refine ⟨h, h.cellSizes, ?_⟩
    rw [hrun, hbuilt.records_eq, hbuilt.axes_of_pose rfl, hwidth]
    rfl
  · have hkind : HasherClass.array ≠ .pose := by decide
    have hcall : (Constructor.sequence .array).Calls
        [.list [.float .one .none, .none, .text "x"] .none, .int 7] .none .array
        [.float .one .none, .none, .text "x"] (.int 7) := .sequence_last hkind rfl _
    have hsplit : [Value.float .one .none, .none, .text "x"] =
        [.float .one .none] ++ .none :: [.text "x"] := rfl
    have hbefore : ∀ u ∈ [Value.float .one .none], ∃ x, u.ReadsAs x :=
      List.forall_mem_singleton.mpr ⟨_, _, rfl, rfl⟩
    obtain ⟨-, hiff, -⟩ := construction_all_or_nothing hcall []
    exact (hiff _ _).mpr ⟨.number (fun h => absurd h hkind) hsplit hbefore rfl, rfl⟩

end Hasher

end CellKeys
