import CellKeys.Proofs.Binary64.Quotient
import CellKeys.Proofs.Hasher.Construction
import CellKeys.Proofs.Hasher.Pose

namespace CellKeys

/-- Cells of size one are numbered by the floors of the coordinates. -/
theorem cellsOf_ones (xs : List Binary64) :
    cellsOf xs (List.replicate xs.length .one) = xs.map Binary64.cell? := by
  induction xs with
  | nil => rfl
  | cons x xs ih =>
    rw [cellsOf] at ih
    rw [cellsOf, List.length_cons, List.replicate_succ, List.zipWith_cons_cons, ih, cellOf_eq,
      Binary64.div_one, List.map_cons]

/-- A state for hashers of this class, with these coordinates: those of its items, or the position
    and the wrapped heading of a pose whose heading is not infinite. -/
inductive Value.Suits : Value → HasherClass → List Binary64 → Prop where
  | tuple {items : List Value} {xs : List Binary64} (h : List.Forall₂ Widens items xs) :
    Suits (.tuple items) .tuple xs
  | list {items : List Value} {xs : List Binary64} (m : Mark) (h : List.Forall₂ Widens items xs) :
    Suits (.list items m) .array xs
  | array (kind : ElementKind) {es : List Element} {xs : List Binary64} (m : Mark)
    (h : List.Forall₂ Widens (es.map fun e => .scalar ⟨kind, e⟩ .none) xs) :
    Suits (.array kind (.ofList es) m) .array xs
  | pose {v : Value} {x y theta : Binary64} (h : v.IsPose [x, y, theta])
    (hfinite : ∀ s, theta ≠ .infinity s) : Suits v .pose [x, y, Heading.wrapEntry theta]

/-- Except for poses, such a state is a sequence. -/
theorem Value.Suits.sequence {v : Value} {kind : HasherClass} {xs : List Binary64}
    (h : v.Suits kind xs) (hkind : kind ≠ .pose) :
    (kind = .array ∨ kind = .tuple) ∧ v.WidensTo xs := by
  cases h with
  | tuple h => exact ⟨.inr rfl, .tuple h⟩
  | list m h => exact ⟨.inl rfl, .list m h⟩
  | array kind m h => exact ⟨.inl rfl, .array kind m h⟩
  | pose => exact absurd rfl hkind

theorem Value.Suits.length_pose {v : Value} {xs : List Binary64} (h : v.Suits .pose xs) :
    xs.length = 3 := by
  cases h with
  | pose => rfl

namespace HasherClass

/-- What a hasher of this class is given for this number of axes unless a resolution is asked for.
    -/
def unitResolution (kind : HasherClass) (axes : Nat) : List Value :=
  if kind = .pose then [] else List.replicate axes (.ofBinary64 .one)

/-- Why a hasher of this class refuses a state with another number of coordinates. -/
def lengthFault (kind : HasherClass) (axes given : Nat) : Fault :=
  if kind = .tuple then .tupleLength axes given else .valueCount axes given

end HasherClass

namespace Hasher

open Value

/-- A state with these coordinates has this key, which is that of its axes in cells of the hasher's
    sizes. -/
structure Accepts (h : Hasher) (state : Value) (xs : List Binary64) (key : Nat) : Prop where
  key_eq : h.key state = .ok key
  axes_eq : ∃ a, h.axes state = .ok a ∧ a.IsVector xs ∧
    keyOfState h.width a (.tuple (h.cellSizes.map .ofBinary64)) = .ok key

section

variable {h : Hasher} {state : Value} {xs : List Binary64}

theorem axes_of_suits (hs : state.Suits h.kind xs) (hlength : xs.length = h.dimensions) :
    ∃ a, h.axes state = .ok a ∧ a.IsVector xs := by
  by_cases hkind : h.kind = .pose
  · rw [hkind] at hs
    cases hs with
    | @pose v x y theta hv hfinite =>
      obtain ⟨a, ha, hvector, -⟩ := axes_pose hkind hv fun h => by
        obtain ⟨s, hs⟩ := infiniteHeading_iff.mp h
        exact hfinite s hs
      exact ⟨a, ha, hvector⟩
  · obtain ⟨hclass, hwidens⟩ := hs.sequence hkind
    have hplain : h.kind ≠ .plain := by
      rcases hclass with hclass | hclass <;> rw [hclass] <;> nofun
    obtain ⟨rs, hrs, rfl⟩ := readings_eq hplain hwidens hlength
    have hreadings := forall₂_ofReading rs
    rcases hclass with hclass | hclass
    · refine ⟨.list (rs.map ofReading) .none, ?_, .list .none hreadings⟩
      rw [axes_of_kind (.inl hclass), hrs, hclass]
      rfl
    · refine ⟨.tuple (rs.map ofReading), ?_, .tuple hreadings⟩
      rw [axes_of_kind (.inr hclass), hrs, hclass]
      rfl

theorem key_of_suits (hs : state.Suits h.kind xs) (hlength : xs.length = h.dimensions) :
    h.key state = .ok (h.width.cellKey (cellsOf xs h.cellSizes)).toNat := by
  by_cases hkind : h.kind = .pose
  · rw [hkind] at hs
    cases hs with
    | pose hv hfinite => exact key_pose hkind hv (Heading.wrap_eq_wrapEntry hfinite)
  · obtain ⟨hclass, hwidens⟩ := hs.sequence hkind
    exact key_sequence hclass hwidens hlength

theorem accepts_of_suits (hs : state.Suits h.kind xs) (hlength : xs.length = h.dimensions) :
    h.Accepts state xs (h.width.cellKey (cellsOf xs h.cellSizes)).toNat where
  key_eq := key_of_suits hs hlength
  axes_eq := by
    obtain ⟨a, ha, haxes⟩ := axes_of_suits hs hlength
    rw [← length_cellSizes] at hlength
    have hsizes := IsVector.tuple (forall₂_ofBinary64 h.cellSizes)
    exact ⟨a, ha, haxes, keyOfState_eq h.width haxes hsizes hlength h.cellSizes_ne_nil⟩

/-- Poses have as many coordinates as pose hashers have axes. -/
theorem dimensions_of_suits (hs : state.Suits h.kind xs) (hkind : h.kind = .pose) :
    xs.length = h.dimensions := by
  rw [hkind] at hs
  exact hs.length_pose.trans (h.length_of_pose hkind).symm

/-- A sequence with another number of coordinates than the hasher has axes is refused. -/
theorem key_of_length_ne (hs : state.Suits h.kind xs) (hkind : h.kind ≠ .pose)
    (hlength : xs.length ≠ h.dimensions) :
    h.key state = .error (h.kind.lengthFault h.dimensions xs.length) := by
  obtain ⟨hclass, hwidens⟩ := hs.sequence hkind
  obtain ⟨items, hitems, hitem⟩ := hwidens.elements
  obtain ⟨rs, hrs, rfl⟩ := mapM_toReading hitem
  have hreadings : h.readings state =
      .error (h.kind.lengthFault h.dimensions (rs.map Reading.value).length) := by
    rw [List.length_map] at hlength ⊢
    rcases hclass with hclass | hclass
    · simp only [readings, HasherClass.readings, hclass, hitems, hrs, bind, Except.bind, ne_eq,
        hlength, not_false_eq_true, if_true]
      rfl
    · have hgiven := hwidens.length
      rw [List.length_map] at hgiven
      simp only [readings, HasherClass.readings, hclass, hgiven, bind, Except.bind, ne_eq, hlength,
        not_false_eq_true, if_true]
      rfl
  rcases hclass with hclass | hclass <;>
    simp only [key, hclass, sequenceKey, hreadings, bind, Except.bind]

end

section

variable {sample : Value} {kind : HasherClass} {xs : List Binary64}

/-- A resolution that is asked for is what a hasher of the example's class is given. -/
theorem forExample_given (hs : sample.Suits kind xs) {resolution : Value} {divs : List Binary64}
    (hr : resolution.WidensTo divs) (width : Value) :
    ∃ given, List.Forall₂ Widens given divs ∧
      forExample sample resolution width = buildGiven kind given width := by
  obtain ⟨given, hgiven, hwiden⟩ := hr.elements
  have hbuild : forExample sample resolution width =
      resolution.elements >>= fun given => buildGiven kind given width := by
    cases hs with
    | tuple | list | array => cases hr <;> rfl
    | pose h =>
      cases h with
      | pose => cases hr <;> rfl
  rw [hgiven] at hbuild
  exact ⟨given, hwiden, hbuild⟩

/-- Otherwise the axes of the example have cells of size one. -/
theorem forExample_none (hs : sample.Suits kind xs) (width : Value) :
    forExample sample .none width = buildGiven kind (kind.unitResolution xs.length) width := by
  by_cases hkind : kind = .pose
  · subst hkind
    cases hs with
    | pose h =>
      cases h with
      | pose => rfl
  · have hbuild : forExample sample .none width = sample.length >>= fun axes =>
        buildGiven kind (kind.unitResolution axes) width := by
      cases hs with
      | tuple | list | array => rfl
      | pose => exact absurd rfl hkind
    rw [hbuild, (hs.sequence hkind).2.length]
    rfl

/-- Numbers are a resolution of these sizes. -/
theorem built_of_widens {given : List Value} {divs : List Binary64}
    (hgiven : List.Forall₂ Widens given divs) (hcount : kind.Takes divs.length)
    (hsome : kind = .pose ∨ divs ≠ []) {width : Value} {w : Width} (hw : w.Equals width) :
    ∃ h, buildGiven kind given width = .ok h ∧ h.kind = kind ∧ h.width = w ∧
      h.cellSizes = kind.onAxes .one divs := by
  have hlength := hgiven.length_eq
  rw [← hlength] at hcount
  have haccepted : Accepted kind given width :=
    ⟨hcount, forall_of_forall₂ hgiven.flip fun x v hx => ⟨x, hx.toReading⟩, ⟨w, hw⟩,
      hsome.imp_right (ne_nil_of_length_eq hlength)⟩
  obtain ⟨h, ys, hbuilt, hkind, hys, hsizes, hwidth⟩ := haccepted.built
  have hreads : List.Forall₂ ReadsAs given divs := hgiven.imp fun v x hx => hx.toReading
  have hunique : Relator.RightUnique ReadsAs := fun _ _ _ => ReadsAs.unique
  have hsame : ys = divs := List.right_unique_forall₂' hunique hys hreads
  rw [hsame] at hsizes
  exact ⟨h, hbuilt, hkind, hwidth.unique hw, hsizes⟩

theorem built_of_unitResolution (hs : sample.Suits kind xs) (hne : xs ≠ []) {width : Value}
    {w : Width} (hw : w.Equals width) :
    ∃ h, buildGiven kind (kind.unitResolution xs.length) width = .ok h ∧ h.kind = kind ∧
      h.width = w ∧ h.cellSizes = List.replicate xs.length .one := by
  by_cases hkind : kind = .pose
  · subst hkind
    rw [hs.length_pose]
    exact built_of_widens .nil (fun _ => .inl rfl) (.inl rfl) hw
  · have hunit : List.Forall₂ Widens (kind.unitResolution xs.length)
        (List.replicate xs.length .one) := by
      have hones := forall₂_ofBinary64 (List.replicate xs.length .one)
      rw [List.map_replicate] at hones
      rw [HasherClass.unitResolution, if_neg hkind]
      exact hones.imp fun _ _ => IsBinary64.widens
    have hsome : List.replicate xs.length Binary64.one ≠ [] :=
      ne_nil_of_length_eq List.length_replicate hne
    have hbuilt := built_of_widens hunit (fun h => absurd h hkind) (.inr hsome) hw
    rwa [HasherClass.onAxes_of_ne hkind] at hbuilt

/-- Without a resolution the hasher of an example has cells of size one and gives the example the
    key of the floors of its coordinates. With a resolution a hasher of sequences takes the example
    if and only if it has as many axes, and a hasher of poses is built from two or three numbers
    only. -/
theorem example_hashers_fit (hs : sample.Suits kind xs) (hne : xs ≠ []) {width : Value} {w : Width}
    (hw : w.Equals width) :
    (∃ h, forExample sample .none width = .ok h ∧ h.kind = kind ∧ h.width = w ∧
      h.cellSizes = List.replicate xs.length .one ∧
      h.Accepts sample xs (w.cellKey (xs.map Binary64.cell?)).toNat) ∧
    ∀ (resolution : Value) (divs : List Binary64), resolution.WidensTo divs → divs ≠ [] →
      (kind ≠ .pose →
        ∃ h, forExample sample resolution width = .ok h ∧ h.kind = kind ∧ h.width = w ∧
          h.cellSizes = divs ∧
          (divs.length = xs.length → ∃ key, h.Accepts sample xs key) ∧
          (divs.length ≠ xs.length →
            h.key sample = .error (kind.lengthFault divs.length xs.length))) ∧
      (kind = .pose →
        (divs.length = 2 ∨ divs.length = 3 →
          ∃ h key, forExample sample resolution width = .ok h ∧ h.kind = kind ∧ h.width = w ∧
            h.cellSizes = kind.onAxes .one divs ∧ h.Accepts sample xs key) ∧
        (¬ (divs.length = 2 ∨ divs.length = 3) →
          forExample sample resolution width = .error (.resolutionCount divs.length))) := by
  refine ⟨?_, fun resolution divs hr hdivs => ?_⟩
  · rw [forExample_none hs]
    obtain ⟨h, hbuilt, rfl, rfl, hsizes⟩ := built_of_unitResolution hs hne hw
    have hlength : xs.length = h.dimensions := by
      rw [← length_cellSizes, hsizes, List.length_replicate]
    have haccepts := accepts_of_suits hs hlength
    rw [hsizes, cellsOf_ones] at haccepts
    exact ⟨h, hbuilt, rfl, rfl, hsizes, haccepts⟩
  · obtain ⟨given, hgiven, hexample⟩ := forExample_given hs hr width
    rw [hexample]
    refine ⟨fun hkind => ?_, fun hkind => ⟨fun hcount => ?_, fun hcount => ?_⟩⟩
    · obtain ⟨h, hbuilt, rfl, rfl, hsizes⟩ :=
        built_of_widens hgiven (fun h => absurd h hkind) (.inr hdivs) hw
      rw [HasherClass.onAxes_of_ne hkind] at hsizes
      have haxes : divs.length = h.dimensions := by rw [← hsizes, length_cellSizes]
      rw [haxes]
      exact ⟨h, hbuilt, rfl, rfl, hsizes, fun hlength => ⟨_, accepts_of_suits hs hlength.symm⟩,
        fun hlength => key_of_length_ne hs hkind hlength.symm⟩
    · obtain ⟨h, hbuilt, rfl, rfl, hsizes⟩ :=
        built_of_widens hgiven (fun _ => .inr hcount) (.inl hkind) hw
      have haccepts := accepts_of_suits hs (dimensions_of_suits hs hkind)
      exact ⟨h, _, hbuilt, rfl, rfl, hsizes, haccepts⟩
    · -- A pose would also take none at all, but there is a number in the resolution.
      have hrefused : ¬ kind.Takes given.length := by
        intro htakes
        rw [hgiven.length_eq] at htakes
        rcases htakes hkind with hzero | hsome
        · exact hdivs (List.eq_nil_of_length_eq_zero hzero)
        · exact hcount hsome
      rw [← hgiven.length_eq]
      exact (Refused.count hrefused).buildGiven_eq

end

/-- A list with a NaN without a resolution and with one that is too short, and a pose with one
    number. -/
theorem example_hashers_fit_short :
    let sample : Value := .list [.float .one .none, .float .nan .none] .none
    let pose : Value := .pose (.float .nan .none) (.float .one .none) (.float .one .none) .none
    let resolution : Value := .tuple [.float .one .none]
    (∃ h, forExample sample .none (.int 32) = .ok h ∧ h.kind = .array ∧
      h.key sample = .ok (Width.w32.cellKey [some 1, none]).toNat) ∧
    (∃ h, forExample sample resolution (.int 32) = .ok h ∧
      h.key sample = .error (.valueCount 1 2)) ∧
    forExample pose resolution (.int 32) = .error (.resolutionCount 1) := by
  intro sample pose resolution
  have hone : List.Forall₂ IsBinary64 [.float .one .none] [.one] := .cons (.float _ _) .nil
  have hsample : sample.Suits .array [.one, .nan] :=
    .list _ (.cons (IsBinary64.float _ _).widens (.cons (IsBinary64.float _ _).widens .nil))
  have hpose : pose.Suits .pose [.nan, .one, Heading.wrapEntry .one] :=
    .pose (.pose (.float _ _) (.float _ _) (.float _ _) _) fun s => by cases s <;> decide +kernel
  have hresolution : resolution.WidensTo [.one] := (IsVector.tuple hone).widensTo
  have hwidth : Width.w32.Equals (.int 32) := ⟨_, rfl, rfl⟩
  have hcells : [Binary64.one, .nan].map Binary64.cell? = [some 1, none] := by decide +kernel
  obtain ⟨⟨h, hbuilt, hkind, -, -, haccepts⟩, hsequence⟩ :=
    example_hashers_fit hsample (List.cons_ne_nil _ _) hwidth
  obtain ⟨g, hshort, -, -, -, -, hrefused⟩ :=
    (hsequence resolution [.one] hresolution (List.cons_ne_nil _ _)).1 (by decide)
  obtain ⟨-, hposes⟩ := example_hashers_fit hpose (List.cons_ne_nil _ _) hwidth
  rw [hcells] at haccepts
  refine ⟨⟨h, hbuilt, hkind, haccepts.key_eq⟩, ⟨g, hshort, hrefused (by decide)⟩, ?_⟩
  exact ((hposes resolution [.one] hresolution (List.cons_ne_nil _ _)).2 rfl).2 (by decide)

end Hasher

end CellKeys
