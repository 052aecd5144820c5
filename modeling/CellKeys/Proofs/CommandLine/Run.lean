import CellKeys.Proofs.CommandLine.Request

namespace CellKeys

namespace CommandLine

open Text

/-- An argument that is the text of a number. -/
def IsNumber (arg : String) : Prop := ∃ x, Value.readText arg = .ok x

/-- As many arguments as a run takes. -/
def Fits (args : List String) : Prop := args.length = 3 ∨ args.length = 5

/-- The first argument that is not the text of a number. -/
def IsFirstRejected (args : List String) (rejected : String) : Prop :=
  ∃ before after, args = before ++ rejected :: after ∧ (∀ arg ∈ before, IsNumber arg) ∧
    ¬ IsNumber rejected

/-- The right answers to arguments: the usage, one line about the first of them that is not a
    number, or success. -/
inductive Answers (args : List String) : Outcome → Prop where
  | usage (h : ¬ Fits args) : Answers args ⟨usage, .ok 1⟩
  | rejected {rejected line : String} (h : Fits args) (hrejected : IsFirstRejected args rejected)
    (hline : IsLine line)
    (htext : line = "Error: could not convert string to float: " ++ quoted rejected) :
    Answers args ⟨line ++ "\n", .ok 1⟩
  | numbers (h : Fits args) (hnumbers : ∀ arg ∈ args, IsNumber arg) (output : String) :
    Answers args ⟨output, .ok 0⟩

/-- The arguments are numbers that make up this request. -/
def Asks (args : List String) (r : Request) : Prop :=
  ∃ values, args.mapM Value.readText = .ok values ∧ Request.ofNumbers? values = some r

theorem readText_error {arg : String} {e : Fault} (h : Value.readText arg = .error e) :
    e = .unreadable (quoted arg) ∧ ¬ IsNumber arg := by
  refine ⟨?_, ?_⟩
  · unfold Value.readText at h
    split at h
    · cases h
    · cases h
      rfl
  · rintro ⟨x, hx⟩
    rw [h] at hx
    cases hx

theorem isNumber_of_mapM {args : List String} {values : List Binary64}
    (h : args.mapM Value.readText = .ok values) : ∀ arg ∈ args, IsNumber arg :=
  forall_of_forall₂ (forall₂_of_mapM h).flip fun x _ hx => ⟨x, hx⟩

theorem run_of_fits {args : List String} (h : Fits args) :
    run args = match args.mapM Value.readText with
      | .ok values => describe values
      | .error e => ⟨"Error: " ++ complaint e ++ "\n", .ok 1⟩ :=
  if_neg fun hmany => not_or.mpr hmany h

theorem Asks.run_eq {args : List String} {r : Request} (h : Asks args r) :
    ∃ values, Request.ofNumbers? values = some r ∧ run args = describe values := by
  obtain ⟨values, hread, hr⟩ := h
  have hfits : Fits args := by
    rw [Fits, (forall₂_of_mapM hread).length_eq]
    exact Request.length_of_ofNumbers? hr
  refine ⟨values, hr, ?_⟩
  rw [run_of_fits hfits, hread]

/-- A run for a heading that can be wrapped prints the pose and its keys. -/
theorem Asks.run_wrapped {args : List String} {r : Request} (h : Asks args r) {wrapped : Binary64}
    (hwrap : Heading.wrap r.theta = .ok wrapped) :
    ∃ second third,
      run args = ⟨r.poseLine ++ "\n" ++ second ++ "\n" ++ third ++ "\n", .ok 0⟩ ∧
      IsKeyLine .w32 [r.x, r.y, wrapped] r.sizes second ∧
      IsKeyLine .w64 [r.x, r.y, wrapped] r.sizes third := by
  obtain ⟨values, hr, hrun⟩ := h.run_eq
  rw [hrun]
  exact describe_eq hr hwrap

/-- A run for an infinite heading prints the pose and fails. -/
theorem Asks.run_infinite {args : List String} {r : Request} (h : Asks args r) {s : Bool}
    (hinfinite : r.theta = .infinity s) :
    run args = ⟨r.poseLine ++ "\n", .error .infiniteHeading⟩ := by
  obtain ⟨values, hr, hrun⟩ := h.run_eq
  rw [hrun]
  exact describe_infinite hr hinfinite

/-- What arguments can be: a wrong number of them, or one that is not a number, or a request. -/
theorem run_cases (args : List String) :
    (¬ Fits args ∧ run args = ⟨usage, .ok 1⟩) ∨
    (∃ rejected, Fits args ∧ IsFirstRejected args rejected ∧ run args =
      ⟨"Error: could not convert string to float: " ++ quoted rejected ++ "\n", .ok 1⟩) ∨
    ∃ r, Fits args ∧ (∀ arg ∈ args, IsNumber arg) ∧ Asks args r := by
  by_cases hfits : Fits args
  · right
    cases hread : args.mapM Value.readText with
    | error e =>
      left
      obtain ⟨before, rejected, after, rfl, hbefore, hrejected⟩ := exists_of_mapM_error hread
      obtain ⟨rfl, hnumber⟩ := readText_error hrejected
      refine ⟨rejected, hfits, ⟨before, after, rfl, hbefore, hnumber⟩, ?_⟩
      rw [run_of_fits hfits, hread]
      rfl
    | ok values =>
      right
      have hcount : values.length = 3 ∨ values.length = 5 := by
        rwa [← (forall₂_of_mapM hread).length_eq]
      obtain ⟨r, hr⟩ := Request.exists_ofNumbers? hcount
      exact ⟨r, hfits, isNumber_of_mapM hread, values, hread, hr⟩
  · left
    exact ⟨hfits, by rw [run, if_pos (not_or.mp hfits)]⟩

theorem Answers.ending {args : List String} {o : Outcome} (h : Answers args o) :
    ∃ status, o.ending = .ok status := by
  cases h <;> exact ⟨_, rfl⟩

/-- A run answers as it should just where no infinite heading is asked for. For an infinite heading
    it prints the pose and then fails. -/
theorem run_answers_iff (args : List String) :
    (Answers args (run args) ↔ ∀ r s, Asks args r → r.theta ≠ .infinity s) ∧
    ∀ r s, Asks args r → r.theta = .infinity s →
      run args = ⟨r.poseLine ++ "\n", .error .infiniteHeading⟩ := by
  refine ⟨⟨?_, ?_⟩, fun r s hasks => hasks.run_infinite⟩
  · intro hanswers r s hasks hinfinite
    obtain ⟨status, hstatus⟩ := hanswers.ending
    rw [hasks.run_infinite hinfinite] at hstatus
    cases hstatus
  · intro hfinite
    rcases run_cases args with ⟨hfits, hrun⟩ | ⟨rejected, hfits, hrejected, hrun⟩ |
      ⟨r, hfits, hnumbers, hasks⟩
    · rw [hrun]
      exact .usage hfits
    · rw [hrun]
      exact .rejected hfits hrejected (isLine_append (by decide) (isLine_quoted rejected)) rfl
    · have hwrap := Heading.wrap_eq_wrapEntry fun s => hfinite r s hasks
      obtain ⟨second, third, hrun, -⟩ := hasks.run_wrapped hwrap
      rw [hrun]
      exact .numbers hfits hnumbers _

theorem run_answers_iff_infinite :
    Answers ["inf", "1e999", "-0.5"] (run ["inf", "1e999", "-0.5"]) ∧
    run ["0", "0", "-inf", "1", "1"] =
      ⟨"Pose: Pose2D(x=0.0, y=0.0, theta=-inf)" ++ "\n", .error .infiniteHeading⟩ := by
  constructor
  · refine (run_answers_iff _).1.mpr fun r s ⟨values, hread, hr⟩ => ?_
    have hvalues : ["inf", "1e999", "-0.5"].mapM Value.readText =
        .ok [.infinity false, .infinity false, .ofBits 0xbfe0000000000000] := by decide +kernel
    rw [hvalues] at hread
    cases hread
    have hfinite : ∀ s, Binary64.ofBits 0xbfe0000000000000 ≠ .infinity s := by decide +kernel
    rw [← Option.some.inj hr]
    dsimp only
    exact hfinite s
  · have hasks : Asks ["0", "0", "-inf", "1", "1"]
        ⟨.zero false, .zero false, .infinity true, .one, .one⟩ :=
      ⟨[.zero false, .zero false, .infinity true, .one, .one], by decide +kernel, rfl⟩
    have hline : Request.poseLine ⟨.zero false, .zero false, .infinity true, .one, .one⟩ =
        "Pose: Pose2D(x=0.0, y=0.0, theta=-inf)" := by decide +kernel
    rw [(run_answers_iff _).2 _ true hasks rfl, hline]

/-- With an infinite heading the arguments are numbers and yet the run fails. -/
theorem not_answers_infinite :
    Fits ["0", "0", "inf"] ∧ (∀ arg ∈ ["0", "0", "inf"], IsNumber arg) ∧
      ¬ Answers ["0", "0", "inf"] (run ["0", "0", "inf"]) := by
  have hread : ["0", "0", "inf"].mapM Value.readText =
      .ok [.zero false, .zero false, .infinity false] := by decide +kernel
  have hasks : Asks ["0", "0", "inf"] ⟨.zero false, .zero false, .infinity false, .one, .one⟩ :=
    ⟨_, hread, rfl⟩
  refine ⟨.inl rfl, isNumber_of_mapM hread, fun hanswers => ?_⟩
  obtain ⟨status, hstatus⟩ := hanswers.ending
  rw [hasks.run_infinite rfl] at hstatus
  cases hstatus

/-- A run that succeeds prints the pose and, for each word size, a line with its key. -/
theorem printed_keys_read_back (args : List String) (h : (run args).ending = .ok 0) :
    ∃ (values : List Binary64) (r : Request) (wrapped : Binary64) (second third : String),
      args.mapM Value.readText = .ok values ∧
      (values = [r.x, r.y, r.theta] ∧ r.linear = .one ∧ r.angular = .one ∨
        values = [r.x, r.y, r.theta, r.linear, r.angular]) ∧
      Heading.wrap r.theta = .ok wrapped ∧
      (run args).output = r.poseLine ++ "\n" ++ second ++ "\n" ++ third ++ "\n" ∧
      IsLine r.poseLine ∧ IsLine second ∧ IsLine third ∧
      IsKeyLine .w32 [r.x, r.y, wrapped] [r.linear, r.linear, r.angular] second ∧
      IsKeyLine .w64 [r.x, r.y, wrapped] [r.linear, r.linear, r.angular] third := by
  rcases run_cases args with ⟨-, hrun⟩ | ⟨rejected, -, -, hrun⟩ | ⟨r, -, -, hasks⟩
  · rw [hrun] at h
    cases h
  · rw [hrun] at h
    cases h
  · have hfinite : ∀ s, r.theta ≠ .infinity s := by
      intro s hs
      rw [hasks.run_infinite hs] at h
      cases h
    have hwrap := Heading.wrap_eq_wrapEntry hfinite
    obtain ⟨second, third, hrun, hnarrow, hwide⟩ := hasks.run_wrapped hwrap
    obtain ⟨values, hread, hr⟩ := hasks
    refine ⟨values, r, _, second, third, hread, Request.ofNumbers?_cases hr, hwrap, ?_,
      r.isLine_poseLine, hnarrow.isLine, hwide.isLine, hnarrow, hwide⟩
    rw [hrun]

theorem printed_keys_read_back_five :
    ∃ second third, (run ["1.5", "-2", "1e2", "0.5", "0.1"]).output =
      "Pose: Pose2D(x=1.5, y=-2.0, theta=100.0)" ++ "\n" ++ second ++ "\n" ++ third ++ "\n" ∧
      IsLine second ∧ IsLine third := by
  have hvalues : ["1.5", "-2", "1e2", "0.5", "0.1"].mapM Value.readText =
      .ok [.ofBits 0x3ff8000000000000, .ofInt (-2), .ofInt 100, .ofBits 0x3fe0000000000000,
        .ofBits 0x3fb999999999999a] := by decide +kernel
  obtain ⟨values, r, wrapped, second, third, hread, hr, -, hlines, -, hsecond, hthird, -⟩ :=
    printed_keys_read_back ["1.5", "-2", "1e2", "0.5", "0.1"] (by decide +kernel)
  rw [hvalues] at hread
  cases hread
  have hline : r.poseLine = "Pose: Pose2D(x=1.5, y=-2.0, theta=100.0)" := by
    rcases hr with ⟨hr, -⟩ | hr
    · simp only [List.cons.injEq, reduceCtorEq, and_false] at hr
    · simp only [List.cons.injEq] at hr
      obtain ⟨hx, hy, ht, -⟩ := hr
      rw [Request.poseLine, ← hx, ← hy, ← ht]
      decide +kernel
  rw [hline] at hlines
  exact ⟨second, third, hlines, hsecond, hthird⟩

end CommandLine

end CellKeys
