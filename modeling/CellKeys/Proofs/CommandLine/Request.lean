import CellKeys.CommandLine
import CellKeys.Proofs.Hasher.Pose
import CellKeys.Proofs.Text.Shown

namespace CellKeys

namespace Hasher

open Value

/-- A pose hasher is built from three numbers. -/
theorem build_pose (x y theta : Binary64) (w : Width) :
    ∃ h, build .pose ([x, y, theta].map ofBinary64) (.width w) = .ok h ∧ h.kind = .pose ∧
      h.cellSizes = [x, y, theta] ∧ h.width = w := by
  refine ⟨⟨.pose, [x, y, theta].map Reading.ofValue, w, nofun, fun _ => rfl⟩, ?_, rfl, rfl, rfl⟩
  have hreadings : ([x, y, theta].map ofBinary64).mapM toReading =
      .ok ([x, y, theta].map Reading.ofValue) := mapM_map_eq_ok fun _ _ => rfl
  simp only [build, hreadings, Width.ofValue_width, bind, Except.bind]
  rfl

end Hasher

namespace CommandLine

open Text

/-- What the arguments ask for: a pose and the sizes of a cell along its position and its heading.
    -/
structure Request where
  x : Binary64
  y : Binary64
  theta : Binary64
  linear : Binary64
  angular : Binary64

namespace Request

/-- The request that numbers are. The sizes are one unless they are given. -/
def ofNumbers? : List Binary64 → Option Request
  | [x, y, theta] => some ⟨x, y, theta, .one, .one⟩
  | [x, y, theta, linear, angular] => some ⟨x, y, theta, linear, angular⟩
  | _ => none

/-- The size of a cell on each axis. -/
def sizes (r : Request) : List Binary64 := [r.linear, r.linear, r.angular]

def pose (r : Request) : Value :=
  .pose (.ofBinary64 r.x) (.ofBinary64 r.y) (.ofBinary64 r.theta) none

/-- The line that shows the pose. -/
def poseLine (r : Request) : String := "Pose: " ++ poseText r.x.text r.y.text r.theta.text

theorem isLine_poseLine (r : Request) : IsLine r.poseLine :=
  isLine_append (by decide) (isLine_poseText r.x.isLine_text r.y.isLine_text r.theta.isLine_text)

/-- The line shows the numbers of the pose, as numbers are written. -/
theorem poseLine_eq_iff {q r : Request} :
    q.poseLine = r.poseLine ↔
      q.x.text = r.x.text ∧ q.y.text = r.y.text ∧ q.theta.text = r.theta.text := by
  rw [← poseText_eq_iff q.x.isNumberChar_of_mem_text q.y.isNumberChar_of_mem_text
    r.x.isNumberChar_of_mem_text r.y.isNumberChar_of_mem_text]
  exact ⟨fun h => String.append_right_inj _ |>.mp h, congrArg _⟩

theorem isPose_pose (r : Request) : r.pose.IsPose [r.x, r.y, r.theta] :=
  .pose (.float _ _) (.float _ _) (.float _ _) _

theorem ofAttributes_eq (r : Request) :
    Value.ofAttributes ([r.x, r.y, r.theta].map .ofBinary64) = .ok r.pose := rfl

theorem shown_pose (r : Request) : r.pose.shown = poseText r.x.text r.y.text r.theta.text := by
  simp only [pose, Value.ofBinary64, Value.shown, Value.shownWithin]

/-- Three or five numbers are a request. -/
theorem exists_ofNumbers? {values : List Binary64} (h : values.length = 3 ∨ values.length = 5) :
    ∃ r, ofNumbers? values = some r := by
  rcases h with h | h
  · obtain ⟨x, y, theta, rfl⟩ := List.length_eq_three.mp h
    exact ⟨_, rfl⟩
  · obtain ⟨x, rest, rfl⟩ := List.exists_cons_of_length_eq_add_one h
    obtain ⟨y, rest, rfl⟩ := List.exists_cons_of_length_eq_add_one (Nat.succ.inj h)
    obtain ⟨theta, linear, angular, rfl⟩ := List.length_eq_three.mp (Nat.succ.inj (Nat.succ.inj h))
    exact ⟨_, rfl⟩

variable {values : List Binary64} {r : Request} (h : ofNumbers? values = some r)

include h

/-- What the numbers of a request are. -/
theorem ofNumbers?_cases :
    values = [r.x, r.y, r.theta] ∧ r.linear = .one ∧ r.angular = .one ∨
      values = [r.x, r.y, r.theta, r.linear, r.angular] := by
  unfold ofNumbers? at h
  split at h
  · cases h
    exact .inl ⟨rfl, by dsimp only, by dsimp only⟩
  · cases h
    exact .inr rfl
  · cases h

theorem length_of_ofNumbers? : values.length = 3 ∨ values.length = 5 := by
  rcases ofNumbers?_cases h with ⟨hvalues, -⟩ | hvalues <;> rw [hvalues]
  · exact .inl rfl
  · exact .inr rfl

theorem buildPose_eq (w : Width) :
    ∃ g, Hasher.buildPose ((values.drop 3).map .ofBinary64) (.width w) = .ok g ∧ g.kind = .pose ∧
      g.cellSizes = r.sizes ∧ g.width = w := by
  have hresolution : Hasher.poseResolution ((values.drop 3).map .ofBinary64) =
      .ok (r.sizes.map .ofBinary64) := by
    rw [sizes]
    rcases ofNumbers?_cases h with ⟨hvalues, hlinear, hangular⟩ | hvalues
    · rw [hvalues, hlinear, hangular]
      rfl
    · rw [hvalues]
      rfl
  rw [Hasher.buildPose, hresolution]
  exact Hasher.build_pose r.linear r.linear r.angular w

theorem take_three : values.take 3 = [r.x, r.y, r.theta] := by
  rcases ofNumbers?_cases h with ⟨hvalues, -⟩ | hvalues <;> rw [hvalues] <;> rfl

end Request

/-- A line with a key: the word size, the key of these coordinates for cells of these sizes in all
    its hexadecimal digits, and the pose hasher for these sizes. -/
def IsKeyLine (w : Width) (axes sizes : List Binary64) (line : String) : Prop :=
  ∃ (digits : List Char) (key : Nat) (h : Hasher),
    line = Nat.repr w.bits ++ "-bit key: " ++ ("0x" ++ String.ofList digits) ++ "  " ++ h.text ∧
    digits.length = w.bits / 4 ∧ (∀ c ∈ digits, c ∈ hexAlphabet) ∧
    ofHexDigits? digits = some key ∧
    keyOfState w (.tuple (axes.map .ofBinary64)) (.tuple (sizes.map .ofBinary64)) = .ok key ∧
    h.kind = .pose ∧ h.cellSizes = sizes ∧ h.width = w

theorem IsKeyLine.isLine {w : Width} {axes sizes : List Binary64} {line : String}
    (h : IsKeyLine w axes sizes line) : IsLine line := by
  obtain ⟨digits, key, g, rfl, -, hdigits, -⟩ := h
  have hhex : IsLine (String.ofList digits) :=
    isLine_ofList fun hmem => absurd (hdigits _ hmem) (by decide)
  simp only [isLine_append_iff, hhex, g.isLine_text, isLine_repr]
  decide

/-- The digits of a key of this word size. -/
theorem paddedHex_word (w : Width) {key : Nat} (h : key < 2 ^ w.bits) :
    paddedHex (w.bits / 4) key = hexDigits (w.bits / 4) key ∧ key < 16 ^ (w.bits / 4) := by
  cases w with
  | w32 => exact ⟨paddedHex_eq 7 h, h⟩
  | w64 => exact ⟨paddedHex_eq 15 h, h⟩

section

variable {values : List Binary64} {r : Request} (h : Request.ofNumbers? values = some r)

include h

/-- The line for one word size. -/
theorem keyLine_eq {wrapped : Binary64} (hwrap : Heading.wrap r.theta = .ok wrapped) {pose : Value}
    (hpose : pose.IsPose [r.x, r.y, r.theta]) (w : Width) :
    ∃ line, keyLine ((values.drop 3).map .ofBinary64) pose w = .ok (line ++ "\n") ∧
      IsKeyLine w [r.x, r.y, wrapped] r.sizes line := by
  obtain ⟨g, hbuild, hkind, hsizes, rfl⟩ := Request.buildPose_eq h w
  have hkey := Hasher.key_pose hkind hpose hwrap
  rw [hsizes] at hkey
  have hstate := keyOfState_eq g.width (.tuple (Value.forall₂_ofBinary64 [r.x, r.y, wrapped]))
    (.tuple (Value.forall₂_ofBinary64 r.sizes)) rfl nofun
  obtain ⟨hpadded, hfits⟩ := paddedHex_word g.width
    (g.width.cellKey (cellsOf [r.x, r.y, wrapped] r.sizes)).isLt
  refine ⟨_, ?_, hexDigits (g.width.bits / 4) _, _, g, rfl, hexDigits_length _ _,
    fun c => mem_hexDigits, ofHexDigits?_hexDigits hfits, hstate, hkind, hsizes, rfl⟩
  simp only [keyLine, hbuild, hkey, bind, Except.bind, keyText, hpadded]
  rfl

/-- A run for a pose whose heading can be wrapped prints it and its key for each word size. -/
theorem describe_eq {wrapped : Binary64} (hwrap : Heading.wrap r.theta = .ok wrapped) :
    ∃ second third,
      describe values = ⟨r.poseLine ++ "\n" ++ second ++ "\n" ++ third ++ "\n", .ok 0⟩ ∧
      IsKeyLine .w32 [r.x, r.y, wrapped] r.sizes second ∧
      IsKeyLine .w64 [r.x, r.y, wrapped] r.sizes third := by
  obtain ⟨second, hsecond, hnarrow⟩ := keyLine_eq h hwrap r.isPose_pose .w32
  obtain ⟨third, hthird, hwide⟩ := keyLine_eq h hwrap r.isPose_pose .w64
  refine ⟨second, third, ?_, hnarrow, hwide⟩
  rw [describe, Request.take_three h, r.ofAttributes_eq]
  simp only [Width.all, keyLines, hsecond, hthird, r.shown_pose, Request.poseLine,
    String.append_empty, String.append_assoc]

/-- A run for a pose with an infinite heading prints the pose and fails. -/
theorem describe_infinite {s : Bool} (hinfinite : r.theta = .infinity s) :
    describe values = ⟨r.poseLine ++ "\n", .error .infiniteHeading⟩ := by
  obtain ⟨g, hbuild, hkind, -⟩ := Request.buildPose_eq h .w32
  have hwrap : Heading.wrap r.theta = .error .infiniteHeading := by
    rw [hinfinite]
    exact Heading.wrap_infinity s
  have hline : keyLine ((values.drop 3).map .ofBinary64) r.pose .w32 = .error .infiniteHeading := by
    simp only [keyLine, hbuild, Hasher.key_pose_error hkind r.isPose_pose hwrap, bind, Except.bind]
  rw [describe, Request.take_three h, r.ofAttributes_eq]
  simp only [Width.all, keyLines, hline, r.shown_pose, Request.poseLine, String.append_empty]

end

end CommandLine

end CellKeys
