import CellKeys.Proofs.Hasher.Pose
import CellKeys.Proofs.Heading.FullTurn
import Mathlib.Tactic.Ring

namespace CellKeys

namespace Hasher

open Value

/-- For every pose hasher, two finite headings a whole number of full turns apart give poses at one
    position the same key, singly and in the rows of arrays, unless they are wrapped to the opposite
    ends of the range: then one becomes half a turn and the other minus half a turn. -/
theorem full_turns_keep_pose_keys {h : Hasher} (hkind : h.kind = .pose) (x y : Binary64)
    {a b : Binary64} (hturns : Heading.FullTurnsApart a b) :
    (¬ Heading.OppositeEnds a b →
      ∃ key : Nat, ∀ theta, theta = a ∨ theta = b →
        (∀ v : Value, v.IsPose [x, y, theta] → h.key v = .ok key) ∧
        ∀ (t : Tensor Binary64) (n i : Nat) (m : Mark), t.shape = [n, 3] →
          t.rows[i]? = some [x, y, theta] →
          ∃ keys, h.keys (.array .float64 (t.map .float) m) = .ok keys ∧ keys.shape = [n] ∧
            keys.entries[i]?.map UInt64.toNat = some key) ∧
    (Heading.OppositeEnds a b →
      Heading.wrap a = .ok .pi ∧ Heading.wrap b = .ok Binary64.pi.neg ∨
      Heading.wrap a = .ok Binary64.pi.neg ∧ Heading.wrap b = .ok .pi) := by
  obtain ⟨p, hp, hpi, htau⟩ := Heading.exists_units?_pi
  obtain ⟨u, v, hu, hv, -⟩ := hturns.units htau
  refine ⟨?_, Heading.OppositeEnds.wrap⟩
  intro hends
  obtain ⟨r, hra, hrb⟩ := hturns.wrapEntry hends
  refine ⟨(h.width.cellKey (cellsOf [x, y, Heading.wrapEntry a] h.cellSizes)).toNat, ?_⟩
  intro theta htheta
  -- From here on only the exact value of the wrapped heading matters.
  obtain ⟨hfinite, hwrapped⟩ : (∃ u, theta.units? = some u) ∧
      (Heading.wrapEntry theta).units? = some r := by
    rcases htheta with rfl | rfl
    · exact ⟨⟨u, hu⟩, hra⟩
    · exact ⟨⟨v, hv⟩, hrb⟩
  have hcells : cellsOf [x, y, Heading.wrapEntry theta] h.cellSizes =
      cellsOf [x, y, Heading.wrapEntry a] h.cellSizes := by
    refine cellsOf_eq_of_forall₂ (.cons (fun _ => rfl) (.cons (fun _ => rfl) (.cons ?_ .nil)))
      (List.forall₂_same.mpr fun _ _ _ => rfl)
    exact cellOf_eq_of_units? hwrapped hra
  rw [← hcells]
  constructor
  · intro pose hpose
    obtain ⟨_, hunits⟩ := hfinite
    exact key_pose hkind hpose (Heading.wrap_of_units? hunits)
  · intro t n i m ht hrow
    obtain ⟨keys, hkeys, hcount, hentries⟩ := keys_poseTable hkind ht m
    refine ⟨keys, hkeys, hcount, ?_⟩
    have hentry := congrArg (fun keys => keys[i]?) hentries
    simpa only [List.getElem?_map, hrow, Option.map_some, wrapThirds] using hentry

/-- Minus a full turn is wrapped to the negative zero, next to the positive one, for a zero cell
    size. -/
theorem full_turns_keep_pose_keys_zero :
    let h : Hasher := ⟨.pose, [⟨.one, none⟩, ⟨.one, none⟩, ⟨.zero true, none⟩], .w64, by simp,
      by simp⟩
    h.kind = .pose ∧ Heading.FullTurnsApart Binary64.tau.neg (.zero false) ∧
      ¬ Heading.OppositeEnds Binary64.tau.neg (.zero false) ∧
      ∃ key : Nat,
        h.key (.pose (.float .one none) (.float .nan none) (.float Binary64.tau.neg none) none) =
          .ok key ∧
        h.key (.pose (.float .one none) (.float .nan none) (.float (.zero false) none) none) =
          .ok key := by
  intro h
  obtain ⟨p, hp, hpi, htau⟩ := Heading.exists_units?_pi
  have hzero : (Binary64.zero false).units? = some 0 := rfl
  have hturns : Heading.FullTurnsApart Binary64.tau.neg (.zero false) := by
    refine ⟨_, _, _, Heading.fraction?_eq_some.mpr ⟨_, Binary64.units?_neg htau, rfl⟩,
      Heading.fraction?_eq_some.mpr ⟨0, hzero, rfl⟩,
      Heading.fraction?_eq_some.mpr ⟨_, htau, rfl⟩, -1, ?_⟩
    push_cast
    ring
  have hends : ¬ Heading.OppositeEnds Binary64.tau.neg (.zero false) := by
    rintro ⟨-, -, hback⟩
    have hdvd := (Heading.pointsBack_iff hpi htau hzero).mp hback
    have hle := Int.le_of_dvd hp (Int.dvd_neg.mp (by simpa using hdvd))
    omega
  obtain ⟨key, hkey⟩ := (full_turns_keep_pose_keys (h := h) rfl .one .nan hturns).1 hends
  exact ⟨rfl, hturns, hends, key,
    (hkey _ (.inl rfl)).1 _ (.pose (.float _ _) (.float _ _) (.float _ _) _),
    (hkey _ (.inr rfl)).1 _ (.pose (.float _ _) (.float _ _) (.float _ _) _)⟩

end Hasher

end CellKeys
