import CellKeys.Proofs.Text.Line

namespace CellKeys

namespace Text

/-- A text without the characters that stand between numbers. -/
def IsNumberText (s : String) : Prop := ∀ c ∈ s.toList, IsNumberChar c

/-- Characters up to the first that does not count are read back from what they begin. -/
theorem eq_of_append_eq {p : Char → Prop} [DecidablePred p] {a b s t : List Char}
    (ha : ∀ c ∈ a, p c) (hb : ∀ c ∈ b, p c) (hs : ∀ c ∈ s.head?, ¬ p c) (ht : ∀ c ∈ t.head?, ¬ p c)
    (h : a ++ s = b ++ t) : a = b ∧ s = t := by
  have hspan : ∀ {a s : List Char}, (∀ c ∈ a, p c) → (∀ c ∈ s.head?, ¬ p c) →
      (a ++ s).takeWhile (fun c => p c) = a := by
    intro a s ha hs
    rw [List.takeWhile_append_of_pos (fun c hc => decide_eq_true (ha c hc))]
    cases s with
    | nil => exact List.append_nil a
    | cons c s => simp [hs c rfl]
  have hfirst : a = b := by rw [← hspan ha hs, h, hspan hb ht]
  subst hfirst
  exact ⟨rfl, List.append_cancel_left h⟩

/-- Items that come after another one. -/
def listed (items : List String) : List Char := items.flatMap fun item => ',' :: ' ' :: item.toList

theorem toList_intercalate_cons (item : String) (items : List String) :
    (", ".intercalate (item :: items)).toList = item.toList ++ listed items := by
  rw [String.toList_intercalate]
  induction items generalizing item with
  | nil => simp [listed]
  | cons next items ih =>
    rw [List.map_cons, List.map_cons, List.intercalate_cons_cons, ← List.map_cons, ih]
    simp [listed]

theorem not_isNumberChar_of_head_listed (items : List String) (s : List Char) :
    ∀ c ∈ (listed items ++ ')' :: s).head?, ¬ IsNumberChar c := by
  cases items <;> rintro _ ⟨⟩ <;> decide

theorem eq_of_listed_eq {as bs : List String} (ha : ∀ a ∈ as, IsNumberText a)
    (hb : ∀ b ∈ bs, IsNumberText b) {s t : List Char}
    (h : listed as ++ ')' :: s = listed bs ++ ')' :: t) : as = bs ∧ s = t := by
  induction as generalizing bs with
  | nil =>
    cases bs with
    | nil => exact ⟨rfl, (List.cons.inj h).2⟩
    | cons b bs => exact absurd (List.cons.inj h).1 (by decide)
  | cons a as ih =>
    cases bs with
    | nil => exact absurd (List.cons.inj h).1 (by decide)
    | cons b bs =>
      rw [List.forall_mem_cons] at ha hb
      simp only [listed, List.flatMap_cons, List.cons_append, List.append_assoc, List.cons.injEq,
        true_and] at h
      obtain ⟨hitem, hrest⟩ := eq_of_append_eq ha.1 hb.1 (not_isNumberChar_of_head_listed as s)
        (not_isNumberChar_of_head_listed bs t) h
      obtain ⟨rfl, hs⟩ := ih ha.2 hb.2 hrest
      exact ⟨by rw [String.toList_inj.mp hitem], hs⟩

/-- What follows the first item between parentheses, up to the end of the text. -/
def afterFirst (items : List String) (s : List Char) : List Char :=
  if items = [] then ',' :: ')' :: s else listed items ++ ')' :: s

theorem toList_tupleText (a : String) (as : List String) (s : List Char) :
    (tupleText (a :: as)).toList ++ s = '(' :: (a.toList ++ afterFirst as s) := by
  cases as with
  | nil => simp [tupleText, afterFirst]
  | cons b as =>
    rw [tupleText, String.toList_append, String.toList_append, toList_intercalate_cons]
    · simp [afterFirst]
    · nofun

theorem not_isNumberChar_of_head_afterFirst (as : List String) (s : List Char) :
    ∀ c ∈ (afterFirst as s).head?, ¬ IsNumberChar c := by
  cases as with
  | nil =>
    rintro _ ⟨⟩
    decide
  | cons a as => exact not_isNumberChar_of_head_listed (a :: as) s

theorem eq_of_afterFirst_eq {as bs : List String} (ha : ∀ a ∈ as, IsNumberText a)
    (hb : ∀ b ∈ bs, IsNumberText b) {s t : List Char} (h : afterFirst as s = afterFirst bs t) :
    as = bs ∧ s = t := by
  have hdiffer : ')' ≠ ' ' := by decide
  cases as with
  | nil =>
    cases bs with
    | nil => simpa [afterFirst] using h
    | cons b bs => simp [afterFirst, listed, hdiffer] at h
  | cons a as =>
    cases bs with
    | nil => simp [afterFirst, listed, hdiffer.symm] at h
    | cons b bs => exact eq_of_listed_eq ha hb h

/-- Items between parentheses are read back from what they begin. -/
theorem eq_of_tupleText_eq {as bs : List String} (ha : ∀ a ∈ as, IsNumberText a)
    (hb : ∀ b ∈ bs, IsNumberText b) (hane : as ≠ []) (hbne : bs ≠ []) {s t : List Char}
    (h : (tupleText as).toList ++ s = (tupleText bs).toList ++ t) : as = bs ∧ s = t := by
  obtain ⟨a, as, rfl⟩ := List.exists_cons_of_ne_nil hane
  obtain ⟨b, bs, rfl⟩ := List.exists_cons_of_ne_nil hbne
  rw [List.forall_mem_cons] at ha hb
  rw [toList_tupleText, toList_tupleText] at h
  obtain ⟨hfirst, hrest⟩ := eq_of_append_eq ha.1 hb.1 (not_isNumberChar_of_head_afterFirst as s)
    (not_isNumberChar_of_head_afterFirst bs t) (List.cons.inj h).2
  obtain ⟨rfl, hs⟩ := eq_of_afterFirst_eq ha.2 hb.2 hrest
  exact ⟨by rw [String.toList_inj.mp hfirst], hs⟩

end Text

open Text

namespace HasherClass

theorem ne_of_mem_name (kind : HasherClass) : ∀ c ∈ kind.name.toList, c ≠ '(' := by
  have hname : '(' ∉ kind.name.toList := by cases kind <;> decide
  rintro c hc rfl
  exact hname hc

theorem eq_of_toList_name_eq {kind other : HasherClass}
    (h : kind.name.toList = other.name.toList) : kind = other := by
  revert h
  cases kind <;> cases other <;> decide

end HasherClass

/-- The text of a hasher shows its class, its cell sizes as numbers are written, and its word
    size. -/
theorem Hasher.text_eq_iff {g h : Hasher} :
    g.text = h.text ↔ g.kind = h.kind ∧
      g.cellSizes.map Binary64.text = h.cellSizes.map Binary64.text ∧ g.width = h.width := by
  have hsizes : ∀ h : Hasher, ∀ item ∈ h.cellSizes.map Binary64.text, IsNumberText item := by
    intro h
    rw [List.forall_mem_map]
    exact fun x _ => x.isNumberChar_of_mem_text
  have hsome : ∀ h : Hasher, h.cellSizes.map Binary64.text ≠ [] := by
    intro h
    rw [cellSizes, List.map_map, ne_eq, List.map_eq_nil_iff]
    exact h.resolution_ne_nil
  have hwidth : ∀ w u : Width, ", width=".toList ++ ((Nat.repr w.bits).toList ++ ")".toList) =
      ", width=".toList ++ ((Nat.repr u.bits).toList ++ ")".toList) → w = u := by
    intro w u
    cases w <;> cases u <;> decide
  constructor
  · intro heq
    have htext := congrArg String.toList heq
    simp only [text, String.toList_append, List.append_assoc] at htext
    obtain ⟨hkind, hrest⟩ := eq_of_append_eq g.kind.ne_of_mem_name h.kind.ne_of_mem_name
      (by simp) (by simp) htext
    obtain ⟨hsame, hend⟩ := eq_of_tupleText_eq (hsizes g) (hsizes h) (hsome g) (hsome h)
      (List.append_cancel_left hrest)
    exact ⟨HasherClass.eq_of_toList_name_eq hkind, hsame, hwidth _ _ hend⟩
  · rintro ⟨hkind, hsame, hwidth⟩
    rw [text, text, hkind, hsame, hwidth]

/-- The text of a pose shows its position and its heading. -/
theorem poseText_eq_iff {x y theta x' y' theta' : String} (hx : IsNumberText x)
    (hy : IsNumberText y) (hx' : IsNumberText x') (hy' : IsNumberText y') :
    poseText x y theta = poseText x' y' theta' ↔ x = x' ∧ y = y' ∧ theta = theta' := by
  have hsecond : ∀ rest : List Char, ∀ c ∈ (", y=".toList ++ rest).head?, ¬ IsNumberChar c := by
    rintro rest _ ⟨⟩
    decide
  have hthird : ∀ rest : List Char, ∀ c ∈ (", theta=".toList ++ rest).head?, ¬ IsNumberChar c := by
    rintro rest _ ⟨⟩
    decide
  constructor
  · intro heq
    have htext := congrArg String.toList heq
    simp only [poseText, String.toList_append, List.append_assoc] at htext
    obtain ⟨hx, hrest⟩ := eq_of_append_eq hx hx' (hsecond _) (hsecond _)
      (List.append_cancel_left htext)
    obtain ⟨hy, hrest⟩ := eq_of_append_eq hy hy' (hthird _) (hthird _)
      (List.append_cancel_left hrest)
    have ht := List.append_cancel_right (List.append_cancel_left hrest)
    exact ⟨String.toList_inj.mp hx, String.toList_inj.mp hy, String.toList_inj.mp ht⟩
  · rintro ⟨rfl, rfl, rfl⟩
    rfl

end CellKeys
