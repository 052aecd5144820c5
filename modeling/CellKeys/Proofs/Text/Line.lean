import CellKeys.Proofs.Text.Hex
import CellKeys.Value.Printer

namespace CellKeys

namespace Text

/-- A text without a newline. -/
def IsLine (s : String) : Prop := '\n' ∉ s.toList

instance (s : String) : Decidable (IsLine s) := inferInstanceAs (Decidable ('\n' ∉ s.toList))

theorem isLine_append_iff {s t : String} : IsLine (s ++ t) ↔ IsLine s ∧ IsLine t := by
  rw [IsLine, String.toList_append, List.mem_append, not_or]
  rfl

theorem isLine_append {s t : String} (hs : IsLine s) (ht : IsLine t) : IsLine (s ++ t) :=
  isLine_append_iff.mpr ⟨hs, ht⟩

theorem isLine_ofList {cs : List Char} (h : '\n' ∉ cs) : IsLine (String.ofList cs) := by
  rwa [IsLine, String.toList_ofList]

theorem newline_not_mem_toDigits (n : Nat) : '\n' ∉ Nat.toDigits 10 n := by
  intro h
  have hdigit := Nat.isDigit_of_mem_toDigits (by decide) (by decide) h
  exact absurd hdigit (by decide)

theorem isLine_repr (n : Nat) : IsLine (Nat.repr n) := by
  rw [IsLine, Nat.toList_repr]
  exact newline_not_mem_toDigits n

theorem newline_not_mem_hexDigits (count n : Nat) : '\n' ∉ hexDigits count n := by
  intro h
  exact absurd (mem_hexDigits h) (by decide)

theorem newline_not_mem_escapeByCode (n : Nat) : '\n' ∉ escapeByCode n := by
  have hbackslash : '\n' ≠ backslash := by decide
  unfold escapeByCode
  split
  · simp [hbackslash, newline_not_mem_hexDigits]
  split
  · simp [hbackslash, newline_not_mem_hexDigits]
  · simp [hbackslash, newline_not_mem_hexDigits]

theorem newline_not_mem_escape {quote : Char} (hquote : quote ≠ '\n') (c : Char) :
    '\n' ∉ escape quote c := by
  have hbackslash : '\n' ≠ backslash := by decide
  by_cases hc : c = '\n'
  · subst hc
    have hescaped : escape quote '\n' = [backslash, 'n'] := by
      simp [escape, Ne.symm hquote, hbackslash]
    rw [hescaped]
    decide
  · unfold escape
    split
    · simp [hbackslash, Ne.symm hc]
    split
    · decide
    split
    · decide
    split
    · simp [Ne.symm hc]
    · exact newline_not_mem_escapeByCode _

theorem quoteFor_ne_newline (cs : List Char) : quoteFor cs ≠ '\n' := by
  unfold quoteFor
  split <;> decide

/-- A text between quotes has no newline, whatever the text is. -/
theorem isLine_quoted (s : String) : IsLine (quoted s) := by
  have hquote := quoteFor_ne_newline s.toList
  apply isLine_ofList
  simp only [List.mem_append, List.mem_cons, List.mem_flatMap, List.not_mem_nil, or_false, not_or,
    not_exists, not_and]
  exact ⟨⟨Ne.symm hquote, fun c _ => newline_not_mem_escape hquote c⟩, Ne.symm hquote⟩

theorem isLine_intercalate {sep : String} {items : List String} (hsep : IsLine sep)
    (h : ∀ item ∈ items, IsLine item) : IsLine (sep.intercalate items) := by
  rw [IsLine, String.toList_intercalate]
  induction items with
  | nil => exact List.not_mem_nil
  | cons item items ih =>
    obtain ⟨hitem, hitems⟩ := List.forall_mem_cons.mp h
    cases items with
    | nil => simpa [IsLine] using hitem
    | cons next rest =>
      have hrest := ih hitems
      simp only [List.map_cons, List.intercalate_cons_cons, List.mem_append, not_or] at hrest ⊢
      exact ⟨⟨hitem, hsep⟩, hrest⟩

theorem isLine_tupleText {items : List String} (h : ∀ item ∈ items, IsLine item) :
    IsLine (tupleText items) := by
  unfold tupleText
  split
  · exact isLine_append (isLine_append (by decide) (h _ List.mem_cons_self)) (by decide)
  · exact isLine_append (isLine_append (by decide) (isLine_intercalate (by decide) h)) (by decide)

end Text

/-- A character that numbers are written with. -/
def IsNumberChar (c : Char) : Prop :=
  c.isDigit = true ∨ c ∈ ['.', '-', '+', 'e', 'i', 'n', 'f', 'a']

instance : DecidablePred IsNumberChar := fun _ => inferInstanceAs (Decidable (_ ∨ _))

theorem forall_isNumberChar {cs : List Char} (h : cs.all (IsNumberChar ·) = true) :
    ∀ c ∈ cs, IsNumberChar c := fun c hc => of_decide_eq_true (List.all_eq_true.mp h c hc)

namespace Layout

theorem isNumberChar_of_mem_toDigits {n : Nat} : ∀ c ∈ Nat.toDigits 10 n, IsNumberChar c :=
  fun _ hc => .inl (Nat.isDigit_of_mem_toDigits (by decide) (by decide) hc)

theorem isNumberChar_of_mem_zeros (n : Nat) : ∀ c ∈ List.replicate n '0', IsNumberChar c := by
  intro c hc
  rw [List.eq_of_mem_replicate hc]
  decide

theorem isNumberChar_of_mem_positional {digits : List Char} (h : ∀ c ∈ digits, IsNumberChar c)
    (first : Int) : ∀ c ∈ positional digits first, IsNumberChar c := by
  have hzeros := isNumberChar_of_mem_zeros
  have htake : ∀ n, ∀ c ∈ digits.take n, IsNumberChar c :=
    fun _ c hc => h c (List.mem_of_mem_take hc)
  have hdrop : ∀ n, ∀ c ∈ digits.drop n, IsNumberChar c :=
    fun _ c hc => h c (List.mem_of_mem_drop hc)
  unfold positional
  split
  · simp only [List.cons_append, List.forall_mem_cons, List.forall_mem_append]
    exact ⟨by decide, by decide, hzeros _, h⟩
  · simp only [List.forall_mem_cons, List.forall_mem_append]
    refine ⟨⟨htake _, hzeros _⟩, by decide, ?_⟩
    split
    · exact forall_isNumberChar (by decide)
    · exact hdrop _

theorem isNumberChar_of_mem_scientific (l : Layout) {digits : List Char}
    (h : ∀ c ∈ digits, IsNumberChar c) (first : Int) :
    ∀ c ∈ l.scientific digits first, IsNumberChar c := by
  have hsign : IsNumberChar (if first < 0 then '-' else '+') := by split <;> decide
  simp only [scientific, List.forall_mem_cons, List.forall_mem_append]
  refine ⟨⟨?_, by decide, hsign, isNumberChar_of_mem_zeros _⟩, isNumberChar_of_mem_toDigits⟩
  split
  · exact h
  · exact h
  · obtain ⟨hd, hrest⟩ := List.forall_mem_cons.mp h
    simp only [List.forall_mem_cons]
    exact ⟨hd, by decide, hrest⟩

theorem isNumberChar_of_mem_decimal (l : Layout) (d : Decimal) :
    ∀ c ∈ l.decimal d, IsNumberChar c := by
  dsimp only [decimal]
  split
  · exact isNumberChar_of_mem_positional isNumberChar_of_mem_toDigits _
  · exact l.isNumberChar_of_mem_scientific isNumberChar_of_mem_toDigits _

end Layout

open Text

theorem Binary64.isNumberChar_of_mem_text (x : Binary64) : ∀ c ∈ x.text.toList, IsNumberChar c := by
  have hsign : ∀ s : Bool, ∀ c ∈ (if s then "-" else "").toList, IsNumberChar c := by
    intro s
    cases s <;> exact forall_isNumberChar (by decide)
  cases x with
  | nan => exact forall_isNumberChar (by decide)
  | infinity s =>
    change ∀ c ∈ ((if s then "-" else "") ++ "inf").toList, IsNumberChar c
    rw [String.toList_append, List.forall_mem_append]
    exact ⟨hsign s, forall_isNumberChar (by decide)⟩
  | finite s units h =>
    rw [text, Layout.writeBy, String.toList_append, String.toList_ofList, List.forall_mem_append]
    refine ⟨hsign s, ?_⟩
    split
    · exact forall_isNumberChar (by decide)
    · exact Layout.isNumberChar_of_mem_decimal _ _

theorem Binary64.isLine_text (x : Binary64) : IsLine x.text :=
  fun h => absurd (x.isNumberChar_of_mem_text _ h) (by decide)

theorem isLine_poseText {x y theta : String} (hx : IsLine x) (hy : IsLine y) (ht : IsLine theta) :
    IsLine (poseText x y theta) := by
  simp only [poseText, isLine_append_iff, hx, hy, ht]
  decide

theorem Hasher.isLine_text (h : Hasher) : IsLine h.text := by
  have hkind : IsLine h.kind.name := by cases h.kind <;> decide
  have hsizes : IsLine (tupleText (h.cellSizes.map Binary64.text)) := by
    refine isLine_tupleText fun item hitem => ?_
    obtain ⟨x, -, rfl⟩ := List.mem_map.mp hitem
    exact x.isLine_text
  simp only [text, isLine_append_iff, hkind, hsizes, isLine_repr]
  decide

end CellKeys
