import CellKeys.Fault
import Mathlib.Data.List.Forall2

namespace CellKeys

section

variable {α β : Type} {r : Except Fault α} {f : α → Except Fault β}

theorem bind_eq_ok {b : β} (h : r >>= f = .ok b) : ∃ a, r = .ok a ∧ f a = .ok b := by
  cases r with
  | error e => cases h
  | ok a => exact ⟨a, rfl, h⟩

theorem bind_eq_error {e : Fault} (h : r >>= f = .error e) :
    r = .error e ∨ ∃ a, r = .ok a ∧ f a = .error e := by
  cases r with
  | error fault =>
    cases h
    exact .inl rfl
  | ok a => exact .inr ⟨a, rfl, h⟩

end

/-- The result has this property, if there is one. -/
def Gives {α : Type} (r : Except Fault α) (Q : α → Prop) : Prop := ∀ a, r = .ok a → Q a

namespace Gives

variable {α β : Type} {Q : α → Prop} {R : β → Prop}

theorem pure {a : α} (h : Q a) : Gives (Pure.pure a) Q := by
  intro b hb
  cases hb
  exact h

theorem error (e : Fault) (Q : α → Prop) : Gives (.error e) Q := nofun

theorem bind {r : Except Fault α} {f : α → Except Fault β} (hr : Gives r Q)
    (hf : ∀ a, Q a → Gives (f a) R) : Gives (r >>= f) R := by
  intro b hb
  obtain ⟨a, ha, hfa⟩ := bind_eq_ok hb
  exact hf a (hr a ha) b hfa

theorem last {r : Except Fault α} {f : α → Except Fault β} (hf : ∀ a, Gives (f a) R) :
    Gives (r >>= f) R := bind (Q := fun _ => True) (fun _ _ => trivial) fun a _ => hf a

theorem ite {c : Prop} [Decidable c] {r s : Except Fault α} (hr : Gives r Q) (hs : Gives s Q) :
    Gives (if c then r else s) Q := by
  split
  · exact hr
  · exact hs

theorem mapM {f : α → Except Fault β} {as : List α} (h : ∀ a ∈ as, Gives (f a) R) :
    Gives (as.mapM f) fun bs => ∀ b ∈ bs, R b := by
  induction as with
  | nil => exact pure nofun
  | cons a as ih =>
    rw [List.mapM_cons]
    refine bind (h a List.mem_cons_self) fun b hb => ?_
    refine bind (ih fun other hother => h other (List.mem_cons_of_mem _ hother)) fun bs hbs => ?_
    exact pure (List.forall_mem_cons.mpr ⟨hb, hbs⟩)

end Gives

theorem ne_nil_of_length_eq {α β : Type} {as : List α} {bs : List β} (h : as.length = bs.length)
    (hne : bs ≠ []) : as ≠ [] := by
  apply List.ne_nil_of_length_pos
  rw [h]
  exact List.length_pos_iff.mpr hne

theorem forall_of_forall₂ {α β : Type} {R : α → β → Prop} {P : β → Prop} {as : List α} {bs : List β}
    (h : List.Forall₂ R as bs) (hR : ∀ a b, R a b → P b) : ∀ b ∈ bs, P b := by
  induction h with
  | nil => nofun
  | cons hab _ ih => exact List.forall_mem_cons.mpr ⟨hR _ _ hab, ih⟩

theorem forall₂_imp_of_mem {α β : Type} {R S : α → β → Prop} {as : List α} {bs : List β}
    (h : List.Forall₂ R as bs) (hRS : ∀ a, ∀ b ∈ bs, R a b → S a b) : List.Forall₂ S as bs := by
  induction h with
  | nil => exact .nil
  | cons hab _ ih =>
    exact .cons (hRS _ _ List.mem_cons_self hab)
      (ih fun a b hb => hRS a b (List.mem_cons_of_mem _ hb))

/-- A function with a result for each element has the list of these results. -/
theorem mapM_forall₂ {α β γ : Type} {f : α → Except Fault γ} {P : γ → β → Prop} {as : List α}
    {bs : List β} (h : List.Forall₂ (fun a b => ∃ c, f a = .ok c ∧ P c b) as bs) :
    ∃ cs, as.mapM f = .ok cs ∧ List.Forall₂ P cs bs := by
  induction h with
  | nil => exact ⟨[], rfl, .nil⟩
  | cons hab _ ih =>
    obtain ⟨c, hc, hcb⟩ := hab
    obtain ⟨cs, hcs, hrest⟩ := ih
    refine ⟨c :: cs, ?_, .cons hcb hrest⟩
    rw [List.mapM_cons, hc, hcs]
    rfl

theorem mapM_eq_ok {α β γ : Type} {f : α → Except Fault γ} {g : β → γ} {R : α → β → Prop}
    {as : List α} {bs : List β} (h : List.Forall₂ R as bs) (hf : ∀ a b, R a b → f a = .ok (g b)) :
    as.mapM f = .ok (bs.map g) := by
  induction h with
  | nil => rfl
  | cons hab _ ih =>
    rw [List.mapM_cons, hf _ _ hab, ih]
    rfl

theorem mapM_map_eq_ok {α β γ : Type} {f : α → Except Fault γ} {g : β → α} {k : β → γ}
    {bs : List β} (h : ∀ b ∈ bs, f (g b) = .ok (k b)) : (bs.map g).mapM f = .ok (bs.map k) := by
  refine mapM_eq_ok (R := fun a b => b ∈ bs ∧ a = g b) ?_ ?_
  · rw [List.forall₂_map_left_iff, List.forall₂_same]
    exact fun b hb => ⟨hb, rfl⟩
  · rintro _ b ⟨hb, rfl⟩
    exact h b hb

/-- A list of results has the result of each element. -/
theorem forall₂_of_mapM {α β : Type} {f : α → Except Fault β} {as : List α} {bs : List β}
    (h : as.mapM f = .ok bs) : List.Forall₂ (fun a b => f a = .ok b) as bs := by
  induction as generalizing bs with
  | nil =>
    cases h
    exact .nil
  | cons a as ih =>
    rw [List.mapM_cons] at h
    obtain ⟨b, hfirst, h⟩ := bind_eq_ok h
    obtain ⟨rest, hrest, h⟩ := bind_eq_ok h
    cases h
    exact .cons hfirst (ih hrest)

/-- The failure of a list is that of the first element that fails. -/
theorem exists_of_mapM_error {α β : Type} {f : α → Except Fault β} {as : List α} {e : Fault}
    (h : as.mapM f = .error e) :
    ∃ before a after, as = before ++ a :: after ∧ (∀ other ∈ before, ∃ b, f other = .ok b) ∧
      f a = .error e := by
  induction as with
  | nil => cases h
  | cons a as ih =>
    rw [List.mapM_cons] at h
    rcases bind_eq_error h with hfirst | ⟨b, hfirst, h⟩
    · exact ⟨[], a, as, rfl, nofun, hfirst⟩
    · rcases bind_eq_error h with hrest | ⟨rest, -, h⟩
      · obtain ⟨before, other, after, rfl, hbefore, hother⟩ := ih hrest
        have hread := List.forall_mem_cons.mpr ⟨⟨b, hfirst⟩, hbefore⟩
        exact ⟨a :: before, other, after, rfl, hread, hother⟩
      · cases h

/-- A function that fails in the same way on all elements with a property fails so on a list that
    holds one of them. -/
theorem mapM_eq_error {α β γ : Type} {f : α → Except Fault γ} {R : α → β → Prop} {P : β → Prop}
    {e : Fault} {as : List α} {bs : List β} (h : List.Forall₂ R as bs)
    (hok : ∀ a b, R a b → ¬ P b → ∃ c, f a = .ok c) (hfail : ∀ a b, R a b → P b → f a = .error e)
    (hex : ∃ b ∈ bs, P b) : as.mapM f = .error e := by
  induction h with
  | nil =>
    obtain ⟨b, hb, -⟩ := hex
    cases hb
  | @cons a b as bs hab _ ih =>
    rw [List.mapM_cons]
    by_cases hb : P b
    · rw [hfail a b hab hb]
      rfl
    · obtain ⟨c, hc⟩ := hok a b hab hb
      obtain ⟨other, hmem, hother⟩ := hex
      have hrest : other ∈ bs := by
        rcases List.mem_cons.mp hmem with rfl | hrest
        · exact absurd hother hb
        · exact hrest
      rw [hc, ih ⟨other, hrest, hother⟩]
      rfl

end CellKeys
