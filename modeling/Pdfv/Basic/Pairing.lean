import Mathlib.Data.List.Forall2
/-!
# Lists that are related element by element

How `List.Forall₂` goes through concatenation (`append_iff`, `append_left`), when the parts of two
concatenations are equal one by one (`of_flatMap_eq`), and that two images decide a list when together
they decide its elements (`eq_of_maps`).
-/

namespace Pairing

variable {α β γ δ : Type} {R : α → β → Prop}

theorem append_iff {l l' : List α} {m m' : List β} (hlength : l.length = m.length) :
    List.Forall₂ R (l ++ l') (m ++ m') ↔ List.Forall₂ R l m ∧ List.Forall₂ R l' m' := by
  constructor
  · intro h
    have hfirst := List.forall₂_take_append _ _ _ h
    have hrest := List.forall₂_drop_append _ _ _ h
    rw [List.take_left' hlength] at hfirst
    rw [List.drop_left' hlength] at hrest
    exact ⟨hfirst, hrest⟩
  · exact fun h => List.rel_append h.1 h.2

theorem append_left {first second : List α} {values : List β}
    (h : List.Forall₂ R (first ++ second) values) : ∃ front rest, values = front ++ rest
      ∧ List.Forall₂ R first front ∧ List.Forall₂ R second rest := by
  induction first generalizing values with
  | nil => exact ⟨[], values, rfl, .nil, h⟩
  | cons a first ih =>
    obtain ⟨value, more, hvalue, hmore, rfl⟩ := List.forall₂_cons_left_iff.mp h
    obtain ⟨front, rest, rfl, hfront, hrest⟩ := ih hmore
    exact ⟨value :: front, rest, rfl, .cons hvalue hfront, hrest⟩

section Parts

variable {f : α → List γ} {g : β → List γ} {l : List α} {m : List β}

/-- Parts that are no longer make a list that is no longer. -/
theorem length_flatMap_le (hlength : ∀ a b, R a b → (g b).length ≤ (f a).length)
    (h : List.Forall₂ R l m) : (m.flatMap g).length ≤ (l.flatMap f).length := by
  induction h with
  | nil => exact Nat.le_refl _
  | cons hab _ ih =>
    rw [List.flatMap_cons, List.flatMap_cons, List.length_append, List.length_append]
    exact Nat.add_le_add (hlength _ _ hab) ih

/-- Lists made of parts that are no longer than those of another one are equal to it part by part. -/
theorem of_flatMap_eq (hlength : ∀ a b, R a b → (g b).length ≤ (f a).length)
    (h : List.Forall₂ R l m) (heq : l.flatMap f = m.flatMap g) :
    List.Forall₂ (fun a b => f a = g b) l m := by
  induction h with
  | nil => exact .nil
  | @cons a b l m hab hrest ih =>
    rw [List.flatMap_cons, List.flatMap_cons] at heq
    have hfirst := hlength a b hab
    have hothers := length_flatMap_le hlength hrest
    have hlengths := congrArg List.length heq
    rw [List.length_append, List.length_append] at hlengths
    obtain ⟨hparts, htails⟩ := List.append_inj heq (by omega)
    exact .cons hparts (ih htails)

end Parts

/-- Two images of a list decide it when together they decide its elements. -/
theorem eq_of_maps {f : α → γ} {g : α → δ} (hinj : ∀ a b, f a = f b → g a = g b → a = b)
    {l m : List α} (hf : l.map f = m.map f) (hg : l.map g = m.map g) : l = m := by
  induction l generalizing m with
  | nil => exact (List.map_eq_nil_iff.mp hf.symm).symm
  | cons a l ih =>
    cases m with
    | nil => cases hf
    | cons b m =>
      obtain ⟨hfirst, hrest⟩ := List.cons.inj hf
      obtain ⟨hfirst', hrest'⟩ := List.cons.inj hg
      rw [hinj a b hfirst hfirst', ih hrest hrest']

end Pairing
