import Mathlib.Data.List.Count
import Mathlib.Order.Lattice
import Mathlib.Order.Nat
/-!
# Free places and largest places

Places on a line are numbers, some of them taken. `FirstFree` is the first free place from a place on,
and there is one at most; `largest` is the largest number of a list, `0` for none.
-/

namespace Slots

/-! ## The first free place -/

/-- The place is free, and all places from the start to it are taken. -/
structure FirstFree (taken : Nat → Prop) (start place : Nat) : Prop where
  start_le : start ≤ place
  taken_before : ∀ other, start ≤ other → other < place → taken other
  free : ¬ taken place

variable {taken taken' : Nat → Prop} {start place other : Nat}

theorem FirstFree.unique (h : FirstFree taken start place) (h' : FirstFree taken start other) :
    place = other := by
  rcases Nat.lt_trichotomy place other with hlt | rfl | hlt
  · exact absurd (h'.taken_before place h.start_le hlt) h.free
  · rfl
  · exact absurd (h.taken_before other h'.start_le hlt) h'.free

theorem FirstFree.of_free (h : ¬ taken start) : FirstFree taken start start :=
  ⟨Nat.le_refl start, fun _ hle hlt => absurd hlt (Nat.not_lt.mpr hle), h⟩

/-- Where all places from the start to a later one are taken, the search goes on from there. -/
theorem FirstFree.later (h : FirstFree taken other place) (hle : start ≤ other)
    (htaken : ∀ between, start ≤ between → between < other → taken between) :
    FirstFree taken start place := by
  refine ⟨Nat.le_trans hle h.start_le, fun between hstart hplace => ?_, h.free⟩
  rcases Nat.lt_or_ge between other with hlt | hge
  · exact htaken between hstart hlt
  · exact h.taken_before between hge hplace

theorem FirstFree.congr (h : FirstFree taken start place) (hiff : ∀ other, taken other ↔ taken' other) :
    FirstFree taken' start place :=
  ⟨h.start_le, fun other hle hlt => (hiff other).mp (h.taken_before other hle hlt),
    fun htaken => h.free ((hiff place).mpr htaken)⟩

/-- Fewer elements satisfy a condition that is stronger and that one of them does not satisfy. -/
theorem countP_lt {α : Type} {p q : α → Bool} {l : List α} (himp : ∀ a ∈ l, p a = true → q a = true)
    {a : α} (ha : a ∈ l) (hq : q a = true) (hp : p a = false) : l.countP p < l.countP q := by
  induction l with
  | nil => exact absurd ha List.not_mem_nil
  | cons b l ih =>
    have hrest := List.countP_mono_left fun a ha => himp a (List.mem_cons_of_mem b ha)
    rw [List.countP_cons, List.countP_cons]
    rcases List.mem_cons.mp ha with rfl | ha
    · rw [if_neg (by simp [hp]), if_pos hq]
      omega
    · have hlt := ih (fun a ha => himp a (List.mem_cons_of_mem b ha)) ha
      have hb := himp b List.mem_cons_self
      split
      · rename_i hpb
        rw [if_pos (hb hpb)]
        omega
      · split <;> omega

/-! ## The largest number -/

/-- The largest number of a list. -/
def largest (l : List Nat) : Nat :=
  l.foldl max 0

theorem foldl_max (a : Nat) (l : List Nat) : l.foldl max a = max a (largest l) := by
  induction l generalizing a with
  | nil => exact (Nat.max_zero a).symm
  | cons b l ih =>
    unfold largest
    rw [List.foldl_cons, List.foldl_cons, ih, ih (max 0 b), Nat.zero_max, Nat.max_assoc]

@[simp] theorem largest_nil : largest [] = 0 := rfl

@[simp] theorem largest_cons (a : Nat) (l : List Nat) : largest (a :: l) = max a (largest l) := by
  unfold largest
  rw [List.foldl_cons, foldl_max, Nat.zero_max]
  rfl

theorem largest_le_iff {l : List Nat} {bound : Nat} : largest l ≤ bound ↔ ∀ a ∈ l, a ≤ bound := by
  induction l with
  | nil => simp
  | cons a l ih => rw [largest_cons, Nat.max_le, ih, List.forall_mem_cons]

theorem le_largest {l : List Nat} {a : Nat} (h : a ∈ l) : a ≤ largest l :=
  largest_le_iff.mp (Nat.le_refl _) a h

theorem largest_mem {l : List Nat} (h : l ≠ []) : largest l ∈ l := by
  induction l with
  | nil => exact absurd rfl h
  | cons a l ih =>
    rw [largest_cons]
    by_cases hl : l = []
    · simp [hl]
    · rcases Nat.le_total a (largest l) with hle | hle
      · rw [Nat.max_eq_right hle]
        exact List.mem_cons_of_mem a (ih hl)
      · rw [Nat.max_eq_left hle]
        exact List.mem_cons_self

end Slots
