import Mathlib.Data.List.Infix
import Mathlib.Algebra.Ring.Int.Defs
import Mathlib.Algebra.Ring.Nat
/-!
# Searching a list for a window

`findWindow` is the first position at which a needle occurs. `findWindow_eq_some_iff` and
`findWindow_eq_none_iff` say so without the recursion, and `occurs_window` tells which occurrences
of a list are visible through a window of it: the tool for searches that read a list in pieces.
-/

namespace Search

variable {α : Type} [DecidableEq α]

/-- The first position at which `needle` occurs. -/
def findWindow (needle : List α) : List α → Option Nat
  | [] => none
  | a :: rest =>
    if needle.isPrefixOf (a :: rest) then some 0 else (findWindow needle rest).map (· + 1)

omit [DecidableEq α] in
/-- `needle` occurs in `hay` at position `i`. -/
def Occurs (needle hay : List α) (i : Nat) : Prop :=
  needle <+: hay.drop i

omit [DecidableEq α] in
theorem Occurs.add_length_le {needle hay : List α} {i : Nat} (h : Occurs needle hay i)
    (hne : needle ≠ []) : i + needle.length ≤ hay.length := by
  have hlen := h.length_le
  have hpos := List.length_pos_iff.mpr hne
  rw [List.length_drop] at hlen
  omega

theorem findWindow_eq_some_iff {needle hay : List α} (hne : needle ≠ []) {i : Nat} :
    findWindow needle hay = some i
      ↔ Occurs needle hay i ∧ ∀ j < i, ¬ Occurs needle hay j := by
  induction hay generalizing i with
  | nil =>
    constructor
    · intro h
      cases h
    · rintro ⟨h, -⟩
      have hle := h.add_length_le hne
      have hpos := List.length_pos_iff.mpr hne
      simp only [List.length_nil] at hle
      omega
  | cons a rest ih =>
    simp only [findWindow]
    by_cases hpre : needle.isPrefixOf (a :: rest)
    · rw [if_pos hpre]
      have h0 : Occurs needle (a :: rest) 0 := List.isPrefixOf_iff_prefix.mp hpre
      constructor
      · intro h
        cases h
        exact ⟨h0, fun j hj => by omega⟩
      · rintro ⟨-, hmin⟩
        cases i with
        | zero => rfl
        | succ i => exact absurd h0 (hmin 0 (by omega))
    · rw [if_neg hpre]
      have h0 : ¬ Occurs needle (a :: rest) 0 := fun h =>
        hpre (List.isPrefixOf_iff_prefix.mpr h)
      constructor
      · intro h
        obtain ⟨k, hk, rfl⟩ := Option.map_eq_some_iff.mp h
        obtain ⟨hocc, hmin⟩ := ih.mp hk
        refine ⟨hocc, fun j hj => ?_⟩
        cases j with
        | zero => exact h0
        | succ j => exact hmin j (by omega)
      · rintro ⟨hocc, hmin⟩
        cases i with
        | zero => exact absurd hocc h0
        | succ i =>
          rw [ih.mpr ⟨hocc, fun j hj => hmin (j + 1) (by omega)⟩]
          rfl

theorem findWindow_eq_none_iff {needle hay : List α} (hne : needle ≠ []) :
    findWindow needle hay = none ↔ ∀ i, ¬ Occurs needle hay i := by
  constructor
  · intro h i hocc
    induction i using Nat.strong_induction_on with
    | _ i ih =>
      have := (findWindow_eq_some_iff hne).mpr ⟨hocc, fun j hj hj' => ih j hj hj'⟩
      rw [h] at this
      cases this
  · intro h
    cases hf : findWindow needle hay with
    | none => rfl
    | some i => exact absurd ((findWindow_eq_some_iff hne).mp hf).1 (h i)

omit [DecidableEq α] in
/-- The occurrences in the window between `d` and `m` are those of the whole list that lie in it. -/
theorem occurs_window {needle hay : List α} (hne : needle ≠ []) {d m i : Nat} :
    Occurs needle ((hay.take m).drop d) i
      ↔ Occurs needle hay (d + i) ∧ d + i + needle.length ≤ m := by
  unfold Occurs
  rw [List.drop_drop, List.drop_take]
  constructor
  · intro h
    have hle : needle.length ≤ m - (d + i) := by
      have := h.length_le
      rw [List.length_take] at this
      omega
    have hpos := List.length_pos_iff.mpr hne
    exact ⟨h.trans (List.take_prefix _ _), by omega⟩
  · rintro ⟨h, hle⟩
    exact List.prefix_take_iff.mpr ⟨h, by omega⟩

/-- Reading a list up to `m` through a window that starts at `d` misses nothing, when no occurrence
ends at or before `k` and the window overlaps the part before `k` by all but one element of the
needle: what the window shows is the first occurrence of the whole list. -/
theorem findWindow_of_window {needle hay : List α} (hne : needle ≠ []) {d k m i : Nat}
    (hd : d + needle.length ≤ k + 1 ∨ d = 0)
    (hfree : ∀ j, Occurs needle hay j → k < j + needle.length)
    (hi : findWindow needle ((hay.take m).drop d) = some i) :
    findWindow needle hay = some (d + i) := by
  rw [findWindow_eq_some_iff hne] at hi ⊢
  obtain ⟨hocc, hmin⟩ := hi
  obtain ⟨hocc, hend⟩ := (occurs_window hne).mp hocc
  refine ⟨hocc, fun j hj hj' => ?_⟩
  have hlate := hfree j hj'
  refine hmin (j - d) (by omega) ((occurs_window hne).mpr ⟨?_, by omega⟩)
  rwa [Nat.add_sub_cancel' (by omega)]

/-- When the window shows nothing, no occurrence ends at or before `m`. -/
theorem free_of_window {needle hay : List α} (hne : needle ≠ []) {d k m : Nat}
    (hd : d + needle.length ≤ k + 1 ∨ d = 0)
    (hfree : ∀ j, Occurs needle hay j → k < j + needle.length)
    (hnone : findWindow needle ((hay.take m).drop d) = none) (j : Nat)
    (hj : Occurs needle hay j) : m < j + needle.length := by
  by_contra hle
  have hlate := hfree j hj
  refine (findWindow_eq_none_iff hne).mp hnone (j - d)
    ((occurs_window hne).mpr ⟨?_, by omega⟩)
  rwa [Nat.add_sub_cancel' (by omega)]

/-! ## Needles that do not overlap themselves -/

section Overlap

omit [DecidableEq α]

/-- No proper part at the end of the needle is a beginning of it. -/
def Unbordered (needle : List α) : Prop :=
  ∀ k, 0 < k → k < needle.length → needle.drop k ≠ needle.take (needle.length - k)

/-- Two occurrences of a needle without borders do not overlap. -/
theorem Unbordered.apart {needle hay : List α} (h : Unbordered needle) {i j : Nat} (hij : i < j)
    (hi : Occurs needle hay i) (hj : Occurs needle hay j) : i + needle.length ≤ j := by
  by_contra hover
  refine h (j - i) (by omega) (by omega) ?_
  have hsuffix : needle.drop (j - i) <+: hay.drop j := by
    have hdrop := hi.drop (j - i)
    rwa [List.drop_drop, Nat.add_sub_cancel' (by omega)] at hdrop
  have hbegin : needle.take (needle.length - (j - i)) <+: hay.drop j :=
    (List.take_prefix _ _).trans hj
  refine (List.prefix_of_prefix_length_le hsuffix hbegin ?_).eq_of_length ?_
  · rw [List.length_drop, List.length_take]
    omega
  · rw [List.length_drop, List.length_take]
    omega

/-- An occurrence that ends before the tail is one without it. -/
theorem Occurs.of_append {needle hay tail : List α} {i : Nat} (h : Occurs needle (hay ++ tail) i)
    (hle : i + needle.length ≤ hay.length) : Occurs needle hay i := by
  unfold Occurs at h ⊢
  rw [List.drop_append_of_le_length (by omega)] at h
  exact List.prefix_of_prefix_length_le h (List.prefix_append _ _) (by rw [List.length_drop]; omega)

/-- A tail of elements that are not in the needle brings no occurrence. -/
theorem Occurs.of_append_of_notMem {needle hay tail : List α} {i : Nat}
    (h : Occurs needle (hay ++ tail) i) (hne : needle ≠ []) (htail : ∀ a ∈ tail, a ∉ needle) :
    Occurs needle hay i := by
  refine h.of_append ?_
  by_contra hover
  have hlen := h.add_length_le hne
  have hpos := List.length_pos_iff.mpr hne
  rw [List.length_append] at hlen
  -- the last element of the needle lies in the tail
  have hlast : needle[needle.length - 1]? = tail[i + needle.length - 1 - hay.length]? := by
    obtain ⟨more, hmore⟩ := h
    have hread : (needle ++ more)[needle.length - 1]? = (hay ++ tail)[i + needle.length - 1]? := by
      rw [hmore, List.getElem?_drop]
      congr 1
      omega
    rwa [List.getElem?_append_left (by omega), List.getElem?_append_right (by omega)] at hread
  have hbound : i + needle.length - 1 - hay.length < tail.length := by omega
  rw [List.getElem?_eq_getElem hbound] at hlast
  exact htail _ (List.getElem_mem hbound) (List.mem_of_getElem? hlast)

end Overlap

/-- The needle after a text in which it does not occur is its first occurrence. -/
theorem findWindow_after {needle front rest : List α} (h : Unbordered needle) (hne : needle ≠ [])
    (hfront : ∀ i, ¬ Occurs needle front i) :
    findWindow needle (front ++ (needle ++ rest)) = some front.length := by
  have hhere : Occurs needle (front ++ (needle ++ rest)) front.length := by
    rw [Occurs, List.drop_left]
    exact List.prefix_append needle rest
  refine (findWindow_eq_some_iff hne).mpr ⟨hhere, fun i hi hocc => ?_⟩
  exact hfront i (hocc.of_append (h.apart hi hocc hhere))

end Search
