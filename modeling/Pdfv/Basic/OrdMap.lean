import Mathlib.Data.List.Forall2
import Mathlib.Algebra.Ring.Int.Defs
import Mathlib.Algebra.Ring.Nat
/-!
# Ordered association lists

A `BTreeMap` is a list of entries with strictly increasing keys. `insert` and `lookup` work on the
bare list, so that an inductive type can nest them; `OrdMap` is the list together with the proof
that it is sorted, and two maps with the same lookups are equal (`OrdMap.ext_lookup`).
-/

namespace OrdList

variable {α β γ : Type} [Ord α]

/-- The value of the first entry with the given key. -/
def lookup (k : α) : List (α × β) → Option β
  | [] => none
  | (k', v) :: rest => if compare k k' = .eq then some v else lookup k rest

/-- Inserts an entry at its place, replacing the value of an equal key. -/
def insert (k : α) (v : β) : List (α × β) → List (α × β)
  | [] => [(k, v)]
  | (k', v') :: rest =>
    match compare k k' with
    | .lt => (k, v) :: (k', v') :: rest
    | .eq => (k, v) :: rest
    | .gt => (k', v') :: insert k v rest

/-- Strictly increasing keys. -/
def Sorted (l : List (α × β)) : Prop :=
  l.Pairwise fun a b => compare a.1 b.1 = .lt

@[simp] theorem lookup_nil (k : α) : lookup k ([] : List (α × β)) = none := rfl

theorem lookup_cons (k k' : α) (v : β) (rest : List (α × β)) :
    lookup k ((k', v) :: rest) = if compare k k' = .eq then some v else lookup k rest := rfl

theorem sorted_nil : Sorted ([] : List (α × β)) := List.Pairwise.nil

theorem sorted_cons {e : α × β} {l : List (α × β)} :
    Sorted (e :: l) ↔ (∀ e' ∈ l, compare e.1 e'.1 = .lt) ∧ Sorted l :=
  List.pairwise_cons

theorem mem_insert {k : α} {v : β} {e : α × β} {l : List (α × β)} (h : e ∈ insert k v l) :
    e = (k, v) ∨ e ∈ l := by
  induction l with
  | nil => simpa [insert] using h
  | cons hd rest ih =>
    obtain ⟨k', v'⟩ := hd
    simp only [insert] at h
    split at h
    · simpa using h
    · rcases List.mem_cons.mp h with h | h
      · exact .inl h
      · exact .inr (List.mem_cons_of_mem _ h)
    · rcases List.mem_cons.mp h with h | h
      · exact .inr (h ▸ List.mem_cons_self)
      · rcases ih h with h | h
        · exact .inl h
        · exact .inr (List.mem_cons_of_mem _ h)

theorem length_insert_le (k : α) (v : β) (l : List (α × β)) :
    (insert k v l).length ≤ l.length + 1 := by
  induction l with
  | nil => simp [insert]
  | cons hd rest ih =>
    simp only [insert]
    split
    · simp
    · simp
    · simpa using ih

theorem lookup_eq_none_of_lt {k : α} {l : List (α × β)}
    (h : ∀ e ∈ l, compare k e.1 = .lt) : lookup k l = none := by
  induction l with
  | nil => rfl
  | cons hd rest ih =>
    have hlt := h hd List.mem_cons_self
    simp only [lookup, hlt, reduceCtorEq, if_false]
    exact ih fun e he => h e (List.mem_cons_of_mem _ he)

section LawfulEq

variable [Std.LawfulEqOrd α]

theorem lookup_insert_self (k : α) (v : β) (l : List (α × β)) :
    lookup k (insert k v l) = some v := by
  induction l with
  | nil => simp [insert, lookup]
  | cons hd rest ih =>
    obtain ⟨k', v'⟩ := hd
    simp only [insert]
    split
    · simp [lookup]
    · simp [lookup]
    · rename_i h
      simp [lookup, h, ih]

theorem lookup_insert_of_ne {k k₀ : α} (hne : k ≠ k₀) (v : β) (l : List (α × β)) :
    lookup k (insert k₀ v l) = lookup k l := by
  have hcmp : compare k k₀ ≠ .eq := fun h => hne (Std.compare_eq_iff_eq.mp h)
  induction l with
  | nil => simp [insert, lookup, hcmp]
  | cons hd rest ih =>
    obtain ⟨k', v'⟩ := hd
    simp only [insert]
    split
    · simp [lookup, hcmp]
    · rename_i h
      rw [← Std.compare_eq_iff_eq.mp h]
      simp [lookup, hcmp]
    · simp only [lookup, ih]

theorem lookup_insert [DecidableEq α] (k k₀ : α) (v : β) (l : List (α × β)) :
    lookup k (insert k₀ v l) = if k = k₀ then some v else lookup k l := by
  split
  · rename_i h
    rw [h, lookup_insert_self]
  · rename_i h
    rw [lookup_insert_of_ne h]

theorem lookup_of_mem {k : α} {v : β} {l : List (α × β)} (hs : Sorted l) (h : (k, v) ∈ l) :
    lookup k l = some v := by
  induction l with
  | nil => cases h
  | cons hd rest ih =>
    obtain ⟨k', v'⟩ := hd
    obtain ⟨hlt, hrest⟩ := sorted_cons.mp hs
    rcases List.mem_cons.mp h with h | h
    · cases h
      simp [lookup]
    · have hk := hlt _ h
      have hne : compare k k' ≠ .eq := by
        intro he
        rw [Std.compare_eq_iff_eq.mp he, Std.compare_self] at hk
        cases hk
      rw [lookup, if_neg hne]
      exact ih hrest h

theorem mem_of_lookup {k : α} {v : β} {l : List (α × β)} (h : lookup k l = some v) :
    (k, v) ∈ l := by
  induction l with
  | nil => cases h
  | cons hd rest ih =>
    obtain ⟨k', v'⟩ := hd
    simp only [lookup] at h
    split at h
    · rename_i hk
      rw [Std.compare_eq_iff_eq.mp hk]
      cases h
      exact List.mem_cons_self
    · exact List.mem_cons_of_mem _ (ih h)

end LawfulEq

section Lawful

variable [Std.TransOrd α] [Std.LawfulEqOrd α]

theorem sorted_insert (k : α) (v : β) {l : List (α × β)} (h : Sorted l) :
    Sorted (insert k v l) := by
  induction l with
  | nil => simp [insert, Sorted]
  | cons hd rest ih =>
    obtain ⟨k', v'⟩ := hd
    obtain ⟨hlt, hrest⟩ := sorted_cons.mp h
    simp only [insert]
    split
    · rename_i hk
      refine sorted_cons.mpr ⟨fun e he => ?_, h⟩
      rcases List.mem_cons.mp he with rfl | he
      · exact hk
      · exact Std.TransCmp.lt_trans hk (hlt e he)
    · rename_i hk
      rw [Std.compare_eq_iff_eq.mp hk]
      exact sorted_cons.mpr ⟨hlt, hrest⟩
    · rename_i hk
      refine sorted_cons.mpr ⟨fun e he => ?_, ih hrest⟩
      rcases mem_insert he with rfl | he
      · exact Std.OrientedCmp.gt_iff_lt.mp hk
      · exact hlt e he

omit [Std.LawfulEqOrd α] in
/-- A key above all others is inserted at the end. -/
theorem insert_last {k : α} (v : β) {l : List (α × β)} (h : ∀ e ∈ l, compare e.1 k = .lt) :
    insert k v l = l ++ [(k, v)] := by
  induction l with
  | nil => rfl
  | cons hd rest ih =>
    obtain ⟨k', v'⟩ := hd
    have hgt : compare k k' = .gt := Std.OrientedCmp.gt_iff_lt.mpr (h (k', v') List.mem_cons_self)
    rw [insert, hgt]
    dsimp only
    rw [ih fun e he => h e (List.mem_cons_of_mem _ he), List.cons_append]

/-- Sorted lists with the same lookups are the same list. -/
theorem eq_of_lookup_eq {l l' : List (α × β)} (hs : Sorted l) (hs' : Sorted l')
    (h : ∀ k, lookup k l = lookup k l') : l = l' := by
  induction l generalizing l' with
  | nil =>
    cases l' with
    | nil => rfl
    | cons hd rest =>
      have := h hd.1
      simp [lookup] at this
  | cons hd rest ih =>
    obtain ⟨k, v⟩ := hd
    obtain ⟨hlt, hrest⟩ := sorted_cons.mp hs
    cases l' with
    | nil =>
      have := h k
      simp [lookup] at this
    | cons hd' rest' =>
      obtain ⟨k', v'⟩ := hd'
      obtain ⟨hlt', hrest'⟩ := sorted_cons.mp hs'
      have hmem : (k, v) ∈ (k', v') :: rest' :=
        mem_of_lookup (by rw [← h k]; simp [lookup])
      have hmem' : (k', v') ∈ (k, v) :: rest :=
        mem_of_lookup (by rw [h k']; simp [lookup])
      have hhead : (k, v) = (k', v') := by
        rcases List.mem_cons.mp hmem with he | hm
        · exact he
        rcases List.mem_cons.mp hmem' with he | hm'
        · exact he.symm
        have hcyc : compare k k = .lt :=
          Std.TransCmp.lt_trans (hlt _ hm') (hlt' _ hm)
        rw [Std.compare_self] at hcyc
        cases hcyc
      cases hhead
      congr 1
      refine ih hrest hrest' fun k₀ => ?_
      have hk₀ := h k₀
      simp only [lookup] at hk₀
      by_cases heq : compare k₀ k = .eq
      · have hke := Std.compare_eq_iff_eq.mp heq
        rw [hke, lookup_eq_none_of_lt hlt, lookup_eq_none_of_lt hlt']
      · simpa [heq] using hk₀

end Lawful

/-- Rewrites the values in key order with an operation that may fail part of the way: the entries
after the failing one keep their values. -/
def mutateValues {ε : Type} (f : β → β × Option ε) : List (α × β) → List (α × β) × Option ε
  | [] => ([], none)
  | (k, v) :: rest =>
    match f v with
    | (v', some e) => ((k, v') :: rest, some e)
    | (v', none) =>
      let (rest', e) := mutateValues f rest
      ((k, v') :: rest', e)

omit [Ord α] in
theorem keys_mutateValues {ε : Type} (f : β → β × Option ε) (l : List (α × β)) :
    (mutateValues f l).1.map Prod.fst = l.map Prod.fst := by
  induction l with
  | nil => rfl
  | cons hd rest ih =>
    simp only [mutateValues]
    split
    · rfl
    · simp only [List.map_cons, ih]

theorem sorted_iff_keys (l : List (α × β)) :
    Sorted l ↔ (l.map Prod.fst).Pairwise fun a b => compare a b = .lt := by
  rw [List.pairwise_map]
  rfl

theorem sorted_mutateValues {ε : Type} (f : β → β × Option ε) {l : List (α × β)} (h : Sorted l) :
    Sorted (mutateValues f l).1 := by
  rw [sorted_iff_keys, keys_mutateValues, ← sorted_iff_keys]
  exact h

omit [Ord α] in
/-- An entry afterwards is an entry of the list, or one with its value rewritten. -/
theorem mem_mutateValues {ε : Type} {f : β → β × Option ε} {l : List (α × β)} {e : α × β}
    (h : e ∈ (mutateValues f l).1) : e ∈ l ∨ ∃ entry ∈ l, e = (entry.1, (f entry.2).1) := by
  induction l with
  | nil => cases h
  | cons hd rest ih =>
    obtain ⟨k, v⟩ := hd
    have hhead : ∀ v', (f v).1 = v' → e = (k, v') →
        ∃ entry ∈ (k, v) :: rest, e = (entry.1, (f entry.2).1) := by
      rintro v' hv rfl
      exact ⟨(k, v), List.mem_cons_self, by rw [hv]⟩
    simp only [mutateValues] at h
    split at h
    · rename_i v' e' hv
      rcases List.mem_cons.mp h with he | he
      · exact .inr (hhead v' (by rw [hv]) he)
      · exact .inl (List.mem_cons_of_mem _ he)
    · rename_i v' hv
      rcases List.mem_cons.mp h with he | he
      · exact .inr (hhead v' (by rw [hv]) he)
      · rcases ih he with hold | ⟨entry, hentry, hnew⟩
        · exact .inl (List.mem_cons_of_mem _ hold)
        · exact .inr ⟨entry, List.mem_cons_of_mem _ hentry, hnew⟩

omit [Ord α] in
/-- The error is the operation's own error on some value. -/
theorem mutateValues_error {ε : Type} {f : β → β × Option ε} {l : List (α × β)} {e : ε}
    (h : (mutateValues f l).2 = some e) : ∃ entry ∈ l, (f entry.2).2 = some e := by
  induction l with
  | nil => cases h
  | cons hd rest ih =>
    obtain ⟨k, v⟩ := hd
    simp only [mutateValues] at h
    split at h
    · rename_i v' e' hv
      refine ⟨(k, v), List.mem_cons_self, ?_⟩
      rw [hv]
      exact h
    · obtain ⟨entry, hentry, he⟩ := ih h
      exact ⟨entry, List.mem_cons_of_mem _ hentry, he⟩

/-! ## Related entry lists -/

/-- The same keys in the same order, with related values. -/
def Related {γ : Type} (R : β → γ → Prop) (l : List (α × β)) (l' : List (α × γ)) : Prop :=
  List.Forall₂ (fun e e' => e.1 = e'.1 ∧ R e.2 e'.2) l l'

namespace Related

variable {γ : Type} {R : β → γ → Prop} {l : List (α × β)} {l' : List (α × γ)}

theorem lookup (h : Related R l l') (k : α) :
    Option.Rel R (OrdList.lookup k l) (OrdList.lookup k l') := by
  induction h with
  | nil => exact Option.Rel.none
  | @cons e e' l l' he _ ih =>
    obtain ⟨hk, hv⟩ := he
    obtain ⟨k₁, v⟩ := e
    obtain ⟨k₂, v'⟩ := e'
    cases hk
    simp only [OrdList.lookup]
    split
    · exact Option.Rel.some hv
    · exact ih

omit [Ord α] in
theorem mutateValues {ε : Type} {f : β → β × Option ε} {g : γ → γ × Option ε} (h : Related R l l')
    (hfg : ∀ v v', R v v' → R (f v).1 (g v').1 ∧ (f v).2 = (g v').2) :
    Related R (OrdList.mutateValues f l).1 (OrdList.mutateValues g l').1
      ∧ (OrdList.mutateValues f l).2 = (OrdList.mutateValues g l').2 := by
  induction h with
  | nil => exact ⟨List.Forall₂.nil, rfl⟩
  | @cons e e' l l' he hl ih =>
    obtain ⟨hk, hv⟩ := he
    obtain ⟨k₁, v⟩ := e
    obtain ⟨k₂, v'⟩ := e'
    cases hk
    obtain ⟨hvalue, herror⟩ := hfg v v' hv
    obtain ⟨ihl, ihe⟩ := ih
    cases hf : f v with
    | mk fv fe =>
      cases hg : g v' with
      | mk gv ge =>
        rw [hf, hg] at hvalue herror
        cases herror
        simp only [OrdList.mutateValues, hf, hg]
        cases fe with
        | some e => exact ⟨List.Forall₂.cons ⟨rfl, hvalue⟩ hl, rfl⟩
        | none => exact ⟨List.Forall₂.cons ⟨rfl, hvalue⟩ ihl, ihe⟩

omit [Ord α] in
/-- An operation that turns each value into its partner turns the list into its partner. -/
theorem mutateValues_eq {ε : Type} {f : γ → γ × Option ε} {R : γ → γ → Prop} {l l' : List (α × γ)}
    (h : Related R l l') (hf : ∀ v v', R v v' → f v' = (v, none)) :
    OrdList.mutateValues f l' = (l, none) := by
  induction h with
  | nil => rfl
  | @cons e e' l l' he _ ih =>
    obtain ⟨k, v⟩ := e
    obtain ⟨k', v'⟩ := e'
    obtain ⟨hk, hv⟩ := he
    dsimp only at hk hv
    subst hk
    simp only [OrdList.mutateValues, hf v v' hv, ih]

omit [Ord α] in
theorem refl {R : β → β → Prop} (hrefl : ∀ v, R v v) (l : List (α × β)) : Related R l l :=
  List.forall₂_same.mpr fun e _ => ⟨rfl, hrefl e.2⟩

omit [Ord α] in
/-- The values are related to what an operation leaves when each value it comes to is related to its
result; it comes to a value when it fails on none before. -/
theorem mutateValues_iff {ε : Type} {f : β → β × Option ε} {R : β → β → Prop}
    (hrefl : ∀ v, R v v) (l : List (α × β)) :
    Related R l (OrdList.mutateValues f l).1
      ↔ ∀ before entry after, l = before ++ entry :: after →
        (∀ e ∈ before, (f e.2).2 = none) → R entry.2 (f entry.2).1 := by
  induction l with
  | nil =>
    refine iff_of_true .nil fun before entry after heq => ?_
    simp at heq
  | cons hd rest ih =>
    obtain ⟨k, v⟩ := hd
    have hfirst : (∀ before entry after, (k, v) :: rest = before ++ entry :: after →
        (∀ e ∈ before, (f e.2).2 = none) → R entry.2 (f entry.2).1)
        ↔ R v (f v).1 ∧ ((f v).2 = none → ∀ before entry after, rest = before ++ entry :: after →
          (∀ e ∈ before, (f e.2).2 = none) → R entry.2 (f entry.2).1) := by
      constructor
      · intro h
        refine ⟨h [] (k, v) rest rfl (by simp), fun hv before entry after heq hbefore => ?_⟩
        apply h ((k, v) :: before) entry after (by rw [heq]; rfl)
        intro e he
        rcases List.mem_cons.mp he with rfl | he
        · exact hv
        · exact hbefore e he
      · rintro ⟨hv, hrest⟩ before entry after heq hbefore
        cases before with
        | nil =>
          cases heq
          exact hv
        | cons e before =>
          cases heq
          exact hrest (hbefore _ List.mem_cons_self) before entry after rfl fun e he =>
            hbefore e (List.mem_cons_of_mem _ he)
    rw [hfirst]
    simp only [OrdList.mutateValues]
    split
    · rename_i v' e hv
      rw [hv]
      simp only [Related, List.forall₂_cons, true_and]
      exact ⟨fun h => ⟨h.1, nofun⟩, fun h => ⟨h.1, refl hrefl rest⟩⟩
    · rename_i v' hv
      rw [hv]
      simp only [Related, List.forall₂_cons, true_and, true_implies]
      exact and_congr_right fun _ => ih

theorem insert (h : Related R l l') (k : α) {v : β} {v' : γ} (hv : R v v') :
    Related R (OrdList.insert k v l) (OrdList.insert k v' l') := by
  induction h with
  | nil => exact List.Forall₂.cons ⟨rfl, hv⟩ List.Forall₂.nil
  | @cons e e' l l' he hl ih =>
    obtain ⟨hk, hv'⟩ := he
    obtain ⟨k₁, w⟩ := e
    obtain ⟨k₂, w'⟩ := e'
    cases hk
    simp only [OrdList.insert]
    split
    · exact List.Forall₂.cons ⟨rfl, hv⟩ (List.Forall₂.cons ⟨rfl, hv'⟩ hl)
    · exact List.Forall₂.cons ⟨rfl, hv⟩ hl
    · exact List.Forall₂.cons ⟨rfl, hv'⟩ ih

end Related

end OrdList

/-- A `BTreeMap`: entries with strictly increasing keys. -/
structure OrdMap (α β : Type) [Ord α] where
  entries : List (α × β)
  sorted : OrdList.Sorted entries

namespace OrdMap

variable {α β : Type} [Ord α]

/-- The empty map. -/
def empty : OrdMap α β :=
  ⟨[], OrdList.sorted_nil⟩

/-- The value stored under a key. -/
def get? (m : OrdMap α β) (k : α) : Option β :=
  OrdList.lookup k m.entries

/-- The number of entries. -/
def size (m : OrdMap α β) : Nat :=
  m.entries.length

/-- The values in key order. -/
def values (m : OrdMap α β) : List β :=
  m.entries.map Prod.snd

/-- `values_mut` with an operation that may fail part of the way. -/
def mutateValues {ε : Type} (m : OrdMap α β) (f : β → β × Option ε) : OrdMap α β × Option ε :=
  (⟨(OrdList.mutateValues f m.entries).1, OrdList.sorted_mutateValues f m.sorted⟩,
    (OrdList.mutateValues f m.entries).2)

@[simp] theorem get?_empty (k : α) : (empty : OrdMap α β).get? k = none := rfl

@[simp] theorem size_empty : (empty : OrdMap α β).size = 0 := rfl

theorem eq_of_entries {m m' : OrdMap α β} (h : m.entries = m'.entries) : m = m' := by
  cases m
  cases m'
  cases h
  rfl

section Lawful

variable [Std.TransOrd α] [Std.LawfulEqOrd α]

/-- Inserts an entry, replacing the value of an equal key. -/
def insert (m : OrdMap α β) (k : α) (v : β) : OrdMap α β :=
  ⟨OrdList.insert k v m.entries, OrdList.sorted_insert k v m.sorted⟩

theorem get?_insert [DecidableEq α] (m : OrdMap α β) (k k₀ : α) (v : β) :
    (m.insert k₀ v).get? k = if k = k₀ then some v else m.get? k :=
  OrdList.lookup_insert k k₀ v m.entries

theorem size_insert_le (m : OrdMap α β) (k : α) (v : β) : (m.insert k v).size ≤ m.size + 1 :=
  OrdList.length_insert_le k v m.entries

omit [Std.TransOrd α] in
theorem mem_entries_iff {m : OrdMap α β} {k : α} {v : β} :
    (k, v) ∈ m.entries ↔ m.get? k = some v :=
  ⟨OrdList.lookup_of_mem m.sorted, OrdList.mem_of_lookup⟩

/-- Maps with the same lookups are equal. -/
theorem ext_lookup {m m' : OrdMap α β} (h : ∀ k, m.get? k = m'.get? k) : m = m' :=
  eq_of_entries (OrdList.eq_of_lookup_eq m.sorted m'.sorted h)

end Lawful

/-! ## Related maps -/

/-- The same keys with related values. -/
def Rel {γ : Type} (R : β → γ → Prop) (m : OrdMap α β) (m' : OrdMap α γ) : Prop :=
  OrdList.Related R m.entries m'.entries

namespace Rel

variable {γ : Type} {R : β → γ → Prop} {m : OrdMap α β} {m' : OrdMap α γ}

theorem empty : Rel R (OrdMap.empty : OrdMap α β) (OrdMap.empty : OrdMap α γ) :=
  List.Forall₂.nil

theorem size_eq (h : Rel R m m') : m.size = m'.size :=
  List.Forall₂.length_eq h

theorem values (h : Rel R m m') : List.Forall₂ R m.values m'.values := by
  unfold OrdMap.values
  rw [List.forall₂_map_left_iff, List.forall₂_map_right_iff]
  exact List.Forall₂.imp (fun _ _ he => he.2) h

theorem get? (h : Rel R m m') (k : α) : Option.Rel R (m.get? k) (m'.get? k) :=
  OrdList.Related.lookup h k

theorem mutateValues {ε : Type} {f : β → β × Option ε} {g : γ → γ × Option ε} (h : Rel R m m')
    (hfg : ∀ v v', R v v' → R (f v).1 (g v').1 ∧ (f v).2 = (g v').2) :
    Rel R (m.mutateValues f).1 (m'.mutateValues g).1
      ∧ (m.mutateValues f).2 = (m'.mutateValues g).2 :=
  OrdList.Related.mutateValues h hfg

theorem mutateValues_iff {ε : Type} {f : β → β × Option ε} {R : β → β → Prop}
    (hrefl : ∀ v, R v v) (m : OrdMap α β) :
    Rel R m (m.mutateValues f).1
      ↔ ∀ before entry after, m.entries = before ++ entry :: after →
        (∀ e ∈ before, (f e.2).2 = none) → R entry.2 (f entry.2).1 :=
  OrdList.Related.mutateValues_iff hrefl m.entries

theorem mutateValues_eq {ε : Type} {f : γ → γ × Option ε} {R : γ → γ → Prop} {m m' : OrdMap α γ}
    (h : Rel R m m') (hf : ∀ v v', R v v' → f v' = (v, none)) :
    m'.mutateValues f = (m, none) := by
  have hentries := OrdList.Related.mutateValues_eq h hf
  unfold OrdMap.mutateValues
  rw [Prod.ext_iff] at hentries ⊢
  exact ⟨eq_of_entries hentries.1, hentries.2⟩

theorem insert [Std.TransOrd α] [Std.LawfulEqOrd α] (h : Rel R m m') (k : α) {v : β} {v' : γ}
    (hv : R v v') : Rel R (m.insert k v) (m'.insert k v') :=
  OrdList.Related.insert h k hv

end Rel

end OrdMap
