import Pdfv.Basic.OrdMap
import Mathlib.Data.List.Induction
/-!
# Grouping

A list folded into a map from keys to accumulators, one accumulator for each key that occurs. The
groups partition the list, so their sizes add up to its length.
-/

namespace Grouping

variable {α β κ : Type}

/-- The members of a group. -/
def members [DecidableEq κ] (key : α → κ) (k : κ) (items : List α) : List α :=
  items.filter fun a => key a = k

section Partition

variable [DecidableEq κ] (key : α → κ)

theorem members_of_ne {k k' : κ} (hne : k' ≠ k) (items : List α) :
    members key k' (items.filter fun a => !decide (key a = k)) = members key k' items := by
  unfold members
  rw [List.filter_filter]
  refine List.filter_congr fun a _ => ?_
  by_cases hkey : key a = k'
  · simp [hkey, hne]
  · simp [hkey]

theorem filter_perm_append_not (p : α → Bool) (items : List α) :
    (items.filter p ++ items.filter fun a => !p a).Perm items :=
  List.filter_append_perm p items

/-- The groups of keys that are all different and cover the list partition it. -/
theorem flatMap_members_perm {keys : List κ} (hnodup : keys.Nodup) (items : List α)
    (hcovers : ∀ a ∈ items, key a ∈ keys) :
    (keys.flatMap fun k => members key k items).Perm items := by
  induction keys generalizing items with
  | nil =>
    cases items with
    | nil => exact .nil
    | cons a items => cases hcovers a List.mem_cons_self
  | cons k keys ih =>
    obtain ⟨hnew, hkeys⟩ := List.nodup_cons.mp hnodup
    have hrest := ih hkeys (items.filter fun a => !decide (key a = k)) (by
      intro a ha
      obtain ⟨ha, hne⟩ := List.mem_filter.mp ha
      rcases List.mem_cons.mp (hcovers a ha) with heq | hmem
      · simp [heq] at hne
      · exact hmem)
    have hsame : keys.flatMap (fun k' => members key k' (items.filter fun a => !decide (key a = k)))
        = keys.flatMap fun k' => members key k' items := by
      refine List.flatMap_congr fun k' hk' => members_of_ne key ?_ items
      rintro rfl
      exact hnew hk'
    rw [hsame] at hrest
    rw [List.flatMap_cons]
    exact (hrest.append_left _).trans (filter_perm_append_not (fun a => decide (key a = k)) items)

/-- The sizes of the groups add up to the length of the list. -/
theorem sum_length_members {keys : List κ} (hnodup : keys.Nodup) (items : List α)
    (hcovers : ∀ a ∈ items, key a ∈ keys) :
    (keys.map fun k => (members key k items).length).sum = items.length := by
  rw [← (flatMap_members_perm key hnodup items hcovers).length_eq, List.length_flatMap]

end Partition

/-! ## Groups in a map -/

variable [Ord κ] [Std.TransOrd κ] [Std.LawfulEqOrd κ]

/-- One item more: the accumulator of its key takes it in. -/
def add (key : α → κ) (empty : β) (push : β → α → β) (m : OrdMap κ β) (a : α) : OrdMap κ β :=
  m.insert (key a) (push ((m.get? (key a)).getD empty) a)

/-- The accumulators of a list. -/
def collect (key : α → κ) (empty : β) (push : β → α → β) (items : List α) : OrdMap κ β :=
  items.foldl (add key empty push) OrdMap.empty

variable [DecidableEq κ] (key : α → κ) (empty : β) (push : β → α → β)

/-- The accumulator of a key has taken in the members of its group, in order. -/
theorem get?_collect (items : List α) (k : κ) :
    (collect key empty push items).get? k
      = if members key k items = [] then none else some ((members key k items).foldl push empty) := by
  induction items using List.reverseRecOn with
  | nil => rfl
  | append_singleton items a ih =>
    have hstep : collect key empty push (items ++ [a])
        = add key empty push (collect key empty push items) a := by
      unfold collect
      rw [List.foldl_append]
      rfl
    have hmembers : members key k (items ++ [a])
        = members key k items ++ if key a = k then [a] else [] := by
      unfold members
      rw [List.filter_append]
      by_cases hkey : key a = k
      · rw [if_pos hkey, List.filter_cons_of_pos (by simp [hkey]), List.filter_nil]
      · rw [if_neg hkey, List.filter_cons_of_neg (by simp [hkey]), List.filter_nil]
    rw [hstep, hmembers]
    unfold add
    rw [OrdMap.get?_insert]
    by_cases hkey : key a = k
    · subst hkey
      rw [if_pos rfl, if_pos rfl, if_neg (by simp), ih, List.foldl_append]
      by_cases hnil : members key (key a) items = []
      · rw [if_pos hnil, hnil]
        rfl
      · rw [if_neg hnil]
        rfl
    · rw [if_neg (fun h => hkey h.symm), if_neg hkey, List.append_nil, ih]

/-- The keys of the map are those that occur, each once. -/
theorem keys_collect (items : List α) :
    ((collect key empty push items).entries.map Prod.fst).Nodup
      ∧ ∀ k, k ∈ (collect key empty push items).entries.map Prod.fst ↔ ∃ a ∈ items, key a = k := by
  refine ⟨?_, fun k => ?_⟩
  · have hsorted := (OrdList.sorted_iff_keys _).mp (collect key empty push items).sorted
    refine hsorted.imp fun {a b} hlt heq => ?_
    subst heq
    rw [Std.compare_self] at hlt
    cases hlt
  · have hget := get?_collect key empty push items k
    have hmember : members key k items = [] ↔ ¬ ∃ a ∈ items, key a = k := by
      unfold members
      rw [List.filter_eq_nil_iff]
      simp
    constructor
    · intro hk
      obtain ⟨⟨k', v⟩, hmem, rfl⟩ := List.mem_map.mp hk
      have hsome := OrdMap.mem_entries_iff.mp hmem
      rw [hget] at hsome
      by_contra hnone
      rw [if_pos (hmember.mpr hnone)] at hsome
      cases hsome
    · intro hexists
      rw [if_neg (mt hmember.mp (not_not.mpr hexists))] at hget
      exact List.mem_map.mpr ⟨_, OrdMap.mem_entries_iff.mpr hget, rfl⟩

end Grouping
