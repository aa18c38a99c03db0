import Mathlib.Data.List.Flatten
/-!
# Paths by label and paths by sort

A graph whose edges carry labels and whose nodes have sorts. A label of a node leads to nodes of one
sort, but several labels may lead to the same sort. A path of labels can be followed by label, along
the edges that carry it, or by sort, along all edges to nodes of the sort its label leads to. The two
reach the same nodes exactly where no walk strays (`reached_bySort_iff`): where no edge of another label
leads, at some step, to a node of the same sort from which the rest of the path can be completed.
-/

/-- A graph with labelled edges and sorted nodes; an edge may carry no label. -/
structure LabelledGraph (α κ σ : Type) where
  edges : α → List (Option κ × α)
  sort : α → σ
  /-- The sort of the nodes a label of a node leads to. -/
  target : α → κ → Option σ
  wellSorted : ∀ {a : α} {label : κ} {b : α}, (some label, b) ∈ edges a →
    target a label = some (sort b)

namespace LabelledGraph

variable {α κ σ : Type} (graph : LabelledGraph α κ σ)

/-- The nodes that the edges with a label lead to. -/
def byLabel [DecidableEq κ] (a : α) (label : κ) : List α :=
  ((graph.edges a).filter fun edge => edge.1 = some label).map Prod.snd

/-- The nodes of the sort a label leads to. -/
def bySort [DecidableEq σ] (a : α) (label : κ) : List α :=
  ((graph.edges a).filter fun edge => graph.target a label = some (graph.sort edge.2)).map Prod.snd

/-- The nodes at the end of a path, where `next` takes one step. -/
def reached (next : α → κ → List α) : List κ → α → List α
  | [], a => [a]
  | label :: path, a => (next a label).flatMap (reached next path)

/-- A path can be completed by sort. -/
inductive Completes : List κ → α → Prop where
  | done (a : α) : Completes [] a
  | step {a b : α} {label : κ} {path : List κ} {found : Option κ} (edge : (found, b) ∈ graph.edges a)
    (sorted : graph.target a label = some (graph.sort b)) (rest : Completes path b) :
    Completes (label :: path) a

/-- After some steps by label, an edge that does not carry the next label leads to a node of the same
sort, from which the path can be completed. -/
inductive Strays : List κ → α → Prop where
  | here {a b : α} {label : κ} {path : List κ} {found : Option κ} (edge : (found, b) ∈ graph.edges a)
    (other : found ≠ some label) (sorted : graph.target a label = some (graph.sort b))
    (rest : graph.Completes path b) : Strays (label :: path) a
  | later {a b : α} {label : κ} {path : List κ} (edge : (some label, b) ∈ graph.edges a)
    (rest : Strays path b) : Strays (label :: path) a

theorem strays_one_iff {graph : LabelledGraph α κ σ} {label : κ} {a : α} :
    graph.Strays [label] a ↔
      ∃ edge ∈ graph.edges a, edge.1 ≠ some label ∧ graph.target a label = some (graph.sort edge.2) := by
  constructor
  · intro h
    cases h with
    | here edge other sorted rest => exact ⟨_, edge, other, sorted⟩
    | later edge rest => cases rest
  · rintro ⟨⟨found, b⟩, hedge, hother, hsorted⟩
    exact .here hedge hother hsorted (.done b)

/-! ## Lists -/

theorem flatMap_map_filter {β γ : Type} (p : β → Bool) (f : β → α) (g : α → List γ) (items : List β) :
    ((items.filter p).map f).flatMap g = items.flatMap fun item => if p item then g (f item) else [] := by
  induction items with
  | nil => rfl
  | cons item items ih =>
    rw [List.filter_cons, List.flatMap_cons, ← ih]
    split <;> simp

/-- Lists put together from sublists of the parts of another are equal to it only part by part. -/
theorem flatMap_eq_iff {β γ : Type} {f g : β → List γ} {items : List β}
    (hsub : ∀ item ∈ items, (g item).Sublist (f item)) :
    items.flatMap f = items.flatMap g ↔ ∀ item ∈ items, f item = g item := by
  induction items with
  | nil => simp
  | cons item items ih =>
    have hhead := hsub item List.mem_cons_self
    have htail := fun other hmem => hsub other (List.mem_cons_of_mem item hmem)
    have hrest := List.Sublist.flatMap_right items htail
    rw [List.flatMap_cons, List.flatMap_cons, List.forall_mem_cons, ← ih htail]
    refine ⟨fun h => ?_, fun h => by rw [h.1, h.2]⟩
    have hlength := congrArg List.length h
    rw [List.length_append, List.length_append] at hlength
    have hhead_le := hhead.length_le
    have hrest_le := hrest.length_le
    exact ⟨(hhead.eq_of_length (by omega)).symm, (hrest.eq_of_length (by omega)).symm⟩

/-! ## Paths -/

variable [DecidableEq κ] [DecidableEq σ] {graph}

omit [DecidableEq κ] in
theorem reached_bySort_cons (label : κ) (path : List κ) (a : α) :
    reached graph.bySort (label :: path) a = (graph.edges a).flatMap fun edge =>
      if graph.target a label = some (graph.sort edge.2) then reached graph.bySort path edge.2
      else [] := by
  rw [reached, bySort, flatMap_map_filter]
  simp only [decide_eq_true_eq]

omit [DecidableEq σ] in
theorem reached_byLabel_cons (label : κ) (path : List κ) (a : α) :
    reached graph.byLabel (label :: path) a = (graph.edges a).flatMap fun edge =>
      if edge.1 = some label then reached graph.byLabel path edge.2 else [] := by
  rw [reached, byLabel, flatMap_map_filter]
  simp only [decide_eq_true_eq]

omit [DecidableEq κ] in
theorem reached_bySort_eq_nil_iff {path : List κ} {a : α} :
    reached graph.bySort path a = [] ↔ ¬ graph.Completes path a := by
  induction path generalizing a with
  | nil =>
    constructor
    · intro h
      cases h
    · exact fun h => absurd (.done a) h
  | cons label path ih =>
    rw [reached_bySort_cons, List.flatMap_eq_nil_iff]
    constructor
    · intro h hcompletes
      cases hcompletes with
      | step edge sorted rest =>
        have hnil := h _ edge
        rw [if_pos sorted] at hnil
        exact ih.mp hnil rest
    · intro h edge hedge
      split
      · rename_i hsorted
        exact ih.mpr fun hrest => h (.step hedge hsorted hrest)
      · rfl

/-- An edge that carries a label leads to nodes of the sort of the label. -/
theorem part_sublist {label : κ} {edge : Option κ × α} {found named : List α} {a : α}
    (hedge : edge ∈ graph.edges a) (hsub : named.Sublist found) :
    (if edge.1 = some label then named else []).Sublist
      (if graph.target a label = some (graph.sort edge.2) then found else []) := by
  split
  · rename_i hlabel
    rw [if_pos (graph.wellSorted (by rw [← hlabel]; exact hedge))]
    exact hsub
  · exact List.nil_sublist _

/-- What is reached by label is reached by sort, in the same order. -/
theorem reached_sublist (path : List κ) (a : α) :
    (reached graph.byLabel path a).Sublist (reached graph.bySort path a) := by
  induction path generalizing a with
  | nil => exact List.Sublist.refl _
  | cons label path ih =>
    rw [reached_bySort_cons, reached_byLabel_cons]
    exact List.Sublist.flatMap_right _ fun edge hedge => part_sublist hedge (ih edge.2)

/-- A path followed by sort reaches what it reaches by label exactly where it does not stray. -/
theorem reached_bySort_iff {path : List κ} {a : α} :
    reached graph.bySort path a = reached graph.byLabel path a ↔ ¬ graph.Strays path a := by
  induction path generalizing a with
  | nil => exact ⟨fun _ h => (nomatch h), fun _ => rfl⟩
  | cons label path ih =>
    rw [reached_bySort_cons, reached_byLabel_cons,
      flatMap_eq_iff fun edge hedge => part_sublist hedge (reached_sublist path edge.2)]
    constructor
    · intro h hstrays
      cases hstrays with
      | here edge other sorted rest =>
        have hnil := h _ edge
        rw [if_pos sorted, if_neg other, reached_bySort_eq_nil_iff] at hnil
        exact hnil rest
      | later edge rest =>
        have hsame := h _ edge
        rw [if_pos (graph.wellSorted edge), if_pos rfl, ih] at hsame
        exact hsame rest
    · intro h edge hedge
      by_cases hlabel : edge.1 = some label
      · have hedge' : (some label, edge.2) ∈ graph.edges a := by
          rw [← hlabel]
          exact hedge
        rw [if_pos (graph.wellSorted hedge'), if_pos hlabel, ih]
        exact fun hrest => h (.later hedge' hrest)
      · rw [if_neg hlabel]
        split
        · rename_i hsorted
          rw [reached_bySort_eq_nil_iff]
          exact fun hrest => h (.here hedge hlabel hsorted hrest)
        · rfl

end LabelledGraph
