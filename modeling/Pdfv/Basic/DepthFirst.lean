import Mathlib.Logic.Relation
import Mathlib.Data.List.Nodup
import Mathlib.Tactic.Tauto
/-!
# Traversals of a graph

The nodes a traversal meets, each where it is met first. `Visits` is the traversal with a stack: the
links of a node go on top of what waits. `DepthFirst` is the recursive one: a node, then all that its
links lead to, then the rest. They give the same order (`depthFirst_iff_visits`). The order holds every
node once (`Visits.nodup`), and it holds the nodes that the links lead to (`Visits.mem_iff`).
-/

namespace Traversal

variable {α : Type} {links : α → List α}

/-- `order` lists the nodes that a traversal from `stack` meets, besides those in `seen`. -/
inductive Visits (links : α → List α) : List α → List α → List α → Prop where
  | done (seen : List α) : Visits links seen [] []
  | again {seen stack order : List α} {node : α} (h : node ∈ seen)
    (rest : Visits links seen stack order) : Visits links seen (node :: stack) order
  | enter {seen stack order : List α} {node : α} (h : node ∉ seen)
    (rest : Visits links (node :: seen) (links node ++ stack) order) :
    Visits links seen (node :: stack) (node :: order)

namespace Visits

variable {seen stack order order' : List α}

theorem unique (h : Visits links seen stack order) (h' : Visits links seen stack order') :
    order = order' := by
  induction h generalizing order' with
  | done => cases h'; rfl
  | again hmem _ ih =>
    cases h' with
    | again _ rest => exact ih rest
    | enter hnot => exact absurd hmem hnot
  | enter hnot _ ih =>
    cases h' with
    | again hmem => exact absurd hmem hnot
    | enter _ rest => rw [ih rest]

/-- What was seen matters as a set. -/
theorem congr {seen' : List α} (h : Visits links seen stack order)
    (hseen : ∀ node, node ∈ seen ↔ node ∈ seen') : Visits links seen' stack order := by
  induction h generalizing seen' with
  | done => exact .done _
  | again hmem _ ih => exact .again ((hseen _).mp hmem) (ih hseen)
  | enter hnot _ ih =>
    refine .enter (fun hmem => hnot ((hseen _).mpr hmem)) (ih fun node => ?_)
    rw [List.mem_cons, List.mem_cons, hseen]

theorem not_seen (h : Visits links seen stack order) : ∀ node ∈ order, node ∉ seen := by
  induction h with
  | done => exact fun _ hmem => absurd hmem List.not_mem_nil
  | again _ _ ih => exact ih
  | enter hnot _ ih =>
    intro node hmem
    rcases List.mem_cons.mp hmem with rfl | hmem
    · exact hnot
    · exact fun hseen => ih node hmem (List.mem_cons_of_mem _ hseen)

theorem nodup (h : Visits links seen stack order) : order.Nodup := by
  induction h with
  | done => exact List.nodup_nil
  | again _ _ ih => exact ih
  | enter _ rest ih =>
    exact List.nodup_cons.mpr ⟨fun hmem => rest.not_seen _ hmem List.mem_cons_self, ih⟩

/-- What waits is met, unless it was seen. -/
theorem stack_met (h : Visits links seen stack order) :
    ∀ node ∈ stack, node ∈ seen ∨ node ∈ order := by
  induction h with
  | done => exact fun _ hmem => absurd hmem List.not_mem_nil
  | again hseen _ ih =>
    intro node hmem
    rcases List.mem_cons.mp hmem with rfl | hmem
    · exact .inl hseen
    · exact ih node hmem
  | enter _ _ ih =>
    intro node hmem
    rcases List.mem_cons.mp hmem with rfl | hmem
    · exact .inr List.mem_cons_self
    · rcases ih node (List.mem_append_right _ hmem) with hseen | hmet
      · rcases List.mem_cons.mp hseen with rfl | hseen
        · exact .inr List.mem_cons_self
        · exact .inl hseen
      · exact .inr (List.mem_cons_of_mem _ hmet)

/-- The links of what is met are met. -/
theorem links_met (h : Visits links seen stack order) :
    ∀ node ∈ order, ∀ next ∈ links node, next ∈ seen ∨ next ∈ order := by
  induction h with
  | done => exact fun _ hmem => absurd hmem List.not_mem_nil
  | again _ _ ih => exact ih
  | @enter seen stack order top _ rest ih =>
    have hwiden : ∀ next, next ∈ top :: seen ∨ next ∈ order → next ∈ seen ∨ next ∈ top :: order := by
      rintro next (hseen | hmet)
      · rcases List.mem_cons.mp hseen with rfl | hseen
        · exact .inr List.mem_cons_self
        · exact .inl hseen
      · exact .inr (List.mem_cons_of_mem _ hmet)
    intro node hmem next hnext
    rcases List.mem_cons.mp hmem with rfl | hmem
    · exact hwiden next (rest.stack_met next (List.mem_append_left _ hnext))
    · exact hwiden next (ih node hmem next hnext)

/-- What is met satisfies what the stack satisfies and the links hand on. -/
theorem forall_mem {P : α → Prop} (hlinks : ∀ node, P node → ∀ next ∈ links node, P next)
    (h : Visits links seen stack order) (hstack : ∀ node ∈ stack, P node) :
    ∀ node ∈ order, P node := by
  induction h with
  | done => exact fun _ hmem => absurd hmem List.not_mem_nil
  | again _ _ ih => exact ih fun node hmem => hstack node (List.mem_cons_of_mem _ hmem)
  | enter _ _ ih =>
    have htop := hstack _ List.mem_cons_self
    intro node hmem
    rcases List.mem_cons.mp hmem with rfl | hmem
    · exact htop
    · refine ih (fun next hnext => ?_) node hmem
      rcases List.mem_append.mp hnext with hnext | hnext
      · exact hlinks _ htop next hnext
      · exact hstack next (List.mem_cons_of_mem _ hnext)

/-- A traversal meets the nodes that the links lead to from its roots. -/
theorem mem_iff {roots : List α} (h : Visits links [] roots order) (node : α) :
    node ∈ order
      ↔ ∃ root ∈ roots, Relation.ReflTransGen (fun a b => b ∈ links a) root node := by
  constructor
  · intro hmem
    refine h.forall_mem (P := fun node => ∃ root ∈ roots, Relation.ReflTransGen _ root node)
      (fun node hnode next hnext => ?_) (fun root hroot => ⟨root, hroot, .refl⟩) node hmem
    obtain ⟨root, hroot, hpath⟩ := hnode
    exact ⟨root, hroot, hpath.tail hnext⟩
  · rintro ⟨root, hroot, hpath⟩
    induction hpath with
    | refl => exact (h.stack_met root hroot).resolve_left List.not_mem_nil
    | tail _ hnext ih => exact (h.links_met _ ih _ hnext).resolve_left List.not_mem_nil

/-- A traversal ends where a measure goes down with every node taken from the stack. -/
theorem exists_of_measure {P : α → Prop} (hlinks : ∀ node, P node → ∀ next ∈ links node, P next)
    (μ : List α → List α → Nat)
    (hagain : ∀ seen node stack, node ∈ seen → μ seen stack < μ seen (node :: stack))
    (henter : ∀ seen node stack, P node → (∀ other ∈ seen, P other) → node ∉ seen →
      μ (node :: seen) (links node ++ stack) < μ seen (node :: stack)) {seen stack : List α}
    (hseen : ∀ node ∈ seen, P node) (hstack : ∀ node ∈ stack, P node) :
    ∃ order, Visits links seen stack order := by
  classical
  induction hμ : μ seen stack using Nat.strongRecOn generalizing seen stack with
  | _ n ih =>
    cases stack with
    | nil => exact ⟨[], .done seen⟩
    | cons node stack =>
      obtain ⟨hnode, hstack⟩ := List.forall_mem_cons.mp hstack
      by_cases hmem : node ∈ seen
      · obtain ⟨order, hrest⟩ := ih _ (hμ ▸ hagain seen node stack hmem) hseen hstack rfl
        exact ⟨order, .again hmem hrest⟩
      · obtain ⟨order, hrest⟩ := ih _ (hμ ▸ henter seen node stack hnode hseen hmem)
          (List.forall_mem_cons.mpr ⟨hnode, hseen⟩)
          (List.forall_mem_append.mpr ⟨hlinks node hnode, hstack⟩) rfl
        exact ⟨node :: order, .enter hmem hrest⟩

end Visits

/-! ## The recursive traversal -/

/-- `order` lists what a depth-first traversal of `todo` meets, besides the nodes in `seen`: a node,
what its links lead to, and then the rest, each node where it is met first. -/
inductive DepthFirst (links : α → List α) : List α → List α → List α → Prop where
  | done (seen : List α) : DepthFirst links seen [] []
  | again {seen todo order : List α} {node : α} (h : node ∈ seen)
    (rest : DepthFirst links seen todo order) : DepthFirst links seen (node :: todo) order
  | enter {seen todo below order : List α} {node : α} (h : node ∉ seen)
    (hbelow : DepthFirst links (node :: seen) (links node) below)
    (rest : DepthFirst links (node :: below ++ seen) todo order) :
    DepthFirst links seen (node :: todo) (node :: below ++ order)

/-- One stack after the other. -/
theorem Visits.append {seen stack stack' order order' : List α}
    (h : Visits links seen stack order) (h' : Visits links (order ++ seen) stack' order') :
    Visits links seen (stack ++ stack') (order ++ order') := by
  induction h with
  | done => exact h'
  | again hmem _ ih => exact .again hmem (ih h')
  | enter hnot _ ih =>
    refine .enter hnot ?_
    have hrest := ih (h'.congr fun node => by
      simp only [List.cons_append, List.mem_cons, List.mem_append]
      tauto)
    rwa [List.append_assoc] at hrest

theorem Visits.of_depthFirst {seen todo order : List α} (h : DepthFirst links seen todo order) :
    Visits links seen todo order := by
  induction h with
  | done => exact .done _
  | again hmem _ ih => exact .again hmem ih
  | @enter seen todo below order node hnot _ _ ihbelow ihrest =>
    refine .enter hnot (ihbelow.append (ihrest.congr fun other => ?_))
    simp only [List.cons_append, List.mem_cons, List.mem_append]
    tauto

namespace DepthFirst

theorem congr {seen seen' todo order : List α} (h : DepthFirst links seen todo order)
    (hseen : ∀ node, node ∈ seen ↔ node ∈ seen') : DepthFirst links seen' todo order := by
  induction h generalizing seen' with
  | done => exact .done _
  | again hmem _ ih => exact .again ((hseen _).mp hmem) (ih hseen)
  | enter hnot _ _ ihbelow ihrest =>
    refine .enter (fun hmem => hnot ((hseen _).mpr hmem)) (ihbelow fun node => ?_)
      (ihrest fun node => ?_)
    · rw [List.mem_cons, List.mem_cons, hseen]
    · rw [List.mem_append, List.mem_append, hseen]

/-- What is met in two parts of a list is met one part after the other. -/
theorem split {seen todo todo' order : List α} (h : DepthFirst links seen (todo ++ todo') order) :
    ∃ first second, order = first ++ second ∧ DepthFirst links seen todo first ∧
      DepthFirst links (first ++ seen) todo' second := by
  generalize hall : todo ++ todo' = all at h
  induction h generalizing todo with
  | done seen =>
    obtain ⟨rfl, rfl⟩ := List.append_eq_nil_iff.mp hall
    exact ⟨[], [], rfl, .done seen, .done seen⟩
  | @again seen rest order node hmem hrest ih =>
    cases todo with
    | nil =>
      cases hall
      exact ⟨[], order, rfl, .done seen, .again hmem hrest⟩
    | cons top todo =>
      cases hall
      obtain ⟨first, second, rfl, hfirst, hsecond⟩ := ih rfl
      exact ⟨first, second, rfl, .again hmem hfirst, hsecond⟩
  | @enter seen rest below order node hnot hbelow hrest _ ih =>
    cases todo with
    | nil =>
      cases hall
      exact ⟨[], node :: below ++ order, rfl, .done seen, .enter hnot hbelow hrest⟩
    | cons top todo =>
      cases hall
      obtain ⟨first, second, rfl, hfirst, hsecond⟩ := ih rfl
      refine ⟨node :: below ++ first, second, ?_, .enter hnot hbelow hfirst, hsecond.congr ?_⟩
      · rw [List.append_assoc]
      · intro other
        simp only [List.cons_append, List.mem_cons, List.mem_append]
        tauto

end DepthFirst

theorem DepthFirst.of_visits {seen stack order : List α} (h : Visits links seen stack order) :
    DepthFirst links seen stack order := by
  induction h with
  | done => exact .done _
  | again hmem _ ih => exact .again hmem ih
  | enter hnot _ ih =>
    obtain ⟨below, rest, rfl, hbelow, hrest⟩ := ih.split
    refine .enter hnot hbelow (hrest.congr fun other => ?_)
    simp only [List.cons_append, List.mem_cons, List.mem_append]
    tauto

/-- The two traversals give the same order. -/
theorem depthFirst_iff_visits {seen todo order : List α} :
    DepthFirst links seen todo order ↔ Visits links seen todo order :=
  ⟨Visits.of_depthFirst, DepthFirst.of_visits⟩

end Traversal
