import Mathlib.Data.List.Sort
import Mathlib.Data.List.Range
/-!
# Depth-first order

The nodes of a forest are the numbers below `n`, and each has a parent before it or none. A visit
takes a node, then what is below its first child, then what is below the next. It meets the nodes in
the order of their numbers when no arc from a node to its parent crosses another (`NonCrossing`,
`visit_roots`). So it does where the nodes are numbered from a stack of pending children: `Growing` is
the invariant of such a numbering.
-/

namespace Preorder

/-- The nodes of a stack with all that is below them: a node, then its children, then the rest. -/
def visit (children : Nat → List Nat) : Nat → List Nat → List Nat
  | 0, _ => []
  | _ + 1, [] => []
  | fuel + 1, id :: stack => id :: visit children fuel (children id ++ stack)

section Visit

variable {children : Nat → List Nat}

@[simp] theorem visit_nil (fuel : Nat) : visit children fuel [] = [] := by
  cases fuel <;> rfl

/-- What stands on top of a stack is visited first. -/
theorem visit_prefix (fuel : Nat) (top rest : List Nat) :
    visit children fuel top <+: visit children fuel (top ++ rest) := by
  induction fuel generalizing top with
  | zero => exact List.prefix_rfl
  | succ fuel ih =>
    cases top with
    | nil => exact List.nil_prefix
    | cons id top =>
      simp only [visit, List.cons_append, List.prefix_cons_inj]
      rw [← List.append_assoc]
      exact ih (children id ++ top)

/-- A visit with fuel to spare leaves nothing out. -/
theorem visit_complete {fuel : Nat} {stack : List Nat} (h : (visit children fuel stack).length < fuel) :
    (∀ id ∈ stack, id ∈ visit children fuel stack)
      ∧ ∀ id ∈ visit children fuel stack, ∀ child ∈ children id, child ∈ visit children fuel stack := by
  induction fuel generalizing stack with
  | zero => exact absurd h (Nat.not_lt_zero _)
  | succ fuel ih =>
    cases stack with
    | nil => simp
    | cons id stack =>
      rw [visit, List.length_cons] at h
      obtain ⟨hstack, hclosed⟩ := ih (Nat.lt_of_succ_lt_succ h)
      refine ⟨?_, ?_⟩
      · intro other hother
        rcases List.mem_cons.mp hother with rfl | hother
        · exact List.mem_cons_self
        · exact List.mem_cons_of_mem _ (hstack other (List.mem_append_right _ hother))
      · intro other hother child hchild
        rcases List.mem_cons.mp hother with rfl | hother
        · exact List.mem_cons_of_mem _ (hstack child (List.mem_append_left _ hchild))
        · exact List.mem_cons_of_mem _ (hclosed other hother child hchild)

/-- A visit meets nothing but what it starts from and the children of what it meets. -/
theorem visit_sound {P : Nat → Prop} (hchild : ∀ id, P id → ∀ child ∈ children id, P child) (fuel : Nat)
    {stack : List Nat} (hstack : ∀ id ∈ stack, P id) : ∀ id ∈ visit children fuel stack, P id := by
  induction fuel generalizing stack with
  | zero => exact fun id hid => absurd hid List.not_mem_nil
  | succ fuel ih =>
    cases stack with
    | nil => exact fun id hid => absurd hid List.not_mem_nil
    | cons top stack =>
      have htop := hstack top List.mem_cons_self
      intro id hid
      rcases List.mem_cons.mp hid with rfl | hid
      · exact htop
      · refine ih ?_ id hid
        intro other hother
        rcases List.mem_append.mp hother with hother | hother
        · exact hchild top htop other hother
        · exact hstack other (List.mem_cons_of_mem _ hother)

end Visit

section Numbered

variable (parent : Nat → Option Nat) (n : Nat)

/-- The nodes that have the given parent, in the order of their numbers. -/
def childrenOf (above : Option Nat) : List Nat :=
  (List.range n).filter fun id => parent id = above

/-- Whatever stands between a parent and its child is below the parent too. -/
def NonCrossing : Prop :=
  ∀ above id child, above < id → id < child → child < n → parent child = some above →
    ∃ between, parent id = some between ∧ above ≤ between

/-- The nodes from `next` on whose parents come before `next`. -/
def waiting (next : Nat) : List Nat :=
  (List.range n).filter fun id => next ≤ id ∧ ∀ above, parent id = some above → above < next

/-- A node is a child of another, or of a node below it. -/
inductive Below (above : Nat) : Nat → Prop where
  | child {id : Nat} (h : parent id = some above) : Below above id
  | further {id between : Nat} (h : parent id = some between) (rest : Below above between) :
    Below above id

variable {parent n}

theorem mem_childrenOf {above : Option Nat} {id : Nat} :
    id ∈ childrenOf parent n above ↔ id < n ∧ parent id = above := by
  simp [childrenOf]

theorem mem_waiting {next id : Nat} : id ∈ waiting parent n next
    ↔ id < n ∧ next ≤ id ∧ ∀ above, parent id = some above → above < next := by
  simp [waiting]

theorem childrenOf_sorted (above : Option Nat) : (childrenOf parent n above).Pairwise (· < ·) :=
  List.pairwise_lt_range.filter _

theorem waiting_sorted (next : Nat) : (waiting parent n next).Pairwise (· < ·) :=
  List.pairwise_lt_range.filter _

/-- Two increasing lists with the same members are one. -/
theorem eq_of_mem_iff {xs ys : List Nat} (hx : xs.Pairwise (· < ·)) (hy : ys.Pairwise (· < ·))
    (h : ∀ id, id ∈ xs ↔ id ∈ ys) : xs = ys := by
  have hperm : xs.Perm ys := (List.perm_ext_iff_of_nodup (hx.imp fun hlt => Nat.ne_of_lt hlt)
    (hy.imp fun hlt => Nat.ne_of_lt hlt)).mpr h
  refine hperm.eq_of_pairwise ?_ hx hy
  intro a b _ _ hlt hgt
  omega

theorem waiting_zero : waiting parent n 0 = childrenOf parent n none := by
  apply eq_of_mem_iff (waiting_sorted 0) (childrenOf_sorted none)
  intro id
  rw [mem_waiting, mem_childrenOf]
  constructor
  · rintro ⟨hlt, -, habove⟩
    refine ⟨hlt, ?_⟩
    cases hparent : parent id with
    | none => rfl
    | some above => exact absurd (habove above hparent) (Nat.not_lt_zero above)
  · rintro ⟨hlt, hnone⟩
    refine ⟨hlt, Nat.zero_le id, ?_⟩
    intro above habove
    rw [hnone] at habove
    cases habove

theorem waiting_end : waiting parent n n = [] := by
  rw [List.eq_nil_iff_forall_not_mem]
  intro id hid
  have hmem := mem_waiting.mp hid
  omega

variable (hbefore : ∀ id above, parent id = some above → above < id)
include hbefore

/-- The next node is the first of those that wait; its children take its place. -/
theorem waiting_next (hcross : NonCrossing parent n) {next : Nat} (hnext : next < n) :
    ∃ rest, waiting parent n next = next :: rest
      ∧ waiting parent n (next + 1) = childrenOf parent n (some next) ++ rest := by
  have hfirst : next ∈ waiting parent n next :=
    mem_waiting.mpr ⟨hnext, Nat.le_refl next, fun above habove => hbefore next above habove⟩
  have hsorted : (waiting parent n next).Pairwise (· < ·) := waiting_sorted next
  have hmem : ∀ id, id ∈ waiting parent n next
      ↔ id < n ∧ next ≤ id ∧ ∀ above, parent id = some above → above < next := fun id => mem_waiting
  cases hwaiting : waiting parent n next with
  | nil =>
    rw [hwaiting] at hfirst
    cases hfirst
  | cons head rest =>
    rw [hwaiting] at hfirst hsorted hmem
    have hhead : head = next := by
      have hle := ((hmem head).mp List.mem_cons_self).2.1
      rcases List.mem_cons.mp hfirst with heq | hrest
      · exact heq.symm
      · have hlt := List.rel_of_pairwise_cons hsorted hrest
        omega
    subst hhead
    have hrest : ∀ id, id ∈ rest
        ↔ id < n ∧ head < id ∧ ∀ above, parent id = some above → above < head := by
      intro id
      constructor
      · intro hid
        have hin := (hmem id).mp (List.mem_cons_of_mem head hid)
        exact ⟨hin.1, List.rel_of_pairwise_cons hsorted hid, hin.2.2⟩
      · rintro ⟨hlt, hgt, habove⟩
        rcases List.mem_cons.mp ((hmem id).mpr ⟨hlt, Nat.le_of_lt hgt, habove⟩) with rfl | hid
        · exact absurd hgt (Nat.lt_irrefl id)
        · exact hid
    refine ⟨rest, rfl, ?_⟩
    apply eq_of_mem_iff (waiting_sorted (head + 1))
    · rw [List.pairwise_append]
      refine ⟨childrenOf_sorted _, hsorted.of_cons, ?_⟩
      -- a node that waited is not between the new node and a child of it
      intro child hchild id hid
      obtain ⟨hchildLt, hparent⟩ := mem_childrenOf.mp hchild
      obtain ⟨hidLt, hgt, habove⟩ := (hrest id).mp hid
      by_contra hnot
      have hne : id ≠ child := by
        rintro rfl
        have hself := habove head hparent
        omega
      obtain ⟨between, hbetween, hle⟩ := hcross head id child hgt (by omega) hchildLt hparent
      have hlt := habove between hbetween
      omega
    · intro id
      rw [mem_waiting, List.mem_append, mem_childrenOf, hrest]
      constructor
      · rintro ⟨hlt, hge, habove⟩
        by_cases hparent : parent id = some head
        · exact .inl ⟨hlt, hparent⟩
        · refine .inr ⟨hlt, hge, fun above hid => ?_⟩
          have hle := habove above hid
          have hne : above ≠ head := by
            rintro rfl
            exact hparent hid
          omega
      · rintro (⟨hlt, hparent⟩ | ⟨hlt, hgt, habove⟩)
        · refine ⟨hlt, hbefore id head hparent, fun above hid => ?_⟩
          rw [hparent] at hid
          cases hid
          exact Nat.lt_succ_self head
        · exact ⟨hlt, hgt, fun above hid => Nat.lt_succ_of_lt (habove above hid)⟩

theorem visit_waiting (hcross : NonCrossing parent n) (count next : Nat) (hcount : next + count = n)
    {fuel : Nat} (hfuel : count ≤ fuel) :
    visit (fun id => childrenOf parent n (some id)) fuel (waiting parent n next)
      = List.range' next count := by
  induction count generalizing next fuel with
  | zero =>
    obtain rfl : next = n := hcount
    rw [waiting_end, visit_nil]
    rfl
  | succ count ih =>
    have hnext : next < n := by omega
    obtain ⟨rest, hwaiting, hafter⟩ := waiting_next hbefore hcross hnext
    obtain ⟨fuel, rfl⟩ : ∃ more, fuel = more + 1 := ⟨fuel - 1, by omega⟩
    rw [hwaiting, visit, ← hafter, ih (next + 1) (by omega) (by omega), List.range'_succ]

/-- A visit of all roots meets the nodes in the order of their numbers. -/
theorem visit_roots (hcross : NonCrossing parent n) :
    visit (fun id => childrenOf parent n (some id)) n (childrenOf parent n none) = List.range n := by
  rw [← waiting_zero, visit_waiting hbefore hcross n 0 (Nat.zero_add n) (Nat.le_refl n),
    List.range_eq_range']

/-- A visit of the children of a node meets nodes that follow it, in the order of their numbers. -/
theorem visit_children_prefix (hcross : NonCrossing parent n) {above fuel : Nat} (habove : above < n)
    (hfuel : n ≤ fuel) :
    visit (fun id => childrenOf parent n (some id)) fuel (childrenOf parent n (some above))
      <+: List.range' (above + 1) (n - (above + 1)) := by
  obtain ⟨rest, -, hafter⟩ := waiting_next hbefore hcross habove
  rw [← visit_waiting hbefore hcross (n - (above + 1)) (above + 1) (by omega)
    (show n - (above + 1) ≤ fuel by omega), hafter]
  exact visit_prefix fuel _ rest

/-- A visit of the children of a node meets what is below the node. -/
theorem mem_visit_children (hcross : NonCrossing parent n) {above fuel : Nat} (habove : above < n)
    (hfuel : n ≤ fuel) (id : Nat) :
    id ∈ visit (fun id => childrenOf parent n (some id)) fuel (childrenOf parent n (some above))
      ↔ id < n ∧ Below parent above id := by
  have hprefix := visit_children_prefix hbefore hcross habove hfuel
  have hlength := hprefix.length_le
  rw [List.length_range'] at hlength
  obtain ⟨hstack, hclosed⟩ := visit_complete (Nat.lt_of_le_of_lt hlength (by omega))
  constructor
  · refine @visit_sound _ (fun id => id < n ∧ Below parent above id) ?_ fuel _ ?_ id
    · rintro between ⟨-, hbelow⟩ child hchild
      obtain ⟨hlt, hparent⟩ := mem_childrenOf.mp hchild
      exact ⟨hlt, .further hparent hbelow⟩
    · intro child hchild
      obtain ⟨hlt, hparent⟩ := mem_childrenOf.mp hchild
      exact ⟨hlt, .child hparent⟩
  · rintro ⟨hlt, hbelow⟩
    induction hbelow with
    | child hparent => exact hstack _ (mem_childrenOf.mpr ⟨hlt, hparent⟩)
    | @further id between hparent _ ih =>
      have hup := hbefore id between hparent
      exact hclosed between (ih (by omega)) id (mem_childrenOf.mpr ⟨hlt, hparent⟩)

end Numbered

/-! ## Numbering from a stack -/

/-- One pending node stands above another on the stack: its parent is not before the other's. -/
def Above (first second : Option Nat) : Prop :=
  ∀ above, second = some above → ∃ between, first = some between ∧ above ≤ between

theorem Above.refl (parent : Option Nat) : Above parent parent :=
  fun above h => ⟨above, h, Nat.le_refl above⟩

/-- The parent of a node in a list of parents. -/
def parentIn (parents : List (Option Nat)) (id : Nat) : Option Nat :=
  (parents[id]?).bind fun parent => parent

/-- The nodes numbered so far, by their parents, and the parents of the pending nodes. -/
structure Growing (parents pending : List (Option Nat)) : Prop where
  crossing : NonCrossing (parentIn parents) parents.length
  before : ∀ id above, parentIn parents id = some above → above < id
  inside : ∀ above, some above ∈ pending → above < parents.length
  covered : ∀ above, some above ∈ pending → ∀ id, above < id → id < parents.length →
    Above (parentIn parents id) (some above)
  sorted : pending.Pairwise Above

namespace Growing

variable {parents pending : List (Option Nat)} {parent : Option Nat}

theorem start : Growing [] [none] where
  crossing := fun above id child _ _ hchild => absurd hchild (Nat.not_lt_zero child)
  before := by
    intro id above h
    simp [parentIn] at h
  inside := by
    intro above h
    cases List.mem_singleton.mp h
  covered := by
    intro above h
    cases List.mem_singleton.mp h
  sorted := List.pairwise_singleton _ _

/-- A pending node may turn out to be none. -/
theorem drop (h : Growing parents (parent :: pending)) : Growing parents pending where
  crossing := h.crossing
  before := h.before
  inside := fun above habove => h.inside above (List.mem_cons_of_mem _ habove)
  covered := fun above habove => h.covered above (List.mem_cons_of_mem _ habove)
  sorted := h.sorted.of_cons

/-- A pending node may turn out to be several. -/
theorem spread (h : Growing parents (parent :: pending)) (count : Nat) :
    Growing parents (List.replicate count parent ++ pending) := by
  have hmem : ∀ other ∈ List.replicate count parent ++ pending, other ∈ parent :: pending := by
    intro other hother
    rcases List.mem_append.mp hother with hnew | hold
    · rw [List.eq_of_mem_replicate hnew]
      exact List.mem_cons_self
    · exact List.mem_cons_of_mem _ hold
  refine ⟨h.crossing, h.before, fun above habove => h.inside above (hmem _ habove),
    fun above habove => h.covered above (hmem _ habove), ?_⟩
  rw [List.pairwise_append]
  refine ⟨List.pairwise_replicate.mpr (.inr (Above.refl parent)), h.sorted.of_cons, ?_⟩
  intro first hfirst second hsecond
  rw [List.eq_of_mem_replicate hfirst]
  exact List.rel_of_pairwise_cons h.sorted hsecond

theorem parentIn_snoc (id : Nat) : parentIn (parents ++ [parent]) id
    = if id = parents.length then parent else parentIn parents id := by
  unfold parentIn
  by_cases hid : id = parents.length
  · rw [if_pos hid, hid, List.getElem?_concat_length]
    rfl
  · rw [if_neg hid]
    rcases Nat.lt_or_gt_of_ne hid with hlt | hgt
    · rw [List.getElem?_append_left hlt]
    · rw [List.getElem?_eq_none (by simp; omega), List.getElem?_eq_none (by omega)]

/-- The node on top gets the next number, and its children wait on top of the stack. -/
theorem push (h : Growing parents (parent :: pending)) {kids : List (Option Nat)}
    (hkids : ∀ kid ∈ kids, kid = some parents.length) :
    Growing (parents ++ [parent]) (kids ++ pending) := by
  have htop : ∀ other ∈ pending, Above parent other := fun other hother =>
    List.rel_of_pairwise_cons h.sorted hother
  have hlength : (parents ++ [parent]).length = parents.length + 1 := List.length_append
  -- an arc that reaches over the nodes so far reaches over the new one too
  have hover : ∀ above, some above ∈ parent :: pending → ∀ id, above < id → id < parents.length →
      Above (parentIn (parents ++ [parent]) id) (some above) := by
    intro above habove id hgt hlt
    rw [parentIn_snoc, if_neg (by omega)]
    exact h.covered above habove id hgt hlt
  refine ⟨?_, ?_, ?_, ?_, ?_⟩
  · intro above id child habove hid hchild hparent
    rw [hlength] at hchild
    rw [parentIn_snoc] at hparent
    by_cases hnew : child = parents.length
    · rw [if_pos hnew] at hparent
      refine hover above ?_ id habove (by omega) above rfl
      rw [hparent]
      exact List.mem_cons_self
    · rw [if_neg hnew] at hparent
      rw [parentIn_snoc, if_neg (by omega)]
      exact h.crossing above id child habove hid (by omega) hparent
  · intro id above hparent
    rw [parentIn_snoc] at hparent
    by_cases hnew : id = parents.length
    · rw [if_pos hnew] at hparent
      rw [hnew]
      apply h.inside
      rw [hparent]
      exact List.mem_cons_self
    · rw [if_neg hnew] at hparent
      exact h.before id above hparent
  · intro above habove
    rw [hlength]
    rcases List.mem_append.mp habove with hkid | hold
    · cases hkids _ hkid
      exact Nat.lt_succ_self _
    · have hlt := h.inside above (List.mem_cons_of_mem _ hold)
      omega
  · intro above habove id hgt hlt
    rw [hlength] at hlt
    rcases List.mem_append.mp habove with hkid | hold
    · cases hkids _ hkid
      omega
    · by_cases hnew : id = parents.length
      · rw [parentIn_snoc, if_pos hnew]
        exact htop _ hold
      · exact hover above (List.mem_cons_of_mem _ hold) id hgt (by omega)
  · rw [List.pairwise_append]
    refine ⟨?_, h.sorted.of_cons, ?_⟩
    · refine List.pairwise_of_forall_mem_list ?_
      intro first hfirst second hsecond
      rw [hkids first hfirst, hkids second hsecond]
      exact Above.refl _
    · intro first hfirst second hsecond above habove
      have hlt := h.inside above (List.mem_cons_of_mem _ (habove ▸ hsecond))
      exact ⟨parents.length, hkids first hfirst, Nat.le_of_lt hlt⟩

end Growing

end Preorder
