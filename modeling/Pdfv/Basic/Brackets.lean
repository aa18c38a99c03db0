import Mathlib.Data.List.Forall2
/-!
# Matching brackets

Some elements of a list open a bracket and some close the one opened last, if any is open. `openAfter`
counts the open brackets and `inside` is what stands in a bracket, up to its end. A tracker records an
item for every bracket, keeps the places of the open ones on a stack and marks all of them at every other
element; `Tracker.run_opened` says what it records. `opened` is what is seen of all brackets, and
`opened_pieces_iff` says when it is seen as well of the pieces of a list alone.
-/

namespace Brackets

variable {α β γ : Type}

/-- What an element does to the open brackets. -/
inductive Role where
  | opens
  | closes
  | plain
deriving DecidableEq

/-- How many brackets are open after an element. -/
def openStep (role : α → Role) (depth : Nat) (a : α) : Nat :=
  match role a with
  | .opens => depth + 1
  | .closes => depth - 1
  | .plain => depth

/-- How many brackets are open after a list. -/
def openAfter (role : α → Role) (depth : Nat) (l : List α) : Nat :=
  l.foldl (openStep role) depth

/-- What stands in a bracket, up to its end, when there are `depth` more brackets open in it. -/
def inside (role : α → Role) : Nat → List α → List α
  | _, [] => []
  | depth, a :: rest =>
    match role a, depth with
    | .opens, depth => a :: inside role (depth + 1) rest
    | .closes, 0 => []
    | .closes, depth + 1 => a :: inside role depth rest
    | .plain, depth => a :: inside role depth rest

/-! ## Renamed elements -/

section Map

variable (role : γ → Role) (f : α → γ)

theorem inside_map (depth : Nat) (l : List α) :
    inside role depth (l.map f) = (inside (role ∘ f) depth l).map f := by
  induction l generalizing depth with
  | nil => rfl
  | cons a l ih =>
    rw [List.map_cons]
    unfold inside
    rw [Function.comp_apply]
    cases role (f a) with
    | opens => simp only [ih, List.map_cons]
    | closes =>
      cases depth with
      | zero => rfl
      | succ depth => simp only [ih, List.map_cons]
    | plain => simp only [ih, List.map_cons]

end Map

/-! ## Trackers -/

/-- The items that are recorded and the places of the open ones. -/
structure Tracker (β : Type) where
  items : List β
  stack : List Nat

namespace Tracker

/-- Every open item is marked. -/
def markOpen (f : β → β) (t : Tracker β) : Tracker β :=
  ⟨t.stack.foldl (fun items i => items.modify i f) t.items, t.stack⟩

variable (role : α → Role) (new : α → Nat → β) (mark : α → β → β)

/-- An element is recorded; a new item is told how many brackets are open with it. -/
def step (t : Tracker β) (a : α) : Tracker β :=
  match role a with
  | .opens => ⟨t.items ++ [new a (t.stack.length + 1)], t.items.length :: t.stack⟩
  | .closes => ⟨t.items, t.stack.tail⟩
  | .plain => t.markOpen (mark a)

/-- The elements of a list are recorded. -/
def run (t : Tracker β) (l : List α) : Tracker β :=
  l.foldl (step role new mark) t

/-- The open places are places of items, each once. -/
structure Wf (t : Tracker β) : Prop where
  nodup : t.stack.Nodup
  inBounds : ∀ i ∈ t.stack, i < t.items.length

/-- The mark of an element, when it is one that marks. -/
def markPlain (item : β) (a : α) : β :=
  if role a = .plain then mark a item else item

variable {role new mark} {t : Tracker β}

/-! ### Steps -/

theorem length_modifyAll (f : β → β) (places : List Nat) (items : List β) :
    (places.foldl (fun items i => items.modify i f) items).length = items.length := by
  induction places generalizing items with
  | nil => rfl
  | cons place places ih => rw [List.foldl_cons, ih, List.length_modify]

theorem getElem?_modifyAll (f : β → β) {places : List Nat} (hnodup : places.Nodup) (items : List β)
    (i : Nat) :
    (places.foldl (fun items i => items.modify i f) items)[i]?
      = (items[i]?).map fun item => if i ∈ places then f item else item := by
  induction places generalizing items with
  | nil => simp
  | cons place places ih =>
    obtain ⟨hnew, hnodup⟩ := List.nodup_cons.mp hnodup
    rw [List.foldl_cons, ih hnodup, List.getElem?_modify]
    by_cases heq : place = i
    · subst heq
      cases items[place]? <;> simp [hnew]
    · have hne : i ≠ place := fun h => heq h.symm
      simp [heq, hne]

@[simp] theorem length_markOpen (f : β → β) : (t.markOpen f).items.length = t.items.length :=
  length_modifyAll f t.stack t.items

/-- The stack after an element has the length that `openStep` counts. -/
theorem length_stack_step (a : α) :
    (step role new mark t a).stack.length = openStep role t.stack.length a := by
  unfold step openStep
  cases role a with
  | opens => rfl
  | closes => exact List.length_tail
  | plain => rfl

theorem length_items_step (a : α) :
    (step role new mark t a).items.length
      = t.items.length + if role a = .opens then 1 else 0 := by
  unfold step
  cases role a with
  | opens => simp
  | closes => simp
  | plain => simp

theorem Wf.step (hwf : t.Wf) (a : α) : (t.step role new mark a).Wf := by
  unfold Tracker.step
  cases role a with
  | opens =>
    refine ⟨List.nodup_cons.mpr ⟨fun hmem => ?_, hwf.nodup⟩, fun i hi => ?_⟩
    · exact absurd (hwf.inBounds _ hmem) (Nat.lt_irrefl _)
    · rw [List.length_append, List.length_singleton]
      rcases List.mem_cons.mp hi with rfl | hi
      · exact Nat.lt_succ_self _
      · exact Nat.lt_succ_of_lt (hwf.inBounds i hi)
  | closes =>
    exact ⟨hwf.nodup.sublist (List.tail_sublist _),
      fun i hi => hwf.inBounds i (List.mem_of_mem_tail hi)⟩
  | plain =>
    refine ⟨hwf.nodup, fun i hi => ?_⟩
    rw [length_markOpen]
    exact hwf.inBounds i hi

/-! ### Runs -/

theorem Wf.run (hwf : t.Wf) (l : List α) : (t.run role new mark l).Wf := by
  induction l generalizing t with
  | nil => exact hwf
  | cons a l ih => exact ih (hwf.step a)

/-- What is done to an item by the elements that stand in its bracket. -/
def markInside (role : α → Role) (mark : α → β → β) (depth : Nat) (l : List α) (item : β) : β :=
  (inside role depth l).foldl (markPlain role mark) item

/-- An item that was there is marked by what stands in its bracket, if that is open. -/
theorem run_item (hwf : t.Wf) (l : List α) {i : Nat} (hi : i < t.items.length) :
    (t.run role new mark l).items[i]? = (t.items[i]?).map fun item =>
      if i ∈ t.stack then markInside role mark (t.stack.idxOf i) l item else item := by
  induction l generalizing t with
  | nil => simp [run, markInside, inside]
  | cons a l ih =>
    have hlength : i < (t.step role new mark a).items.length := by
      rw [length_items_step]
      omega
    show ((t.step role new mark a).run role new mark l).items[i]? = _
    rw [ih (hwf.step a) hlength]
    cases hrole : role a with
    | opens =>
      have hne : t.items.length ≠ i := Nat.ne_of_gt hi
      have hstep : t.step role new mark a
          = ⟨t.items ++ [new a (t.stack.length + 1)], t.items.length :: t.stack⟩ := by
        unfold step
        rw [hrole]
      rw [hstep]
      dsimp only
      rw [List.getElem?_append_left hi]
      by_cases hmem : i ∈ t.stack
      · simp [hmem, List.idxOf_cons_ne _ hne, markInside, inside, hrole, markPlain]
      · simp [hmem, hne.symm]
    | closes =>
      have hstep : t.step role new mark a = ⟨t.items, t.stack.tail⟩ := by
        unfold step
        rw [hrole]
      rw [hstep]
      dsimp only
      cases hstack : t.stack with
      | nil => simp
      | cons top rest =>
        have hnodup := hwf.nodup
        rw [hstack] at hnodup
        obtain ⟨hnew, -⟩ := List.nodup_cons.mp hnodup
        by_cases htop : top = i
        · subst htop
          simp [hnew, markInside, inside, hrole]
        · have hne : i ≠ top := fun h => htop h.symm
          by_cases hmem : i ∈ rest
          · simp [hmem, List.idxOf_cons_ne _ htop, markInside, inside, hrole, markPlain]
          · simp [hmem, hne]
    | plain =>
      have hstep : t.step role new mark a = t.markOpen (mark a) := by
        unfold step
        rw [hrole]
      rw [hstep]
      unfold markOpen
      dsimp only
      rw [getElem?_modifyAll (mark a) hwf.nodup]
      by_cases hmem : i ∈ t.stack
      · cases t.items[i]? with
        | none => rfl
        | some item => simp [hmem, markInside, inside, hrole, markPlain]
      · simp [hmem]

variable (role new mark)

end Tracker

/-! ## What is opened -/

section Opened

/-- What is seen of every element that opens a bracket: itself, how many brackets are open with its own,
and what stands in its bracket, which `after` goes on. -/
def opened (role : α → Role) (view : α → Nat → List α → γ) : Nat → List α → List α → List γ
  | _, [], _ => []
  | depth, a :: rest, after =>
    match role a with
    | .opens =>
      view a (depth + 1) (inside role 0 (rest ++ after)) :: opened role view (depth + 1) rest after
    | .closes => opened role view (depth - 1) rest after
    | .plain => opened role view depth rest after

variable {role : α → Role} {view : α → Nat → List α → γ}

theorem opened_cons (depth : Nat) (a : α) (rest after : List α) :
    opened role view depth (a :: rest) after
      = (if role a = .opens then [view a (depth + 1) (inside role 0 (rest ++ after))] else [])
        ++ opened role view (openStep role depth a) rest after := by
  unfold openStep
  rw [opened]
  cases role a with
  | opens => rfl
  | closes => rfl
  | plain => rfl

theorem openAfter_append (depth : Nat) (l m : List α) :
    openAfter role depth (l ++ m) = openAfter role (openAfter role depth l) m :=
  List.foldl_append

theorem opened_append (depth : Nat) (l m after : List α) :
    opened role view depth (l ++ m) after
      = opened role view depth l (m ++ after) ++ opened role view (openAfter role depth l) m after := by
  induction l generalizing depth with
  | nil => rfl
  | cons a l ih =>
    rw [List.cons_append, opened_cons, opened_cons, ih, List.append_assoc, List.append_assoc]
    rfl

theorem length_opened (depth : Nat) (l after : List α) :
    (opened role view depth l after).length = l.countP fun a => role a = .opens := by
  induction l generalizing depth with
  | nil => rfl
  | cons a l ih =>
    rw [opened_cons, List.length_append, ih, List.countP_cons, Nat.add_comm]
    congr 1
    by_cases hopens : role a = .opens
    · simp [hopens]
    · simp [hopens]

theorem map_opened {δ : Type} (f : γ → δ) (depth : Nat) (l after : List α) :
    (opened role view depth l after).map f
      = opened role (fun a depth content => f (view a depth content)) depth l after := by
  induction l generalizing depth with
  | nil => rfl
  | cons a l ih =>
    rw [opened_cons, opened_cons, List.map_append, ih]
    split <;> rfl

/-- What is seen of the elements that open a bracket is the same in two places exactly when it is of each
one. -/
theorem opened_eq_iff {depth depth' : Nat} {l after after' : List α} :
    opened role view depth l after = opened role view depth' l after'
      ↔ ∀ before a rest, l = before ++ a :: rest → role a = .opens →
        view a (openAfter role depth before + 1) (inside role 0 (rest ++ after))
          = view a (openAfter role depth' before + 1) (inside role 0 (rest ++ after')) := by
  induction l generalizing depth depth' with
  | nil => exact ⟨fun _ before a rest h => absurd h (by simp), fun _ => rfl⟩
  | cons a l ih =>
    rw [opened_cons, opened_cons]
    constructor
    · intro h before a' rest hl hopens
      obtain ⟨hfirst, hrest⟩ := List.append_inj h (by split <;> rfl)
      cases before with
      | nil =>
        obtain ⟨rfl, rfl⟩ := List.cons.inj hl
        rw [if_pos hopens, if_pos hopens] at hfirst
        exact List.singleton_inj.mp hfirst
      | cons b before =>
        obtain ⟨rfl, rfl⟩ := List.cons.inj hl
        exact ih.mp hrest before a' rest rfl hopens
    · intro h
      congr 1
      · by_cases hopens : role a = .opens
        · rw [if_pos hopens, if_pos hopens]
          exact List.singleton_inj.mpr (h [] a l rfl hopens)
        · rw [if_neg hopens, if_neg hopens]
      · exact ih.mpr fun before a' rest hl => h (a :: before) a' rest (by rw [hl]; rfl)

/-- What is opened in pieces of a list is the same for the pieces alone exactly when it is for each one
between those before and those after it. -/
theorem opened_pieces_iff {depth : Nat} {pieces : List (List α)} :
    opened role view depth pieces.flatten [] = pieces.flatMap (fun piece => opened role view 0 piece [])
      ↔ ∀ earlier piece later, pieces = earlier ++ piece :: later →
        opened role view (openAfter role depth earlier.flatten) piece later.flatten
          = opened role view 0 piece [] := by
  induction pieces generalizing depth with
  | nil => exact ⟨fun _ earlier piece later h => absurd h (by simp), fun _ => rfl⟩
  | cons piece pieces ih =>
    rw [List.flatten_cons, List.flatMap_cons, opened_append, List.append_nil]
    constructor
    · intro h earlier piece' later hpieces
      obtain ⟨hfirst, hrest⟩ := List.append_inj h (by rw [length_opened, length_opened])
      cases earlier with
      | nil =>
        obtain ⟨rfl, rfl⟩ := List.cons.inj hpieces
        exact hfirst
      | cons first earlier =>
        obtain ⟨rfl, rfl⟩ := List.cons.inj hpieces
        rw [List.flatten_cons, openAfter_append]
        exact ih.mp hrest earlier piece' later rfl
    · intro h
      congr 1
      · exact h [] piece pieces rfl
      · refine ih.mpr fun earlier piece' later hpieces => ?_
        have hpiece := h (piece :: earlier) piece' later (by rw [hpieces]; rfl)
        rw [List.flatten_cons, openAfter_append] at hpiece
        exact hpiece

theorem opened_map {δ : Type} (f : δ → α) (depth : Nat) (l after : List δ) :
    opened role view depth (l.map f) (after.map f)
      = opened (role ∘ f) (fun a depth content => view (f a) depth (content.map f)) depth l after := by
  induction l generalizing depth with
  | nil => rfl
  | cons a l ih =>
    rw [List.map_cons, opened_cons, opened_cons, ← List.map_append, inside_map]
    congr 1
    exact ih _

/-- Related elements, with related elements in their brackets. -/
theorem inside_rel {R : α → α → Prop} (hrole : ∀ a b, R a b → role a = role b) {depth : Nat}
    {l l' : List α} (h : List.Forall₂ R l l') :
    List.Forall₂ R (inside role depth l) (inside role depth l') := by
  induction h generalizing depth with
  | nil => exact .nil
  | @cons a b l l' hab _ ih =>
    unfold inside
    rw [hrole a b hab]
    cases role b with
    | opens => exact .cons hab ih
    | closes =>
      cases depth with
      | zero => exact .nil
      | succ depth => exact .cons hab ih
    | plain => exact .cons hab ih

theorem opened_rel {R : α → α → Prop} (hrole : ∀ a b, R a b → role a = role b)
    (hview : ∀ a b depth content content', R a b → role a = .opens →
      List.Forall₂ R content content' → view a depth content = view b depth content')
    {depth : Nat} {l l' after after' : List α} (h : List.Forall₂ R l l')
    (hafter : List.Forall₂ R after after') :
    opened role view depth l after = opened role view depth l' after' := by
  induction h generalizing depth with
  | nil => rfl
  | @cons a b l l' hab hrest ih =>
    rw [opened_cons, opened_cons]
    have hstep : openStep role depth a = openStep role depth b := by
      unfold openStep
      rw [hrole a b hab]
    rw [hstep, ih, ← hrole a b hab]
    by_cases hopens : role a = .opens
    · rw [if_pos hopens, if_pos hopens, hview a b (depth + 1) _ _ hab hopens
        (inside_rel hrole (List.rel_append hrest hafter))]
    · rw [if_neg hopens, if_neg hopens]

/-- What a list goes on with stands in a bracket after what stood in it. -/
theorem inside_append_prefix (depth : Nat) (l after : List α) :
    inside role depth l <+: inside role depth (l ++ after) := by
  induction l generalizing depth with
  | nil => exact List.nil_prefix
  | cons a l ih =>
    rw [List.cons_append]
    unfold inside
    cases role a with
    | opens => exact (List.prefix_cons_inj a).mpr (ih _)
    | closes =>
      cases depth with
      | zero => exact List.prefix_rfl
      | succ depth => exact (List.prefix_cons_inj a).mpr (ih _)
    | plain => exact (List.prefix_cons_inj a).mpr (ih _)

/-- A bracket that is closed in a list holds nothing of what the list goes on with. -/
theorem inside_append_of_closed {depth outer : Nat} {l : List α}
    (h : openAfter role (depth + 1 + outer) l ≤ outer) (after : List α) :
    inside role depth (l ++ after) = inside role depth l := by
  induction l generalizing depth with
  | nil =>
    have hopen : depth + 1 + outer ≤ outer := h
    omega
  | cons a l ih =>
    have hrest : openAfter role (openStep role (depth + 1 + outer) a) l ≤ outer := h
    unfold openStep at hrest
    rw [List.cons_append]
    unfold inside
    cases hrole : role a with
    | opens =>
      rw [hrole] at hrest
      dsimp only at hrest ⊢
      rw [ih (by rwa [show depth + 1 + outer + 1 = depth + 1 + 1 + outer by omega] at hrest)]
    | closes =>
      rw [hrole] at hrest
      cases depth with
      | zero => rfl
      | succ depth =>
        dsimp only at hrest ⊢
        rw [ih (by rwa [show depth + 1 + 1 + outer - 1 = depth + 1 + outer by omega] at hrest)]
    | plain =>
      rw [hrole] at hrest
      dsimp only at hrest ⊢
      rw [ih hrest]

/-- What is seen of the elements alone. -/
theorem opened_alone (f : α → γ) (depth : Nat) (l after : List α) :
    opened role (fun a _ _ => f a) depth l after
      = l.flatMap fun a => if role a = .opens then [f a] else [] := by
  induction l generalizing depth with
  | nil => rfl
  | cons a l ih => rw [opened_cons, ih, List.flatMap_cons]

end Opened

section Recorded

variable {role : α → Role} {new : α → Nat → β} {mark : α → β → β}

/-- The items that are recorded by the elements of a list. -/
theorem Tracker.drop_items_run {t : Tracker β} (hwf : t.Wf) (l : List α) :
    (t.run role new mark l).items.drop t.items.length
      = opened role (fun a depth content => content.foldl (Tracker.markPlain role mark) (new a depth))
          t.stack.length l [] := by
  induction l generalizing t with
  | nil => exact List.drop_length
  | cons a l ih =>
    have hstepped : (t.step role new mark a).Wf := hwf.step a
    have hrest := ih hstepped
    have hrun : t.run role new mark (a :: l) = (t.step role new mark a).run role new mark l := rfl
    rw [Tracker.length_stack_step, Tracker.length_items_step] at hrest
    rw [hrun, opened_cons, ← hrest]
    by_cases hopens : role a = .opens
    · have hstep : t.step role new mark a
          = ⟨t.items ++ [new a (t.stack.length + 1)], t.items.length :: t.stack⟩ := by
        unfold Tracker.step
        rw [hopens]
      have hlength : t.items.length < (t.step role new mark a).items.length := by
        rw [Tracker.length_items_step, if_pos hopens]
        exact Nat.lt_succ_self _
      have hitem := @Tracker.run_item _ _ role new mark _ hstepped l _ hlength
      rw [if_pos hopens, if_pos hopens]
      have hfirst : ((t.step role new mark a).run role new mark l).items[t.items.length]?
          = some ((inside role 0 l).foldl (Tracker.markPlain role mark)
            (new a (t.stack.length + 1))) := by
        rw [hitem, hstep]
        simp [Tracker.markInside]
      obtain ⟨hin, hget⟩ := List.getElem?_eq_some_iff.mp hfirst
      rw [List.drop_eq_getElem_cons hin, hget, List.append_nil]
      rfl
    · rw [if_neg hopens, if_neg hopens]
      rfl

end Recorded

end Brackets
