import Pdfv.Basic.Fallible
import Mathlib.Data.List.Infix
import Mathlib.Data.List.Nodup
import Mathlib.Data.List.TakeWhile
/-!
# Bounded graph walks

A graph is unfolded node by node from a stack of pending nodes. A node whose key was met before is
dropped; the links of any other node are asked for with the number of nodes that may still be
visited or wait. `run` performs an action at each node. What it does is the fold of the action over
the nodes it visits (`run_eq_foldlM`), no key is visited twice (`visit_nodup`), a walk that finishes
has left nothing out (`visit_covers`), and a larger allowance visits the same nodes in the same order,
and goes on (`visit_extends`).
-/

namespace Walk

open Loop Fallible

/-- A graph whose links are computed on demand, within a budget. -/
structure Graph (Node Key ε : Type) where
  key : Node → Key
  expand : Node → Nat → Except ε (List Node)
  /-- The error of a spent budget. -/
  limit : ε

/-- How a walk ended: every node was visited, the links of a node could not be followed, or the
action failed. -/
inductive Ending (ε : Type) where
  | finished
  | stopped (error : ε)
  | failed (error : ε)

/-- What a walk leaves behind. -/
structure Outcome (σ ε : Type) where
  result : σ
  visited : Nat
  ending : Ending ε

/-- The state of a walk; the top of the stack is the first pending node. -/
structure State (Node Key σ : Type) where
  visited : List Key
  pending : List Node
  result : σ

variable {Node Key σ ε : Type} [DecidableEq Key]

namespace Graph

variable (g : Graph Node Key ε) (maxNodes : Nat)

/-- The links of a node, when `visited` nodes have been visited and `pending` wait. -/
def follow (visited pending : Nat) (node : Node) : Except ε (List Node) :=
  if maxNodes < visited + pending then .error g.limit
  else g.expand node (maxNodes - (visited + pending))

/-- The pending nodes from the first new one on. -/
def fresh (visited : List Key) (pending : List Node) : List Node :=
  pending.dropWhile fun node => g.key node ∈ visited

/-- One new node: it is counted, the action is performed, and its links are pushed. -/
def step (act : σ → Node → Except ε σ) (s : State Node Key σ) :
    Step (State Node Key σ) (Outcome σ ε) :=
  match g.fresh s.visited s.pending with
  | [] => .done ⟨s.result, s.visited.length, .finished⟩
  | node :: rest =>
    match act s.result node with
    | .error e => .done ⟨s.result, s.visited.length + 1, .failed e⟩
    | .ok result =>
      match g.follow maxNodes (s.visited.length + 1) rest.length node with
      | .error e => .done ⟨result, s.visited.length + 1, .stopped e⟩
      | .ok linked => .next ⟨g.key node :: s.visited, linked.reverse ++ rest, result⟩

/-- The outcome when the fuel is spent. -/
def exhausted (s : State Node Key σ) : Outcome σ ε :=
  ⟨s.result, s.visited.length, .stopped g.limit⟩

/-- The walk from a state. -/
def runFrom (act : σ → Node → Except ε σ) (fuel : Nat) (s : State Node Key σ) : Outcome σ ε :=
  runLoop (g.step maxNodes act) g.exhausted fuel s

/-- The walk from the given nodes. -/
def run (act : σ → Node → Except ε σ) (roots : List Node) (start : σ) : Outcome σ ε :=
  g.runFrom maxNodes act (maxNodes + 2) ⟨[], roots, start⟩

/-- The action that records the visited nodes. -/
def record (nodes : List Node) (node : Node) : Except ε (List Node) :=
  .ok (nodes ++ [node])

/-- The nodes a walk visits, in order. -/
def visit (roots : List Node) : Outcome (List Node) ε :=
  g.run maxNodes record roots []

/-! ### Steps -/

variable {g maxNodes}

omit [DecidableEq Key] in
theorem follow_ok {visited pending : Nat} {node : Node} {linked : List Node}
    (h : g.follow maxNodes visited pending node = .ok linked) :
    visited + pending ≤ maxNodes
      ∧ g.expand node (maxNodes - (visited + pending)) = .ok linked := by
  unfold follow at h
  by_cases hc : maxNodes < visited + pending
  · rw [if_pos hc] at h
    cases h
  · rw [if_neg hc] at h
    exact ⟨by omega, h⟩

/-- What a step does that goes on. -/
theorem step_next {act : σ → Node → Except ε σ} {s s' : State Node Key σ}
    (h : g.step maxNodes act s = .next s') :
    ∃ node rest result linked, g.fresh s.visited s.pending = node :: rest
      ∧ act s.result node = .ok result
      ∧ g.follow maxNodes (s.visited.length + 1) rest.length node = .ok linked
      ∧ s' = ⟨g.key node :: s.visited, linked.reverse ++ rest, result⟩ := by
  unfold step at h
  split at h
  · cases h
  · rename_i node rest hfresh
    split at h
    · cases h
    · rename_i result hact
      split at h
      · cases h
      · rename_i linked hfollow
        exact ⟨node, rest, result, linked, hfresh, hact, hfollow, (Step.next.inj h).symm⟩

theorem fresh_cons {visited : List Key} {pending rest : List Node} {node : Node}
    (h : g.fresh visited pending = node :: rest) : g.key node ∉ visited := by
  intro hmem
  have hhead := List.head?_dropWhile_not (fun node => decide (g.key node ∈ visited)) pending
  unfold fresh at h
  rw [h] at hhead
  simp only [List.head?_cons] at hhead
  exact absurd hmem (of_decide_eq_false hhead)

/-! ### The action is folded over the visited nodes -/

variable (g maxNodes) in
/-- The walk with an action beside the walk that records: the same steps are taken until the action
fails. -/
theorem runFrom_record (act : σ → Node → Except ε σ) (fuel : Nat) (visited : List Key)
    (pending seen : List Node) (start : σ) :
    ∃ nodes count ending,
      g.runFrom maxNodes record fuel ⟨visited, pending, seen⟩ = ⟨seen ++ nodes, count, ending⟩
      ∧ (∀ result, nodes.foldlM act start = .ok result →
          g.runFrom maxNodes act fuel ⟨visited, pending, start⟩ = ⟨result, count, ending⟩)
      ∧ (∀ e, nodes.foldlM act start = .error e →
          (g.runFrom maxNodes act fuel ⟨visited, pending, start⟩).ending = .failed e) := by
  induction fuel generalizing visited pending seen start with
  | zero =>
    refine ⟨[], visited.length, .stopped g.limit, ?_, ?_, ?_⟩
    · rw [List.append_nil]
      rfl
    · intro result h
      cases pure_eq_ok.mp h
      rfl
    · intro e h
      cases h
  | succ fuel ih =>
    simp only [runFrom, runLoop, step]
    cases hfresh : g.fresh visited pending with
    | nil =>
      refine ⟨[], visited.length, .finished, ?_, ?_, ?_⟩
      · rw [List.append_nil]
      · intro result h
        cases pure_eq_ok.mp h
        rfl
      · intro e h
        cases h
    | cons node rest =>
      dsimp only [record]
      cases hfollow : g.follow maxNodes (visited.length + 1) rest.length node with
      | error e =>
        refine ⟨[node], visited.length + 1, .stopped e, rfl, ?_, ?_⟩
        · intro result h
          rw [List.foldlM_cons, bind_eq_ok] at h
          obtain ⟨mid, hact, h⟩ := h
          cases pure_eq_ok.mp h
          rw [hact]
        · intro e' h
          rw [List.foldlM_cons] at h
          cases hact : act start node with
          | error found =>
            rw [hact] at h
            cases h
            rfl
          | ok mid =>
            rw [hact] at h
            cases h
      | ok linked =>
        have hsnoc : ∀ nodes : List Node, seen ++ [node] ++ nodes = seen ++ node :: nodes := by
          intro nodes
          rw [List.append_assoc, List.singleton_append]
        dsimp only
        cases hact : act start node with
        | error found =>
          obtain ⟨nodes, count, ending, hrec, _, _⟩ :=
            ih (g.key node :: visited) (linked.reverse ++ rest) (seen ++ [node]) start
          refine ⟨node :: nodes, count, ending, ?_, ?_, ?_⟩
          · rw [← hsnoc nodes]
            exact hrec
          · intro result h
            rw [List.foldlM_cons, hact] at h
            cases h
          · intro e h
            rw [List.foldlM_cons, hact] at h
            cases h
            rfl
        | ok mid =>
          obtain ⟨nodes, count, ending, hrec, hok, herr⟩ :=
            ih (g.key node :: visited) (linked.reverse ++ rest) (seen ++ [node]) mid
          refine ⟨node :: nodes, count, ending, ?_, ?_, ?_⟩
          · rw [← hsnoc nodes]
            exact hrec
          · intro result h
            rw [List.foldlM_cons, hact] at h
            exact hok result h
          · intro e h
            rw [List.foldlM_cons, hact] at h
            exact herr e h

/-- The walk is the fold of its action over the visited nodes, unless the action fails. -/
theorem run_eq_foldlM (act : σ → Node → Except ε σ) (roots : List Node) (start : σ) :
    match (g.visit maxNodes roots).result.foldlM act start with
    | .ok result =>
      g.run maxNodes act roots start
        = ⟨result, (g.visit maxNodes roots).visited, (g.visit maxNodes roots).ending⟩
    | .error e => (g.run maxNodes act roots start).ending = .failed e := by
  obtain ⟨nodes, count, ending, hrec, hok, herr⟩ :=
    runFrom_record g maxNodes act (maxNodes + 2) [] roots [] start
  have hvisit : g.visit maxNodes roots = ⟨nodes, count, ending⟩ := hrec
  rw [hvisit]
  cases hfold : nodes.foldlM act start with
  | ok result => exact hok result hfold
  | error e => exact herr e hfold

/-- Recording never fails, so a recorded walk finishes or stops. -/
theorem visit_ending (roots : List Node) (e : ε) :
    (g.visit maxNodes roots).ending ≠ .failed e := by
  refine runLoop_inv (fun _ : State Node Key (List Node) => True)
    (fun outcome : Outcome (List Node) ε => outcome.ending ≠ .failed e)
    (fun _ _ _ _ => trivial) ?_ ?_ trivial
  · intro s outcome _ hstep
    unfold step at hstep
    split at hstep
    · cases hstep
      intro h
      cases h
    · dsimp only [record] at hstep
      split at hstep
      · cases hstep
        intro h
        cases h
      · cases hstep
  · intro s _ h
    cases h

/-! ### No key is visited twice -/

/-- The recorded nodes have the visited keys, newest first, and no key twice. -/
structure Recorded (g : Graph Node Key ε) (s : State Node Key (List Node)) : Prop where
  keys : s.visited = (s.result.map g.key).reverse
  nodup : (s.result.map g.key).Nodup

theorem Recorded.snoc {s : State Node Key (List Node)} (h : Recorded g s) {node : Node}
    {rest : List Node} (hfresh : g.fresh s.visited s.pending = node :: rest)
    (pending : List Node) :
    Recorded g ⟨g.key node :: s.visited, pending, s.result ++ [node]⟩ := by
  have hnew := fresh_cons hfresh
  refine ⟨?_, ?_⟩
  · simp only [List.map_append, List.map_cons, List.map_nil, List.reverse_append,
      List.reverse_cons, List.reverse_nil, List.nil_append, List.singleton_append, h.keys]
  · rw [List.map_append, List.nodup_append]
    refine ⟨h.nodup, List.nodup_singleton _, ?_⟩
    intro a ha b hb
    rw [List.map_singleton, List.mem_singleton] at hb
    rintro rfl
    apply hnew
    rw [h.keys, List.mem_reverse, ← hb]
    exact ha

/-- The visited nodes have different keys, and the count is their number. -/
theorem visit_nodup (roots : List Node) :
    ((g.visit maxNodes roots).result.map g.key).Nodup
      ∧ (g.visit maxNodes roots).visited = (g.visit maxNodes roots).result.length := by
  refine runLoop_inv (Recorded g)
    (fun outcome : Outcome (List Node) ε => (outcome.result.map g.key).Nodup
      ∧ outcome.visited = outcome.result.length) ?_ ?_ ?_ ⟨rfl, List.nodup_nil⟩
  · intro s s' hs hstep
    obtain ⟨node, rest, result, linked, hfresh, hact, _, rfl⟩ := step_next hstep
    cases hact
    exact hs.snoc hfresh _
  · intro s outcome hs hstep
    unfold step at hstep
    split at hstep
    · cases hstep
      refine ⟨hs.nodup, ?_⟩
      rw [hs.keys, List.length_reverse, List.length_map]
    · rename_i node rest hfresh
      dsimp only [record] at hstep
      split at hstep
      · cases hstep
        refine ⟨(hs.snoc hfresh []).nodup, ?_⟩
        rw [hs.keys, List.length_reverse, List.length_map, List.length_append]
        rfl
      · cases hstep
  · intro s hs
    refine ⟨hs.nodup, ?_⟩
    show s.visited.length = s.result.length
    rw [hs.keys, List.length_reverse, List.length_map]

/-! ### Properties that the links keep -/

theorem fresh_mem {visited : List Key} {pending rest : List Node} {node : Node}
    (h : g.fresh visited pending = node :: rest) : ∀ n ∈ node :: rest, n ∈ pending := by
  intro n hn
  rw [← h] at hn
  exact (List.dropWhile_sublist _).subset hn

/-- What holds of the roots, and of the links of every node it holds of, holds of every visited
node. -/
theorem visit_forall {P : Node → Prop} {roots : List Node}
    (hexpand : ∀ node budget linked, P node → g.expand node budget = .ok linked →
      ∀ n ∈ linked, P n) (hroots : ∀ n ∈ roots, P n) :
    ∀ n ∈ (g.visit maxNodes roots).result, P n := by
  refine runLoop_inv
    (fun s : State Node Key (List Node) => (∀ n ∈ s.pending, P n) ∧ ∀ n ∈ s.result, P n)
    (fun outcome : Outcome (List Node) ε => ∀ n ∈ outcome.result, P n) ?_ ?_ ?_ ⟨hroots, ?_⟩
  · intro s s' hs hstep
    obtain ⟨node, rest, result, linked, hfresh, hact, hfollow, rfl⟩ := step_next hstep
    cases hact
    have hpending : ∀ n ∈ node :: rest, P n := fun n hn => hs.1 n (fresh_mem hfresh n hn)
    have hnode := hpending node List.mem_cons_self
    refine ⟨?_, ?_⟩
    · intro n hn
      rcases List.mem_append.mp hn with hn | hn
      · exact hexpand _ _ _ hnode (follow_ok hfollow).2 n (List.mem_reverse.mp hn)
      · exact hpending n (List.mem_cons_of_mem node hn)
    · intro n hn
      rcases List.mem_append.mp hn with hn | hn
      · exact hs.2 n hn
      · cases List.mem_singleton.mp hn
        exact hnode
  · intro s outcome hs hstep
    unfold step at hstep
    split at hstep
    · cases hstep
      exact hs.2
    · rename_i node rest hfresh
      dsimp only [record] at hstep
      split at hstep
      · cases hstep
        intro n hn
        rcases List.mem_append.mp hn with hn | hn
        · exact hs.2 n hn
        · cases List.mem_singleton.mp hn
          exact hs.1 node (fresh_mem hfresh node List.mem_cons_self)
      · cases hstep
  · intro s hs
    exact hs.2
  · intro n hn
    cases hn

/-! ### A finished walk left nothing out -/

/-- A node was met: its key was visited, or it waits. -/
def Met (g : Graph Node Key ε) (s : State Node Key (List Node)) (node : Node) : Prop :=
  g.key node ∈ s.visited ∨ node ∈ s.pending

theorem Met.step {s : State Node Key (List Node)} {node next : Node} {rest linked : List Node}
    (h : Met g s node) (hfresh : g.fresh s.visited s.pending = next :: rest) :
    Met g ⟨g.key next :: s.visited, linked.reverse ++ rest, s.result ++ [next]⟩ node := by
  rcases h with hvisited | hpending
  · exact .inl (List.mem_cons_of_mem _ hvisited)
  rw [← List.takeWhile_append_dropWhile (p := fun node => decide (g.key node ∈ s.visited))
    (l := s.pending)] at hpending
  rcases List.mem_append.mp hpending with hmem | hmem
  · have hvisited := List.mem_takeWhile_imp hmem
    exact .inl (List.mem_cons_of_mem _ (of_decide_eq_true hvisited))
  · have hmem : node ∈ g.fresh s.visited s.pending := hmem
    rw [hfresh] at hmem
    rcases List.mem_cons.mp hmem with rfl | hmem
    · exact .inl List.mem_cons_self
    · exact .inr (List.mem_append_right _ hmem)

/-- The roots and the links of the visited nodes were met. -/
structure Covers (g : Graph Node Key ε) (roots : List Node) (s : State Node Key (List Node)) :
    Prop where
  recorded : Recorded g s
  roots : ∀ node ∈ roots, Met g s node
  links : ∀ node ∈ s.result, ∃ budget linked, g.expand node budget = .ok linked
    ∧ ∀ next ∈ linked, Met g s next

theorem Covers.step {roots : List Node} {s : State Node Key (List Node)} (h : Covers g roots s)
    {node : Node} {rest linked : List Node} (hfresh : g.fresh s.visited s.pending = node :: rest)
    (hfollow : g.follow maxNodes (s.visited.length + 1) rest.length node = .ok linked) :
    Covers g roots ⟨g.key node :: s.visited, linked.reverse ++ rest, s.result ++ [node]⟩ where
  recorded := h.recorded.snoc hfresh _
  roots root hroot := (h.roots root hroot).step hfresh
  links := by
    intro seen hseen
    rcases List.mem_append.mp hseen with hseen | hseen
    · obtain ⟨budget, found, hexpand, hfound⟩ := h.links seen hseen
      exact ⟨budget, found, hexpand, fun next hnext => (hfound next hnext).step hfresh⟩
    · cases List.mem_singleton.mp hseen
      refine ⟨_, linked, (follow_ok hfollow).2, ?_⟩
      intro next hnext
      exact .inr (List.mem_append_left _ (List.mem_reverse.mpr hnext))

/-- When a walk finishes, it has visited the roots and the links of every visited node, or nodes with
their keys. -/
theorem visit_covers {roots : List Node} (h : (g.visit maxNodes roots).ending = .finished) :
    (∀ node ∈ roots, g.key node ∈ (g.visit maxNodes roots).result.map g.key)
      ∧ ∀ node ∈ (g.visit maxNodes roots).result, ∃ budget linked,
        g.expand node budget = .ok linked
          ∧ ∀ next ∈ linked, g.key next ∈ (g.visit maxNodes roots).result.map g.key := by
  revert h
  refine runLoop_inv (Covers g roots)
    (fun outcome : Outcome (List Node) ε => outcome.ending = .finished →
      (∀ node ∈ roots, g.key node ∈ outcome.result.map g.key)
        ∧ ∀ node ∈ outcome.result, ∃ budget linked, g.expand node budget = .ok linked
          ∧ ∀ next ∈ linked, g.key next ∈ outcome.result.map g.key) ?_ ?_ ?_ ?_
  · intro s s' hs hstep
    obtain ⟨node, rest, result, linked, hfresh, hact, hfollow, rfl⟩ := step_next hstep
    cases hact
    exact hs.step hfresh hfollow
  · intro s outcome hs hstep hfinished
    unfold step at hstep
    split at hstep
    · rename_i hfresh
      cases hstep
      have hmet : ∀ node, Met g s node → g.key node ∈ s.result.map g.key := by
        intro node hnode
        rw [← List.mem_reverse, ← hs.recorded.keys]
        rcases hnode with hvisited | hpending
        · exact hvisited
        · exact of_decide_eq_true (List.dropWhile_eq_nil_iff.mp hfresh node hpending)
      refine ⟨fun node hnode => hmet node (hs.roots node hnode), ?_⟩
      intro node hnode
      obtain ⟨budget, linked, hexpand, hlinked⟩ := hs.links node hnode
      exact ⟨budget, linked, hexpand, fun next hnext => hmet next (hlinked next hnext)⟩
    · dsimp only [record] at hstep
      split at hstep
      · cases hstep
        cases hfinished
      · cases hstep
  · intro s hs hfinished
    cases hfinished
  · refine ⟨⟨rfl, List.nodup_nil⟩, ?_, ?_⟩
    · intro node hnode
      exact .inr hnode
    · intro node hnode
      cases hnode

/-! ### A larger allowance goes further on the same way -/

/-- A recorded walk only adds to what it recorded. -/
theorem runFrom_record_extends (fuel : Nat) (s : State Node Key (List Node)) :
    s.result <+: (g.runFrom maxNodes record fuel s).result := by
  obtain ⟨visited, pending, seen⟩ := s
  obtain ⟨nodes, count, ending, hrec, _, _⟩ :=
    runFrom_record g maxNodes record fuel visited pending seen seen
  rw [hrec]
  exact List.prefix_append seen nodes

end Graph

/-- The second graph has the links of the first, and may have them where the first has none. -/
structure Extends (g g' : Graph Node Key ε) : Prop where
  key : g'.key = g.key
  expand : ∀ {node budget budget' linked}, budget ≤ budget' → g.expand node budget = .ok linked →
    g'.expand node budget' = .ok linked

namespace Extends

open Walk.Graph

variable {g g' : Graph Node Key ε} {maxNodes maxNodes' : Nat}

omit [DecidableEq Key] in
theorem follow (h : Extends g g') (hmax : maxNodes ≤ maxNodes') {visited pending : Nat}
    {node : Node} {linked : List Node} (hok : g.follow maxNodes visited pending node = .ok linked) :
    g'.follow maxNodes' visited pending node = .ok linked := by
  obtain ⟨hle, hexpand⟩ := follow_ok hok
  unfold Graph.follow
  rw [if_neg (by omega)]
  exact h.expand (by omega) hexpand

theorem fresh (h : Extends g g') (visited : List Key) (pending : List Node) :
    g'.fresh visited pending = g.fresh visited pending := by
  unfold Graph.fresh
  rw [h.key]

theorem runFrom_extends (h : Extends g g') (hmax : maxNodes ≤ maxNodes') (fuel fuel' : Nat)
    (s : State Node Key (List Node))
    (hfin : (g'.runFrom maxNodes' record fuel' s).ending = .finished) :
    (g.runFrom maxNodes record fuel s).result <+: (g'.runFrom maxNodes' record fuel' s).result
      ∧ ((g.runFrom maxNodes record fuel s).ending = .finished →
        (g.runFrom maxNodes record fuel s).result
          = (g'.runFrom maxNodes' record fuel' s).result) := by
  induction fuel generalizing fuel' s with
  | zero =>
    refine ⟨runFrom_record_extends fuel' s, ?_⟩
    intro hend
    cases hend
  | succ fuel ih =>
    obtain ⟨fuel', rfl⟩ : ∃ n, fuel' = n + 1 := by
      cases fuel' with
      | zero => cases hfin
      | succ n => exact ⟨n, rfl⟩
    simp only [runFrom, runLoop, step, h.fresh] at hfin ⊢
    cases hfresh : g.fresh s.visited s.pending with
    | nil => exact ⟨List.prefix_rfl, fun _ => rfl⟩
    | cons node rest =>
      rw [hfresh] at hfin
      dsimp only [record] at hfin ⊢
      cases hfollow : g.follow maxNodes (s.visited.length + 1) rest.length node with
      | ok linked =>
        rw [h.follow hmax hfollow] at hfin ⊢
        rw [h.key] at hfin ⊢
        exact ih fuel' _ hfin
      | error e =>
        refine ⟨?_, fun hend => by cases hend⟩
        dsimp only
        cases hfollow' : g'.follow maxNodes' (s.visited.length + 1) rest.length node with
        | error e' => exact List.prefix_rfl
        | ok linked =>
          exact runFrom_record_extends fuel' (⟨_, _, _⟩ : State Node Key (List Node))

/-- A walk that is cut off has visited the first nodes of the complete walk; one that is not has
visited them all. -/
theorem visit_extends (h : Extends g g') (hmax : maxNodes ≤ maxNodes') (roots : List Node)
    (hfin : (g'.visit maxNodes' roots).ending = .finished) :
    (g.visit maxNodes roots).result <+: (g'.visit maxNodes' roots).result
      ∧ ((g.visit maxNodes roots).ending = .finished →
        (g.visit maxNodes roots).result = (g'.visit maxNodes' roots).result) :=
  h.runFrom_extends hmax _ _ _ hfin

end Extends

end Walk
