import Pdfv.Basic.Fallible
/-!
# Computations under a budget

A computation that keeps its state when it fails (`EStateM`), run under a budget: a counter its state
carries, the limit of the counter, an invariant of the state and the errors that report a spent
budget. `Agrees` says that such a computation gives what an unbounded one gives unless the budget
stops it, at a bounded cost; `Projects` forgets the state of a failed run. Both have the rules for
values, binds and computations without state.
-/

namespace Budgets

variable {ε σ τ α β : Type}

/-- A computation without state, run in any state. -/
def ofExcept (y : Except ε α) : EStateM ε σ α := fun s =>
  match y with
  | .ok a => .ok a s
  | .error e => .error e s

instance liftExcept : MonadLift (Except ε) (EStateM ε σ) := ⟨ofExcept⟩

/-- What a run gives. -/
def outcome : EStateM.Result ε σ α → Except ε α
  | .ok a _ => .ok a
  | .error e _ => .error e

/-- The state a run ends in, also when it fails. -/
def final : EStateM.Result ε σ α → σ
  | .ok _ s => s
  | .error _ s => s

theorem bind_ok {x : EStateM ε σ α} {f : α → EStateM ε σ β} {s s' : σ} {a : α}
    (h : x s = .ok a s') : (x >>= f) s = f a s' := by
  show EStateM.bind x f s = _
  rw [EStateM.bind, h]

theorem bind_error {x : EStateM ε σ α} {f : α → EStateM ε σ β} {s s' : σ} {e : ε}
    (h : x s = .error e s') : (x >>= f) s = .error e s' := by
  show EStateM.bind x f s = _
  rw [EStateM.bind, h]

/-- A counter with its limit, what every state keeps, and the errors of a spent budget. -/
structure Budget (ε σ : Type) where
  spent : σ → Nat
  limit : Nat
  keeps : σ → Prop
  stops : ε → Prop

/-- `x` gives what `y` gives and spends at most `cost`, or the budget stops it, which happens to a
computation that `fits` only when the cost exceeds what is left. -/
def Agrees (budget : Budget ε σ) (fits : Prop) (cost : Nat) (x : EStateM ε σ α)
    (y : Except ε α) : Prop :=
  ∀ s, budget.keeps s → budget.keeps (final (x s)) ∧
    (outcome (x s) = y ∧ budget.spent (final (x s)) ≤ budget.spent s + cost ∨
      (∃ e, budget.stops e ∧ outcome (x s) = .error e) ∧
        (fits → budget.limit < budget.spent s + cost))

namespace Agrees

variable {budget : Budget ε σ} {fits fits' : Prop} {cost cost' : Nat}

theorem ofExcept (y : Except ε α) : Agrees budget True 0 (ofExcept y) y := by
  intro s hs
  cases y with
  | ok a => exact ⟨hs, .inl ⟨rfl, Nat.le_refl _⟩⟩
  | error e => exact ⟨hs, .inl ⟨rfl, Nat.le_refl _⟩⟩

theorem pure (a : α) : Agrees budget True 0 (pure a) (pure a) :=
  ofExcept (.ok a)

theorem throw (e : ε) : Agrees budget True 0 (throw e : EStateM ε σ α) (.error e) :=
  ofExcept (.error e)

theorem mono {x : EStateM ε σ α} {y : Except ε α} (h : Agrees budget fits cost x y)
    (hfits : fits' → fits) (hcost : cost ≤ cost') : Agrees budget fits' cost' x y := by
  intro s hs
  obtain ⟨hkeeps, ⟨hy, hspent⟩ | ⟨hstop, hover⟩⟩ := h s hs
  · exact ⟨hkeeps, .inl ⟨hy, by omega⟩⟩
  · refine ⟨hkeeps, .inr ⟨hstop, fun hf => ?_⟩⟩
    have := hover (hfits hf)
    omega

/-- The costs of the parts add up, and both parts have to fit. -/
theorem bind {x : EStateM ε σ α} {y : Except ε α} {f : α → EStateM ε σ β}
    {g : α → Except ε β} (h : Agrees budget fits cost x y)
    (hf : ∀ a, Agrees budget fits' cost' (f a) (g a)) :
    Agrees budget (fits ∧ fits') (cost + cost') (x >>= f) (y >>= g) := by
  intro s hs
  have hx := h s hs
  cases hrun : x s with
  | ok a s₁ =>
    rw [hrun] at hx
    rw [bind_ok hrun]
    obtain ⟨hs₁, ⟨rfl, hspent⟩ | ⟨⟨e, -, he⟩, -⟩⟩ := hx
    · obtain ⟨hkeeps, ⟨hy, hspent'⟩ | ⟨hstop, hover⟩⟩ := hf a s₁ hs₁
      · refine ⟨hkeeps, .inl ⟨hy, ?_⟩⟩
        simp only [final] at hspent
        omega
      · refine ⟨hkeeps, .inr ⟨hstop, fun hfits => ?_⟩⟩
        have := hover hfits.2
        simp only [final] at hspent
        omega
    · simp only [outcome, reduceCtorEq] at he
  | error e s₁ =>
    rw [hrun] at hx
    rw [bind_error hrun]
    obtain ⟨hs₁, ⟨rfl, hspent⟩ | ⟨⟨e', hstop, he⟩, hover⟩⟩ := hx
    · exact ⟨hs₁, .inl ⟨rfl, by simp only [final] at hspent ⊢; omega⟩⟩
    · refine ⟨hs₁, .inr ⟨⟨e', hstop, ?_⟩, fun hfits => ?_⟩⟩
      · simp only [outcome, Except.error.injEq] at he ⊢
        exact he
      · have := hover hfits.1
        omega

/-- A computation without state between two parts costs nothing. -/
theorem bind_ofExcept {x : Except ε α} {f : α → EStateM ε σ β} {g : α → Except ε β}
    (hf : ∀ a, Agrees budget fits cost (f a) (g a)) :
    Agrees budget fits cost (Budgets.ofExcept x >>= f) (x >>= g) :=
  ((ofExcept x).bind hf).mono (fun h => ⟨trivial, h⟩) (by omega)

end Agrees

/-- `y` runs like `x` on what `view` shows of the state, and forgets the state of a failed run. -/
def Projects (view : σ → τ) (x : EStateM ε σ α) (y : StateT τ (Except ε) α) : Prop :=
  ∀ s, y (view s) = (outcome (x s)).map fun a => (a, view (final (x s)))

namespace Projects

variable {view : σ → τ}

theorem ofExcept (y : Except ε α) :
    Projects view (ofExcept y) (liftM y : StateT τ (Except ε) α) := by
  intro s
  cases y with
  | ok a => rfl
  | error e => rfl

theorem pure (a : α) : Projects view (pure a : EStateM ε σ α) (pure a) := fun _ => rfl

theorem throw (e : ε) :
    Projects view (throw e : EStateM ε σ α) (throw e : StateT τ (Except ε) α) := fun _ => rfl

theorem bind {x : EStateM ε σ α} {y : StateT τ (Except ε) α} {f : α → EStateM ε σ β}
    {g : α → StateT τ (Except ε) β} (h : Projects view x y) (hf : ∀ a, Projects view (f a) (g a)) :
    Projects view (x >>= f) (y >>= g) := by
  intro s
  show (y (view s) >>= fun r => g r.1 r.2) = _
  rw [h s]
  cases hrun : x s with
  | ok a s₁ =>
    rw [bind_ok hrun]
    exact hf a s₁
  | error e s₁ =>
    rw [bind_error hrun]
    rfl

end Projects

end Budgets
