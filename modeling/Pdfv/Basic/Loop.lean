import Mathlib.Data.List.Basic
import Mathlib.Algebra.Ring.Int.Defs
import Mathlib.Algebra.Ring.Nat
/-!
# Bounded loops

A `while` loop is a step function that either yields the next loop state or the loop's result, run
with fuel. When a measure drops at every step, any fuel above the measure gives the same result
(`runLoop_congr_fuel`), the loop satisfies its own unfolding equation (`runLoop_unfold`) and the
body never runs out of fuel; `runLoop_induct` is the invariant rule.
-/

namespace Loop

variable {σ ρ : Type}

/-- One pass through a loop body: another pass from `state`, or the loop's result. -/
inductive Step (σ ρ : Type) where
  | next (state : σ)
  | done (result : ρ)

/-- Runs the body until it is done; `giveUp` is the result when the fuel is spent. -/
def runLoop (step : σ → Step σ ρ) (giveUp : σ → ρ) : Nat → σ → ρ
  | 0, s => giveUp s
  | fuel + 1, s =>
    match step s with
    | .next s' => runLoop step giveUp fuel s'
    | .done r => r

theorem runLoop_next {step : σ → Step σ ρ} {s s' : σ} (h : step s = .next s') (giveUp : σ → ρ)
    (fuel : Nat) : runLoop step giveUp (fuel + 1) s = runLoop step giveUp fuel s' := by
  simp only [runLoop, h]

theorem runLoop_done {step : σ → Step σ ρ} {s : σ} {r : ρ} (h : step s = .done r)
    (giveUp : σ → ρ) (fuel : Nat) : runLoop step giveUp (fuel + 1) s = r := by
  simp only [runLoop, h]

/-- An invariant of the states gives a property of the result, whatever the fuel. -/
theorem runLoop_inv {step : σ → Step σ ρ} {giveUp : σ → ρ} (Inv : σ → Prop) (Q : ρ → Prop)
    (hnext : ∀ s s', Inv s → step s = .next s' → Inv s')
    (hdone : ∀ s r, Inv s → step s = .done r → Q r) (hgive : ∀ s, Inv s → Q (giveUp s))
    {fuel : Nat} {s : σ} (h : Inv s) : Q (runLoop step giveUp fuel s) := by
  induction fuel generalizing s with
  | zero => exact hgive s h
  | succ fuel ih =>
    cases hs : step s with
    | done r =>
      rw [runLoop_done hs]
      exact hdone s r h hs
    | next s' =>
      rw [runLoop_next hs]
      exact ih (hnext s s' h hs)

/-- `n` passes lead from one state to another. -/
inductive Steps (step : σ → Step σ ρ) : Nat → σ → σ → Prop where
  | refl (s : σ) : Steps step 0 s s
  | next {n : Nat} {s s' s'' : σ} (h : step s = .next s') (rest : Steps step n s' s'') :
    Steps step (n + 1) s s''

theorem Steps.trans {step : σ → Step σ ρ} {m n : Nat} {s s' s'' : σ} (h : Steps step m s s')
    (h' : Steps step n s' s'') : Steps step (m + n) s s'' := by
  induction h with
  | refl s =>
    rw [Nat.zero_add]
    exact h'
  | @next m s mid s' hstep _ ih =>
    rw [Nat.add_right_comm]
    exact .next hstep (ih h')

theorem Steps.runLoop {step : σ → Step σ ρ} {n : Nat} {s s' : σ} (h : Steps step n s s')
    (giveUp : σ → ρ) (fuel : Nat) :
    Loop.runLoop step giveUp (n + fuel) s = Loop.runLoop step giveUp fuel s' := by
  induction h with
  | refl s => rw [Nat.zero_add]
  | @next n s mid s' hstep _ ih => rw [Nat.add_right_comm, runLoop_next hstep, ih]

section Counted

variable {step : σ → Step σ ρ}

/-- The loop comes to its end in the given number of passes. -/
inductive EndsIn (step : σ → Step σ ρ) : Nat → σ → ρ → Prop where
  | done {s : σ} {r : ρ} (h : step s = .done r) : EndsIn step 1 s r
  | next {n : Nat} {s s' : σ} {r : ρ} (h : step s = .next s') (rest : EndsIn step n s' r) :
    EndsIn step (n + 1) s r

theorem EndsIn.pos {n : Nat} {s : σ} {r : ρ} (h : EndsIn step n s r) : 0 < n := by
  cases h with
  | done => exact Nat.one_pos
  | next => exact Nat.succ_pos _

/-- The passes that were made count. -/
theorem EndsIn.after {k n : Nat} {s s' : σ} {r : ρ} (h : EndsIn step n s r)
    (hsteps : Steps step k s s') : ∃ m, n = k + m ∧ EndsIn step m s' r := by
  induction hsteps generalizing n with
  | refl s => exact ⟨n, (Nat.zero_add n).symm, h⟩
  | @next k s mid s' hstep _ ih =>
    cases h with
    | done hdone =>
      rw [hstep] at hdone
      cases hdone
    | next hnext hrest =>
      rw [hstep] at hnext
      cases hnext
      obtain ⟨m, rfl, hm⟩ := ih hrest
      exact ⟨m, Nat.add_right_comm k m 1, hm⟩

theorem Steps.endsIn {k n : Nat} {s s' : σ} {r : ρ} (hsteps : Steps step k s s')
    (h : EndsIn step n s' r) : EndsIn step (k + n) s r := by
  induction hsteps with
  | refl s =>
    rw [Nat.zero_add]
    exact h
  | @next k s mid s' hstep _ ih =>
    rw [Nat.add_right_comm]
    exact .next hstep (ih h)

/-- A loop that ends within its fuel gives the result it ends with. -/
theorem EndsIn.runLoop {n fuel : Nat} {s : σ} {r : ρ} (h : EndsIn step n s r) (hfuel : n ≤ fuel)
    (giveUp : σ → ρ) : Loop.runLoop step giveUp fuel s = r := by
  induction h generalizing fuel with
  | done hdone =>
    obtain ⟨fuel, rfl⟩ : ∃ m, fuel = m + 1 := ⟨fuel - 1, by omega⟩
    exact runLoop_done hdone giveUp fuel
  | next hnext _ ih =>
    obtain ⟨fuel, rfl⟩ : ∃ m, fuel = m + 1 := ⟨fuel - 1, by omega⟩
    rw [runLoop_next hnext]
    exact ih (by omega)

end Counted

/-- The loop comes to an end with a result, without a bound on the passes. -/
inductive Finishes (step : σ → Step σ ρ) : σ → ρ → Prop where
  | done {s : σ} {r : ρ} (h : step s = .done r) : Finishes step s r
  | next {s s' : σ} {r : ρ} (h : step s = .next s') (rest : Finishes step s' r) : Finishes step s r

/-- A loop has one result. -/
theorem Finishes.unique {step : σ → Step σ ρ} {s : σ} {r r' : ρ} (h : Finishes step s r)
    (h' : Finishes step s r') : r = r' := by
  induction h with
  | @done s r hdone =>
    cases h' with
    | done hdone' =>
      rw [hdone] at hdone'
      exact (Step.done.inj hdone')
    | next hnext' =>
      rw [hdone] at hnext'
      cases hnext'
  | @next s mid r hnext _ ih =>
    cases h' with
    | done hdone' =>
      rw [hnext] at hdone'
      cases hdone'
    | next hnext' hrest' =>
      rw [hnext] at hnext'
      cases hnext'
      exact ih hrest'

theorem Steps.finishes {step : σ → Step σ ρ} {n : Nat} {s s' : σ} {r : ρ} (h : Steps step n s s')
    (h' : Finishes step s' r) : Finishes step s r := by
  induction h with
  | refl s => exact h'
  | next hstep _ ih => exact .next hstep (ih h')

section Measure

variable {step : σ → Step σ ρ} {giveUp giveUp' : σ → ρ} {μ : σ → Nat}

/-- Any two amounts of fuel above the measure give the same result. -/
theorem runLoop_congr_fuel (hdec : ∀ s s', step s = .next s' → μ s' < μ s) {fuel fuel' : Nat}
    {s : σ} (h : μ s < fuel) (h' : μ s < fuel') :
    runLoop step giveUp fuel s = runLoop step giveUp' fuel' s := by
  induction fuel generalizing s fuel' with
  | zero => omega
  | succ fuel ih =>
    obtain ⟨fuel', rfl⟩ : ∃ n, fuel' = n + 1 := ⟨fuel' - 1, by omega⟩
    cases hs : step s with
    | done r => rw [runLoop_done hs, runLoop_done hs]
    | next s' =>
      have hlt := hdec s s' hs
      rw [runLoop_next hs, runLoop_next hs]
      exact ih (by omega) (by omega)

/-- The loop equation. -/
theorem runLoop_unfold (hdec : ∀ s s', step s = .next s' → μ s' < μ s) {fuel : Nat} {s : σ}
    (h : μ s < fuel) :
    runLoop step giveUp fuel s
      = match step s with
        | .next s' => runLoop step giveUp fuel s'
        | .done r => r := by
  obtain ⟨fuel, rfl⟩ : ∃ n, fuel = n + 1 := ⟨fuel - 1, by omega⟩
  cases hs : step s with
  | done r => rw [runLoop_done hs]
  | next s' =>
    have hlt := hdec s s' hs
    rw [runLoop_next hs]
    exact runLoop_congr_fuel hdec (by omega) (by omega)

/-- The invariant rule: what every last pass establishes, and every other pass carries back from
the state it leaves, holds of the result. -/
theorem runLoop_induct (hdec : ∀ s s', step s = .next s' → μ s' < μ s) {P : σ → ρ → Prop}
    (hdone : ∀ s r, step s = .done r → P s r)
    (hnext : ∀ s s' r, step s = .next s' → P s' r → P s r) {fuel : Nat} {s : σ}
    (h : μ s < fuel) : P s (runLoop step giveUp fuel s) := by
  induction fuel generalizing s with
  | zero => omega
  | succ fuel ih =>
    cases hs : step s with
    | done r =>
      rw [runLoop_done hs]
      exact hdone s r hs
    | next s' =>
      have hlt := hdec s s' hs
      rw [runLoop_next hs]
      exact hnext s s' _ hs (ih (by omega))

/-- With fuel above the measure the loop comes to its own end. -/
theorem runLoop_finishes (hdec : ∀ s s', step s = .next s' → μ s' < μ s) {fuel : Nat} {s : σ}
    (h : μ s < fuel) : Finishes step s (runLoop step giveUp fuel s) :=
  runLoop_induct hdec (fun _ _ hs => .done hs) (fun _ _ _ hs hrest => .next hs hrest) h

end Measure

end Loop
