import Mathlib.Logic.Function.Basic
import Mathlib.Logic.Relation
/-!
# Interleaved programs

Programs that make calls into a shared state, one call at a time, while other programs and the outside
do the same. What a call may reply and what it does to the state is a relation. A program meets a
contract (`Meets`) when it guarantees something of each of its calls and relies on something of the
steps in between; the assertions it goes through are stable under those. Programs whose guarantees
cover each other's relies meet their contracts in every interleaving (`Run.meets`).
-/

namespace Interleaving

variable {Call : Type} {Reply : Call → Type} {σ α ι : Type}

/-- A program that makes calls and goes on with their replies. -/
inductive Program (Call : Type) (Reply : Call → Type) (α : Type) where
  | ret (result : α)
  | ask (call : Call) (next : Reply call → Program Call Reply α)

/-- The result of a program when every call has a fixed reply. -/
def Program.answer (replies : ∀ call, Reply call) : Program Call Reply α → α
  | .ret result => result
  | .ask call next => (next (replies call)).answer replies

/-- What a program expects of the steps of others, and what it promises of its own. -/
structure Contract (σ : Type) where
  rely : σ → σ → Prop
  guarantee : σ → σ → Prop

/-- The steps of others keep an assertion. -/
def Contract.Stable (contract : Contract σ) (assertion : σ → Prop) : Prop :=
  ∀ s s', assertion s → contract.rely s s' → assertion s'

theorem Contract.Stable.and {contract : Contract σ} {p q : σ → Prop} (hp : contract.Stable p)
    (hq : contract.Stable q) : contract.Stable fun s => p s ∧ q s :=
  fun s s' h hrely => ⟨hp s s' h.1 hrely, hq s s' h.2 hrely⟩

theorem Contract.stable_const (contract : Contract σ) (fact : Prop) : contract.Stable fun _ => fact :=
  fun _ _ h _ => h

/-- Started where the assertion holds, the program keeps its guarantee and ends with the
postcondition. -/
inductive Meets (handle : (call : Call) → σ → Reply call → σ → Prop) (contract : Contract σ)
    (post : α → σ → Prop) : (σ → Prop) → Program Call Reply α → Prop where
  | ret {pre : σ → Prop} {result : α} (stable : contract.Stable pre)
    (ends : ∀ s, pre s → post result s) : Meets handle contract post pre (.ret result)
  | ask {pre : σ → Prop} {call : Call} {next : Reply call → Program Call Reply α}
    (mid : Reply call → σ → Prop) (stable : contract.Stable pre)
    (step : ∀ s reply s', pre s → handle call s reply s' → contract.guarantee s s' ∧ mid reply s')
    (rest : ∀ reply, Meets handle contract post (mid reply) (next reply)) :
    Meets handle contract post pre (.ask call next)

namespace Meets

variable {handle : (call : Call) → σ → Reply call → σ → Prop} {contract : Contract σ}
  {post : α → σ → Prop} {pre : σ → Prop} {program : Program Call Reply α}

theorem stable (h : Meets handle contract post pre program) : contract.Stable pre := by
  cases h with
  | ret stable => exact stable
  | ask _ stable => exact stable

theorem ends {result : α} (h : Meets handle contract post pre (.ret result)) {s : σ} (hs : pre s) :
    post result s := by
  cases h with
  | ret _ ends => exact ends s hs

theorem step {call : Call} {next : Reply call → Program Call Reply α}
    (h : Meets handle contract post pre (.ask call next)) {s s' : σ} {reply : Reply call} (hs : pre s)
    (hcall : handle call s reply s') :
    contract.guarantee s s' ∧ ∃ mid, Meets handle contract post mid (next reply) ∧ mid s' := by
  cases h with
  | ask mid _ step rest =>
    obtain ⟨hguarantee, hmid⟩ := step s reply s' hs hcall
    exact ⟨hguarantee, mid reply, rest reply, hmid⟩

theorem weaken {pre' : σ → Prop} (h : Meets handle contract post pre program)
    (stable : contract.Stable pre') (himp : ∀ s, pre' s → pre s) :
    Meets handle contract post pre' program := by
  cases h with
  | ret _ ends => exact .ret stable fun s hs => ends s (himp s hs)
  | ask mid _ step rest =>
    exact .ask mid stable (fun s reply s' hs => step s reply s' (himp s hs)) rest

/-- A call that leaves the state as it is. -/
theorem look {call : Call} {next : Reply call → Program Call Reply α} (stable : contract.Stable pre)
    (quiet : ∀ s reply s', handle call s reply s' → s' = s) (hrefl : ∀ s, contract.guarantee s s)
    (rest : ∀ reply, Meets handle contract post pre (next reply)) :
    Meets handle contract post pre (.ask call next) :=
  .ask (fun _ => pre) stable
    (fun s reply s' hs hcall => by
      rw [quiet s reply s' hcall]
      exact ⟨hrefl s, hs⟩)
    rest

end Meets

/-! ## Many programs -/

/-- The shared state and what is left of each program. -/
structure Config (Call : Type) (Reply : Call → Type) (σ α ι : Type) where
  shared : σ
  programs : ι → Program Call Reply α

section Runs

variable [DecidableEq ι] (handle : ι → (call : Call) → σ → Reply call → σ → Prop)

/-- One call of one program. -/
inductive JobStep (i : ι) : Config Call Reply σ α ι → Config Call Reply σ α ι → Prop where
  | call {s s' : σ} {programs : ι → Program Call Reply α} {call : Call}
    {next : Reply call → Program Call Reply α} {reply : Reply call}
    (asks : programs i = .ask call next) (done : handle i call s reply s') :
    JobStep i ⟨s, programs⟩ ⟨s', Function.update programs i (next reply)⟩

/-- One call of some program, or a step of the outside. -/
inductive Step (outside : σ → σ → Prop) :
    Config Call Reply σ α ι → Config Call Reply σ α ι → Prop where
  | job {i : ι} {c c' : Config Call Reply σ α ι} (h : JobStep handle i c c') : Step outside c c'
  | outside {s s' : σ} {programs : ι → Program Call Reply α} (h : outside s s') :
    Step outside ⟨s, programs⟩ ⟨s', programs⟩

/-- Any number of steps. -/
abbrev Run (outside : σ → σ → Prop) :
    Config Call Reply σ α ι → Config Call Reply σ α ι → Prop :=
  Relation.ReflTransGen (Step handle outside)

/-- Calls of one program, one after the other. -/
inductive Does (handle : (call : Call) → σ → Reply call → σ → Prop) :
    σ → Program Call Reply α → σ → Program Call Reply α → Prop where
  | refl (s : σ) (program : Program Call Reply α) : Does handle s program s program
  | call {s s₁ s' : σ} {call : Call} {next : Reply call → Program Call Reply α}
    {program : Program Call Reply α} (reply : Reply call) (done : handle call s reply s₁)
    (rest : Does handle s₁ (next reply) s' program) : Does handle s (.ask call next) s' program

variable {handle} {outside : σ → σ → Prop} {contract : ι → Contract σ} {post : ι → α → σ → Prop}

/-- The other programs can wait. -/
theorem Does.run {i : ι} {s s' : σ} {program : Program Call Reply α}
    {programs : ι → Program Call Reply α} (h : Does (handle i) s (programs i) s' program) :
    Run handle outside ⟨s, programs⟩ ⟨s', Function.update programs i program⟩ := by
  generalize hp : programs i = start at h
  induction h generalizing programs with
  | refl s start =>
    rw [← hp, Function.update_eq_self]
  | call reply done _ ih =>
    have hrest := @ih (Function.update programs i _) (Function.update_self _ _ _)
    rw [Function.update_idem] at hrest
    exact .head (.job (.call hp done)) hrest

/-- Every program is at a place from which it meets its contract. -/
def OnTrack (handle : ι → (call : Call) → σ → Reply call → σ → Prop) (contract : ι → Contract σ)
    (post : ι → α → σ → Prop) (c : Config Call Reply σ α ι) : Prop :=
  ∀ i, ∃ pre, Meets (handle i) (contract i) (post i) pre (c.programs i) ∧ pre c.shared

/-- What the others and the outside do is what a program relies on. -/
structure Compatible (outside : σ → σ → Prop) (contract : ι → Contract σ) : Prop where
  others : ∀ i j, i ≠ j → ∀ s s', (contract i).guarantee s s' → (contract j).rely s s'
  outside : ∀ j s s', outside s s' → (contract j).rely s s'

theorem JobStep.meets (hcompatible : Compatible outside contract)
    {c c' : Config Call Reply σ α ι} (hc : OnTrack handle contract post c) {i : ι}
    (h : JobStep handle i c c') :
    (contract i).guarantee c.shared c'.shared ∧ OnTrack handle contract post c' := by
  cases h with
  | @call s s' programs call next reply asks done =>
    obtain ⟨pre, hmeets, hpre⟩ := hc i
    dsimp only at hmeets hpre
    rw [asks] at hmeets
    obtain ⟨hguarantee, mid, hrest, hmid⟩ := hmeets.step hpre done
    refine ⟨hguarantee, fun j => ?_⟩
    by_cases hj : j = i
    · subst hj
      refine ⟨mid, ?_, hmid⟩
      dsimp only
      rw [Function.update_self]
      exact hrest
    · obtain ⟨pre', hmeets', hpre'⟩ := hc j
      refine ⟨pre', ?_, hmeets'.stable _ _ hpre' (hcompatible.others i j (Ne.symm hj) _ _ hguarantee)⟩
      dsimp only
      rw [Function.update_of_ne hj]
      exact hmeets'

theorem Step.onTrack (hcompatible : Compatible outside contract)
    {c c' : Config Call Reply σ α ι} (hc : OnTrack handle contract post c)
    (h : Step handle outside c c') : OnTrack handle contract post c' := by
  cases h with
  | job h => exact (h.meets hcompatible hc).2
  | outside h =>
    intro i
    obtain ⟨pre, hmeets, hpre⟩ := hc i
    exact ⟨pre, hmeets, hmeets.stable _ _ hpre (hcompatible.outside i _ _ h)⟩

/-- Contracts that fit together are met in every interleaving. -/
theorem Run.onTrack (hcompatible : Compatible outside contract)
    {c c' : Config Call Reply σ α ι} (hc : OnTrack handle contract post c)
    (h : Run handle outside c c') : OnTrack handle contract post c' := by
  induction h with
  | refl => exact hc
  | tail _ hstep ih => exact hstep.onTrack hcompatible ih

omit [DecidableEq ι] in
/-- A program that has ended has established its postcondition. -/
theorem OnTrack.ends {c : Config Call Reply σ α ι} (hc : OnTrack handle contract post c) {i : ι}
    {result : α} (h : c.programs i = .ret result) : post i result c.shared := by
  obtain ⟨pre, hmeets, hpre⟩ := hc i
  rw [h] at hmeets
  exact hmeets.ends hpre

end Runs

end Interleaving
