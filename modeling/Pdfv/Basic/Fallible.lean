import Pdfv.Basic.Loop
/-!
# Fallible computations

Rules for computations in `Except`: taking a successful `do` block apart (`bind_eq_ok`), carrying an
invariant through a fold (`foldlM_inv`), and relating two computations that fail together
(`ExceptRel`), with the rules for binds, folds, traversals and bounded loops.
-/

namespace Fallible

variable {ε α β γ δ : Type}

/-- `if bad { return Err(e) }`. -/
def failIf (bad : Prop) [Decidable bad] (e : ε) : Except ε Unit :=
  if bad then .error e else .ok ()

@[simp] theorem failIf_eq_ok {bad : Prop} [Decidable bad] {e : ε} {u : Unit} :
    failIf bad e = .ok u ↔ ¬ bad := by
  unfold failIf
  split <;> simp [*]

theorem failIf_of {bad : Prop} [Decidable bad] (h : bad) (e : ε) : failIf bad e = .error e :=
  if_pos h

theorem failIf_of_not {bad : Prop} [Decidable bad] (h : ¬ bad) (e : ε) : failIf bad e = .ok () :=
  if_neg h

theorem bind_eq_ok {x : Except ε α} {f : α → Except ε β} {b : β} :
    x >>= f = .ok b ↔ ∃ a, x = .ok a ∧ f a = .ok b := by
  cases x with
  | error e => simp only [bind, Except.bind, reduceCtorEq, false_and, exists_false]
  | ok a => simp only [bind, Except.bind, Except.ok.injEq, exists_eq_left']

theorem bind_eq_error {x : Except ε α} {f : α → Except ε β} {e : ε} :
    (x >>= f) = .error e ↔ x = .error e ∨ ∃ a, x = .ok a ∧ f a = .error e := by
  cases x with
  | error e' => simp [bind, Except.bind]
  | ok a => simp [bind, Except.bind]

theorem pure_eq_ok {a b : α} : (pure a : Except ε α) = .ok b ↔ a = b := by
  simp only [pure, Except.pure, Except.ok.injEq]

@[simp] theorem ok_bind (a : α) (f : α → Except ε β) : (Except.ok a >>= f) = f a := rfl

@[simp] theorem error_bind (e : ε) (f : α → Except ε β) : (Except.error e >>= f) = .error e := rfl

/-- An invariant of a fold that may fail, over the runs that succeed. -/
theorem foldlM_inv {f : β → α → Except ε β} {Inv : β → Prop} {l : List α}
    (hstep : ∀ a ∈ l, ∀ b b', Inv b → f b a = .ok b' → Inv b') {b r : β} (hb : Inv b)
    (h : l.foldlM f b = .ok r) : Inv r := by
  induction l generalizing b with
  | nil =>
    rw [List.foldlM_nil, pure_eq_ok] at h
    exact h ▸ hb
  | cons a l ih =>
    rw [List.foldlM_cons, bind_eq_ok] at h
    obtain ⟨b', hb', hr⟩ := h
    exact ih (fun a ha => hstep a (List.mem_cons_of_mem _ ha))
      (hstep a List.mem_cons_self b b' hb hb') hr

/-- Every error of a computation satisfies `P`. -/
def FailsWith (P : ε → Prop) (x : Except ε α) : Prop :=
  ∀ e, x = .error e → P e

namespace FailsWith

variable {P : ε → Prop}

theorem ok (a : α) : FailsWith P (.ok a) := nofun

theorem error {e : ε} (h : P e) : FailsWith P (.error e : Except ε α) := by
  rintro _ ⟨⟩
  exact h

theorem failIf {bad : Prop} [Decidable bad] {e : ε} (h : P e) : FailsWith P (failIf bad e) := by
  unfold Fallible.failIf
  split
  · exact error h
  · exact ok _

theorem bind {x : Except ε α} {f : α → Except ε β} (h : FailsWith P x)
    (hf : ∀ a, FailsWith P (f a)) : FailsWith P (x >>= f) := by
  intro e he
  rcases bind_eq_error.mp he with hx | ⟨a, -, ha⟩
  · exact h e hx
  · exact hf a e ha

theorem filterAuxM {f : α → Except ε Bool} (hf : ∀ a, FailsWith P (f a)) (l acc : List α) :
    FailsWith P (l.filterAuxM f acc) := by
  induction l generalizing acc with
  | nil => exact ok acc
  | cons a l ih => exact (hf a).bind fun _ => ih _

theorem filterM {f : α → Except ε Bool} (hf : ∀ a, FailsWith P (f a)) (l : List α) :
    FailsWith P (l.filterM f) :=
  (filterAuxM hf l []).bind fun _ => ok _

end FailsWith

/-- A traversal succeeds when every step does. -/
theorem mapM_ok_iff {f : α → Except ε β} {l : List α} :
    (∃ r, l.mapM f = .ok r) ↔ ∀ a ∈ l, ∃ b, f a = .ok b := by
  induction l with
  | nil =>
    constructor
    · rintro - a ha
      cases ha
    · intro _
      exact ⟨[], rfl⟩
  | cons a rest ih =>
    rw [List.forall_mem_cons, ← ih]
    constructor
    · rintro ⟨r, h⟩
      rw [List.mapM_cons] at h
      obtain ⟨b, hb, h⟩ := bind_eq_ok.mp h
      obtain ⟨r', hr', -⟩ := bind_eq_ok.mp h
      exact ⟨⟨b, hb⟩, r', hr'⟩
    · rintro ⟨⟨b, hb⟩, r, hr⟩
      refine ⟨b :: r, ?_⟩
      rw [List.mapM_cons, hb, hr]
      rfl

/-- The error of a traversal is the error of one of its steps. -/
theorem mapM_error {f : α → Except ε β} {e : ε} {l : List α} (h : l.mapM f = .error e) :
    ∃ a ∈ l, f a = .error e := by
  induction l with
  | nil => cases h
  | cons a rest ih =>
    rw [List.mapM_cons] at h
    rcases bind_eq_error.mp h with ha | ⟨b, -, h⟩
    · exact ⟨a, List.mem_cons_self, ha⟩
    · rcases bind_eq_error.mp h with hrest | ⟨r, -, hpure⟩
      · obtain ⟨a', ha', hfa⟩ := ih hrest
        exact ⟨a', List.mem_cons_of_mem a ha', hfa⟩
      · cases hpure

/-- What a map that may fail returns came from an element. -/
theorem mem_mapM_ok {f : α → Except ε β} {l : List α} {r : List β} (h : l.mapM f = .ok r) {b : β}
    (hb : b ∈ r) : ∃ a ∈ l, f a = .ok b := by
  induction l generalizing r with
  | nil =>
    rw [List.mapM_nil, pure_eq_ok] at h
    rw [← h] at hb
    cases hb
  | cons a l ih =>
    rw [List.mapM_cons, bind_eq_ok] at h
    obtain ⟨head, hhead, h⟩ := h
    rw [bind_eq_ok] at h
    obtain ⟨tail, htail, h⟩ := h
    rw [pure_eq_ok] at h
    rw [← h] at hb
    rcases List.mem_cons.mp hb with rfl | hb
    · exact ⟨a, List.mem_cons_self, hhead⟩
    · obtain ⟨a', ha', hfa⟩ := ih htail hb
      exact ⟨a', List.mem_cons_of_mem _ ha', hfa⟩

/-- A traversal whose steps agree with a function maps it. -/
theorem mapM_eq_map {f : α → Except ε β} {g : α → β} {l : List α} {r : List β}
    (hfg : ∀ a b, f a = .ok b → b = g a) (h : l.mapM f = .ok r) : r = l.map g := by
  induction l generalizing r with
  | nil =>
    cases pure_eq_ok.mp h
    rfl
  | cons a rest ih =>
    rw [List.mapM_cons] at h
    obtain ⟨b, hb, h⟩ := bind_eq_ok.mp h
    obtain ⟨r', hr', h⟩ := bind_eq_ok.mp h
    cases pure_eq_ok.mp h
    rw [List.map_cons, hfg a b hb, ih hr']

/-! ## Computations that fail together -/

/-- Both computations fail with the same error, or succeed with related results. -/
def ExceptRel (R : α → β → Prop) : Except ε α → Except ε β → Prop
  | .ok a, .ok b => R a b
  | .error e, .error e' => e = e'
  | _, _ => False

namespace ExceptRel

variable {R : α → β → Prop} {S : γ → δ → Prop}

theorem ok {a : α} {b : β} (h : R a b) : ExceptRel R (.ok a : Except ε α) (.ok b) := h

theorem error (e : ε) : ExceptRel R (.error e) (.error e) := rfl

theorem of_eq {x y : Except ε α} {R : α → α → Prop} (hR : ∀ a, R a a)
    (h : x = y) : ExceptRel R x y := by
  subst h
  cases x with
  | error e => rfl
  | ok a => exact hR a

/-- Both fail, or both succeed. -/
theorem outcomes {x : Except ε α} {y : Except ε β} (h : ExceptRel R x y) :
    (∃ e, x = .error e ∧ y = .error e) ∨ ∃ a b, x = .ok a ∧ y = .ok b ∧ R a b := by
  cases x with
  | error e =>
    cases y with
    | error e' => exact .inl ⟨e, rfl, congrArg Except.error (Eq.symm h)⟩
    | ok b => exact h.elim
  | ok a =>
    cases y with
    | error e' => exact h.elim
    | ok b => exact .inr ⟨a, b, rfl, rfl, h⟩

theorem mono {R' : α → β → Prop} {x : Except ε α} {y : Except ε β} (h : ExceptRel R x y)
    (hR : ∀ a b, R a b → R' a b) : ExceptRel R' x y := by
  rcases h.outcomes with ⟨e, rfl, rfl⟩ | ⟨a, b, rfl, rfl, hab⟩
  · exact error e
  · exact hR a b hab

theorem bind {x : Except ε α} {y : Except ε β} {f : α → Except ε γ} {g : β → Except ε δ}
    (hx : ExceptRel R x y) (hf : ∀ a b, R a b → ExceptRel S (f a) (g b)) :
    ExceptRel S (x >>= f) (y >>= g) := by
  rcases hx.outcomes with ⟨e, rfl, rfl⟩ | ⟨a, b, rfl, rfl, hab⟩
  · exact error e
  · exact hf a b hab

/-- The same computation first, then related continuations. -/
theorem bind_same (x : Except ε α) {f : α → Except ε γ} {g : α → Except ε δ}
    (hf : ∀ a, x = .ok a → ExceptRel S (f a) (g a)) : ExceptRel S (x >>= f) (x >>= g) := by
  cases x with
  | error e => rfl
  | ok a => exact hf a rfl

theorem foldlM {f : γ → α → Except ε γ} {g : δ → β → Except ε δ} {l : List α} {l' : List β}
    (hl : List.Forall₂ R l l') (hstep : ∀ a b c d, R a b → S c d → ExceptRel S (f c a) (g d b))
    {c : γ} {d : δ} (h : S c d) : ExceptRel S (l.foldlM f c) (l'.foldlM g d) := by
  induction hl generalizing c d with
  | nil => exact h
  | cons hab _ ih =>
    rw [List.foldlM_cons, List.foldlM_cons]
    exact bind (hstep _ _ _ _ hab h) fun _ _ h' => ih h'

theorem mapM {f : α → Except ε γ} {g : α → Except ε δ} {l : List α}
    (hf : ∀ a ∈ l, ExceptRel S (f a) (g a)) :
    ExceptRel (List.Forall₂ S) (l.mapM f) (l.mapM g) := by
  induction l with
  | nil => exact List.Forall₂.nil
  | cons a l ih =>
    rw [List.mapM_cons, List.mapM_cons]
    refine bind (hf a List.mem_cons_self) fun c d hcd => ?_
    refine bind (ih fun a ha => hf a (List.mem_cons_of_mem _ ha)) fun cs ds hcs => ?_
    exact List.Forall₂.cons hcd hcs

end ExceptRel

/-! ## Related loops -/

open Loop

/-- Both loop bodies go on from related states, or end with related results. -/
def StepRel (R : α → β → Prop) (S : γ → δ → Prop) : Step α γ → Step β δ → Prop
  | .next a, .next b => R a b
  | .done c, .done d => S c d
  | _, _ => False

theorem runLoop_rel {R : α → β → Prop} {S : γ → δ → Prop} {step : α → Step α γ}
    {step' : β → Step β δ} {giveUp : α → γ} {giveUp' : β → δ}
    (hstep : ∀ a b, R a b → StepRel R S (step a) (step' b))
    (hgive : ∀ a b, R a b → S (giveUp a) (giveUp' b)) {fuel : Nat} {a : α} {b : β} (h : R a b) :
    S (runLoop step giveUp fuel a) (runLoop step' giveUp' fuel b) := by
  induction fuel generalizing a b with
  | zero => exact hgive a b h
  | succ fuel ih =>
    have hs := hstep a b h
    simp only [runLoop]
    cases ha : step a with
    | next a' =>
      cases hb : step' b with
      | next b' =>
        rw [ha, hb] at hs
        exact ih hs
      | done d =>
        rw [ha, hb] at hs
        exact hs.elim
    | done c =>
      cases hb : step' b with
      | next b' =>
        rw [ha, hb] at hs
        exact hs.elim
      | done d =>
        rw [ha, hb] at hs
        exact hs

/-! ## Computations that a limit cuts short -/

/-- The first computation is the second, or ends with the error of a limit. -/
def CutShort (limit : ε) (x y : Except ε α) : Prop :=
  x = y ∨ x = .error limit

namespace CutShort

variable {limit : ε}

theorem refl (x : Except ε α) : CutShort limit x x := .inl rfl

theorem error (y : Except ε α) : CutShort limit (.error limit) y := .inr rfl

/-- A value that is found under the limit is the value. -/
theorem eq_of_ok {x y : Except ε α} (h : CutShort limit x y) {a : α} (hx : x = .ok a) :
    y = .ok a := by
  rcases h with h | h
  · rw [← h]
    exact hx
  · rw [h] at hx
    cases hx

theorem bind {x y : Except ε α} {f g : α → Except ε β} (h : CutShort limit x y)
    (hf : ∀ a, y = .ok a → CutShort limit (f a) (g a)) :
    CutShort limit (x >>= f) (y >>= g) := by
  rcases h with rfl | rfl
  · cases x with
    | error e => exact refl _
    | ok a => exact hf a rfl
  · exact error _

theorem bind_same (x : Except ε α) {f g : α → Except ε β}
    (hf : ∀ a, x = .ok a → CutShort limit (f a) (g a)) : CutShort limit (x >>= f) (x >>= g) :=
  (refl x).bind hf

theorem map {x y : Except ε α} (h : CutShort limit x y) (f : α → β) :
    CutShort limit (x.map f) (y.map f) := by
  rcases h with rfl | rfl
  · exact refl _
  · exact error _

theorem ite {c : Prop} [Decidable c] {x y x' y' : Except ε α} (hx : c → CutShort limit x y)
    (hx' : ¬ c → CutShort limit x' y') :
    CutShort limit (if c then x else x') (if c then y else y') := by
  by_cases hc : c
  · rw [if_pos hc, if_pos hc]
    exact hx hc
  · rw [if_neg hc, if_neg hc]
    exact hx' hc

theorem foldlM {f g : β → α → Except ε β} (hf : ∀ b a, CutShort limit (f b a) (g b a))
    (l : List α) (b : β) : CutShort limit (l.foldlM f b) (l.foldlM g b) := by
  induction l generalizing b with
  | nil => exact refl _
  | cons a l ih =>
    rw [List.foldlM_cons, List.foldlM_cons]
    exact (hf b a).bind fun b' _ => ih b'

/-- Loops whose bodies agree until the first one meets the limit. -/
theorem runLoop {step step' : σ → Step σ (Except ε α)} {giveUp : σ → Except ε α}
    (hstep : ∀ s, step s = step' s ∨ step s = .done (.error limit)) (fuel : Nat) (s : σ) :
    CutShort limit (runLoop step giveUp fuel s) (runLoop step' giveUp fuel s) := by
  induction fuel generalizing s with
  | zero => exact refl _
  | succ fuel ih =>
    rcases hstep s with h | h
    · simp only [Loop.runLoop, ← h]
      cases step s with
      | next s' => exact ih s'
      | done r => exact refl r
    · rw [runLoop_done h]
      exact error _

end CutShort

end Fallible
