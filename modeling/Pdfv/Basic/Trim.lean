import Mathlib.Data.List.DropRight
import Mathlib.Data.List.Basic
/-!
# Trimming

A list without its leading and trailing elements that satisfy a predicate, and what happens when
such elements have been dropped earlier, inside the list. A marked list says of every element
whether it is shown; `trim_shown_iff` and `shown_eq_trim_iff` compare what is shown with the whole.
-/

namespace Trim

variable {α : Type} {p : α → Bool} {l : List α}

/-- The list without the leading and trailing elements that satisfy `p`. -/
def trim (p : α → Bool) (l : List α) : List α :=
  (l.dropWhile p).rdropWhile p

/-- What trimming removes in front. -/
def leading (p : α → Bool) (l : List α) : List α :=
  l.takeWhile p

/-- What trimming removes at the end. -/
def trailing (p : α → Bool) (l : List α) : List α :=
  (l.dropWhile p).rtakeWhile p

/-- Trimming removes nothing. -/
def Trimmed (p : α → Bool) (l : List α) : Prop :=
  l.dropWhile p = l ∧ l.rdropWhile p = l

@[simp] theorem trim_nil : trim p ([] : List α) = [] := rfl

theorem leading_append : leading p l ++ (trim p l ++ trailing p l) = l := by
  unfold leading trim trailing
  rw [List.rdropWhile_append_rtakeWhile, List.takeWhile_append_dropWhile]

theorem leading_spec {a : α} (h : a ∈ leading p l) : p a = true :=
  List.mem_takeWhile_imp h

theorem trailing_spec {a : α} (h : a ∈ trailing p l) : p a = true :=
  List.mem_rtakeWhile_imp h

theorem rdropWhile_append_of_pos {u v : List α} (h : ∀ a ∈ v, p a = true) :
    (u ++ v).rdropWhile p = u.rdropWhile p := by
  unfold List.rdropWhile
  rw [List.reverse_append, List.dropWhile_append_of_pos]
  intro a ha
  exact h a (List.mem_reverse.mp ha)

theorem dropWhile_append_of_neg {c v : List α} (hne : c ≠ []) (hc : c.dropWhile p = c) :
    (c ++ v).dropWhile p = c ++ v := by
  obtain ⟨a, rest, rfl⟩ := List.exists_cons_of_ne_nil hne
  by_cases ha : p a = true
  · rw [List.dropWhile_cons_of_pos ha] at hc
    have hlen := congrArg List.length hc
    have hle := (List.dropWhile_suffix p (l := rest)).length_le
    rw [List.length_cons] at hlen
    omega
  · rw [List.cons_append, List.dropWhile_cons_of_neg ha]

theorem trim_append {u c v : List α} (hu : ∀ a ∈ u, p a = true) (hc : Trimmed p c)
    (hv : ∀ a ∈ v, p a = true) : trim p (u ++ (c ++ v)) = c := by
  unfold trim
  rw [List.dropWhile_append_of_pos hu]
  by_cases hne : c = []
  · rw [hne, List.nil_append, List.dropWhile_eq_nil_iff.mpr hv]
    rfl
  · rw [dropWhile_append_of_neg hne hc.1, rdropWhile_append_of_pos hv, hc.2]

theorem trim_of_trimmed (h : Trimmed p l) : trim p l = l := by
  unfold trim
  rw [h.1, h.2]

theorem trimmed_trim (p : α → Bool) (l : List α) : Trimmed p (trim p l) := by
  refine ⟨?_, List.rdropWhile_idempotent p _⟩
  unfold trim
  by_cases hne : (l.dropWhile p).rdropWhile p = []
  · rw [hne]
    rfl
  · obtain ⟨a, rest, hcons⟩ := List.exists_cons_of_ne_nil hne
    have hpre : (l.dropWhile p).rdropWhile p <+: l.dropWhile p := List.rdropWhile_prefix p _
    rw [hcons] at hpre ⊢
    obtain ⟨more, hmore⟩ := hpre
    have ha : ¬ p a = true := by
      intro ha
      have hdrop := List.dropWhile_idempotent p l
      rw [← hmore, List.cons_append, List.dropWhile_cons_of_pos ha] at hdrop
      have hlen := congrArg List.length hdrop
      have hle := (List.dropWhile_suffix p (l := rest ++ more)).length_le
      rw [List.length_cons] at hlen
      omega
    exact List.dropWhile_cons_of_neg ha

theorem dropWhile_eq_self {l : List α} :
    l.dropWhile p = l ↔ ∀ a, l.head? = some a → p a = false := by
  cases l with
  | nil =>
    constructor
    · intro _ a ha
      cases ha
    · intro _
      rfl
  | cons first rest =>
    constructor
    · intro h a ha
      cases ha
      by_contra hp
      rw [Bool.not_eq_false] at hp
      rw [List.dropWhile_cons_of_pos hp] at h
      have hlen := congrArg List.length h
      have hle := (List.dropWhile_suffix p (l := rest)).length_le
      rw [List.length_cons] at hlen
      omega
    · intro h
      exact List.dropWhile_cons_of_neg (by simp [h first rfl])

/-- The first and the last element of a trimmed list do not satisfy `p`. -/
theorem trimmed_iff : Trimmed p l
    ↔ (∀ a, l.head? = some a → p a = false) ∧ ∀ a, l.getLast? = some a → p a = false := by
  unfold Trimmed List.rdropWhile
  rw [dropWhile_eq_self, ← List.reverse_inj, List.reverse_reverse, dropWhile_eq_self,
    List.head?_reverse]

theorem dropWhile_stop {c : α} (hc : p c = false) (before rest : List α) :
    (before ++ c :: rest).dropWhile p = before.dropWhile p ++ c :: rest := by
  induction before with
  | nil => exact List.dropWhile_cons_of_neg (by rw [hc]; decide)
  | cons b before ih =>
    cases hb : p b with
    | true => rw [List.cons_append, List.dropWhile_cons_of_pos hb, ih, List.dropWhile_cons_of_pos hb]
    | false =>
      have hnot : ¬ p b = true := by rw [hb]; decide
      rw [List.cons_append, List.dropWhile_cons_of_neg hnot, List.dropWhile_cons_of_neg hnot]
      rfl

theorem rdropWhile_stop {c : α} (hc : p c = false) (front after : List α) :
    (front ++ c :: after).rdropWhile p = front ++ c :: after.rdropWhile p := by
  unfold List.rdropWhile
  rw [List.reverse_append, List.reverse_cons, List.append_assoc, List.singleton_append,
    dropWhile_stop hc, List.reverse_append, List.reverse_cons, List.reverse_reverse,
    List.append_assoc, List.singleton_append]

/-- Trimming stops at a list inside whose ends do not satisfy `p`. -/
theorem trim_around {core : List α} (hhead : ∃ c rest, core = c :: rest ∧ p c = false)
    (hlast : ∃ front c, core = front ++ [c] ∧ p c = false) (before after : List α) :
    trim p (before ++ (core ++ after)) = before.dropWhile p ++ (core ++ after.rdropWhile p) := by
  obtain ⟨c, rest, hhead, hc⟩ := hhead
  obtain ⟨front, d, hlast, hd⟩ := hlast
  have hfirst : (before ++ (core ++ after)).dropWhile p = before.dropWhile p ++ (core ++ after) := by
    rw [hhead]
    exact dropWhile_stop hc before (rest ++ after)
  have hsecond := rdropWhile_stop hd (before.dropWhile p ++ front) after
  unfold trim
  rw [hfirst, hlast]
  simpa only [List.append_assoc, List.cons_append, List.nil_append] using hsecond

theorem trim_map {β : Type} (f : β → α) (m : List β) :
    trim p (m.map f) = (trim (p ∘ f) m).map f := by
  unfold trim List.rdropWhile
  rw [List.dropWhile_map, ← List.map_reverse, List.dropWhile_map, ← List.map_reverse]

/-! ## Marked lists -/

/-- The elements marked as shown. -/
def shown (m : List (α × Bool)) : List α :=
  (m.filter Prod.snd).map Prod.fst

/-- All elements. -/
def whole (m : List (α × Bool)) : List α :=
  m.map Prod.fst

variable {m : List (α × Bool)}

@[simp] theorem shown_nil : shown ([] : List (α × Bool)) = [] := rfl

@[simp] theorem whole_nil : whole ([] : List (α × Bool)) = [] := rfl

theorem shown_append (m m' : List (α × Bool)) : shown (m ++ m') = shown m ++ shown m' := by
  unfold shown
  rw [List.filter_append, List.map_append]

theorem whole_append (m m' : List (α × Bool)) : whole (m ++ m') = whole m ++ whole m' :=
  List.map_append

theorem shown_eq_whole_iff : shown m = whole m ↔ ∀ x ∈ m, x.2 = true := by
  constructor
  · intro h
    have hlen := congrArg List.length h
    unfold shown whole at hlen
    rw [List.length_map, List.length_map] at hlen
    exact List.length_filter_eq_length_iff.mp hlen
  · intro h
    unfold shown whole
    rw [List.filter_eq_self.mpr h]

theorem shown_eq_nil_iff : shown m = [] ↔ ∀ x ∈ m, x.2 = false := by
  unfold shown
  rw [List.map_eq_nil_iff, List.filter_eq_nil_iff]
  simp

theorem mem_shown_of {q : α → Bool} (h : ∀ x ∈ m, q x.1 = true) {a : α} (ha : a ∈ shown m) :
    q a = true := by
  obtain ⟨x, hx, rfl⟩ := List.mem_map.mp ha
  exact h x (List.mem_of_mem_filter hx)

/-- Where only elements that satisfy `p` are hidden, the ends of a trimmed list are shown. -/
theorem trimmed_shown (hhidden : ∀ x ∈ m, x.2 = false → p x.1 = true)
    (h : Trimmed (p ∘ Prod.fst) m) : Trimmed p (shown m) := by
  rw [trimmed_iff] at h ⊢
  have hend : ∀ x ∈ m, p x.1 = false → x.2 = true := by
    intro x hx hp
    by_contra hnot
    rw [Bool.not_eq_true] at hnot
    rw [hhidden x hx hnot] at hp
    cases hp
  constructor
  · intro a ha
    cases m with
    | nil => cases ha
    | cons x rest =>
      have hx := h.1 x rfl
      have hshown := hend x List.mem_cons_self hx
      unfold shown at ha
      rw [List.filter_cons_of_pos hshown] at ha
      cases ha
      exact hx
  · intro a ha
    rcases List.eq_nil_or_concat' m with rfl | ⟨before, x, rfl⟩
    · cases ha
    · have hx := h.2 x List.getLast?_concat
      have hshown := hend x (by simp) hx
      unfold shown at ha
      rw [List.filter_append, List.filter_cons_of_pos hshown, List.filter_nil, List.map_append,
        List.map_cons, List.map_nil, List.getLast?_concat] at ha
      cases ha
      exact hx

section Hidden

variable (hhidden : ∀ x ∈ m, x.2 = false → p x.1 = true)
include hhidden

/-- Trimming what is shown leaves what is shown of the trimmed whole. -/
theorem trim_shown : trim p (shown m) = shown (trim (p ∘ Prod.fst) m) := by
  have hmem : ∀ x ∈ trim (p ∘ Prod.fst) m, x ∈ m := by
    intro x hx
    rw [← leading_append (p := p ∘ Prod.fst) (l := m)]
    exact List.mem_append_right _ (List.mem_append_left _ hx)
  have hparts := congrArg shown (leading_append (p := p ∘ Prod.fst) (l := m))
  rw [shown_append, shown_append] at hparts
  rw [← hparts]
  apply trim_append
  · intro a ha
    have hlead : ∀ x ∈ leading (p ∘ Prod.fst) m, p x.1 = true := by
      intro x hx
      exact leading_spec (p := p ∘ Prod.fst) hx
    exact mem_shown_of hlead ha
  · exact trimmed_shown (fun x hx => hhidden x (hmem x hx)) (trimmed_trim _ m)
  · intro a ha
    have htrail : ∀ x ∈ trailing (p ∘ Prod.fst) m, p x.1 = true := by
      intro x hx
      exact trailing_spec (p := p ∘ Prod.fst) hx
    exact mem_shown_of htrail ha

/-- The trimmed texts agree exactly when everything between the ends is shown. -/
theorem trim_shown_iff :
    trim p (shown m) = trim p (whole m) ↔ ∀ x ∈ trim (p ∘ Prod.fst) m, x.2 = true := by
  rw [trim_shown hhidden, ← shown_eq_whole_iff]
  unfold whole
  rw [trim_map]

/-- What is shown is the trimmed whole exactly when everything between the ends is shown and nothing
outside. -/
theorem shown_eq_trim_iff :
    shown m = trim p (whole m)
      ↔ (∀ x ∈ trim (p ∘ Prod.fst) m, x.2 = true)
        ∧ (∀ x ∈ leading (p ∘ Prod.fst) m, x.2 = false)
        ∧ ∀ x ∈ trailing (p ∘ Prod.fst) m, x.2 = false := by
  have hparts := congrArg shown (leading_append (p := p ∘ Prod.fst) (l := m))
  rw [shown_append, shown_append] at hparts
  rw [← shown_eq_nil_iff, ← shown_eq_nil_iff]
  constructor
  · intro h
    have htrim : trim p (shown m) = trim p (whole m) := by
      rw [h, trim_of_trimmed (trimmed_trim p _)]
    rw [trim_shown hhidden] at htrim
    rw [h, ← htrim] at hparts
    have hlen := congrArg List.length hparts
    rw [List.length_append, List.length_append] at hlen
    refine ⟨(trim_shown_iff hhidden).mp ?_, List.length_eq_zero_iff.mp (by omega),
      List.length_eq_zero_iff.mp (by omega)⟩
    rw [trim_shown hhidden, htrim]
  · rintro ⟨hinner, hleading, htrailing⟩
    rw [← hparts, hleading, htrailing, List.nil_append, List.append_nil,
      shown_eq_whole_iff.mpr hinner]
    unfold whole
    rw [trim_map]

end Hidden

/-! ## Runs -/

/-- A run of elements of which trimming shows the middle. -/
def markRun (p : α → Bool) (l : List α) : List (α × Bool) :=
  (leading p l).map (·, false) ++ ((trim p l).map (·, true) ++ (trailing p l).map (·, false))

/-- Elements that are all shown. -/
def markAll (l : List α) : List (α × Bool) :=
  l.map (·, true)

@[simp] theorem whole_markRun (l : List α) : whole (markRun p l) = l := by
  unfold markRun
  rw [whole_append, whole_append]
  unfold whole
  rw [List.map_map, List.map_map, List.map_map]
  simpa [Function.comp_def] using leading_append (p := p) (l := l)

@[simp] theorem shown_markRun (l : List α) : shown (markRun p l) = trim p l := by
  unfold markRun shown
  simp [List.filter_append, List.filter_map, Function.comp_def]

@[simp] theorem whole_markAll (l : List α) : whole (markAll l) = l := by
  unfold markAll whole
  simp [Function.comp_def]

@[simp] theorem shown_markAll (l : List α) : shown (markAll l) = l := by
  unfold markAll shown
  simp [List.filter_map, Function.comp_def]

/-- A run hides only elements that satisfy the predicate. -/
theorem hidden_markRun {x : α × Bool} (h : x ∈ markRun p l) (hx : x.2 = false) : p x.1 = true := by
  unfold markRun at h
  rcases List.mem_append.mp h with h | h
  · obtain ⟨a, ha, rfl⟩ := List.mem_map.mp h
    exact leading_spec ha
  · rcases List.mem_append.mp h with h | h
    · obtain ⟨a, -, rfl⟩ := List.mem_map.mp h
      cases hx
    · obtain ⟨a, ha, rfl⟩ := List.mem_map.mp h
      exact trailing_spec ha

theorem hidden_markAll {x : α × Bool} (h : x ∈ markAll l) (hx : x.2 = false) : p x.1 = true := by
  obtain ⟨a, -, rfl⟩ := List.mem_map.mp h
  cases hx

end Trim
