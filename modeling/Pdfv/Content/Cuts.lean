import Pdfv.Basic.Pairing
import Pdfv.Content.Effects
/-!
# Content that is cut into streams

The tokens of a page's content may be cut at any place and stored in several streams. Every stream is
summarised on its own, without the operands and the spans that are left from those before it.
`CutContent.sameRecords_iff` says when what is recorded of the streams is what is recorded of the content
in one stream.
-/

namespace Pdfv

open Loop Fallible Brackets

/-! ## Operators of tokens -/

/-- The operators of tokens, with the operands before them; some operands may be there already. -/
def appliedFrom : List Operand → List ContentToken → List AppliedOperator
  | _, [] => []
  | pending, .operand operand :: rest => appliedFrom (pending ++ [operand]) rest
  | pending, .operator op image :: rest => ⟨op, pending, image⟩ :: appliedFrom [] rest

/-- The operands that no operator follows. -/
def pendingAfter : List Operand → List ContentToken → List Operand
  | pending, [] => pending
  | pending, .operand operand :: rest => pendingAfter (pending ++ [operand]) rest
  | _, .operator _ _ :: rest => pendingAfter [] rest

theorem appliedFrom_append (pending : List Operand) (tokens more : List ContentToken) :
    appliedFrom pending (tokens ++ more)
      = appliedFrom pending tokens ++ appliedFrom (pendingAfter pending tokens) more := by
  induction tokens generalizing pending with
  | nil => rfl
  | cons token tokens ih =>
    cases token with
    | operand operand => exact ih _
    | operator op image => exact congrArg (_ :: ·) (ih [])

theorem appliedFrom_operands (pending operands : List Operand) (tokens : List ContentToken) :
    appliedFrom pending (operands.map ContentToken.operand ++ tokens)
      = appliedFrom (pending ++ operands) tokens := by
  induction operands generalizing pending with
  | nil => rw [List.append_nil]; rfl
  | cons operand operands ih =>
    have h := ih (pending ++ [operand])
    rw [List.append_assoc] at h
    exact h

theorem StreamContent.appliedFrom_tokens {limits : ResourceLimits} (content : StreamContent limits) :
    appliedFrom [] content.tokens = content.applied := by
  unfold tokens applied
  induction content.operations with
  | nil =>
    have h := appliedFrom_operands [] content.dangling []
    rw [List.append_nil] at h
    exact h
  | cons operation operations ih =>
    rw [List.flatMap_cons, List.append_assoc, List.append_assoc, appliedFrom_operands,
      List.nil_append, List.map_cons, ← ih]
    rfl

/-- Operands that are there already come before those of the first operator, and change no other. -/
theorem appliedFrom_cases (pending : List Operand) (tokens : List ContentToken) :
    (appliedFrom pending tokens = [] ∧ appliedFrom [] tokens = [])
      ∨ ∃ op own image rest, appliedFrom pending tokens = ⟨op, pending ++ own, image⟩ :: rest
        ∧ appliedFrom [] tokens = ⟨op, own, image⟩ :: rest := by
  suffices hown : ∀ own : List Operand,
      (appliedFrom (pending ++ own) tokens = [] ∧ appliedFrom own tokens = [])
        ∨ ∃ op more image rest,
          appliedFrom (pending ++ own) tokens = ⟨op, pending ++ more, image⟩ :: rest
            ∧ appliedFrom own tokens = ⟨op, more, image⟩ :: rest by
    have h := hown []
    rw [List.append_nil] at h
    exact h
  induction tokens with
  | nil => exact fun own => .inl ⟨rfl, rfl⟩
  | cons token tokens ih =>
    intro own
    cases token with
    | operand operand =>
      have h := ih (own ++ [operand])
      rw [← List.append_assoc] at h
      exact h
    | operator op image => exact .inr ⟨op, own, image, _, rfl, rfl⟩

/-! ## The same effect -/

/-- The fact shows an image. -/
def OperatorFact.showsImage : OperatorFact → Bool
  | .inlineImage _ _ _ _ _ _ | .xObjectInvoke _ _ => true
  | _ => false

namespace AppliedOperator

variable (a : AppliedOperator)

/-- The identifiers that are recorded of a span: its own, and the one that its property list gives. -/
def identifiers (resolve : McidReader) : Option Int × Option Int :=
  (inlineMcid a.operands, resolve (operandReadings a.operands))

theorem showsImage_eq : showsImage a.op.text a.operands = (a.fact .unknown).showsImage := by
  unfold fact
  cases hkind : operatorKind a.op.text with
  | inlineImage =>
    have hop := (operatorKind_iff ["BI"] (by decide)).mp hkind
    rw [List.mem_singleton] at hop
    unfold showsImage
    rw [hop]
    rfl
  | xObject =>
    have hop := (operatorKind_iff ["Do"] (by decide)).mp hkind
    rw [List.mem_singleton] at hop
    unfold showsImage
    rw [hop]
    cases firstNameOperand a.operands <;> rfl
  | _ => exact quiet_image hkind (by decide) (by decide)

/-- An operator that opens a span records its tag in the fact. -/
theorem fact_of_opens (h : a.role = .opens) :
    a.fact .unknown = .markedContent ((firstNameOperand a.operands).getD ⟨utf8 "Unknown"⟩)
      (propertiesReference a.operands) .unknown := by
  have hkind : operatorKind a.op.text = .markedContent := by
    rw [operatorKind_iff ["BMC", "BDC", "MP", "DP"] (by decide)]
    unfold role spanRole at h
    split at h
    · rename_i hop
      simp only [List.mem_cons, List.not_mem_nil, or_false]
      tauto
    · split at h <;> cases h
  simp only [fact, hkind]

end AppliedOperator

/-- Two operators have the same effect, locations aside: the fact, the use of a resource, and the
identifiers of a span. -/
structure SameEffect (resolve : McidReader) (a b : AppliedOperator) : Prop where
  op : a.op = b.op
  fact : a.fact .unknown = b.fact .unknown
  uses : a.uses .unknown = b.uses .unknown
  identifiers : a.role = .opens → a.identifiers resolve = b.identifiers resolve

namespace SameEffect

variable {resolve : McidReader} {a b : AppliedOperator}

theorem refl (a : AppliedOperator) : SameEffect resolve a a :=
  ⟨rfl, rfl, rfl, fun _ => rfl⟩

theorem role_eq (h : SameEffect resolve a b) : a.role = b.role :=
  congrArg (fun op : OperatorName => spanRole op.text) h.op

theorem any_text {content content' : List AppliedOperator}
    (h : List.Forall₂ (SameEffect resolve) content content') :
    (content.any fun b => showsText b.op.text) = content'.any fun b => showsText b.op.text := by
  induction h with
  | nil => rfl
  | cons hab _ ih => rw [List.any_cons, List.any_cons, hab.op, ih]

theorem any_image {content content' : List AppliedOperator}
    (h : List.Forall₂ (SameEffect resolve) content content') :
    (content.any fun b => showsImage b.op.text b.operands)
      = content'.any fun b => showsImage b.op.text b.operands := by
  induction h with
  | nil => rfl
  | @cons a b _ _ hab _ ih =>
    rw [List.any_cons, List.any_cons, a.showsImage_eq, b.showsImage_eq, hab.fact, ih]

/-- Operators of the same effect open the same span. -/
theorem record_eq (h : SameEffect resolve a b) (depth : Nat) {content content' : List AppliedOperator}
    (hopens : a.role = .opens) (hcontent : List.Forall₂ (SameEffect resolve) content content') :
    a.record resolve depth content = b.record resolve depth content' := by
  have hfact := h.fact
  rw [a.fact_of_opens hopens, b.fact_of_opens (h.role_eq ▸ hopens),
    OperatorFact.markedContent.injEq] at hfact
  have hids := h.identifiers hopens
  unfold AppliedOperator.identifiers at hids
  rw [Prod.mk.injEq] at hids
  unfold AppliedOperator.record
  rw [hfact.1, hids.1, hids.2, any_text hcontent, any_image hcontent]

end SameEffect

/-! ## Alignment -/

/-- Two operators at one place: the operands of the second are the last ones of the first. -/
structure SamePlace (a b : AppliedOperator) : Prop where
  op : a.op = b.op
  operands : b.operands <:+ a.operands

theorem firstNameOperand_of_suffix {operands more : List Operand} (h : operands <:+ more)
    (hsome : (firstNameOperand operands).isSome) : (firstNameOperand more).isSome := by
  obtain ⟨earlier, rfl⟩ := h
  unfold firstNameOperand at hsome ⊢
  rw [List.findSome?_append]
  cases List.findSome? Operand.asName earlier with
  | some name => rfl
  | none => exact hsome

theorem SamePlace.length_uses {a b : AppliedOperator} (h : SamePlace a b) :
    (b.uses .unknown).length ≤ (a.uses .unknown).length := by
  have hfamily : a.usedFamily = b.usedFamily := by
    unfold AppliedOperator.usedFamily
    rw [h.op]
  unfold AppliedOperator.uses
  rw [hfamily]
  cases hname : firstNameOperand b.operands with
  | none => simp
  | some name =>
    have hsome := firstNameOperand_of_suffix h.operands (by rw [hname]; rfl)
    obtain ⟨other, hother⟩ := Option.isSome_iff_exists.mp hsome
    rw [hother]
    cases b.usedFamily <;> exact Nat.le_refl _

/-- What the operators of two lists record is the same exactly when each has the same effect. -/
theorem sameEffects_iff {resolve : McidReader} {l m : List AppliedOperator}
    (h : List.Forall₂ SamePlace l m) :
    List.Forall₂ (SameEffect resolve) l m
      ↔ l.map (fun a => a.fact .unknown) = m.map (fun a => a.fact .unknown)
        ∧ l.flatMap (fun a => a.uses .unknown) = m.flatMap (fun a => a.uses .unknown)
        ∧ (l.flatMap fun a => if a.role = .opens then [a.identifiers resolve] else [])
          = m.flatMap fun a => if a.role = .opens then [a.identifiers resolve] else [] := by
  constructor
  · intro hsame
    induction hsame with
    | nil => exact ⟨rfl, rfl, rfl⟩
    | @cons a b l m hab _ ih =>
      cases h with
      | cons _ hrest =>
        obtain ⟨hfacts, huses, hids⟩ := ih hrest
        refine ⟨?_, ?_, ?_⟩
        · rw [List.map_cons, List.map_cons, hab.fact, hfacts]
        · rw [List.flatMap_cons, List.flatMap_cons, hab.uses, huses]
        · rw [List.flatMap_cons, List.flatMap_cons, hids, ← hab.role_eq]
          by_cases hopens : a.role = .opens
          · rw [if_pos hopens, if_pos hopens, hab.identifiers hopens]
          · rw [if_neg hopens, if_neg hopens]
  · rintro ⟨hfacts, huses, hids⟩
    rw [List.map_eq_flatMap, List.map_eq_flatMap] at hfacts
    have hrole : ∀ a b, SamePlace a b → a.role = b.role := fun a b hab =>
      congrArg (fun op : OperatorName => spanRole op.text) hab.op
    have hidLength : ∀ a b, SamePlace a b →
        (if b.role = .opens then [b.identifiers resolve] else []).length
          ≤ (if a.role = .opens then [a.identifiers resolve] else []).length := by
      intro a b hab
      rw [hrole a b hab]
      split <;> exact Nat.le_refl _
    have hfactLength : ∀ a b : AppliedOperator, SamePlace a b →
        [b.fact .unknown].length ≤ [a.fact .unknown].length := fun _ _ _ => Nat.le_refl 1
    have hfacts := Pairing.of_flatMap_eq hfactLength h hfacts
    have huses := Pairing.of_flatMap_eq (fun _ _ hab => hab.length_uses) h huses
    have hids := Pairing.of_flatMap_eq hidLength h hids
    rw [List.forall₂_iff_zip] at h hfacts huses hids ⊢
    refine ⟨h.1, fun {a b} hmem => ⟨(h.2 hmem).op, ?_, huses.2 hmem, fun hopens => ?_⟩⟩
    · exact List.singleton_inj.mp (hfacts.2 hmem)
    · have hid := hids.2 hmem
      rw [if_pos hopens, if_pos (hrole a b (h.2 hmem) ▸ hopens)] at hid
      exact List.singleton_inj.mp hid

/-! ## Cuts -/

/-- Going through the pieces with the operands that are left over, the first operator of each has the
same effect with them as without. -/
def OperandsKept (resolve : McidReader) : List Operand → List (List ContentToken) → Prop
  | _, [] => True
  | pending, tokens :: rest =>
    (∀ a ∈ (appliedFrom pending tokens).head?, ∀ b ∈ (appliedFrom [] tokens).head?,
        SameEffect resolve a b)
      ∧ OperandsKept resolve (pendingAfter pending tokens) rest

theorem appliedFrom_samePlace (pending : List Operand) (tokens : List ContentToken) :
    List.Forall₂ SamePlace (appliedFrom pending tokens) (appliedFrom [] tokens) := by
  have hsame : ∀ l : List AppliedOperator, List.Forall₂ SamePlace l l := fun l =>
    List.forall₂_same.mpr fun a _ => ⟨rfl, List.suffix_rfl⟩
  rcases appliedFrom_cases pending tokens with ⟨hwhole, hpiece⟩ | ⟨op, own, image, rest, hwhole, hpiece⟩
  · rw [hwhole, hpiece]
    exact .nil
  · rw [hwhole, hpiece]
    exact .cons ⟨rfl, List.suffix_append _ _⟩ (hsame rest)

theorem appliedFrom_sameEffect_iff {resolve : McidReader} {pending : List Operand}
    {tokens : List ContentToken} :
    List.Forall₂ (SameEffect resolve) (appliedFrom pending tokens) (appliedFrom [] tokens)
      ↔ ∀ a ∈ (appliedFrom pending tokens).head?, ∀ b ∈ (appliedFrom [] tokens).head?,
        SameEffect resolve a b := by
  have hsame : ∀ l : List AppliedOperator, List.Forall₂ (SameEffect resolve) l l := fun l =>
    List.forall₂_same.mpr fun a _ => .refl a
  rcases appliedFrom_cases pending tokens with ⟨hwhole, hpiece⟩ | ⟨op, own, image, rest, hwhole, hpiece⟩
  · rw [hwhole, hpiece]
    exact ⟨fun _ => nofun, fun _ => .nil⟩
  · rw [hwhole, hpiece]
    constructor
    · rintro (_ | ⟨hfirst, -⟩) a ha b hb
      cases Option.mem_some_iff.mp ha
      cases Option.mem_some_iff.mp hb
      exact hfirst
    · exact fun h => .cons (h _ rfl _ rfl) (hsame rest)

theorem pieces_samePlace (pending : List Operand) (pieces : List (List ContentToken)) :
    List.Forall₂ SamePlace (appliedFrom pending pieces.flatten) (pieces.flatMap (appliedFrom [])) := by
  induction pieces generalizing pending with
  | nil => exact .nil
  | cons tokens pieces ih =>
    rw [List.flatten_cons, appliedFrom_append, List.flatMap_cons]
    exact List.rel_append (appliedFrom_samePlace pending tokens) (ih _)

theorem pieces_sameEffect_iff {resolve : McidReader} {pending : List Operand}
    {pieces : List (List ContentToken)} :
    List.Forall₂ (SameEffect resolve) (appliedFrom pending pieces.flatten)
        (pieces.flatMap (appliedFrom []))
      ↔ OperandsKept resolve pending pieces := by
  induction pieces generalizing pending with
  | nil => exact ⟨fun _ => trivial, fun _ => .nil⟩
  | cons tokens pieces ih =>
    rw [List.flatten_cons, appliedFrom_append, List.flatMap_cons,
      Pairing.append_iff (appliedFrom_samePlace pending tokens).length_eq,
      appliedFrom_sameEffect_iff, ih]
    rfl

/-- A span is cut cleanly: between the operators of its own piece, `before` it and `rest` after it, no
span of the pieces before is open where it opens, and it shows in its own piece what it shows. -/
structure CleanSpan (earlier before rest later : List AppliedOperator) : Prop where
  nesting : openAfter AppliedOperator.role 0 (earlier ++ before)
    = openAfter AppliedOperator.role 0 before
  text : ((inside AppliedOperator.role 0 (rest ++ later)).any fun b => showsText b.op.text) →
    (inside AppliedOperator.role 0 rest).any fun b => showsText b.op.text
  image : ((inside AppliedOperator.role 0 (rest ++ later)).any fun b =>
      showsImage b.op.text b.operands) →
    (inside AppliedOperator.role 0 rest).any fun b => showsImage b.op.text b.operands

/-- Every span is cut cleanly. -/
def CleanSpans (pieces : List (List AppliedOperator)) : Prop :=
  ∀ earlier piece later before a rest, pieces = earlier ++ piece :: later →
    piece = before ++ a :: rest → a.role = .opens →
      CleanSpan earlier.flatten before rest later.flatten

/-- A span that goes on shows at least what it showed. -/
theorem any_inside_iff (shows : AppliedOperator → Bool) (rest later : List AppliedOperator) :
    (inside AppliedOperator.role 0 (rest ++ later)).any shows
        = (inside AppliedOperator.role 0 rest).any shows
      ↔ ((inside AppliedOperator.role 0 (rest ++ later)).any shows →
        (inside AppliedOperator.role 0 rest).any shows) := by
  have hprefix : inside AppliedOperator.role 0 rest <+: inside AppliedOperator.role 0 (rest ++ later) :=
    inside_append_prefix 0 rest later
  rw [Bool.eq_iff_iff]
  refine ⟨fun h => h.mp, fun h => ⟨h, fun hany => ?_⟩⟩
  obtain ⟨b, hb, hshows⟩ := List.any_eq_true.mp hany
  exact List.any_eq_true.mpr ⟨b, hprefix.subset hb, hshows⟩

theorem record_eq_iff (resolve : McidReader) (a : AppliedOperator)
    (earlier before rest later : List AppliedOperator) :
    a.record resolve (openAfter AppliedOperator.role 0 (earlier ++ before) + 1)
        (inside AppliedOperator.role 0 (rest ++ later))
      = a.record resolve (openAfter AppliedOperator.role 0 before + 1)
        (inside AppliedOperator.role 0 rest)
      ↔ CleanSpan earlier before rest later := by
  unfold AppliedOperator.record
  simp only [SpanRecord.mk.injEq, true_and, Nat.add_right_cancel_iff, any_inside_iff]
  exact ⟨fun ⟨hdepth, htext, himage⟩ => ⟨hdepth, htext, himage⟩,
    fun ⟨hdepth, htext, himage⟩ => ⟨hdepth, htext, himage⟩⟩

theorem cleanSpans_iff (resolve : McidReader) {pieces : List (List AppliedOperator)} :
    opened AppliedOperator.role (fun a => a.record resolve) 0 pieces.flatten []
        = pieces.flatMap (fun piece =>
          opened AppliedOperator.role (fun a => a.record resolve) 0 piece [])
      ↔ CleanSpans pieces := by
  rw [opened_pieces_iff]
  constructor
  · intro h earlier piece later before a rest hpieces hpiece hopens
    have hrecord := opened_eq_iff.mp (h earlier piece later hpieces) before a rest hpiece hopens
    rw [← openAfter_append, List.append_nil] at hrecord
    exact (record_eq_iff resolve a _ _ _ _).mp hrecord
  · intro h earlier piece later hpieces
    refine opened_eq_iff.mpr fun before a rest hpiece hopens => ?_
    rw [← openAfter_append, List.append_nil]
    exact (record_eq_iff resolve a _ _ _ _).mpr
      (h earlier piece later before a rest hpieces hpiece hopens)

/-! ## Cut content -/

/-- Content in one stream, and the same tokens in several. -/
structure CutContent (limits : ResourceLimits) where
  whole : StreamContent limits
  pieces : List (StreamContent limits)
  cut : whole.tokens = pieces.flatMap StreamContent.tokens

namespace CutContent

variable {limits : ResourceLimits} (content : CutContent limits) (resolve : McidReader)

/-- The facts, the uses of resources and the spans of the pieces are those of the whole, locations
aside. -/
structure SameRecords : Prop where
  facts : content.whole.summary.facts.map OperatorFact.unlocated
    = content.pieces.flatMap fun piece => piece.summary.facts.map OperatorFact.unlocated
  uses : content.whole.summary.resourceUses.map ResourceUse.unlocated
    = content.pieces.flatMap fun piece => piece.summary.resourceUses.map ResourceUse.unlocated
  spans : content.whole.summary.markedContent.map (MarkedContentSpan.record resolve)
    = content.pieces.flatMap fun piece =>
      piece.summary.markedContent.map (MarkedContentSpan.record resolve)

/-- No operand that is left over changes what the next operator does, and every span is cut cleanly. -/
def CutsCleanly : Prop :=
  OperandsKept resolve [] (content.pieces.map StreamContent.tokens)
    ∧ CleanSpans (content.pieces.map StreamContent.applied)

theorem applied_pieces :
    (content.pieces.map StreamContent.tokens).flatMap (appliedFrom [])
      = content.pieces.flatMap StreamContent.applied := by
  rw [List.flatMap_map]
  congr 1
  funext piece
  exact piece.appliedFrom_tokens

theorem facts_pieces :
    (content.pieces.flatMap fun piece => piece.summary.facts.map OperatorFact.unlocated)
      = (content.pieces.flatMap StreamContent.applied).map fun a => a.fact .unknown := by
  rw [List.map_flatMap]
  congr 1
  funext piece
  exact piece.facts_eq

theorem uses_pieces :
    (content.pieces.flatMap fun piece => piece.summary.resourceUses.map ResourceUse.unlocated)
      = (content.pieces.flatMap StreamContent.applied).flatMap fun a => a.uses .unknown := by
  rw [List.flatMap_assoc]
  congr 1
  funext piece
  exact piece.uses_eq

theorem spans_pieces :
    (content.pieces.flatMap fun piece =>
        piece.summary.markedContent.map (MarkedContentSpan.record resolve))
      = (content.pieces.map StreamContent.applied).flatMap fun piece =>
        opened AppliedOperator.role (fun a => a.record resolve) 0 piece [] := by
  rw [List.flatMap_map]
  congr 1
  funext piece
  exact piece.spans_eq resolve

/-- Operators of the same effects open the same spans. -/
theorem opened_of_sameEffects {l m : List AppliedOperator}
    (h : List.Forall₂ (SameEffect resolve) l m) :
    opened AppliedOperator.role (fun a => a.record resolve) 0 l []
      = opened AppliedOperator.role (fun a => a.record resolve) 0 m [] :=
  opened_rel (fun _ _ hab => hab.role_eq)
    (fun _ _ depth _ _ hab hopens hcontent => hab.record_eq depth hopens hcontent) h .nil

/-- The identifiers in what is opened. -/
theorem identifiers_opened (l : List AppliedOperator) :
    (opened AppliedOperator.role (fun a => a.record resolve) 0 l []).map SpanRecord.identifiers
      = l.flatMap fun a => if a.role = .opens then [a.identifiers resolve] else [] := by
  rw [map_opened]
  exact opened_alone (fun a : AppliedOperator => a.identifiers resolve) 0 l []

/-- The summaries are the same exactly when the content is cut cleanly. -/
theorem sameRecords_iff : content.SameRecords resolve ↔ content.CutsCleanly resolve := by
  have hwhole : content.whole.applied
      = appliedFrom [] (content.pieces.map StreamContent.tokens).flatten := by
    rw [← content.whole.appliedFrom_tokens, content.cut, List.flatMap_def]
  have hplaces := pieces_samePlace [] (content.pieces.map StreamContent.tokens)
  have heffects := @pieces_sameEffect_iff resolve [] (content.pieces.map StreamContent.tokens)
  have hrecords := @sameEffects_iff resolve _ _ hplaces
  have hclean := @cleanSpans_iff resolve (content.pieces.map StreamContent.applied)
  rw [← hwhole, content.applied_pieces] at hrecords heffects
  rw [← content.spans_pieces resolve, ← List.flatMap_def] at hclean
  unfold CutsCleanly
  rw [← heffects, ← hclean]
  constructor
  · rintro ⟨hfacts, huses, hspans⟩
    rw [content.whole.facts_eq, content.facts_pieces] at hfacts
    rw [content.whole.uses_eq, content.uses_pieces] at huses
    rw [content.whole.spans_eq] at hspans
    have hids := congrArg (List.map SpanRecord.identifiers) hspans
    rw [identifiers_opened, content.spans_pieces, List.map_flatMap] at hids
    simp only [identifiers_opened] at hids
    rw [← List.flatMap_assoc, List.flatMap_map] at hids
    have heffects := hrecords.mpr ⟨hfacts, huses, hids⟩
    exact ⟨heffects, (opened_of_sameEffects resolve heffects).symm.trans hspans⟩
  · rintro ⟨hsame, hspans⟩
    obtain ⟨hfacts, huses, -⟩ := hrecords.mp hsame
    refine ⟨?_, ?_, ?_⟩
    · rw [content.whole.facts_eq, content.facts_pieces, hfacts]
    · rw [content.whole.uses_eq, content.uses_pieces, huses]
    · rw [content.whole.spans_eq, opened_of_sameEffects resolve hsame, hspans]

end CutContent

/-! ## Cuts between closed streams -/

theorem pendingAfter_operands (pending operands : List Operand) (tokens : List ContentToken) :
    pendingAfter pending (operands.map ContentToken.operand ++ tokens)
      = pendingAfter (pending ++ operands) tokens := by
  induction operands generalizing pending with
  | nil => rw [List.append_nil]; rfl
  | cons operand operands ih =>
    have h := ih (pending ++ [operand])
    rw [List.append_assoc] at h
    exact h

/-- What is left of a stream are the operands that no operator follows. -/
theorem StreamContent.pendingAfter_tokens {limits : ResourceLimits} (content : StreamContent limits) :
    pendingAfter [] content.tokens = content.dangling := by
  unfold tokens
  induction content.operations with
  | nil =>
    have h := pendingAfter_operands [] content.dangling []
    rw [List.append_nil] at h
    exact h
  | cons operation operations ih =>
    rw [List.flatMap_cons, List.append_assoc, List.append_assoc, pendingAfter_operands]
    exact ih

theorem operandsKept_of_complete (resolve : McidReader) {pieces : List (List ContentToken)}
    (h : ∀ tokens ∈ pieces, pendingAfter [] tokens = []) : OperandsKept resolve [] pieces := by
  induction pieces with
  | nil => trivial
  | cons tokens pieces ih =>
    obtain ⟨hfirst, hrest⟩ := List.forall_mem_cons.mp h
    refine ⟨fun a ha b hb => ?_, ?_⟩
    · cases Option.mem_unique ha hb
      exact .refl a
    · rw [hfirst]
      exact ih hrest

theorem openAfter_of_closed {pieces : List (List AppliedOperator)}
    (h : ∀ piece ∈ pieces, openAfter AppliedOperator.role 0 piece = 0) :
    openAfter AppliedOperator.role 0 pieces.flatten = 0 := by
  induction pieces with
  | nil => rfl
  | cons piece pieces ih =>
    obtain ⟨hfirst, hrest⟩ := List.forall_mem_cons.mp h
    rw [List.flatten_cons, openAfter_append, hfirst]
    exact ih hrest

/-- Spans that are closed in their own pieces are cut cleanly. -/
theorem cleanSpans_of_closed {pieces : List (List AppliedOperator)}
    (h : ∀ piece ∈ pieces, openAfter AppliedOperator.role 0 piece = 0) : CleanSpans pieces := by
  rintro earlier piece later before a rest rfl rfl hopens
  have hearlier := openAfter_of_closed fun piece hpiece =>
    h piece (List.mem_append_left _ hpiece)
  have hpiece := h (before ++ a :: rest) (List.mem_append_right _ List.mem_cons_self)
  have hstep : openStep AppliedOperator.role (openAfter AppliedOperator.role 0 before) a
      = 0 + 1 + openAfter AppliedOperator.role 0 before := by
    unfold openStep
    rw [hopens]
    dsimp only
    omega
  have hclosed : openAfter AppliedOperator.role (0 + 1 + openAfter AppliedOperator.role 0 before) rest
      = 0 := by
    rw [openAfter_append] at hpiece
    rw [← hstep]
    exact hpiece
  have hinside := inside_append_of_closed (hclosed.trans_le (Nat.zero_le _)) later.flatten
  refine ⟨?_, ?_, ?_⟩
  · rw [openAfter_append, hearlier]
  · rw [hinside]
    exact id
  · rw [hinside]
    exact id

/-- Content is cut cleanly where no operand and no span is left open at the end of a stream. -/
theorem CutContent.cutsCleanly_of_closed {limits : ResourceLimits} (content : CutContent limits)
    (resolve : McidReader)
    (h : ∀ piece ∈ content.pieces, piece.dangling = []
      ∧ openAfter AppliedOperator.role 0 piece.applied = 0) :
    content.CutsCleanly resolve := by
  refine ⟨operandsKept_of_complete resolve fun tokens htokens => ?_,
    cleanSpans_of_closed fun applied happlied => ?_⟩
  · obtain ⟨piece, hpiece, rfl⟩ := List.mem_map.mp htokens
    rw [piece.pendingAfter_tokens]
    exact (h piece hpiece).1
  · obtain ⟨piece, hpiece, rfl⟩ := List.mem_map.mp happlied
    exact (h piece hpiece).2

end Pdfv
