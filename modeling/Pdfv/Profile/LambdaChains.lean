import Pdfv.Basic.Pairing
import Pdfv.Profile.LambdaSplitting
/-!
# Chains of comparisons

The tests the import can express are chains: comparisons `parameter == literal` joined by `||`, or
`parameter != literal` joined by `&&`. Whatever is read from a chain is what stands between the
quotation marks of its literals, and none of them contains the connective (`LambdaTest.chain_read`).
-/

namespace Pdfv

open Search

/-- The character a connective is made of. -/
def connectiveChar (equal : Bool) : Char :=
  if equal then '|' else '&'

theorem connectiveText_eq (equal : Bool) :
    connectiveText equal = [connectiveChar equal, connectiveChar equal] := by
  cases equal
  all_goals rfl

theorem connectiveText_ne_nil (equal : Bool) : connectiveText equal ≠ [] := by
  cases equal
  all_goals exact List.cons_ne_nil _ _

/-- The connective does not occur in the literal. -/
def ScriptLiteral.Unsplit (equal : Bool) (literal : ScriptLiteral) : Prop :=
  findWindow (connectiveText equal) literal.body = none

/-- A doubled character that occurs in no part around the middle occurs in the middle. -/
theorem doubled_in_middle {s : Char} {front last before middle after : List Char}
    (hbefore : s ∉ before) (hafter : s ∉ after)
    (h : front ++ ([s, s] ++ last) = before ++ (middle ++ after)) :
    ∃ head tail, middle = head ++ ([s, s] ++ tail) ∧ last = tail ++ after := by
  obtain ⟨head, hfront⟩ : ∃ head, middle ++ after = head ++ ([s, s] ++ last) := by
    rcases List.append_eq_append_iff.mp h with ⟨rest, hrest, htail⟩ | ⟨rest, -, htail⟩
    · cases rest with
      | nil => exact ⟨[], htail.symm⟩
      | cons c rest =>
        obtain ⟨rfl, -⟩ := List.cons.inj htail
        exact absurd (hrest ▸ List.mem_append_right front List.mem_cons_self) hbefore
    · exact ⟨rest, htail⟩
  rcases List.append_eq_append_iff.mp hfront with ⟨rest, -, htail⟩ | ⟨rest, hrest, htail⟩
  · exact absurd (htail ▸ List.mem_append_right rest List.mem_cons_self) hafter
  · have hsuffix : s :: s :: last = rest ++ after := htail
    rcases rest with _ | ⟨c, _ | ⟨d, rest⟩⟩
    · rw [← show s :: s :: last = after from hsuffix] at hafter
      exact absurd List.mem_cons_self hafter
    · rw [← show s :: last = after from (List.cons.inj hsuffix).2] at hafter
      exact absurd List.mem_cons_self hafter
    · obtain ⟨hc, hsuffix⟩ := List.cons.inj hsuffix
      obtain ⟨hd, hlast⟩ := List.cons.inj hsuffix
      exact ⟨head, rest, by rw [hrest, ← hc, ← hd]; rfl, hlast⟩

section Comparison

variable {parameter : List Char} (named : IsParameter parameter)
  {equal : Bool} {comparison : LambdaComparison} (hfirst : comparison.flipped = false)
  (hequal : comparison.equal = equal) {outer behind : List Char} (houter : Spaces outer)
  (hbehind : Spaces behind)

theorem LambdaComparison.text_flipped (comparison : LambdaComparison)
    (h : comparison.flipped = true) : comparison.text parameter = comparison.literal.text
      ++ (comparison.before.text ++ equalityText comparison.equal ++ comparison.after.text)
      ++ parameter := by
  unfold text
  rw [if_pos h]

theorem LambdaComparison.text_unflipped (comparison : LambdaComparison)
    (h : comparison.flipped = false) : comparison.text parameter = parameter
      ++ (comparison.before.text ++ equalityText comparison.equal ++ comparison.after.text)
      ++ comparison.literal.text := by
  unfold text
  rw [if_neg (by rw [h]; decide)]

include hfirst hequal in
/-- A comparison with its parameter first, between two gaps. -/
theorem comparison_text_eq : outer ++ (comparison.text parameter ++ behind)
    = outer ++ (parameter ++ (comparison.before.text ++ (equalityText equal
      ++ (comparison.after.text ++ comparison.literal.quote
        :: (comparison.literal.body ++ comparison.literal.quote :: behind))))) := by
  rw [comparison.text_unflipped hfirst, hequal, ScriptLiteral.text]
  simp only [List.append_assoc, List.cons_append, List.nil_append]

/-- What stands before a literal has none of the characters of connectives and escapes. -/
theorem notMem_front {before between after : List Char} (hbefore : Spaces before)
    (hbetween : Spaces between) (hafter : Spaces after)
    (hnamed : ∀ c ∈ parameter, isParameterChar c = true) {c : Char} (hspace : isSpace c = false)
    (hparameter : isParameterChar c = false) (hoperator : c ∉ equalityText equal) :
    c ∉ before ++ (parameter ++ (between ++ (equalityText equal ++ after))) := by
  simp only [List.mem_append, not_or]
  refine ⟨hbefore.notMem hspace, ?_, hbetween.notMem hspace, hoperator, hafter.notMem hspace⟩
  intro hmem
  rw [hnamed c hmem] at hparameter
  cases hparameter

theorem connectiveChar_class (equal other : Bool) : isSpace (connectiveChar equal) = false
    ∧ isParameterChar (connectiveChar equal) = false ∧ isQuote (connectiveChar equal) = false
    ∧ connectiveChar equal ∉ equalityText other := by
  cases equal
  all_goals
    cases other
    all_goals decide

theorem connectiveChar_ne_quote (equal : Bool) (literal : ScriptLiteral) :
    connectiveChar equal ≠ literal.quote := by
  intro hc
  have hquote := literal.isQuote
  rw [← hc, (connectiveChar_class equal equal).2.2.1] at hquote
  cases hquote

include named hbehind in
/-- The part after a connective inside a literal is never read: its operand begins with a quotation
mark of the literal, and there none stands without a backslash. -/
theorem not_readsPart_tail {head tail value : List Char}
    (hbody : comparison.literal.body = head ++ (connectiveText equal ++ tail)) :
    ¬ ReadsPart parameter (equalityText equal) (tail ++ comparison.literal.quote :: behind) value := by
  rintro ⟨before, between, inner, after, quote, hbefore, hbetween, hinner, hafter, hquote, htext⟩
  have hspace := isSpace_of_isQuote comparison.literal.isQuote
  have hsplit : tail ++ comparison.literal.quote :: behind
      = (before ++ (parameter ++ (between ++ (equalityText equal ++ inner))) ++ quote :: value)
        ++ quote :: after := by
    rw [htext]
    simp only [List.append_assoc, List.cons_append]
  obtain ⟨htail, rfl, -⟩ := spaces_cancel_end hbehind hafter hspace (isSpace_of_isQuote hquote) hsplit
  have hend : (head ++ (connectiveText equal ++ (before ++ (parameter ++ (between
      ++ (equalityText equal ++ inner)))))).getLast? = some '\\' :=
    comparison.literal.guarded_body _ value (by rw [hbody, htail]; simp only [List.append_assoc])
  have hne : before ++ (parameter ++ (between ++ (equalityText equal ++ inner))) ≠ [] := by
    have hname := named.1
    simp [hname]
  rw [List.getLast?_append_of_ne_nil _ (by simp [hne]), List.getLast?_append_of_ne_nil _ hne] at hend
  have hbackslash : '\\' ∉ equalityText equal := by
    cases equal
    all_goals decide
  exact notMem_front hbefore hbetween hinner named.2 (by decide) (by decide) hbackslash
    (List.mem_of_getLast? hend)

include named hfirst hequal houter hbehind

/-- Where a comparison contains the connective, its literal does. -/
theorem comparison_doubled {front last : List Char}
    (h : outer ++ (comparison.text parameter ++ behind) = front ++ (connectiveText equal ++ last)) :
    ∃ head tail, comparison.literal.body = head ++ (connectiveText equal ++ tail)
      ∧ last = tail ++ comparison.literal.quote :: behind := by
  obtain ⟨hspace, hparameter, -, hoperator⟩ := connectiveChar_class equal equal
  have hquote := connectiveChar_ne_quote equal comparison.literal
  have hfront : connectiveChar equal ∉ outer ++ (parameter ++ (comparison.before.text
      ++ (equalityText equal ++ comparison.after.text))) ++ [comparison.literal.quote] := by
    rw [List.mem_append, not_or, List.mem_singleton]
    exact ⟨notMem_front houter comparison.before.isSpaces comparison.after.isSpaces named.2 hspace
      hparameter hoperator, hquote⟩
  have hend : connectiveChar equal ∉ comparison.literal.quote :: behind := by
    rw [List.mem_cons, not_or]
    exact ⟨hquote, hbehind.notMem hspace⟩
  rw [connectiveText_eq] at h ⊢
  refine doubled_in_middle hfront hend (h.symm.trans ?_)
  rw [comparison_text_eq hfirst hequal]
  simp only [List.append_assoc, List.cons_append, List.nil_append]

/-- The connective occurs in a comparison where it occurs in its literal. -/
theorem comparison_unsplit_iff :
    findWindow (connectiveText equal) (outer ++ (comparison.text parameter ++ behind)) = none
      ↔ comparison.literal.Unsplit equal := by
  unfold ScriptLiteral.Unsplit
  rw [findWindow_eq_none_iff_text (connectiveText_ne_nil equal),
    findWindow_eq_none_iff_text (connectiveText_ne_nil equal)]
  constructor
  · intro h head tail hbody
    rw [comparison_text_eq hfirst hequal, hbody] at h
    refine h (outer ++ (parameter ++ (comparison.before.text ++ (equalityText equal
      ++ (comparison.after.text ++ comparison.literal.quote :: head)))))
      (tail ++ comparison.literal.quote :: behind) ?_
    simp only [List.append_assoc, List.cons_append]
  · intro h front last htext
    obtain ⟨head, tail, hbody, -⟩ :=
      comparison_doubled named hfirst hequal houter hbehind htext
    exact h head tail hbody

/-- What is read from a comparison as a whole is what stands between the quotation marks. -/
theorem ReadsPart.of_comparison {value : List Char} (h : ReadsPart parameter (equalityText equal)
    (outer ++ (comparison.text parameter ++ behind)) value) : value = comparison.literal.body := by
  obtain ⟨before, between, inner, after, quote, hbefore, hbetween, hinner, hafter, hquote, htext⟩ := h
  rw [comparison_text_eq hfirst hequal] at htext
  have hrest := (operator_cancel named houter hbefore comparison.before.isSpaces hbetween
    htext).2
  have hspace := isSpace_of_isQuote comparison.literal.isQuote
  obtain ⟨-, rfl, hbody⟩ := spaces_cancel comparison.after.isSpaces hinner hspace
    (isSpace_of_isQuote hquote) hrest
  exact (spaces_cancel_end hbehind hafter hspace hspace hbody).1.symm

/-- A comparison that was read has a literal without the connective, and its body is what was
read. -/
theorem comparison_read {values : List String} (h : List.Forall₂ (fun part value =>
      ReadsPart parameter (equalityText equal) part value.toList)
      (splitParts (connectiveText equal) (outer ++ (comparison.text parameter ++ behind))) values) :
    comparison.literal.Unsplit equal ∧ values = [String.ofList comparison.literal.body] := by
  by_cases hwindow : findWindow (connectiveText equal)
      (outer ++ (comparison.text parameter ++ behind)) = none
  · refine ⟨(comparison_unsplit_iff named hfirst hequal houter hbehind).mp hwindow, ?_⟩
    rw [show splitParts (connectiveText equal) _ = [_] from splitChars_of_none hwindow _] at h
    obtain ⟨value, rest, hvalue, hrest, rfl⟩ := List.forall₂_cons_left_iff.mp h
    cases hrest
    have hbody := ReadsPart.of_comparison named hfirst hequal houter hbehind hvalue
    rw [← hbody, String.ofList_toList]
  · obtain ⟨front, last, parts, htext, hparts⟩ :=
      splitParts_last (connectiveText_ne_nil equal) hwindow
    obtain ⟨head, tail, hbody, rfl⟩ :=
      comparison_doubled named hfirst hequal houter hbehind htext
    rw [hparts] at h
    obtain ⟨more, rest, -, -, hlast⟩ := Pairing.append_left h
    obtain ⟨value, rest, hvalue, -, -⟩ := List.forall₂_cons_left_iff.mp hlast
    exact absurd hvalue (not_readsPart_tail named hbehind hbody)

end Comparison

/-- A part that is a comparison of a chain, between two gaps. -/
def ComparisonPart (parameter : List Char) (equal : Bool) (part : List Char) : Prop :=
  ∃ (comparison : LambdaComparison) (before after : List Char), comparison.flipped = false
    ∧ comparison.equal = equal ∧ Spaces before ∧ Spaces after
    ∧ part = before ++ (comparison.text parameter ++ after)

/-! ## Tests -/

/-- The characters a test begins and ends with. -/
def isTestEdge (c : Char) : Bool :=
  isParameterChar c || isQuote c || c = '(' || c = ')'

theorem isSpace_of_isTestEdge {c : Char} (h : isTestEdge c = true) : isSpace c = false := by
  simp only [isTestEdge, Bool.or_eq_true, decide_eq_true_eq] at h
  rcases h with ((h | h) | rfl) | rfl
  · exact isSpace_of_isParameterChar h
  · exact isSpace_of_isQuote h
  · decide
  · decide

namespace LambdaTest

section Edges

variable {parameter : List Char} (named : IsParameter parameter)
include named

theorem parameter_edges : (∃ c rest, parameter = c :: rest ∧ isTestEdge c = true)
    ∧ ∃ front c, parameter = front ++ [c] ∧ isTestEdge c = true := by
  have hedge : ∀ c ∈ parameter, isTestEdge c = true := by
    intro c hc
    unfold isTestEdge
    rw [named.2 c hc]
    rfl
  obtain ⟨c, rest, hhead⟩ := List.exists_cons_of_ne_nil named.1
  refine ⟨⟨c, rest, hhead, hedge c (hhead ▸ List.mem_cons_self)⟩, ?_⟩
  rcases List.eq_nil_or_concat' parameter with hnil | ⟨front, last, hlast⟩
  · exact absurd hnil named.1
  · exact ⟨front, last, hlast, hedge last (hlast ▸ List.mem_append_right _ List.mem_cons_self)⟩

theorem text_edges (test : LambdaTest) :
    (∃ c rest, test.text parameter = c :: rest ∧ isTestEdge c = true)
      ∧ ∃ front c, test.text parameter = front ++ [c] ∧ isTestEdge c = true := by
  induction test with
  | compare comparison =>
    obtain ⟨⟨c, rest, hhead, hc⟩, front, d, hlast, hd⟩ := parameter_edges named
    have hquote : isTestEdge comparison.literal.quote = true := by
      unfold isTestEdge
      rw [comparison.literal.isQuote, Bool.or_true]
      rfl
    cases hflipped : comparison.flipped with
    | true =>
      rw [text, comparison.text_flipped hflipped]
      exact ⟨⟨_, _, rfl, hquote⟩, _, d, by rw [hlast, ← List.append_assoc], hd⟩
    | false =>
      rw [text, comparison.text_unflipped hflipped]
      refine ⟨⟨c, _, by rw [hhead]; rfl, hc⟩, ?_⟩
      exact ⟨_, _, by rw [ScriptLiteral.text, ← List.cons_append, ← List.append_assoc], hquote⟩
  | group before inner after ih =>
    exact ⟨⟨_, _, rfl, by decide⟩, _, ')', rfl, by decide⟩
  | and left before after right ihl ihr | or left before after right ihl ihr =>
    obtain ⟨⟨c, rest, hhead, hc⟩, -⟩ := ihl
    obtain ⟨-, front, d, hlast, hd⟩ := ihr
    refine ⟨⟨c, _, by rw [text, hhead]; rfl, hc⟩, ?_⟩
    refine ⟨_, d, by rw [text, hlast, ← List.append_assoc, ← List.append_assoc,
      ← List.append_assoc], hd⟩

/-- Before a connective no text ends with its character. -/
theorem getLast_ne (test : LambdaTest) (outer : List Char) (gap : ScriptGap) (equal : Bool) :
    (outer ++ (test.text parameter ++ gap.text)).getLast? ≠ some (connectiveChar equal) := by
  obtain ⟨-, front, c, htext, hc⟩ := test.text_edges named
  rcases List.eq_nil_or_concat' gap.text with hnil | ⟨more, d, hgap⟩
  · rw [hnil, htext, List.append_nil, ← List.append_assoc, List.getLast?_concat]
    intro hlast
    rw [Option.some.inj hlast] at hc
    cases equal
    all_goals exact absurd hc (by decide)
  · have hd := gap.isSpaces d (hgap ▸ List.mem_append_right _ List.mem_cons_self)
    rw [hgap, ← List.append_assoc, ← List.append_assoc, List.getLast?_concat]
    intro hlast
    rw [Option.some.inj hlast, (connectiveChar_class equal equal).1] at hd
    cases hd

end Edges

/-- The parts on both sides of a connective. -/
theorem splitParts_connective {parameter : List Char}
    (named : IsParameter parameter) (equal : Bool)
    (left right : LambdaTest) (before after : ScriptGap) (outer behind : List Char) :
    splitParts (connectiveText equal) (outer ++ (left.text parameter ++ before.text
        ++ (connectiveText equal ++ (after.text ++ right.text parameter)) ++ behind))
      = splitParts (connectiveText equal) (outer ++ (left.text parameter ++ before.text))
        ++ splitParts (connectiveText equal) (after.text ++ (right.text parameter ++ behind)) := by
  have hsplit := splitParts_append (left.getLast_ne named outer before equal)
    (after.text ++ (right.text parameter ++ behind))
  rw [← connectiveText_eq] at hsplit
  rw [← hsplit]
  simp only [List.append_assoc]

/-- A chain is a comparison, or two chains around the connective. -/
@[elab_as_elim]
theorem chain_induction {equal : Bool} {motive : LambdaTest → Prop}
    (compare : ∀ comparison, comparison.flipped = false → comparison.equal = equal →
      motive (compare comparison))
    (join : ∀ (test left : LambdaTest) (before after : ScriptGap) (right : LambdaTest),
      (∀ parameter, test.text parameter = left.text parameter ++ before.text
        ++ (connectiveText equal ++ (after.text ++ right.text parameter))) →
      test.literals = left.literals ++ right.literals →
      (∀ value, (test.holds value == equal)
        = ((left.holds value == equal) || (right.holds value == equal))) →
      motive left → motive right → motive test)
    (test : LambdaTest) (h : test.IsChain equal) : motive test := by
  induction test with
  | compare comparison => exact compare comparison h.1 h.2
  | group before inner after ih => exact h.elim
  | and left before after right ihl ihr =>
    obtain ⟨rfl, hleft, hright⟩ := h
    refine join _ left before after right (fun _ => rfl) rfl (fun value => ?_) (ihl hleft) (ihr hright)
    rw [holds]
    cases left.holds value
    all_goals rfl
  | or left before after right ihl ihr =>
    obtain ⟨rfl, hleft, hright⟩ := h
    refine join _ left before after right (fun _ => rfl) rfl (fun value => ?_) (ihl hleft) (ihr hright)
    rw [holds]
    cases left.holds value
    all_goals rfl

section Chain

variable {parameter : List Char} (named : IsParameter parameter)
  {equal : Bool} {test : LambdaTest} (hchain : test.IsChain equal)

include hchain in
theorem holds_of_isChain (value : String) :
    test.holds value = (test.literals.any (·.isValue value) == equal) := by
  have hany : (test.holds value == equal) = test.literals.any (·.isValue value) := by
    refine chain_induction ?_ ?_ test hchain
    · intro comparison _ hequal
      show ((comparison.literal.isValue value == comparison.equal) == equal) = _
      rw [hequal, literals, List.any_cons, List.any_nil, Bool.or_false]
      cases comparison.literal.isValue value
      all_goals
        cases equal
        all_goals rfl
    · intro test left before after right _ hliterals hholds ihl ihr
      rw [hholds, ihl, ihr, hliterals, List.any_append]
  rw [← hany]
  cases test.holds value
  all_goals
    cases equal
    all_goals rfl

include hchain in
/-- A chain begins with a comparison. -/
theorem text_of_isChain : ∃ gap tail, Spaces gap
    ∧ test.text parameter = parameter ++ (gap ++ (equalityText equal ++ tail)) := by
  refine chain_induction ?_ ?_ test hchain
  · intro comparison hfirst hequal
    refine ⟨comparison.before.text, comparison.after.text ++ comparison.literal.text,
      comparison.before.isSpaces, ?_⟩
    rw [text, comparison.text_unflipped hfirst, hequal]
    simp only [List.append_assoc]
  · intro test left before after right htext _ _ ihl _
    obtain ⟨gap, tail, hgap, hleft⟩ := ihl
    refine ⟨gap, tail ++ (before.text ++ (connectiveText equal
      ++ (after.text ++ right.text parameter))), hgap, ?_⟩
    rw [htext, hleft]
    simp only [List.append_assoc]

include named hchain

/-- Whatever is read from a chain are the texts between the quotation marks of its literals, and
none contains the connective. -/
theorem chain_read (outer behind : List Char) (values : List String) (houter : Spaces outer)
    (hbehind : Spaces behind) (h : List.Forall₂
      (fun part value => ReadsPart parameter (equalityText equal) part value.toList)
      (splitParts (connectiveText equal) (outer ++ (test.text parameter ++ behind))) values) :
    (∀ literal ∈ test.literals, literal.Unsplit equal)
      ∧ values = test.literals.map fun literal => String.ofList literal.body := by
  revert outer behind values
  refine chain_induction ?_ ?_ test hchain
  · intro comparison hfirst hequal outer behind values houter hbehind h
    obtain ⟨hunsplit, rfl⟩ := comparison_read named hfirst hequal houter hbehind h
    refine ⟨fun literal hliteral => ?_, rfl⟩
    rw [List.mem_singleton.mp hliteral]
    exact hunsplit
  · intro test left before after right htext hliterals _ ihl ihr outer behind values houter hbehind h
    rw [htext, splitParts_connective named] at h
    obtain ⟨front, rest, rfl, hfront, hrest⟩ := Pairing.append_left h
    obtain ⟨hunsplit, rfl⟩ := ihl outer before.text front houter before.isSpaces hfront
    obtain ⟨hunsplit', rfl⟩ := ihr after.text behind rest after.isSpaces hbehind hrest
    rw [hliterals]
    exact ⟨List.forall_mem_append.mpr ⟨hunsplit, hunsplit'⟩, List.map_append.symm⟩

/-- The parts of a chain whose literals do not contain the connective are its comparisons. -/
theorem chain_parts (outer behind : List Char) (houter : Spaces outer) (hbehind : Spaces behind)
    (hunsplit : ∀ literal ∈ test.literals, literal.Unsplit equal) :
    ∀ part ∈ splitParts (connectiveText equal) (outer ++ (test.text parameter ++ behind)),
      ComparisonPart parameter equal part := by
  revert outer behind hunsplit
  refine chain_induction ?_ ?_ test hchain
  · intro comparison hfirst hequal outer behind houter hbehind hunsplit part hpart
    have hwindow := (comparison_unsplit_iff named hfirst hequal houter hbehind).mpr
      (hunsplit comparison.literal List.mem_cons_self)
    rw [text, show splitParts (connectiveText equal) _ = [_] from splitChars_of_none hwindow _,
      List.mem_singleton] at hpart
    exact ⟨comparison, outer, behind, hfirst, hequal, houter, hbehind, hpart⟩
  · intro test left before after right htext hliterals _ ihl ihr outer behind houter hbehind hunsplit
      part hpart
    rw [hliterals, List.forall_mem_append] at hunsplit
    rw [htext, splitParts_connective named, List.mem_append] at hpart
    rcases hpart with hpart | hpart
    · exact ihl outer before.text houter before.isSpaces hunsplit.1 part hpart
    · exact ihr after.text behind after.isSpaces hbehind hunsplit.2 part hpart

end Chain

end LambdaTest

end Pdfv
