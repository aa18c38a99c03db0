import Pdfv.Profile.LambdaChains
/-!
# Reading lambda texts

`LambdaPredicate::parse` on a lambda text: the arrow is found, and what is accepted was read part by
part with one of the two operators (`LambdaText.accepted`). A chain is read with its own operator
only, and where no literal contains the connective its reading does not break off.
-/

namespace Pdfv

open Search Fallible

/-! ## Trimming around a text -/

theorem isWhitespace_of_isSpace {c : Char} (h : isSpace c = false) : isWhitespace c = false := by
  unfold isSpace at h
  rw [Bool.or_eq_false_iff] at h
  exact h.1

/-- Trimming stops at the ends of a text that begins and ends with no white space. -/
theorem trimChars_around {core : List Char}
    (hhead : ∃ c rest, core = c :: rest ∧ isSpace c = false)
    (hlast : ∃ front c, core = front ++ [c] ∧ isSpace c = false) (before after : List Char) :
    trimChars (before ++ (core ++ after))
      = before.dropWhile isWhitespace ++ (core ++ after.rdropWhile isWhitespace) := by
  obtain ⟨c, rest, hhead, hc⟩ := hhead
  obtain ⟨front, d, hlast, hd⟩ := hlast
  exact Trim.trim_around ⟨c, rest, hhead, isWhitespace_of_isSpace hc⟩
    ⟨front, d, hlast, isWhitespace_of_isSpace hd⟩ before after

theorem Spaces.dropWhile {chars : List Char} (h : Spaces chars) (p : Char → Bool) :
    Spaces (chars.dropWhile p) :=
  fun c hc => h c ((List.dropWhile_suffix p).subset hc)

theorem Spaces.rdropWhile {chars : List Char} (h : Spaces chars) (p : Char → Bool) :
    Spaces (chars.rdropWhile p) :=
  fun c hc => h c ((List.rdropWhile_prefix p chars).subset hc)

theorem edge_head {core : List Char} (h : ∃ c rest, core = c :: rest ∧ isTestEdge c = true) :
    ∃ c rest, core = c :: rest ∧ isSpace c = false := by
  obtain ⟨c, rest, hcore, hc⟩ := h
  exact ⟨c, rest, hcore, isSpace_of_isTestEdge hc⟩

theorem edge_last {core : List Char} (h : ∃ front c, core = front ++ [c] ∧ isTestEdge c = true) :
    ∃ front c, core = front ++ [c] ∧ isSpace c = false := by
  obtain ⟨front, c, hcore, hc⟩ := h
  exact ⟨front, c, hcore, isSpace_of_isTestEdge hc⟩

/-! ## Parts of a chain -/

section Parts

variable {parameter : List Char} (named : IsParameter parameter)
  {equal : Bool}
include named

/-- Reading a comparison does not break off. -/
theorem ComparisonPart.not_broken {part : List Char} (h : ComparisonPart parameter equal part)
    (why : SlicePanic) : byteReader.comparisonLambdaValue (trimChars part) parameter
      (equalityText equal) ≠ .error (.broken why) := by
  obtain ⟨comparison, before, after, hfirst, hequal, hbefore, hafter, htext⟩ := h
  intro hbroken
  rcases comparisonLambdaValue_cases parameter (equalityText equal) part with hnone | hread
  · rw [hnone] at hbroken
    cases hbroken
  · obtain ⟨lead, between, right, hlead, hbetween, hpart, hvalue⟩ := hread
    rw [hvalue] at hbroken
    have hshort : (trimChars right).length = 1 := by
      cases hstring : parseStaticString (trimChars right) with
      | ok value =>
        rw [hstring] at hbroken
        cases hbroken
      | error e =>
        rw [hstring] at hbroken
        cases hbroken
        exact parseStaticString_broken hstring
    rw [htext, comparison_text_eq hfirst hequal] at hpart
    have hright := (operator_cancel named hbefore hlead comparison.before.isSpaces hbetween
      hpart).2
    have hspace := isSpace_of_isQuote comparison.literal.isQuote
    have hends : (∃ c rest, comparison.literal.text = c :: rest ∧ isSpace c = false)
        ∧ ∃ front c, comparison.literal.text = front ++ [c] ∧ isSpace c = false :=
      ⟨⟨_, _, rfl, hspace⟩, comparison.literal.quote :: comparison.literal.body, _, rfl, hspace⟩
    have htrim := trimChars_around hends.1 hends.2 comparison.after.text after
    have hsame : comparison.after.text ++ (comparison.literal.text ++ after) = right := by
      rw [← hright, ScriptLiteral.text]
      simp only [List.append_assoc, List.cons_append, List.nil_append]
    rw [hsame] at htrim
    rw [htrim, ScriptLiteral.text] at hshort
    simp only [List.length_append, List.length_cons, List.length_nil] at hshort
    omega

/-- The other operator finds nothing in a chain. -/
theorem LambdaTest.comparisonValues_other {test : LambdaTest} (hchain : test.IsChain equal)
    {outer : List Char} (houter : Spaces outer) (behind separator : List Char)
    (hne : separator ≠ []) :
    byteReader.comparisonValues parameter (equalityText (!equal))
      (splitParts separator (outer ++ (test.text parameter ++ behind))) = .ok none := by
  obtain ⟨part, parts, rest, hparts, htext⟩ := splitParts_head hne
    (outer ++ (test.text parameter ++ behind))
  obtain ⟨gap, tail, hgap, hhead⟩ := @text_of_isChain parameter equal test hchain
  rw [hparts]
  rcases comparisonLambdaValue_cases parameter (equalityText (!equal)) part with hnone | hread
  · unfold LiteralReader.comparisonValues
    rw [hnone]
    rfl
  · obtain ⟨lead, between, right, hlead, hbetween, hpart, -⟩ := hread
    have hsplit : outer ++ (parameter ++ (gap ++ (equalityText equal ++ (tail ++ behind))))
        = lead ++ (parameter ++ (between ++ (equalityText (!equal) ++ (right ++ rest)))) := by
      rw [hhead, hpart] at htext
      simpa only [List.append_assoc] using htext
    have hsame := (operator_cancel named houter hlead hgap hbetween hsplit).1
    cases equal
    all_goals cases hsame

end Parts

/-! ## Lambda texts -/

/-- `EqAny` or `NeAll`. -/
def LambdaPredicate.ofChain (equal : Bool) (values : List String) : LambdaPredicate :=
  if equal then .eqAny values else .neAll values

/-- Neither regular expression is read where the text begins otherwise. -/
theorem regexLambdaPattern_none {c : Char} {rest : List Char} {expression : List Char}
    (htrim : trimChars expression = c :: rest) (hslash : c ≠ '/') (hnot : c ≠ '!')
    (parameter : List Char) (positive : Bool) :
    (regexLambdaPattern expression parameter positive : Except (ParseStop SlicePanic) _)
      = .ok none := by
  unfold regexLambdaPattern
  rw [htrim]
  cases positive with
  | true =>
    rw [if_pos rfl]
    unfold regexPattern
    split
    · rename_i hcons
      exact absurd (List.cons.inj hcons).1 hslash
    · rfl
  | false =>
    rw [if_neg (by decide)]
    split
    · rename_i hcons
      exact absurd (List.cons.inj hcons).1 hnot
    · rfl

/-- A test begins like no regular expression. -/
theorem LambdaTest.no_pattern (test : LambdaTest) {parameter : List Char}
    (named : IsParameter parameter) {before : List Char}
    (hbefore : Spaces before) (after : List Char) (positive : Bool) :
    (regexLambdaPattern (before ++ (test.text parameter ++ after)) parameter positive :
      Except (ParseStop SlicePanic) _) = .ok none := by
  obtain ⟨hhead, hlast⟩ := test.text_edges named
  have htrim := trimChars_around (edge_head hhead) (edge_last hlast) before after
  obtain ⟨c, rest, htext, hc⟩ := hhead
  obtain ⟨d, more, hwhole, hd⟩ : ∃ d more, before.dropWhile isWhitespace
      ++ (test.text parameter ++ after.rdropWhile isWhitespace) = d :: more
      ∧ (isSpace d = true ∨ isTestEdge d = true) := by
    cases hdrop : before.dropWhile isWhitespace with
    | nil => exact ⟨c, _, by rw [htext]; rfl, .inr hc⟩
    | cons d more =>
      exact ⟨d, _, rfl, .inl (hbefore.dropWhile isWhitespace d (hdrop ▸ List.mem_cons_self))⟩
  have hne (e : Char) (he : isSpace e = false ∧ isTestEdge e = false) : d ≠ e := by
    rintro rfl
    rw [he.1, he.2] at hd
    simp at hd
  exact regexLambdaPattern_none (htrim.trans hwhole) (hne '/' (by decide)) (hne '!' (by decide)) _ _

section Body

variable {expression parameter : List Char}
  (hpattern : ∀ positive, (regexLambdaPattern expression parameter positive :
    Except (ParseStop SlicePanic) _) = .ok none)
include hpattern

/-- What is accepted without a regular expression was read with one of the two operators. -/
theorem lambdaBody_ok {predicate : LambdaPredicate}
    (h : byteReader.lambdaBody expression parameter = .ok predicate) :
    ∃ equal values, byteReader.comparisonValues parameter (equalityText equal)
        (splitParts (connectiveText equal) expression) = .ok (some values)
      ∧ predicate = .ofChain equal values := by
  unfold LiteralReader.lambdaBody at h
  simp only [hpattern, ok_bind] at h
  obtain ⟨values, hvalues, h⟩ := bind_eq_ok.mp h
  cases values with
  | some values =>
    cases h
    exact ⟨true, values, hvalues, rfl⟩
  | none =>
    obtain ⟨values, hvalues, h⟩ := bind_eq_ok.mp h
    cases values with
    | some values =>
      cases h
      exact ⟨false, values, hvalues, rfl⟩
    | none => cases h

/-- Where it breaks off, the reading with one of the operators does, and the other operator was not
read before. -/
theorem lambdaBody_broken {why : SlicePanic}
    (h : byteReader.lambdaBody expression parameter = .error (.broken why)) :
    byteReader.comparisonValues parameter (equalityText true)
        (splitParts (connectiveText true) expression) = .error (.broken why)
      ∨ byteReader.comparisonValues parameter (equalityText true)
        (splitParts (connectiveText true) expression) = .ok none
      ∧ byteReader.comparisonValues parameter (equalityText false)
        (splitParts (connectiveText false) expression) = .error (.broken why) := by
  unfold LiteralReader.lambdaBody at h
  simp only [hpattern, ok_bind] at h
  rcases bind_eq_error.mp h with hfirst | ⟨values, hvalues, h⟩
  · exact .inl hfirst
  · cases values with
    | some values => cases h
    | none =>
      rcases bind_eq_error.mp h with hsecond | ⟨values, -, h⟩
      · exact .inr ⟨hvalues, hsecond⟩
      · cases values with
        | some values => cases h
        | none => cases h

end Body

namespace LambdaText

variable (lambda : LambdaText)

theorem splitOnce_text : splitOnce ['=', '>'] lambda.text
    = some (lambda.beforeParameter.text ++ lambda.parameter ++ lambda.afterParameter.text,
      lambda.beforeTest.text ++ lambda.test.text lambda.parameter ++ lambda.afterTest.text) := by
  have hne : ['=', '>'] ≠ [] := List.cons_ne_nil _ _
  have hunbordered : Unbordered ['=', '>'] := by
    intro k hpos hlt
    have hone : k = 1 := by
      simp only [List.length_cons, List.length_nil] at hlt
      omega
    subst hone
    decide
  have hfront : ∀ i, ¬ Occurs ['=', '>']
      (lambda.beforeParameter.text ++ lambda.parameter ++ lambda.afterParameter.text) i := by
    intro i hocc
    have hmem := List.mem_of_mem_drop (hocc.subset List.mem_cons_self)
    simp only [List.mem_append] at hmem
    rcases hmem with (hmem | hmem) | hmem
    · exact lambda.beforeParameter.isSpaces.notMem (by decide) hmem
    · exact absurd (lambda.named.2 _ hmem) (by decide)
    · exact lambda.afterParameter.isSpaces.notMem (by decide) hmem
  unfold splitOnce text
  rw [findWindow_after hunbordered hne hfront, Option.map_some, List.take_left,
    ← List.append_assoc, ← List.length_append, List.drop_left]

theorem isNameChar_of_isIdentifier {chars : List Char} (h : isIdentifier chars = true) :
    ∀ c ∈ chars, isNameChar c = true := by
  cases chars with
  | nil => cases h
  | cons first rest =>
    simp only [isIdentifier, Bool.and_eq_true, Bool.or_eq_true, List.all_eq_true] at h
    intro c hc
    rcases List.mem_cons.mp hc with rfl | hc
    · simp only [isNameChar, Char.isAlphanum, Bool.or_eq_true]
      rcases h.1 with h | h
      · exact .inl (.inl h)
      · exact .inr h
    · exact h.2 c hc

theorem spaces_eq_nil {chars : List Char} (h : Spaces chars)
    (hname : ∀ c ∈ chars, isNameChar c = true) : chars = [] := by
  cases chars with
  | nil => rfl
  | cons c chars =>
    have hspace := h c List.mem_cons_self
    have hparameter : isParameterChar c = true := by
      unfold isParameterChar
      rw [hname c List.mem_cons_self]
      rfl
    rw [isSpace_of_isParameterChar hparameter] at hspace
    cases hspace

/-- A lambda text is refused for its parameter, or its test is read. -/
theorem lambdaPredicate_cases :
    byteReader.lambdaPredicate lambda.text = .error (.invalid ⟨"invalid lambda parameter"⟩)
      ∨ ∃ before after, Spaces before ∧ Spaces after
        ∧ byteReader.lambdaPredicate lambda.text = byteReader.lambdaBody
          (before ++ (lambda.test.text lambda.parameter ++ after)) lambda.parameter
        ∧ ∀ positive, (regexLambdaPattern (before ++ (lambda.test.text lambda.parameter ++ after))
          lambda.parameter positive : Except (ParseStop SlicePanic) _) = .ok none := by
  have hends := LambdaTest.parameter_edges lambda.named
  have hparameter := trimChars_around (edge_head hends.1) (edge_last hends.2)
    lambda.beforeParameter.text lambda.afterParameter.text
  have hedges := lambda.test.text_edges lambda.named
  have htest := trimChars_around (edge_head hedges.1) (edge_last hedges.2)
    lambda.beforeTest.text lambda.afterTest.text
  rw [← List.append_assoc] at hparameter htest
  unfold LiteralReader.lambdaPredicate
  rw [splitOnce_text]
  dsimp only
  rw [hparameter, htest]
  split
  · exact .inl rfl
  · rename_i hidentifier
    rw [Bool.not_eq_true, Bool.not_eq_false'] at hidentifier
    have hnames := isNameChar_of_isIdentifier hidentifier
    have hbefore := spaces_eq_nil (lambda.beforeParameter.isSpaces.dropWhile isWhitespace)
      fun c hc => hnames c (List.mem_append_left _ hc)
    have hafter := spaces_eq_nil (lambda.afterParameter.isSpaces.rdropWhile isWhitespace)
      fun c hc => hnames c (List.mem_append_right _ (List.mem_append_right _ hc))
    rw [hbefore, hafter, List.nil_append, List.append_nil]
    refine .inr ⟨_, _, lambda.beforeTest.isSpaces.dropWhile isWhitespace,
      lambda.afterTest.isSpaces.rdropWhile isWhitespace, rfl, ?_⟩
    exact lambda.test.no_pattern lambda.named (lambda.beforeTest.isSpaces.dropWhile isWhitespace) _

/-- What is accepted was read part by part. -/
theorem accepted {predicate : LambdaPredicate}
    (h : byteReader.lambdaPredicate lambda.text = .ok predicate) :
    ∃ equal values before after, Spaces before ∧ Spaces after
      ∧ byteReader.comparisonValues lambda.parameter (equalityText equal)
        (splitParts (connectiveText equal)
          (before ++ (lambda.test.text lambda.parameter ++ after))) = .ok (some values)
      ∧ predicate = .ofChain equal values := by
  rcases lambda.lambdaPredicate_cases with hrefused | ⟨before, after, hbefore, hafter, hbody, hpattern⟩
  · rw [hrefused] at h
    cases h
  · rw [hbody] at h
    obtain ⟨equal, values, hvalues, hpredicate⟩ := lambdaBody_ok hpattern h
    exact ⟨equal, values, before, after, hbefore, hafter, hvalues, hpredicate⟩

/-- A chain is accepted with its own operator, and the values are what stands between the quotation
marks of its literals. -/
theorem accepted_chain {equal : Bool} (hchain : lambda.test.IsChain equal)
    {predicate : LambdaPredicate} (h : byteReader.lambdaPredicate lambda.text = .ok predicate) :
    (∀ literal ∈ lambda.test.literals, literal.Unsplit equal)
      ∧ predicate = .ofChain equal
        (lambda.test.literals.map fun literal => String.ofList literal.body) := by
  obtain ⟨other, values, before, after, hbefore, hafter, hvalues, rfl⟩ := lambda.accepted h
  have hsame : other = equal := by
    by_contra hne
    have hnone := lambda.test.comparisonValues_other lambda.named hchain hbefore after
      (connectiveText other) (connectiveText_ne_nil other)
    rw [← Bool.eq_not_of_ne hne, hvalues] at hnone
    cases hnone
  subst hsame
  obtain ⟨hunsplit, rfl⟩ := LambdaTest.chain_read lambda.named hchain before after values hbefore
    hafter (comparisonValues_some hvalues)
  exact ⟨hunsplit, rfl⟩

/-- Reading a chain whose literals do not contain the connective does not break off. -/
theorem chain_not_broken {equal : Bool} (hchain : lambda.test.IsChain equal)
    (hunsplit : ∀ literal ∈ lambda.test.literals, literal.Unsplit equal) (why : SlicePanic) :
    byteReader.lambdaPredicate lambda.text ≠ .error (.broken why) := by
  intro hbroken
  rcases lambda.lambdaPredicate_cases with hrefused | ⟨before, after, hbefore, hafter, hbody, hpattern⟩
  · rw [hrefused] at hbroken
    cases hbroken
  rw [hbody] at hbroken
  -- its own operator does not break off, and the other one is not read
  have hown : byteReader.comparisonValues lambda.parameter (equalityText equal)
      (splitParts (connectiveText equal) (before ++ (lambda.test.text lambda.parameter ++ after)))
      ≠ .error (.broken why) := by
    intro herror
    obtain ⟨part, hpart, hvalue⟩ := comparisonValues_error herror
    exact (LambdaTest.chain_parts lambda.named hchain before after hbefore hafter hunsplit part
      hpart).not_broken lambda.named why hvalue
  have hother := LambdaTest.comparisonValues_other lambda.named hchain hbefore after
    (connectiveText (!equal)) (connectiveText_ne_nil _)
  cases equal with
  | true =>
    rcases lambdaBody_broken hpattern hbroken with hfirst | ⟨-, hsecond⟩
    · exact hown hfirst
    · cases hother.symm.trans hsecond
  | false =>
    rcases lambdaBody_broken hpattern hbroken with hfirst | ⟨-, hsecond⟩
    · cases hother.symm.trans hfirst
    · exact hown hsecond

end LambdaText

end Pdfv
