import Pdfv.Profile.LambdaReading
import Pdfv.Profile.LambdaMarks
/-!
# The meaning of lambda predicates

What a filter or an index search is lowered to, against the JavaScript test it was written as. A
chain keeps its meaning when its literals have no escapes and do not contain the connective; an
accepted text that is no chain was read over the quotation marks of its literals, and loses it
(`LambdaText.meets_iff`).
-/

namespace Pdfv

open Fallible

/-! ## Lowered calls -/

/-- The filter of `parse_lambda_filter`, from the text of the lambda. -/
def filterCall (input : List Char) :
    Except (ParseStop SlicePanic) (BuiltinFunction × List RuleExpr) := do
  let predicate ← byteReader.lambdaPredicate input
  predicate.intoFilterCallArgs

/-- The arguments of `parse_lambda_find_index`, from the text of the lambda. -/
def findIndexCall (receiver : RuleExpr) (input : List Char) :
    Except (ParseStop SlicePanic) (List RuleExpr) := do
  let predicate ← byteReader.lambdaPredicate input
  predicate.intoFindIndexCallArgs receiver

theorem boundedLiteral_cases (value : String) (maxBytes : Nat) (reason : String) :
    (boundedLiteral value maxBytes reason : Except (ParseStop SlicePanic) _) = .ok ⟨value⟩
      ∨ (boundedLiteral value maxBytes reason : Except (ParseStop SlicePanic) _)
        = .error (.invalid ⟨reason⟩) := by
  unfold boundedLiteral
  cases h : BoundedText.new value maxBytes with
  | error e => exact .inr rfl
  | ok text =>
    rw [(BoundedText.new_eq_ok h).1]
    exact .inl rfl

/-- The values become string arguments, or one of them is too long. -/
theorem stringArgs_cases (values : List String) :
    (stringArgs values : Except (ParseStop SlicePanic) _)
        = .ok ((values.map BoundedText.mk).map RuleExpr.string)
      ∨ (stringArgs values : Except (ParseStop SlicePanic) _)
        = .error (.invalid ⟨"string literal exceeds limit"⟩) := by
  unfold stringArgs
  induction values with
  | nil => exact .inl rfl
  | cons value values ih =>
    rw [List.mapM_cons]
    rcases boundedLiteral_cases value maxProfileStringBytes "string literal exceeds limit"
      with htext | htext
    · rw [htext, ok_bind]
      rcases ih with hrest | hrest
      · rw [hrest]
        exact .inl rfl
      · rw [hrest]
        exact .inr rfl
    · rw [htext]
      exact .inr rfl

theorem parseStaticString_notSpent (input : List Char) : NotSpent (parseStaticString input) := by
  unfold parseStaticString
  apply NotSpent.ite (notSpent_invalid _)
  exact NotSpent.ite (notSpent_broken _) (notSpent_ok _)

/-! ## Meaning -/

namespace LambdaText

/-- The text is accepted with the meaning of its test, or refused with a reason. -/
structure Meets (lambda : LambdaText) : Prop where
  returns : ∀ why, byteReader.lambdaPredicate lambda.text ≠ .error (.broken why)
  filter : ∀ function args, filterCall lambda.text = .ok (function, args) →
    ∃ texts : List BoundedText, args = texts.map RuleExpr.string
      ∧ ∀ regex (value : BoundedText), filterKeeps regex function texts (.string value)
        = .ok (lambda.test.holds value.text)
  findIndex : ∀ receiver args, findIndexCall receiver lambda.text = .ok args →
    ∃ texts : List BoundedText, args = receiver :: texts.map RuleExpr.string
      ∧ ∀ value : BoundedText, isOneOf texts (.string value) = lambda.test.holds value.text

/-- The text is refused with a reason. -/
def Refused (lambda : LambdaText) : Prop :=
  ∃ reason, filterCall lambda.text = .error (.invalid reason)

/-- The test is a chain. -/
def IsPure (lambda : LambdaText) : Prop :=
  ∃ equal, lambda.test.IsChain equal

/-- The test is a chain of literals without escapes that do not contain its connective. -/
def Expressible (lambda : LambdaText) : Prop :=
  ∃ equal, lambda.test.IsChain equal
    ∧ ∀ literal ∈ lambda.test.literals, literal.Plain ∧ literal.Unsplit equal

/-- No quotation mark stands in a literal or in what it stands for. -/
def QuoteFree (lambda : LambdaText) : Prop :=
  ∀ literal ∈ lambda.test.literals, literal.QuoteFree

end LambdaText

/-- The values are those the test holds of, or for `!=` the others. -/
def LambdaTest.Agrees (test : LambdaTest) (equal : Bool) (values : List String) : Prop :=
  ∀ value : String, test.holds value = (values.contains value == equal)

theorem contains_map_mk (values : List String) (value : String) :
    (values.map BoundedText.mk).contains ⟨value⟩ = values.contains value := by
  rw [Bool.eq_iff_iff, List.contains_iff_mem, List.contains_iff_mem, List.mem_map]
  constructor
  · rintro ⟨other, hother, hsame⟩
    cases hsame
    exact hother
  · intro h
    exact ⟨value, h, rfl⟩

namespace LambdaText

variable (lambda : LambdaText)

section Accepted

variable {lambda} {equal : Bool} {values : List String}
  (h : byteReader.lambdaPredicate lambda.text = .ok (.ofChain equal values))
include h

theorem filterCall_of_ok : filterCall lambda.text = do
    let args ← stringArgs values
    return (if equal then .filterEquals else .filterNotEquals, args) := by
  unfold filterCall
  rw [h]
  cases equal
  all_goals rfl

/-- What was read has the meaning of the test exactly when it agrees with it. -/
theorem meets_of_agrees (hagrees : lambda.test.Agrees equal values) : lambda.Meets := by
  refine ⟨?_, ?_, ?_⟩
  · intro why hbroken
    rw [h] at hbroken
    cases hbroken
  · intro function args hcall
    rw [filterCall_of_ok h] at hcall
    rcases stringArgs_cases values with hargs | hargs
    · rw [hargs] at hcall
      refine ⟨values.map BoundedText.mk, ?_⟩
      cases equal
      all_goals
        cases hcall
        refine ⟨rfl, fun regex value => ?_⟩
        rw [hagrees, ← contains_map_mk]
        show Except.ok _ = Except.ok _
        cases (values.map BoundedText.mk).contains value
        all_goals rfl
    · rw [hargs] at hcall
      cases hcall
  · intro receiver args hcall
    unfold findIndexCall at hcall
    rw [h, ok_bind] at hcall
    cases equal with
    | false => cases hcall
    | true =>
      obtain ⟨strings, hstrings, hcall⟩ := bind_eq_ok.mp hcall
      cases hcall
      rcases stringArgs_cases values with hargs | hargs
      · rw [hargs] at hstrings
        cases hstrings
        refine ⟨values.map BoundedText.mk, rfl, fun value => ?_⟩
        rw [hagrees, ← contains_map_mk]
        show (values.map BoundedText.mk).contains value = _
        cases (values.map BoundedText.mk).contains value
        all_goals rfl
      · rw [hargs] at hstrings
        cases hstrings

theorem agrees_of_meets (hmeets : lambda.Meets) (hrefused : ¬ lambda.Refused) :
    lambda.test.Agrees equal values := by
  intro value
  have hcall := filterCall_of_ok h
  rcases stringArgs_cases values with hargs | hargs
  · rw [hargs] at hcall
    obtain ⟨texts, htexts, hkeeps⟩ := hmeets.filter _ _ hcall
    have hsame : texts = values.map BoundedText.mk :=
      (List.map_injective_iff.mpr fun _ _ hstring => RuleExpr.string.inj hstring) htexts.symm
    have hvalue := hkeeps ⟨fun _ _ => .ok false, fun _ _ => .ok none⟩ ⟨value⟩
    rw [hsame] at hvalue
    rw [← contains_map_mk]
    cases equal
    all_goals
      rw [← Except.ok.inj hvalue]
      cases (values.map BoundedText.mk).contains ⟨value⟩
      all_goals rfl
  · rw [hargs] at hcall
    exact absurd ⟨_, hcall⟩ hrefused

end Accepted

end LambdaText

/-! ## Agreement -/

/-- Some number is above the measure of all elements. -/
theorem exists_above {α : Type} (measure : α → Nat) (l : List α) : ∃ n, ∀ a ∈ l, measure a < n := by
  induction l with
  | nil => exact ⟨0, fun a ha => absurd ha List.not_mem_nil⟩
  | cons a l ih =>
    obtain ⟨n, hn⟩ := ih
    refine ⟨max n (measure a + 1), fun b hb => ?_⟩
    rcases List.mem_cons.mp hb with rfl | hb
    · omega
    · have := hn b hb
      omega

namespace LambdaTest

variable {test : LambdaTest} {equal : Bool}

/-- A test says the same of strings that its literals do not tell apart. -/
theorem holds_congr (test : LambdaTest) {value other : String}
    (h : ∀ literal ∈ test.literals, literal.isValue value = literal.isValue other) :
    test.holds value = test.holds other := by
  induction test with
  | compare comparison =>
    unfold holds LambdaComparison.holds
    rw [h comparison.literal List.mem_cons_self]
  | group before inner after ih => exact ih h
  | and left before after right ihl ihr | or left before after right ihl ihr =>
    rw [literals, List.forall_mem_append] at h
    rw [holds, holds, ihl h.1, ihr h.2]

/-- A chain agrees with the values it is read as, when these are those of its literals. -/
theorem agrees_of_plain (hchain : test.IsChain equal)
    (hplain : ∀ literal ∈ test.literals, literal.Plain) :
    test.Agrees equal (test.literals.map fun literal => String.ofList literal.body) := by
  intro value
  rw [holds_of_isChain hchain]
  congr 1
  rw [Bool.eq_iff_iff, List.any_eq_true, List.contains_iff_mem, List.mem_map]
  constructor
  · rintro ⟨literal, hliteral, hvalue⟩
    rw [literal.isValue_of_plain (hplain literal hliteral)] at hvalue
    exact ⟨literal, hliteral, by rw [← hvalue, String.ofList_toList]⟩
  · rintro ⟨literal, hliteral, rfl⟩
    refine ⟨literal, hliteral, ?_⟩
    rw [literal.isValue_of_plain (hplain literal hliteral), String.toList_ofList]

/-- A chain that agrees with what stands between its quotation marks has no escapes: the text of a
literal with escapes would be the value of a longer one with escapes. -/
theorem plain_of_agrees (hchain : test.IsChain equal)
    (hagrees : test.Agrees equal (test.literals.map fun literal => String.ofList literal.body)) :
    ∀ literal ∈ test.literals, literal.Plain := by
  have hmeaning (value : String) : test.literals.any (·.isValue value)
      = (test.literals.map fun literal => String.ofList literal.body).contains value := by
    have hvalue := hagrees value
    rw [holds_of_isChain hchain] at hvalue
    cases equal
    all_goals simpa using hvalue
  intro literal hliteral
  by_contra hescapes
  have hlonger : ∀ n, ∃ literal ∈ test.literals, ¬ literal.Plain
      ∧ n ≤ (literal.body.flatMap utf16Units).length := by
    intro n
    induction n with
    | zero => exact ⟨literal, hliteral, hescapes, Nat.zero_le _⟩
    | succ n ih =>
      obtain ⟨shorter, hshorter, hnot, hlength⟩ := ih
      have hraw := hmeaning (String.ofList shorter.body)
      rw [List.contains_iff_mem.mpr (List.mem_map.mpr ⟨shorter, hshorter, rfl⟩),
        List.any_eq_true] at hraw
      obtain ⟨longer, hmem, hvalue⟩ := hraw
      have hunits := (longer.isValue_iff _).mp hvalue
      rw [String.toList_ofList] at hunits
      have hescapes : ¬ longer.Plain := by
        intro hplain
        rw [longer.isValue_of_plain hplain, String.toList_ofList] at hvalue
        have hbackslash := shorter.backslash_mem_iff.mpr hnot
        rw [hvalue] at hbackslash
        exact longer.backslash_mem_iff.mp hbackslash hplain
      have hlt := longer.units_lt_body hescapes
      rw [hunits] at hlt
      exact ⟨longer, hmem, hescapes, by omega⟩
  obtain ⟨bound, hbound⟩ := exists_above
    (fun literal : ScriptLiteral => (literal.body.flatMap utf16Units).length) test.literals
  obtain ⟨longest, hlongest, -, hlength⟩ := hlonger bound
  have := hbound longest hlongest
  omega

/-- Values that agree with a test whose literals have no quotation marks have none: no literal tells
two strings with quotation marks apart. -/
theorem quoteFree_of_agrees (hfree : ∀ literal ∈ test.literals, literal.QuoteFree)
    {values : List String} (hagrees : test.Agrees equal values) :
    ∀ value ∈ values, ∀ c ∈ value.toList, isQuote c = false := by
  have hnone (value : String) (c : Char) (hc : c ∈ value.toList) (hquote : isQuote c = true) :
      ∀ literal ∈ test.literals, literal.isValue value = false := by
    intro literal hliteral
    rw [← Bool.not_eq_true, literal.isValue_iff]
    intro hunits
    refine (hfree literal hliteral).2 c hquote ?_
    rw [hunits, List.mem_flatMap]
    refine ⟨c, hc, ?_⟩
    rcases ExprParser.isQuote_cases hquote with rfl | rfl
    all_goals decide
  intro value hvalue c hc
  cases hquote : isQuote c with
  | false => rfl
  | true =>
    obtain ⟨n, hn⟩ := exists_above (fun value : String => value.toList.length) values
    have hlong : String.ofList (List.replicate (n + 1) '\'') ∉ values := by
      intro hmem
      have := hn _ hmem
      rw [String.toList_ofList, List.length_replicate] at this
      omega
    have hquotes := hnone (String.ofList (List.replicate (n + 1) '\'')) '\''
      (by rw [String.toList_ofList]; exact List.mem_cons_self) (by decide)
    have hsame : test.holds value = test.holds (String.ofList (List.replicate (n + 1) '\'')) :=
      test.holds_congr fun literal hliteral => by
        rw [hnone value c hc hquote literal hliteral, hquotes literal hliteral]
    rw [hagrees, hagrees, List.contains_iff_mem.mpr hvalue] at hsame
    rw [← List.contains_iff_mem, Bool.not_eq_true] at hlong
    rw [hlong] at hsame
    cases equal
    all_goals cases hsame

end LambdaTest

namespace LambdaText

variable (lambda : LambdaText)

/-- A text that is not accepted has no call whose meaning could be wrong. -/
theorem meets_of_error {e : ParseStop SlicePanic}
    (h : byteReader.lambdaPredicate lambda.text = .error e) (hreturns : ∀ why, e ≠ .broken why) :
    lambda.Meets := by
  refine ⟨?_, ?_, ?_⟩
  · intro why hbroken
    rw [h] at hbroken
    exact hreturns why (Except.error.inj hbroken)
  · intro function args hcall
    unfold filterCall at hcall
    rw [h] at hcall
    cases hcall
  · intro receiver args hcall
    unfold findIndexCall at hcall
    rw [h] at hcall
    cases hcall

theorem meets_of_refused (h : lambda.Refused) : lambda.Meets := by
  obtain ⟨reason, hrefused⟩ := h
  cases hpredicate : byteReader.lambdaPredicate lambda.text with
  | error e =>
    refine lambda.meets_of_error hpredicate fun why hbroken => ?_
    unfold filterCall at hrefused
    rw [hpredicate, hbroken] at hrefused
    cases hrefused
  | ok predicate =>
    obtain ⟨equal, values, -, -, -, -, -, rfl⟩ := lambda.accepted hpredicate
    rw [filterCall_of_ok hpredicate] at hrefused
    refine ⟨?_, ?_, ?_⟩
    · intro why hbroken
      rw [hpredicate] at hbroken
      cases hbroken
    · intro function args hcall
      rw [filterCall_of_ok hpredicate, hrefused] at hcall
      cases hcall
    · intro receiver args hcall
      unfold findIndexCall at hcall
      rw [hpredicate, ok_bind] at hcall
      rcases stringArgs_cases values with hargs | hargs
      · rw [hargs] at hrefused
        cases hrefused
      · cases equal with
        | true =>
          obtain ⟨strings, hstrings, -⟩ := bind_eq_ok.mp hcall
          rw [hargs] at hstrings
          cases hstrings
        | false => cases hcall

theorem meets_of_expressible (h : lambda.Expressible) : lambda.Meets := by
  obtain ⟨equal, hchain, hliterals⟩ := h
  cases hpredicate : byteReader.lambdaPredicate lambda.text with
  | error e =>
    refine lambda.meets_of_error hpredicate fun why hbroken => ?_
    rw [hbroken] at hpredicate
    exact lambda.chain_not_broken hchain (fun literal hliteral => (hliterals literal hliteral).2) why
      hpredicate
  | ok predicate =>
    obtain ⟨-, rfl⟩ := lambda.accepted_chain hchain hpredicate
    exact meets_of_agrees hpredicate (LambdaTest.agrees_of_plain hchain
      fun literal hliteral => (hliterals literal hliteral).1)

/-- What is accepted with the meaning of a test without quotation marks in its literals is a
chain. -/
theorem isPure_of_agrees (hfree : lambda.QuoteFree) {equal : Bool} {values : List String}
    {before after : List Char} (hbefore : Spaces before) (hafter : Spaces after)
    (hvalues : byteReader.comparisonValues lambda.parameter (equalityText equal)
      (splitParts (connectiveText equal)
        (before ++ (lambda.test.text lambda.parameter ++ after))) = .ok (some values))
    (hagrees : lambda.test.Agrees equal values) : lambda.test.IsChain equal := by
  have hread := outsideMarks_read lambda.named.2 (comparisonValues_some hvalues)
    (LambdaTest.quoteFree_of_agrees hfree hagrees)
  have hend := outsideMarks_quiet hafter.quiet []
  rw [List.append_nil] at hend
  rw [outsideMarks_quiet hbefore.quiet, lambda.test.outsideMarks_text lambda.named.2
    (fun literal hliteral => (hfree literal hliteral).1), hend, outsideMarks, List.append_nil] at hread
  exact LambdaTest.isChain_of_marks hread

theorem expressible_of_chain {equal : Bool} (hchain : lambda.test.IsChain equal)
    (hmeets : lambda.Meets) (hrefused : ¬ lambda.Refused) {predicate : LambdaPredicate}
    (h : byteReader.lambdaPredicate lambda.text = .ok predicate) : lambda.Expressible := by
  obtain ⟨hunsplit, rfl⟩ := lambda.accepted_chain hchain h
  have hplain := LambdaTest.plain_of_agrees hchain (agrees_of_meets h hmeets hrefused)
  exact ⟨equal, hchain, fun literal hliteral => ⟨hplain literal hliteral, hunsplit literal hliteral⟩⟩

/-- A text is accepted or refused, when it does not break off. -/
theorem accepted_or_refused (h : ∀ why, byteReader.lambdaPredicate lambda.text ≠ .error (.broken why)) :
    lambda.Refused ∨ ∃ predicate, byteReader.lambdaPredicate lambda.text = .ok predicate := by
  cases hpredicate : byteReader.lambdaPredicate lambda.text with
  | ok predicate => exact .inr ⟨predicate, rfl⟩
  | error e =>
    cases e with
    | invalid reason =>
      refine .inl ⟨reason, ?_⟩
      unfold filterCall
      rw [hpredicate]
      rfl
    | broken why => exact absurd hpredicate (h why)
    | spent => exact absurd hpredicate (lambdaPredicate_notSpent parseStaticString_notSpent _)

end LambdaText

/-- A chain without escapes whose literals do not contain its connective keeps its meaning, and what
is refused has none to lose. Of the texts that are chains, or have no quotation marks in their
literals, no others do. -/
theorem LambdaText.meets_iff (lambda : LambdaText) :
    (lambda.Expressible ∨ lambda.Refused → lambda.Meets)
      ∧ (lambda.IsPure ∨ lambda.QuoteFree →
        lambda.Meets → lambda.Expressible ∨ lambda.Refused) := by
  refine ⟨?_, ?_⟩
  · rintro (h | h)
    · exact lambda.meets_of_expressible h
    · exact lambda.meets_of_refused h
  · intro hclass hmeets
    by_cases hrefused : lambda.Refused
    · exact .inr hrefused
    rcases lambda.accepted_or_refused hmeets.returns with h | ⟨predicate, hpredicate⟩
    · exact absurd h hrefused
    refine .inl ?_
    rcases hclass with ⟨equal, hchain⟩ | hfree
    · exact lambda.expressible_of_chain hchain hmeets hrefused hpredicate
    · obtain ⟨equal, values, before, after, hbefore, hafter, hvalues, hsame⟩ :=
        lambda.accepted hpredicate
      rw [hsame] at hpredicate
      exact lambda.expressible_of_chain (lambda.isPure_of_agrees hfree hbefore hafter hvalues
        (agrees_of_meets hpredicate hmeets hrefused)) hmeets hrefused hpredicate

/-! ## Two lambda texts -/

theorem letter_fits {c : Char} (h : isNameChar c = true) :
    ∀ piece ∈ [ScriptPiece.plain c], piece.Fits '\'' := by
  intro piece hpiece
  rw [List.mem_singleton.mp hpiece]
  refine ⟨?_, ?_, ?_, ?_⟩
  all_goals
    rintro rfl
    exact absurd h (by decide)

/-- The literal of one letter. -/
def letterLiteral (c : Char) (h : isNameChar c = true) : ScriptLiteral :=
  ⟨'\'', [.plain c], isQuote_apostrophe, letter_fits h, .singleton _⟩

theorem blank_spaces : ∀ c ∈ [' '], isScriptSpace c = true := by
  decide

/-- One blank. -/
def blankGap : ScriptGap :=
  ⟨[' '], blank_spaces⟩

theorem empty_spaces : ∀ c ∈ ([] : List Char), isScriptSpace c = true :=
  fun _ hc => absurd hc List.not_mem_nil

/-- No white space. -/
def emptyGap : ScriptGap :=
  ⟨[], empty_spaces⟩

/-- `v == 'c'`. -/
def letterTest (c : Char) (h : isNameChar c = true) : LambdaTest :=
  .compare ⟨false, true, blankGap, blankGap, letterLiteral c h⟩

theorem v_named : IsParameter ['v'] :=
  ⟨List.cons_ne_nil _ _, by decide⟩

/-- `v => v == 'a' || v == 'b'`. -/
def eitherLambda : LambdaText :=
  ⟨['v'], emptyGap, blankGap, blankGap,
    .or (letterTest 'a' rfl) blankGap blankGap (letterTest 'b' rfl), emptyGap, v_named,
    ⟨trivial, trivial⟩⟩

/-- `v => v == 'a' && v == 'b'`. -/
def bothLambda : LambdaText :=
  ⟨['v'], emptyGap, blankGap, blankGap,
    .and (letterTest 'a' rfl) blankGap blankGap (letterTest 'b' rfl), emptyGap, v_named,
    ⟨rfl, rfl, trivial, trivial⟩⟩

theorem letterLiteral_kept {c : Char} (h : isNameChar c = true) :
    (letterLiteral c h).Plain ∧ (letterLiteral c h).Unsplit true := by
  refine ⟨?_, ?_⟩
  · intro piece hpiece
    rw [List.mem_singleton.mp hpiece]
    rfl
  · show Search.findWindow ['|', '|'] [c] = none
    simp [Search.findWindow]

theorem eitherLambda_meets :
    filterCall eitherLambda.text = .ok (.filterEquals, [.string ⟨"a"⟩, .string ⟨"b"⟩])
      ∧ eitherLambda.Meets := by
  refine ⟨rfl, (LambdaText.meets_iff eitherLambda).1 (.inl ⟨true, ?_, ?_⟩)⟩
  · exact ⟨rfl, ⟨rfl, rfl⟩, rfl, rfl⟩
  · intro literal hliteral
    rcases List.mem_cons.mp hliteral with rfl | hliteral
    · exact letterLiteral_kept rfl
    · rw [List.mem_singleton.mp hliteral]
      exact letterLiteral_kept rfl

/-- No string is both, but the filter keeps the text between the first and the last quotation
mark. -/
theorem bothLambda_lost : bothLambda.text = "v => v == 'a' && v == 'b'".toList
    ∧ filterCall bothLambda.text = .ok (.filterEquals, [.string ⟨"a' && v == 'b"⟩])
    ∧ ¬ bothLambda.Meets := by
  have hcall : filterCall bothLambda.text
      = .ok (.filterEquals, [.string ⟨"a' && v == 'b"⟩]) := rfl
  refine ⟨rfl, hcall, fun hmeets => ?_⟩
  obtain ⟨texts, htexts, hkeeps⟩ := hmeets.filter _ _ hcall
  have hsame : texts = [⟨"a' && v == 'b"⟩] :=
    (List.map_injective_iff.mpr fun _ _ hstring => RuleExpr.string.inj hstring) htexts.symm
  have hvalue := hkeeps ⟨fun _ _ => .ok false, fun _ _ => .ok none⟩ ⟨"a' && v == 'b"⟩
  rw [hsame] at hvalue
  exact absurd (Except.ok.inj hvalue) (by decide)

end Pdfv
