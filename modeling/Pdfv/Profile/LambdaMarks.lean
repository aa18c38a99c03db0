import Pdfv.Profile.LambdaSplitting
/-!
# What stands outside of the literals

Where no literal has a quotation mark inside, the quotation marks of a lambda text are those around
its literals, for the source language and for the reading by parts alike. The operators, connectives
and parentheses outside of them then say what the test is: `LambdaTest.isChain_of_marks`.
-/

namespace Pdfv

open Search

/-- A character of an operator, a connective or a parenthesis. -/
def isTestMark (c : Char) : Bool :=
  c = '=' || c = '!' || c = '&' || c = '|' || c = '(' || c = ')'

/-- The marks outside of the literals, and one quotation mark for each literal. -/
def outsideMarks : Bool → List Char → List Char
  | _, [] => []
  | inside, c :: rest =>
    if isQuote c then
      if inside then outsideMarks false rest else '\'' :: outsideMarks true rest
    else if !inside && isTestMark c then c :: outsideMarks inside rest
    else outsideMarks inside rest

section Scan

variable {chars : List Char}

theorem outsideMarks_quiet (h : ∀ c ∈ chars, isQuote c = false ∧ isTestMark c = false)
    (rest : List Char) : outsideMarks false (chars ++ rest) = outsideMarks false rest := by
  induction chars with
  | nil => rfl
  | cons c chars ih =>
    obtain ⟨hquote, hmark⟩ := h c List.mem_cons_self
    rw [List.cons_append, outsideMarks, hquote, hmark]
    exact ih fun c hc => h c (List.mem_cons_of_mem _ hc)

theorem outsideMarks_marks (h : ∀ c ∈ chars, isTestMark c = true) (rest : List Char) :
    outsideMarks false (chars ++ rest) = chars ++ outsideMarks false rest := by
  induction chars with
  | nil => rfl
  | cons c chars ih =>
    have hmark := h c List.mem_cons_self
    have hquote : isQuote c = false := by
      cases hc : isQuote c with
      | false => rfl
      | true =>
        rcases ExprParser.isQuote_cases hc with rfl | rfl
        all_goals exact absurd hmark (by decide)
    rw [List.cons_append, outsideMarks, hquote, hmark, if_neg (by decide), if_pos (by decide),
      ih fun c hc => h c (List.mem_cons_of_mem _ hc), List.cons_append]

theorem outsideMarks_inside (h : ∀ c ∈ chars, isQuote c = false) (rest : List Char) :
    outsideMarks true (chars ++ rest) = outsideMarks true rest := by
  induction chars with
  | nil => rfl
  | cons c chars ih =>
    rw [List.cons_append, outsideMarks, h c List.mem_cons_self]
    exact ih fun c hc => h c (List.mem_cons_of_mem _ hc)

theorem outsideMarks_quoted {quote last : Char} (hquote : isQuote quote = true)
    (hlast : isQuote last = true) (h : ∀ c ∈ chars, isQuote c = false) (rest : List Char) :
    outsideMarks false (quote :: (chars ++ last :: rest)) = '\'' :: outsideMarks false rest := by
  rw [outsideMarks, hquote, if_pos rfl, if_neg (by decide), outsideMarks_inside h, outsideMarks,
    hlast, if_pos rfl, if_pos rfl]

theorem Spaces.quiet (h : Spaces chars) :
    ∀ c ∈ chars, isQuote c = false ∧ isTestMark c = false := by
  intro c hc
  have hspace := h c hc
  refine ⟨?_, ?_⟩
  · cases hquote : isQuote c with
    | false => rfl
    | true =>
      rw [isSpace_of_isQuote hquote] at hspace
      cases hspace
  · cases hmark : isTestMark c with
    | false => rfl
    | true =>
      simp only [isTestMark, Bool.or_eq_true, decide_eq_true_eq] at hmark
      rcases hmark with ((((rfl | rfl) | rfl) | rfl) | rfl) | rfl
      all_goals exact absurd hspace (by decide)

theorem parameter_quiet (h : ∀ c ∈ chars, isParameterChar c = true) :
    ∀ c ∈ chars, isQuote c = false ∧ isTestMark c = false := by
  intro c hc
  have hname := h c hc
  refine ⟨?_, ?_⟩
  · cases hquote : isQuote c with
    | false => rfl
    | true =>
      rcases ExprParser.isQuote_cases hquote with rfl | rfl
      all_goals exact absurd hname (by decide)
  · cases hmark : isTestMark c with
    | false => rfl
    | true =>
      simp only [isTestMark, Bool.or_eq_true, decide_eq_true_eq] at hmark
      rcases hmark with ((((rfl | rfl) | rfl) | rfl) | rfl) | rfl
      all_goals exact absurd hname (by decide)

theorem equality_marks (equal : Bool) : ∀ c ∈ equalityText equal, isTestMark c = true := by
  cases equal
  all_goals decide

theorem connective_marks (equal : Bool) : ∀ c ∈ connectiveText equal, isTestMark c = true := by
  cases equal
  all_goals decide

end Scan

/-! ## The marks of a test -/

namespace LambdaTest

/-- The marks of the test. -/
def marks : LambdaTest → List Char
  | compare comparison =>
    if comparison.flipped then '\'' :: equalityText comparison.equal
    else equalityText comparison.equal ++ ['\'']
  | group _ inner _ => '(' :: (inner.marks ++ [')'])
  | and left _ _ right => left.marks ++ (connectiveText false ++ right.marks)
  | or left _ _ right => left.marks ++ (connectiveText true ++ right.marks)

theorem outsideMarks_text {parameter : List Char}
    (named : ∀ c ∈ parameter, isParameterChar c = true) (test : LambdaTest)
    (hfree : ∀ literal ∈ test.literals, ∀ c ∈ literal.body, isQuote c = false) (rest : List Char) :
    outsideMarks false (test.text parameter ++ rest) = test.marks ++ outsideMarks false rest := by
  have hgap (gap : ScriptGap) (rest : List Char) :
      outsideMarks false (gap.text ++ rest) = outsideMarks false rest :=
    outsideMarks_quiet gap.isSpaces.quiet rest
  have hname (rest : List Char) : outsideMarks false (parameter ++ rest) = outsideMarks false rest :=
    outsideMarks_quiet (parameter_quiet named) rest
  have hjoin (equal : Bool) (rest : List Char) : outsideMarks false (connectiveText equal ++ rest)
      = connectiveText equal ++ outsideMarks false rest :=
    outsideMarks_marks (connective_marks equal) rest
  induction test generalizing rest with
  | compare comparison =>
    have hliteral (rest : List Char) : outsideMarks false (comparison.literal.text ++ rest)
        = '\'' :: outsideMarks false rest := by
      rw [← outsideMarks_quoted comparison.literal.isQuote comparison.literal.isQuote
        (hfree comparison.literal List.mem_cons_self), ScriptLiteral.text]
      simp only [List.append_assoc, List.cons_append, List.nil_append]
    rw [text, marks]
    cases hflipped : comparison.flipped with
    | true =>
      rw [LambdaComparison.text, if_pos hflipped, if_pos rfl]
      simp only [List.append_assoc]
      rw [hliteral, hgap, outsideMarks_marks (equality_marks _), hgap, hname]
      rfl
    | false =>
      rw [LambdaComparison.text, if_neg (by rw [hflipped]; decide), if_neg (by decide)]
      simp only [List.append_assoc]
      rw [hname, hgap, outsideMarks_marks (equality_marks _), hgap, hliteral]
      rfl
  | group before inner after ih =>
    have hopen (rest : List Char) : outsideMarks false ('(' :: rest) = '(' :: outsideMarks false rest :=
      rfl
    have hclose (rest : List Char) : outsideMarks false (')' :: rest) = ')' :: outsideMarks false rest :=
      rfl
    rw [text, marks]
    simp only [List.append_assoc, List.cons_append, List.nil_append]
    rw [hopen, hgap, ih hfree, hgap, hclose]
  | and left before after right ihl ihr =>
    rw [literals, List.forall_mem_append] at hfree
    rw [text, marks]
    simp only [List.append_assoc]
    rw [ihl hfree.1, hgap, show outsideMarks false (['&', '&'] ++ _) = _ from hjoin false _, hgap,
      ihr hfree.2]
  | or left before after right ihl ihr =>
    rw [literals, List.forall_mem_append] at hfree
    rw [text, marks]
    simp only [List.append_assoc]
    rw [ihl hfree.1, hgap, show outsideMarks false (['|', '|'] ++ _) = _ from hjoin true _, hgap,
      ihr hfree.2]

end LambdaTest

/-! ## The marks of a chain -/

/-- The marks of that many comparisons, each before its connective. -/
def chainMarks (equal : Bool) : Nat → List Char
  | 0 => []
  | n + 1 => equalityText equal ++ '\'' :: (connectiveText equal ++ chainMarks equal n)

theorem chainMarks_length (equal : Bool) (n : Nat) : (chainMarks equal n).length = 5 * n := by
  induction n with
  | zero => rfl
  | succ n ih =>
    cases equal
    all_goals
      show (chainMarks _ n).length + 1 + 1 + 1 + 1 + 1 = _
      omega

theorem chainMarks_add (equal : Bool) (m n : Nat) :
    chainMarks equal (m + n) = chainMarks equal m ++ chainMarks equal n := by
  induction m with
  | zero => rw [Nat.zero_add, chainMarks, List.nil_append]
  | succ m ih =>
    rw [Nat.add_right_comm, chainMarks, chainMarks, ih]
    simp only [List.append_assoc, List.cons_append]

/-- The last comparison and its connective. -/
theorem chainMarks_succ (equal : Bool) (n : Nat) : chainMarks equal (n + 1)
    = (chainMarks equal n ++ (equalityText equal ++ ['\''])) ++ connectiveText equal := by
  rw [chainMarks_add]
  show _ ++ (equalityText equal ++ '\'' :: (connectiveText equal ++ [])) = _
  simp only [List.append_assoc, List.cons_append, List.nil_append, List.append_nil]

theorem notMem_chainMarks (equal : Bool) (n : Nat) : '(' ∉ chainMarks equal n := by
  induction n with
  | zero => exact List.not_mem_nil
  | succ n ih =>
    cases equal
    all_goals simp [chainMarks, equalityText, connectiveText, ih]

/-- The marks of what is read part by part. -/
theorem outsideMarks_read {parameter : List Char} (named : ∀ c ∈ parameter, isParameterChar c = true)
    {equal : Bool} {chars : List Char} {values : List String}
    (h : List.Forall₂ (fun part value => ReadsPart parameter (equalityText equal) part value.toList)
      (splitParts (connectiveText equal) chars) values)
    (hfree : ∀ value ∈ values, ∀ c ∈ value.toList, isQuote c = false) :
    outsideMarks false chars ++ connectiveText equal = chainMarks equal values.length := by
  have hne : connectiveText equal ≠ [] := by
    cases equal
    all_goals exact List.cons_ne_nil _ _
  have hpart (part : List Char) (value : String)
      (hread : ReadsPart parameter (equalityText equal) part value.toList)
      (hvalue : ∀ c ∈ value.toList, isQuote c = false) (rest : List Char) :
      outsideMarks false (part ++ rest)
        = equalityText equal ++ '\'' :: outsideMarks false rest := by
    obtain ⟨before, between, inner, after, quote, hbefore, hbetween, hinner, hafter, hquote, rfl⟩ :=
      hread
    simp only [List.append_assoc, List.cons_append]
    rw [outsideMarks_quiet hbefore.quiet, outsideMarks_quiet (parameter_quiet named),
      outsideMarks_quiet hbetween.quiet, outsideMarks_marks (equality_marks equal),
      outsideMarks_quiet hinner.quiet, outsideMarks_quoted hquote hquote hvalue,
      outsideMarks_quiet hafter.quiet]
  induction chars using split_induction hne generalizing values with
  | last part hwindow =>
    rw [show splitParts (connectiveText equal) part = [part] from splitChars_of_none hwindow _] at h
    obtain ⟨value, rest, hread, hrest, rfl⟩ := List.forall₂_cons_left_iff.mp h
    cases hrest
    have hmarks := hpart part value hread (hfree value List.mem_cons_self) []
    rw [List.append_nil] at hmarks
    rw [hmarks, List.append_assoc]
    show _ = equalityText equal ++ '\'' :: (connectiveText equal ++ [])
    rw [List.append_nil]
    rfl
  | more part rest hwindow ih =>
    rw [splitParts_cons hne hwindow] at h
    obtain ⟨value, more, hread, hmore, rfl⟩ := List.forall₂_cons_left_iff.mp h
    rw [hpart part value hread (hfree value List.mem_cons_self),
      outsideMarks_marks (connective_marks equal), List.length_cons, chainMarks,
      ← ih hmore fun value hvalue => hfree value (List.mem_cons_of_mem _ hvalue)]
    simp only [List.append_assoc, List.cons_append]

namespace LambdaTest

/-- Without parentheses every comparison has three marks, and every connective two. -/
theorem marks_length {test : LambdaTest} (h : '(' ∉ test.marks) :
    ∃ n, test.marks.length + 2 = 5 * (n + 1) := by
  induction test with
  | compare comparison =>
    refine ⟨0, ?_⟩
    unfold marks equalityText
    cases comparison.flipped
    all_goals
      cases comparison.equal
      all_goals rfl
  | group before inner after ih => exact absurd List.mem_cons_self h
  | and left before after right ihl ihr | or left before after right ihl ihr =>
    rw [marks, List.mem_append, List.mem_append, not_or, not_or] at h
    obtain ⟨m, hm⟩ := ihl h.1
    obtain ⟨n, hn⟩ := ihr h.2.2
    refine ⟨m + n + 1, ?_⟩
    rw [marks, List.length_append, List.length_append]
    show _ + (2 + _) + 2 = _
    omega

/-- The two sides of a connective in the marks of a chain. -/
theorem marks_split {equal joined : Bool} {left right : LambdaTest} {n : Nat}
    (h : left.marks ++ (connectiveText joined ++ right.marks) ++ connectiveText equal
      = chainMarks equal n) :
    joined = equal ∧ (∃ m, left.marks ++ connectiveText equal = chainMarks equal m)
      ∧ ∃ m, right.marks ++ connectiveText equal = chainMarks equal m := by
  have hopen : '(' ∉ left.marks := by
    intro hmem
    refine notMem_chainMarks equal n ?_
    rw [← h]
    exact List.mem_append_left _ (List.mem_append_left _ hmem)
  obtain ⟨k, hk⟩ := marks_length hopen
  have hlength (equal : Bool) : (connectiveText equal).length = 2 := by
    cases equal
    all_goals rfl
  have htotal := congrArg List.length h
  simp only [List.length_append, hlength, chainMarks_length] at htotal
  obtain ⟨m, rfl⟩ : ∃ m, n = (k + 1) + m := ⟨n - (k + 1), by omega⟩
  rw [chainMarks_add] at h
  have hsides : (left.marks ++ connectiveText joined) ++ (right.marks ++ connectiveText equal)
      = chainMarks equal (k + 1) ++ chainMarks equal m := by
    simpa only [List.append_assoc] using h
  obtain ⟨hleft, hright⟩ := List.append_inj hsides
    (by rw [List.length_append, hlength, chainMarks_length]; omega)
  have hend := hleft
  rw [chainMarks_succ] at hend
  obtain ⟨hfront, hconnective⟩ := List.append_inj' hend (by rw [hlength, hlength])
  refine ⟨?_, ⟨k + 1, by rw [hfront, chainMarks_succ]⟩, m, hright⟩
  cases joined
  all_goals
    cases equal
    any_goals rfl
    all_goals exact absurd hconnective (by decide)

/-- A test with the marks of a chain is one. -/
theorem isChain_of_marks {equal : Bool} {test : LambdaTest} {n : Nat}
    (h : test.marks ++ connectiveText equal = chainMarks equal n) : test.IsChain equal := by
  induction test generalizing n with
  | compare comparison =>
    cases n with
    | zero =>
      have hnil := (List.append_eq_nil_iff.mp h).2
      cases equal
      all_goals exact absurd hnil (by decide)
    | succ n =>
      rw [chainMarks, marks] at h
      cases hflipped : comparison.flipped with
      | true =>
        rw [if_pos hflipped] at h
        cases equal
        all_goals exact absurd (List.cons.inj h).1 (by decide)
      | false =>
        rw [if_neg (by rw [hflipped]; decide), List.append_assoc] at h
        obtain ⟨hoperator, -⟩ := List.append_inj h (equalityText_length _ _)
        exact ⟨hflipped, equalityText_inj hoperator⟩
  | group before inner after ih =>
    refine absurd ?_ (notMem_chainMarks equal n)
    rw [← h]
    exact List.mem_append_left _ List.mem_cons_self
  | and left before after right ihl ihr =>
    obtain ⟨hsame, ⟨m, hleft⟩, m', hright⟩ := marks_split h
    exact ⟨hsame.symm, ihl hleft, ihr hright⟩
  | or left before after right ihl ihr =>
    obtain ⟨hsame, ⟨m, hleft⟩, m', hright⟩ := marks_split h
    exact ⟨hsame.symm, ihl hleft, ihr hright⟩

end LambdaTest

end Pdfv
