import Pdfv.Profile.LambdaTexts
/-!
# Splitting lambda texts

A lambda predicate is read by splitting its text at `||` or `&&` and each part at the first `==` or
`!=`. `splitParts_append` says where a split falls apart into two; `ReadsPart` is what a part looks
like whose comparison was read, and `ReadsPart.of_comparison` compares it with a comparison of the
source language: what was read is then all that stands between the quotation marks.
-/

namespace Pdfv

open Search Fallible

/-! ## Splitting -/

/-- `str::split`. -/
def splitParts (separator chars : List Char) : List (List Char) :=
  splitChars separator chars.length chars

section Splitting

variable {separator : List Char} (hne : separator ≠ [])

theorem splitChars_of_none {chars : List Char} (h : findWindow separator chars = none) (fuel : Nat) :
    splitChars separator fuel chars = [chars] := by
  cases fuel with
  | zero => rfl
  | succ fuel =>
    rw [splitChars, h]

theorem findWindow_text {chars : List Char} {index : Nat}
    (h : findWindow separator chars = some index) :
    ∃ part rest, chars = part ++ (separator ++ rest) ∧ part.length = index := by
  have hsplit : Occurs separator chars index := by
    induction chars generalizing index with
    | nil => cases h
    | cons c chars ih =>
      rw [findWindow] at h
      split at h
      case isTrue hprefix =>
        cases h
        exact List.isPrefixOf_iff_prefix.mp hprefix
      case isFalse =>
        obtain ⟨k, hk, rfl⟩ := Option.map_eq_some_iff.mp h
        exact ih hk
  obtain ⟨rest, hrest⟩ := hsplit
  have hle : index ≤ chars.length := by
    by_contra hover
    rw [List.drop_eq_nil_of_le (by omega), List.append_eq_nil_iff] at hrest
    rw [hrest.1] at h
    cases chars with
    | nil => cases h
    | cons c chars =>
      cases h
      omega
  exact ⟨chars.take index, rest, by rw [hrest, List.take_append_drop],
    List.length_take_of_le hle⟩

include hne

theorem findWindow_eq_none_iff_text {chars : List Char} :
    findWindow separator chars = none ↔ ∀ front rest, chars ≠ front ++ (separator ++ rest) := by
  constructor
  · rintro h front rest rfl
    refine (findWindow_eq_none_iff hne).mp h front.length ?_
    rw [Occurs, List.drop_left]
    exact List.prefix_append _ _
  · intro h
    cases hwindow : findWindow separator chars with
    | none => rfl
    | some index =>
      obtain ⟨front, rest, htext, -⟩ := findWindow_text hwindow
      exact absurd htext (h front rest)

theorem splitChars_fuel {chars : List Char} {fuel more : Nat} (h : chars.length ≤ fuel)
    (hmore : chars.length ≤ more) :
    splitChars separator fuel chars = splitChars separator more chars := by
  have hpos := List.length_pos_iff.mpr hne
  induction fuel generalizing chars more with
  | zero =>
    rw [List.length_eq_zero_iff.mp (Nat.le_zero.mp h), splitChars_of_none rfl,
      splitChars_of_none rfl]
  | succ fuel ih =>
    cases hwindow : findWindow separator chars with
    | none => rw [splitChars_of_none hwindow, splitChars_of_none hwindow]
    | some index =>
      cases more with
      | zero =>
        rw [List.length_eq_zero_iff.mp (Nat.le_zero.mp hmore)] at hwindow
        cases hwindow
      | succ more =>
        have hlength : (chars.drop (index + separator.length)).length ≤ chars.length - 1 := by
          rw [List.length_drop]
          omega
        rw [splitChars, hwindow, splitChars, hwindow]
        exact congrArg _ (ih (Nat.le_trans hlength (by omega)) (Nat.le_trans hlength (by omega)))

theorem splitParts_cons {part rest : List Char}
    (h : findWindow separator (part ++ (separator ++ rest)) = some part.length) :
    splitParts separator (part ++ (separator ++ rest)) = part :: splitParts separator rest := by
  have hpos := List.length_pos_iff.mpr hne
  obtain ⟨fuel, hfuel⟩ : ∃ fuel, (part ++ (separator ++ rest)).length = fuel + 1 :=
    Nat.exists_eq_succ_of_ne_zero (by simp only [List.length_append]; omega)
  have hdrop : (part ++ (separator ++ rest)).drop (part.length + separator.length) = rest := by
    rw [← List.append_assoc, ← List.length_append, List.drop_left]
  unfold splitParts
  rw [hfuel, splitChars, h]
  dsimp only
  rw [List.take_left, hdrop]
  refine congrArg _ (splitChars_fuel hne ?_ (Nat.le_refl _))
  simp only [List.length_append] at hfuel
  omega

/-- Splitting takes a text apart from the left. -/
theorem split_induction {motive : List Char → Prop}
    (last : ∀ part, findWindow separator part = none → motive part)
    (more : ∀ part rest, findWindow separator (part ++ (separator ++ rest)) = some part.length →
      motive rest → motive (part ++ (separator ++ rest))) (chars : List Char) : motive chars := by
  have hpos := List.length_pos_iff.mpr hne
  induction hlength : chars.length using Nat.strong_induction_on generalizing chars with
  | _ length ih =>
    cases hwindow : findWindow separator chars with
    | none => exact last chars hwindow
    | some index =>
      obtain ⟨part, rest, rfl, rfl⟩ := findWindow_text hwindow
      refine more part rest hwindow (ih rest.length ?_ rest rfl)
      simp only [List.length_append] at hlength
      omega

/-- The first part of a split. -/
theorem splitParts_head (chars : List Char) :
    ∃ part parts rest, splitParts separator chars = part :: parts ∧ chars = part ++ rest := by
  cases hwindow : findWindow separator chars with
  | none => exact ⟨chars, [], [], splitChars_of_none hwindow _, (List.append_nil _).symm⟩
  | some index =>
    obtain ⟨part, rest, rfl, rfl⟩ := findWindow_text hwindow
    exact ⟨part, _, _, splitParts_cons hne hwindow, rfl⟩

/-- The last part of a text that is split. -/
theorem splitParts_last {chars : List Char} (h : findWindow separator chars ≠ none) :
    ∃ front last parts, chars = front ++ (separator ++ last)
      ∧ splitParts separator chars = parts ++ [last] := by
  revert h
  induction chars using split_induction hne with
  | last part hwindow =>
    intro h
    exact absurd hwindow h
  | more part rest hwindow ih =>
    intro _
    rw [splitParts_cons hne hwindow]
    by_cases hrest : findWindow separator rest = none
    · refine ⟨part, rest, [part], rfl, ?_⟩
      unfold splitParts
      rw [splitChars_of_none hrest]
      rfl
    · obtain ⟨front, last, parts, htext, hparts⟩ := ih hrest
      refine ⟨part ++ (separator ++ front), last, part :: parts, ?_, ?_⟩
      · rw [htext]
        simp only [List.append_assoc]
      · rw [hparts]
        rfl

end Splitting

/-- A doubled character cannot begin with the last character of a text that ends otherwise. -/
theorem occurs_doubled {s : Char} {chars rest : List Char} (hlast : chars.getLast? ≠ some s) {j : Nat}
    (hj : j < chars.length) (h : Occurs [s, s] (chars ++ ([s, s] ++ rest)) j) :
    Occurs [s, s] chars j := by
  refine h.of_append ?_
  by_contra hover
  have hend : j = chars.length - 1 := by
    simp only [List.length_cons, List.length_nil] at hover
    omega
  obtain ⟨tail, htail⟩ := h
  have hread : (chars ++ ([s, s] ++ rest))[j]? = some s := by
    have hzero := congrArg (fun text => text[0]?) htail
    simp only [List.getElem?_drop] at hzero
    exact hzero.symm
  rw [List.getElem?_append_left hj, hend] at hread
  rw [List.getLast?_eq_getElem?] at hlast
  exact hlast hread

/-- A doubled separator after a text that does not end with its character is one of the places where
the text is split. -/
theorem splitParts_append {s : Char} {chars : List Char} (hlast : chars.getLast? ≠ some s)
    (rest : List Char) : splitParts [s, s] (chars ++ ([s, s] ++ rest))
      = splitParts [s, s] chars ++ splitParts [s, s] rest := by
  have hne : [s, s] ≠ [] := List.cons_ne_nil _ _
  revert hlast
  induction chars using split_induction hne with
  | last part hwindow =>
    intro hlast
    have hnone := (findWindow_eq_none_iff hne).mp hwindow
    rw [splitParts_cons hne ((findWindow_eq_some_iff hne).mpr ⟨?_, ?_⟩)]
    · unfold splitParts
      rw [splitChars_of_none hwindow]
      rfl
    · rw [Occurs, List.drop_left]
      exact List.prefix_append _ _
    · intro j hj hocc
      exact hnone j (occurs_doubled hlast hj hocc)
  | more part between hwindow ih =>
    intro hlast
    have hrest : between.getLast? ≠ some s := by
      intro hs
      refine hlast ?_
      rw [List.getLast?_append, List.getLast?_append, hs]
      rfl
    obtain ⟨hhere, hmin⟩ := (findWindow_eq_some_iff hne).mp hwindow
    rw [splitParts_cons hne hwindow, show (part :: splitParts [s, s] between)
      ++ splitParts [s, s] rest = part :: (splitParts [s, s] between ++ splitParts [s, s] rest) from rfl,
      ← ih hrest, List.append_assoc, List.append_assoc]
    refine splitParts_cons hne ((findWindow_eq_some_iff hne).mpr ⟨?_, ?_⟩)
    · rw [Occurs, List.drop_left]
      exact List.prefix_append _ _
    · intro j hj hocc
      have hall : Occurs [s, s] (part ++ ([s, s] ++ between) ++ ([s, s] ++ rest)) j := by
        rwa [List.append_assoc, List.append_assoc]
      have hin : j < (part ++ ([s, s] ++ between)).length := by
        simp only [List.length_append]
        omega
      exact hmin j hj (occurs_doubled hlast hin hall)

/-! ## Texts with white space -/

/-- White space only. -/
def Spaces (chars : List Char) : Prop :=
  ∀ c ∈ chars, isSpace c = true

theorem spaces_of_isWhitespace {chars : List Char} (h : ∀ c ∈ chars, isWhitespace c = true) :
    Spaces chars :=
  fun c hc => by simp [isSpace, h c hc]

theorem ScriptGap.isSpaces (gap : ScriptGap) : Spaces gap.text := by
  intro c hc
  have hspace := gap.spaces c hc
  unfold isScriptSpace at hspace
  unfold isSpace
  rw [Bool.or_eq_true, Bool.and_eq_true] at hspace
  rw [Bool.or_eq_true]
  exact hspace.imp_left And.left

theorem Spaces.append {chars more : List Char} (h : Spaces chars) (hmore : Spaces more) :
    Spaces (chars ++ more) := by
  intro c hc
  rcases List.mem_append.mp hc with hc | hc
  · exact h c hc
  · exact hmore c hc

theorem Spaces.notMem {chars : List Char} (h : Spaces chars) {c : Char} (hc : isSpace c = false) :
    c ∉ chars := by
  intro hmem
  rw [h c hmem] at hc
  cases hc

/-- What stands in front of the first other character. -/
theorem spaces_cancel {u g s t : List Char} {a b : Char} (hu : Spaces u) (hg : Spaces g)
    (ha : isSpace a = false) (hb : isSpace b = false) (h : u ++ a :: s = g ++ b :: t) :
    u = g ∧ a = b ∧ s = t := by
  induction u generalizing g with
  | nil =>
    cases g with
    | nil => exact ⟨rfl, (List.cons.inj h).1, (List.cons.inj h).2⟩
    | cons c g =>
      have hc := hg c List.mem_cons_self
      rw [← (List.cons.inj h).1, ha] at hc
      cases hc
  | cons c u ih =>
    cases g with
    | nil =>
      have hc := hu c List.mem_cons_self
      rw [(List.cons.inj h).1, hb] at hc
      cases hc
    | cons d g =>
      obtain ⟨rfl, hrest⟩ := List.cons.inj h
      obtain ⟨rfl, hmore⟩ := ih (fun c hc => hu c (List.mem_cons_of_mem _ hc))
        (fun c hc => hg c (List.mem_cons_of_mem _ hc)) hrest
      exact ⟨rfl, hmore⟩

/-- What stands behind the last other character. -/
theorem spaces_cancel_end {u g s t : List Char} {a b : Char} (hu : Spaces u) (hg : Spaces g)
    (ha : isSpace a = false) (hb : isSpace b = false) (h : s ++ a :: u = t ++ b :: g) :
    s = t ∧ a = b ∧ u = g := by
  have hreverse (l : List Char) (hl : Spaces l) : Spaces l.reverse :=
    fun c hc => hl c (List.mem_reverse.mp hc)
  have h' : u.reverse ++ a :: s.reverse = g.reverse ++ b :: t.reverse := by
    simpa using congrArg List.reverse h
  obtain ⟨hug, hab, hst⟩ := spaces_cancel (hreverse u hu) (hreverse g hg) ha hb h'
  exact ⟨List.reverse_inj.mp hst, hab, List.reverse_inj.mp hug⟩

theorem isSpace_of_isQuote {c : Char} (h : isQuote c = true) : isSpace c = false := by
  rcases ExprParser.isQuote_cases h with rfl | rfl
  all_goals decide

theorem isNameChar_range {c : Char} (h : isNameChar c = true) : 48 ≤ c.toNat ∧ c.toNat < 128 := by
  simp only [isNameChar, Char.isAlphanum, Bool.or_eq_true, decide_eq_true_eq] at h
  rcases h with (hletter | hdigit) | rfl
  · have hrange := isAlpha_range hletter
    omega
  · have hrange := isDigit_range hdigit
    omega
  · decide

theorem isSpace_of_isParameterChar {c : Char} (h : isParameterChar c = true) :
    isSpace c = false := by
  cases hspace : isSpace c with
  | false => rfl
  | true =>
    have hrange : c.toNat < 48 ∨ 128 ≤ c.toNat := by
      simp only [isSpace, isWhitespace, Bool.or_eq_true, Bool.and_eq_true, decide_eq_true_eq]
        at hspace
      omega
    simp only [isParameterChar, hspace, Bool.not_true, Bool.and_false, Bool.or_false,
      Bool.or_eq_true, decide_eq_true_eq] at h
    rcases h with h | rfl
    · have := isNameChar_range h
      omega
    · exact absurd hspace (by decide)

/-- A text around what is left of it when it is trimmed. -/
theorem trimChars_parts (chars : List Char) :
    ∃ before after, (∀ c ∈ before, isWhitespace c = true) ∧ (∀ c ∈ after, isWhitespace c = true)
      ∧ chars = before ++ (trimChars chars ++ after) :=
  ⟨Trim.leading isWhitespace chars, Trim.trailing isWhitespace chars,
    fun _ hc => Trim.leading_spec hc, fun _ hc => Trim.trailing_spec hc, Trim.leading_append.symm⟩

theorem trimChars_append {chars after : List Char} (h : ∀ c ∈ after, isWhitespace c = true) :
    trimChars (chars ++ after) = trimChars chars := by
  obtain ⟨lead, trail, hlead, htrail, hchars⟩ := trimChars_parts chars
  have htail : ∀ c ∈ trail ++ after, isWhitespace c = true := by
    intro c hc
    rcases List.mem_append.mp hc with hc | hc
    · exact htrail c hc
    · exact h c hc
  have htrim := Trim.trim_append hlead (Trim.trimmed_trim isWhitespace chars) htail
  have htext : chars ++ after = lead ++ (trimChars chars ++ (trail ++ after)) := by
    conv => lhs; rw [hchars]
    simp only [List.append_assoc]
  rw [htext]
  exact htrim

/-! ## Reading a part -/

/-- A part whose comparison was read, with what was read. -/
def ReadsPart (parameter operator part value : List Char) : Prop :=
  ∃ before between behind after quote, Spaces before ∧ Spaces between ∧ Spaces behind ∧ Spaces after
    ∧ isQuote quote = true ∧ part = before ++ (parameter ++ (between ++ (operator
      ++ (behind ++ quote :: (value ++ quote :: after)))))

theorem parseStaticString_ok {input : List Char} {value : String}
    (h : parseStaticString input = .ok value) :
    ∃ quote, isQuote quote = true ∧ input = quote :: (value.toList ++ [quote]) := by
  unfold parseStaticString at h
  split at h
  · cases h
  · rename_i hquoted
    split at h
    · cases h
    · rename_i hone
      cases h
      rw [Bool.not_eq_true, Bool.not_eq_false'] at hquoted
      cases input with
      | nil => cases hquoted
      | cons quote rest =>
        obtain ⟨body, last, rfl⟩ : ∃ body last, rest = body ++ [last] := by
          rcases List.eq_nil_or_concat' rest with rfl | ⟨body, last, rfl⟩
          · exact absurd rfl hone
          · exact ⟨body, last, rfl⟩
        have hends : (isQuote quote && decide (last = quote)) = true := by
          unfold isQuotedText at hquoted
          rw [← List.cons_append, List.getLast?_concat] at hquoted
          exact hquoted
        rw [Bool.and_eq_true, decide_eq_true_eq] at hends
        obtain ⟨hquote, rfl⟩ := hends
        refine ⟨last, hquote, ?_⟩
        rw [String.toList_ofList, List.drop_one, List.tail_cons, List.dropLast_concat]

theorem parseStaticString_broken {input : List Char} {why : SlicePanic}
    (h : parseStaticString input = .error (.broken why)) : input.length = 1 := by
  unfold parseStaticString at h
  split at h
  · cases h
  · split at h
    · assumption
    · cases h

section Reading

variable {parameter operator part : List Char}

/-- A part is skipped, or the parameter stands before its operator. -/
theorem comparisonLambdaValue_cases (parameter operator part : List Char) :
    byteReader.comparisonLambdaValue (trimChars part) parameter operator = .ok none
      ∨ ∃ before between right, Spaces before ∧ Spaces between
        ∧ part = before ++ (parameter ++ (between ++ (operator ++ right)))
        ∧ byteReader.comparisonLambdaValue (trimChars part) parameter operator
          = (parseStaticString (trimChars right)).map some := by
  unfold LiteralReader.comparisonLambdaValue splitOnce
  cases hwindow : findWindow operator (trimChars part) with
  | none => exact .inl rfl
  | some index =>
    obtain ⟨left, right, htext, rfl⟩ := findWindow_text hwindow
    have hdrop : (trimChars part).drop (left.length + operator.length) = right := by
      rw [htext, ← List.append_assoc, ← List.length_append, List.drop_left]
    have htake : (trimChars part).take left.length = left := by
      rw [htext, List.take_left]
    rw [Option.map_some, hdrop, htake]
    dsimp only
    by_cases hleft : trimChars left = parameter
    · obtain ⟨lead, trail, hlead, htrail, hpart⟩ := trimChars_parts part
      obtain ⟨first, between, hfirst, hbetween, hwhole⟩ := trimChars_parts left
      refine .inr ⟨lead ++ first, between, right ++ trail,
        (spaces_of_isWhitespace hlead).append (spaces_of_isWhitespace hfirst),
        spaces_of_isWhitespace hbetween, ?_, ?_⟩
      · rw [htext, hwhole, hleft] at hpart
        rw [hpart]
        simp only [List.append_assoc]
      · rw [if_neg (not_not.mpr hleft), trimChars_append htrail]
        show (parseStaticString (trimChars right) >>= fun value => Except.ok (some value)) = _
        cases parseStaticString (trimChars right) with
        | error e => rfl
        | ok value => rfl
    · rw [if_pos hleft]
      exact .inl rfl

theorem readsPart_of_value {value : String}
    (h : byteReader.comparisonLambdaValue (trimChars part) parameter operator = .ok (some value)) :
    ReadsPart parameter operator part value.toList := by
  rcases comparisonLambdaValue_cases parameter operator part with hnone | hread
  · rw [hnone] at h
    cases h
  · obtain ⟨before, between, right, hbefore, hbetween, hpart, hvalue⟩ := hread
    rw [hvalue] at h
    cases hstring : parseStaticString (trimChars right) with
    | error e =>
      rw [hstring] at h
      cases h
    | ok text =>
      rw [hstring] at h
      cases h
      obtain ⟨quote, hquote, htext⟩ := parseStaticString_ok hstring
      obtain ⟨behind, after, hbehind, hafter, hright⟩ := trimChars_parts right
      rw [htext] at hright
      refine ⟨before, between, behind, after, quote, hbefore, hbetween,
        spaces_of_isWhitespace hbehind, spaces_of_isWhitespace hafter, hquote, ?_⟩
      rw [hpart, hright]
      simp only [List.append_assoc, List.cons_append, List.nil_append]

theorem comparisonValues_some {parts : List (List Char)} {values : List String}
    (h : byteReader.comparisonValues parameter operator parts = .ok (some values)) :
    List.Forall₂ (fun part value => ReadsPart parameter operator part value.toList) parts values := by
  induction parts generalizing values with
  | nil =>
    cases h
    exact .nil
  | cons part rest ih =>
    obtain ⟨value, hvalue, h⟩ := bind_eq_ok.mp h
    cases value with
    | none => cases h
    | some value =>
      obtain ⟨more, hmore, h⟩ := bind_eq_ok.mp h
      cases more with
      | none => cases h
      | some more =>
        cases h
        exact .cons (readsPart_of_value hvalue) (ih hmore)

theorem comparisonValues_error {parts : List (List Char)} {e : ParseStop SlicePanic}
    (h : byteReader.comparisonValues parameter operator parts = .error e) :
    ∃ part ∈ parts, byteReader.comparisonLambdaValue (trimChars part) parameter operator
      = .error e := by
  induction parts with
  | nil => cases h
  | cons part rest ih =>
    rcases bind_eq_error.mp h with hvalue | ⟨value, -, h⟩
    · exact ⟨part, List.mem_cons_self, hvalue⟩
    · cases value with
      | none => cases h
      | some value =>
        rcases bind_eq_error.mp h with hrest | ⟨more, -, h⟩
        · obtain ⟨other, hother, hvalue⟩ := ih hrest
          exact ⟨other, List.mem_cons_of_mem _ hother, hvalue⟩
        · cases h

end Reading

/-! ## Quotation marks inside a literal -/

/-- Every such quotation mark stands behind a backslash. -/
def Guarded (quote : Char) (chars : List Char) : Prop :=
  ∀ front rest, chars = front ++ quote :: rest → front.getLast? = some '\\'

theorem guarded_of_notMem {quote : Char} {chars : List Char} (h : quote ∉ chars) :
    Guarded quote chars := by
  rintro front rest rfl
  exact absurd (List.mem_append_right _ List.mem_cons_self) h

theorem Guarded.append {quote : Char} {chars more : List Char} (h : Guarded quote chars)
    (hmore : Guarded quote more) : Guarded quote (chars ++ more) := by
  intro front rest htext
  rcases List.append_eq_append_iff.mp htext with ⟨middle, rfl, hmiddle⟩ | ⟨middle, hchars, hmiddle⟩
  · rw [List.getLast?_append, hmore middle rest hmiddle]
    rfl
  · cases middle with
    | nil =>
      have hlast := hmore [] rest hmiddle.symm
      cases hlast
    | cons c middle =>
      obtain ⟨rfl, -⟩ := List.cons.inj hmiddle
      exact h front middle hchars

theorem ScriptPiece.guarded_text {quote : Char} (hquote : isQuote quote = true)
    {piece : ScriptPiece} (hfits : piece.Fits quote) : Guarded quote piece.text := by
  have hfree (c : Char) (hc : isQuote c = false) : quote ≠ c := by
    rintro rfl
    rw [hquote] at hc
    cases hc
  have hdigits {digits : List Char} (h : HexDigits digits) : quote ∉ digits := by
    intro hmem
    exact hfree quote (not_special_of_hexValue (h quote hmem)).1 rfl
  cases piece with
  | plain c => exact guarded_of_notMem fun hmem => hfits.1 (List.mem_singleton.mp hmem).symm
  | letter c =>
    intro front rest htext
    cases front with
    | nil => exact absurd (List.cons.inj htext).1.symm (hfree '\\' (by decide))
    | cons d front =>
      obtain ⟨rfl, htail⟩ := List.cons.inj htext
      cases front with
      | nil => rfl
      | cons e front =>
        have hone : [c] = e :: (front ++ quote :: rest) := htail
        exact absurd (List.cons.inj hone).2.symm (by simp)
  | byte digits | unit digits =>
    refine guarded_of_notMem ?_
    rintro (_ | ⟨_, _ | ⟨_, hmem⟩⟩)
    · exact hfree _ (by decide) rfl
    · exact hfree _ (by decide) rfl
    · exact hdigits hfits.1 hmem
  | codePoint digits =>
    refine guarded_of_notMem fun hmem => ?_
    have hmem' : quote ∈ ['\\', 'u', '{'] ++ (digits ++ ['}']) := hmem
    rcases List.mem_append.mp hmem' with hmem | hmem
    · simp only [List.mem_cons, List.not_mem_nil, or_false] at hmem
      rcases hmem with hc | hc | hc
      all_goals exact hfree _ (by decide) hc
    · rcases List.mem_append.mp hmem with hmem | hmem
      · exact hdigits hfits.1 hmem
      · exact hfree '}' (by decide) (List.mem_singleton.mp hmem)
  | lineEnd terminator =>
    refine guarded_of_notMem ?_
    rintro (_ | ⟨_, hmem⟩)
    · exact hfree _ (by decide) rfl
    · rcases hfits with ⟨c, hc, rfl⟩ | rfl
      · rw [← List.mem_singleton.mp hmem] at hc
        rcases ExprParser.isQuote_cases hquote with rfl | rfl
        all_goals exact absurd hc (by decide)
      · have hmem' : quote ∈ ['\r', '\n'] := hmem
        simp only [List.mem_cons, List.not_mem_nil, or_false] at hmem'
        rcases hmem' with hc | hc
        all_goals exact hfree _ (by decide) hc

theorem ScriptLiteral.guarded_body (literal : ScriptLiteral) : Guarded literal.quote literal.body := by
  have hpieces : ∀ pieces : List ScriptPiece, (∀ piece ∈ pieces, piece.Fits literal.quote) →
      Guarded literal.quote (pieces.flatMap ScriptPiece.text) := by
    intro pieces hfits
    induction pieces with
    | nil => exact guarded_of_notMem List.not_mem_nil
    | cons piece pieces ih =>
      rw [List.flatMap_cons]
      exact (ScriptPiece.guarded_text literal.isQuote (hfits piece List.mem_cons_self)).append
        (ih fun piece hpiece => hfits piece (List.mem_cons_of_mem _ hpiece))
  exact hpieces literal.pieces literal.fits

/-! ## Parts against comparisons -/

section Comparison

variable {parameter : List Char} (named : IsParameter parameter)

theorem isSpace_equality (equal : Bool) : ∃ c tail, equalityText equal = c :: tail
    ∧ isSpace c = false := by
  cases equal
  all_goals exact ⟨_, _, rfl, by decide⟩

include named

/-- The white space before the parameter is what stands before it. -/
theorem parameter_cancel {before outer rest tail : List Char} (hbefore : Spaces before)
    (houter : Spaces outer)
    (h : before ++ (parameter ++ rest) = outer ++ (parameter ++ tail)) : rest = tail := by
  obtain ⟨c, name, rfl⟩ := List.exists_cons_of_ne_nil named.1
  have hc := isSpace_of_isParameterChar (named.2 c List.mem_cons_self)
  exact List.append_cancel_left (spaces_cancel hbefore houter hc hc h).2.2

/-- So does the white space before the operator. -/
theorem operator_cancel {before outer between gap rest tail : List Char} {equal other : Bool}
    (hbefore : Spaces before) (houter : Spaces outer) (hbetween : Spaces between)
    (hgap : Spaces gap)
    (h : before ++ (parameter ++ (between ++ (equalityText equal ++ rest)))
      = outer ++ (parameter ++ (gap ++ (equalityText other ++ tail)))) :
    equal = other ∧ rest = tail := by
  have hrest := parameter_cancel named hbefore houter h
  obtain ⟨c, more, hequal, hc⟩ := isSpace_equality equal
  obtain ⟨d, others, hother, hd⟩ := isSpace_equality other
  rw [hequal, hother] at hrest
  obtain ⟨-, rfl, hmore⟩ := spaces_cancel hbetween hgap hc hd hrest
  have hoperators : equalityText equal ++ rest = equalityText other ++ tail := by
    rw [hequal, hother]
    exact congrArg _ hmore
  obtain ⟨hoperator, htail⟩ := List.append_inj hoperators (equalityText_length _ _)
  exact ⟨equalityText_inj hoperator, htail⟩

end Comparison

end Pdfv
