import Pdfv.Profile.ExprLevels
import Pdfv.Profile.ExprPanics
/-!
# Operands of expressions

What each kind of operand is read as (`parsePrimary_quote`, `parseNumber_digits` and others), and how
the reading of a primary is handed on by `parse_postfix`, `parse_unary` and `parse_conditional`, as
long as nothing stands next that goes on with it.
-/

namespace Pdfv

namespace ExprParser

variable {π : Type}

/-- The words that stand for a literal. -/
def literalWords : List (List Char) :=
  [['t', 'r', 'u', 'e'], ['f', 'a', 'l', 's', 'e'], ['n', 'u', 'l', 'l']]

/-! ## Primaries -/

/-- What may follow an operand: nothing that would go on with it. -/
def OperandEnd (rest : List Char) : Prop :=
  ∀ c after, trimmed rest = c :: after → isNameChar c = false ∧ c ≠ '.' ∧ c ≠ '('

theorem isNameChar_of_isBlank {c : Char} (h : isBlank c = true) : isNameChar c = false := by
  rcases isBlank_cases h with rfl | rfl | rfl | rfl | rfl
  all_goals rfl

theorem OperandEnd.head {c : Char} {after : List Char} (h : OperandEnd (c :: after)) :
    isNameChar c = false ∧ c ≠ '.' := by
  cases hblank : isBlank c with
  | true =>
    refine ⟨isNameChar_of_isBlank hblank, ?_⟩
    rintro rfl
    exact absurd hblank (by decide)
  | false =>
    have hc := h c after (trimmed_cons hblank after)
    exact ⟨hc.1, hc.2.1⟩

theorem consumeWord_hit (word after : List Char) :
    (consumeWord word : ExprParser π Bool) (word ++ after) = .ok (true, after) := by
  show (if word.isPrefixOf (word ++ after) = true then _ else _ : ExprParser π Bool) _ = _
  rw [if_pos (List.isPrefixOf_iff_prefix.mpr (List.prefix_append _ _))]
  show Except.ok (true, (word ++ after).drop word.length) = _
  rw [List.drop_left]

theorem consumeWord_miss {word rest : List Char} (h : ¬ word <+: rest) :
    (consumeWord word : ExprParser π Bool) rest = .ok (false, rest) := by
  show (if word.isPrefixOf rest = true then _ else _ : ExprParser π Bool) _ = _
  rw [if_neg (by rwa [List.isPrefixOf_iff_prefix])]
  rfl

theorem not_prefix_cons {c d : Char} {token after : List Char} (h : d ≠ c) :
    ¬ (d :: token) <+: c :: after := by
  intro hstart
  exact h (List.cons_prefix_cons.mp hstart).1

section Primary

variable {reader : LiteralReader π} {conditional : ExprParser π RuleExpr}

theorem parsePrimary_open (text : List Char) : parsePrimary reader conditional ('(' :: text) = (do
    let expr ← conditional
    expect [')'] "missing closing parenthesis"
    return expr) text :=
  bind_ok (consume_hit rfl)

/-- The productions of a literal or a path, by its first character. -/
theorem parsePrimary_cons {c : Char} (hblank : isBlank c = false) (hopen : c ≠ '(')
    (hslash : c ≠ '/') (after : List Char) :
    parsePrimary reader conditional (c :: after) = (do
      if isQuote c then do
        set after
        parseString reader c
      else if ← consumeWord ['t', 'r', 'u', 'e'] then return .bool true
      else if ← consumeWord ['f', 'a', 'l', 's', 'e'] then return .bool false
      else if ← consumeWord ['n', 'u', 'l', 'l'] then return .null
      else if c.isDigit || c = '-' then parseNumber
      else parseProperty conditional : ExprParser π RuleExpr) (c :: after) := by
  have htrimmed := trimmed_cons hblank after
  have hconsume : (consume ['('] : ExprParser π Bool) (c :: after) = .ok (false, c :: after) := by
    rw [consume_miss, htrimmed]
    rw [htrimmed]
    exact not_prefix_cons hopen.symm
  unfold parsePrimary
  rw [bind_ok hconsume]
  show ((consumeWord ['/'] : ExprParser π Bool) >>= _) (c :: after) = _
  rw [bind_ok (consumeWord_miss (not_prefix_cons hslash.symm))]
  rfl

theorem isBlank_of_isQuote {c : Char} (h : isQuote c = true) : isBlank c = false := by
  cases hblank : isBlank c with
  | false => rfl
  | true =>
    rcases isBlank_cases hblank with rfl | rfl | rfl | rfl | rfl
    all_goals exact absurd h (by decide)

theorem isQuote_cases {c : Char} (h : isQuote c = true) : c = '"' ∨ c = '\'' := by
  simp only [isQuote, Bool.or_eq_true, decide_eq_true_eq] at h
  rcases h with h | h
  · exact .inl (Char.toNat_inj.mp h)
  · exact .inr (Char.toNat_inj.mp h)

theorem parsePrimary_quote {quote : Char} (h : isQuote quote = true) (after : List Char) :
    parsePrimary reader conditional (quote :: after) = parseString reader quote after := by
  have hother : quote ≠ '(' ∧ quote ≠ '/' := by
    rcases isQuote_cases h with rfl | rfl
    all_goals decide
  rw [parsePrimary_cons (isBlank_of_isQuote h) hother.1 hother.2, if_pos h]
  rfl

theorem parsePrimary_true (after : List Char) :
    parsePrimary reader conditional ('t' :: 'r' :: 'u' :: 'e' :: after)
      = .ok (.bool true, after) := by
  rw [parsePrimary_cons (by decide) (by decide) (by decide), if_neg (by decide)]
  exact bind_ok (consumeWord_hit ['t', 'r', 'u', 'e'] after)

theorem parsePrimary_false (after : List Char) :
    parsePrimary reader conditional ('f' :: 'a' :: 'l' :: 's' :: 'e' :: after)
      = .ok (.bool false, after) := by
  rw [parsePrimary_cons (by decide) (by decide) (by decide), if_neg (by decide)]
  rw [bind_ok (consumeWord_miss (not_prefix_cons (by decide)))]
  exact bind_ok (consumeWord_hit ['f', 'a', 'l', 's', 'e'] after)

theorem parsePrimary_null (after : List Char) :
    parsePrimary reader conditional ('n' :: 'u' :: 'l' :: 'l' :: after) = .ok (.null, after) := by
  rw [parsePrimary_cons (by decide) (by decide) (by decide), if_neg (by decide)]
  rw [bind_ok (consumeWord_miss (not_prefix_cons (by decide)))]
  show ((consumeWord _ : ExprParser π Bool) >>= _) _ = _
  rw [bind_ok (consumeWord_miss (not_prefix_cons (by decide)))]
  exact bind_ok (consumeWord_hit ['n', 'u', 'l', 'l'] after)

/-- No word of a literal stands at the start. -/
def Wordless (text : List Char) : Prop :=
  ∀ word ∈ literalWords, ¬ word <+: text

theorem parsePrimary_wordless {c : Char} {after : List Char} (hc : isNameChar c = true)
    (h : Wordless (c :: after)) : parsePrimary reader conditional (c :: after)
      = (if c.isDigit || c = '-' then parseNumber else parseProperty conditional) (c :: after) := by
  have hblank : isBlank c = false := (closed_of_isNameChar hc after c after rfl).1
  have hne (d : Char) (hd : isNameChar d = false) : c ≠ d := by
    rintro rfl
    rw [hc] at hd
    cases hd
  have hquote : isQuote c = false := by
    cases hq : isQuote c with
    | false => rfl
    | true =>
      rcases isQuote_cases hq with rfl | rfl
      all_goals exact absurd hc (by decide)
  rw [parsePrimary_cons hblank (hne '(' rfl) (hne '/' rfl), hquote]
  show ((consumeWord _ : ExprParser π Bool) >>= _) _ = _
  rw [bind_ok (consumeWord_miss (h _ (by decide)))]
  show ((consumeWord _ : ExprParser π Bool) >>= _) _ = _
  rw [bind_ok (consumeWord_miss (h _ (by decide)))]
  show ((consumeWord _ : ExprParser π Bool) >>= _) _ = _
  rw [bind_ok (consumeWord_miss (h _ (by decide)))]
  rfl

end Primary

/-! ## Numbers -/

theorem foldl_digits (digits : List Char) (hdigits : ∀ c ∈ digits, c.isDigit = true) (n : Nat) :
    digits.foldl (fun (m : Int) c => m * 10 + (c.toNat - 48)) n
      = (Nat.ofDigitChars 10 digits n : Nat) := by
  induction digits generalizing n with
  | nil => rfl
  | cons c digits ih =>
    have hc : 48 ≤ c.toNat := by
      have hdigit := hdigits c List.mem_cons_self
      simp only [Char.isDigit, Bool.and_eq_true, decide_eq_true_eq] at hdigit
      exact UInt32.le_iff_toNat_le.mp hdigit.1
    have hstep : (n : Int) * 10 + (c.toNat - 48) = ((10 * n + (c.toNat - '0'.toNat) : Nat) : Int) := by
      show (n : Int) * 10 + (c.toNat - 48) = ((10 * n + (c.toNat - 48) : Nat) : Int)
      omega
    rw [List.foldl_cons, Nat.ofDigitChars_cons, hstep]
    exact ih (fun c hc => hdigits c (List.mem_cons_of_mem _ hc)) _

theorem takeWhile_append_stop {p : Char → Bool} {text rest : List Char}
    (htext : ∀ c ∈ text, p c = true) (hrest : ∀ c after, rest = c :: after → p c = false) :
    (text ++ rest).takeWhile p = text := by
  rw [List.takeWhile_append_of_pos htext]
  cases rest with
  | nil => simp
  | cons c after => simp [hrest c after rfl]

theorem parseExponent_none {rest : List Char} (h : OperandEnd rest) :
    (parseExponent : ExprParser π Int) rest = .ok (0, rest) := by
  cases rest with
  | nil => rfl
  | cons c after =>
    have hc : ¬ (c = 'e' || c = 'E') = true := by
      intro hexp
      have hname := h.head.1
      simp only [Bool.or_eq_true, decide_eq_true_eq] at hexp
      rcases hexp with rfl | rfl
      all_goals exact absurd hname (by decide)
    unfold parseExponent
    exact if_neg hc

theorem parseNumberText_digits (n : Nat) :
    parseNumberText false (Nat.toDigits 10 n) 0 = some (Double.ofInt n) := by
  have hdigits : ∀ c ∈ Nat.toDigits 10 n, c.isDigit = true := fun c hc =>
    Nat.isDigit_of_mem_toDigits (by decide) (by decide) hc
  have htake : (Nat.toDigits 10 n).takeWhile Char.isDigit = Nat.toDigits 10 n :=
    List.takeWhile_eq_self_iff.mpr hdigits
  have hvalue : (Nat.toDigits 10 n).foldl (fun (m : Int) c => m * 10 + (c.toNat - 48)) 0 = n := by
    have h := foldl_digits (Nat.toDigits 10 n) hdigits 0
    rw [Nat.ofDigitChars_ten_toDigits] at h
    exact h
  have hne : Nat.toDigits 10 n ≠ [] := Nat.toDigits_ne_nil
  unfold parseNumberText
  rw [htake]
  have hdrop : (Nat.toDigits 10 n).drop ((Nat.toDigits 10 n).length + 1) = [] :=
    List.drop_eq_nil_of_le (by omega)
  simp only [hdrop, List.append_nil]
  rw [if_neg (by simp [hne]), hvalue]
  simp [Double.ofInt]

theorem parseNumber_unsigned {text : List Char} (h : text.head? ≠ some '-') :
    (parseNumber : ExprParser π RuleExpr) text
      = numberTail false (text.takeWhile fun c => c.isDigit || c = '.')
        (text.drop (text.takeWhile fun c => c.isDigit || c = '.').length) := by
  show numberTail (decide (text.head? = some '-')) (List.takeWhile _ (ite _ _ _))
    (List.drop _ (ite _ _ _)) = _
  rw [if_neg h, decide_eq_false h]

theorem parseNumber_digits (n : Nat) {rest : List Char} (h : OperandEnd rest) :
    (parseNumber : ExprParser π RuleExpr) (Nat.toDigits 10 n ++ rest)
      = .ok (.number (Double.ofInt n), rest) := by
  have hdigits : ∀ c ∈ Nat.toDigits 10 n, c.isDigit = true := fun c hc =>
    Nat.isDigit_of_mem_toDigits (by decide) (by decide) hc
  have hhead : (Nat.toDigits 10 n ++ rest).head? ≠ some '-' := by
    have hne : Nat.toDigits 10 n ≠ [] := Nat.toDigits_ne_nil
    obtain ⟨c, tail, hcons⟩ := List.exists_cons_of_ne_nil hne
    have hc := hdigits c (by rw [hcons]; exact List.mem_cons_self)
    rw [hcons]
    intro heq
    cases heq
    exact absurd hc (by decide)
  have hmantissa : (Nat.toDigits 10 n ++ rest).takeWhile (fun c => c.isDigit || c = '.')
      = Nat.toDigits 10 n := by
    apply takeWhile_append_stop
    · intro c hc
      rw [hdigits c hc, Bool.true_or]
    · rintro c after rfl
      have hc := h.head
      simp only [isNameChar, Char.isAlphanum, Bool.or_eq_false_iff] at hc
      simp [hc.1.1.2, hc.2]
  rw [parseNumber_unsigned hhead, hmantissa, List.drop_left]
  unfold numberTail
  rw [bind_ok (parseExponent_none h), parseNumberText_digits]
  rfl

/-! ## Strings -/

theorem scanBytes_string (quote : Char) {chars : List Char}
    (h : ∀ c ∈ chars, c.utf8Size = 1 ∧ c ≠ quote) (unterminated : String) (rest : List Char) :
    scanBytes (stringStep quote) unterminated () (chars ++ quote :: rest) = .ok (chars, rest) := by
  induction chars with
  | nil =>
    show scanBytes _ _ () (quote :: rest) = _
    unfold scanBytes stringStep
    rw [if_pos rfl]
  | cons c chars ih =>
    obtain ⟨hsize, hquote⟩ := h c List.mem_cons_self
    show scanBytes _ _ () (c :: (chars ++ quote :: rest)) = _
    unfold scanBytes
    rw [show stringStep quote () c = some () from if_neg hquote]
    show (if c.utf8Size = 1 then _ else _) = _
    rw [if_pos hsize, ih fun c hc => h c (List.mem_cons_of_mem _ hc)]
    rfl

theorem parseString_plain (quote : Char) {value : String}
    (h : ∀ c ∈ value.toList, c.utf8Size = 1 ∧ c ≠ quote) (rest : List Char) :
    Answers ((utf8 value).length ≤ maxProfileStringBytes) (.string ⟨value⟩) rest
      (parseString byteReader quote (value.toList ++ quote :: rest)) := by
  have hscan : (scan byteReader (stringStep quote) "unterminated string literal" ()
      : ExprParser SlicePanic _) (value.toList ++ quote :: rest) = .ok (value.toList, rest) :=
    scanBytes_string quote h _ rest
  unfold parseString
  rw [bind_ok hscan, String.ofList_toList]
  unfold boundedLiteral BoundedText.new
  by_cases hlimit : (utf8 value).length > maxProfileStringBytes
  · rw [if_pos hlimit]
    exact ⟨fun hle => absurd hle (by omega), fun _ => stuck_error _⟩
  · rw [if_neg hlimit]
    exact .good (by omega) rfl

/-- What may follow an expression that stands on its own. -/
def WholeEnd (rest : List Char) : Prop :=
  ∀ c after, trimmed rest = c :: after → c = ')' ∨ c = ',' ∨ c = ':'

theorem wholeEnd_cons {c : Char} (hc : c = ')' ∨ c = ',' ∨ c = ':') (after : List Char) :
    WholeEnd (c :: after) ∧ trimmed (c :: after) = c :: after := by
  have htrimmed : trimmed (c :: after) = c :: after := by
    rcases hc with rfl | rfl | rfl
    all_goals rfl
  refine ⟨?_, htrimmed⟩
  intro c' after' heq
  rw [htrimmed] at heq
  cases heq
  exact hc

/-- A token that no name starts with does not stand where a reading is stuck. -/
theorem not_prefix_of_isNameChar {c d : Char} (hc : isNameChar c = false) (hd : isNameChar d = true)
    (after : List Char) : ¬ [c] <+: trimmed (d :: after) := by
  rw [(closed_of_isNameChar hd after).trimmed]
  apply not_prefix_cons
  rintro rfl
  rw [hc] at hd
  cases hd

/-! ## From primaries to whole expressions -/

section Whole

variable {reader : LiteralReader π} {conditional : ExprParser π RuleExpr} {good : Prop}
  {expr : RuleExpr} {input rest : List Char}

theorem OperandEnd.trimmed (h : OperandEnd rest) : OperandEnd (ExprParser.trimmed rest) := by
  intro c after hc
  rw [trimmed_trimmed] at hc
  exact h c after hc

theorem OperandEnd.not_dot (h : OperandEnd rest) : ¬ ['.'] <+: ExprParser.trimmed rest := by
  rintro ⟨after, hafter⟩
  exact (h '.' after hafter.symm).2.1 rfl

theorem postfix_stop (h : ¬ ['.'] <+: trimmed rest) (fuel : Nat) (expr : RuleExpr) :
    repeatWhile (postfixStep reader conditional) (fuel + 1) expr rest
      = .ok (expr, trimmed rest) := by
  have hstep : postfixStep reader conditional expr rest = .ok (none, trimmed rest) := by
    unfold postfixStep
    rw [bind_ok (consume_miss h)]
    rfl
  unfold repeatWhile
  rw [bind_ok hstep]
  rfl

theorem parsePostfix_answers {rest' : List Char}
    (h : Answers good expr rest' (parsePrimary reader conditional input))
    (hrest : trimmed rest' = trimmed rest) (hend : OperandEnd rest) :
    Answers good expr (trimmed rest) (parsePostfix reader conditional input) := by
  refine ⟨fun hgood => ?_, fun hbad => ?_⟩
  · have hdot : ¬ ['.'] <+: trimmed rest' := by
      rw [hrest]
      exact hend.not_dot
    unfold parsePostfix chain
    rw [bind_ok (h.1 hgood), get_bind, postfix_stop hdot, hrest]
  · cases hprimary : parsePrimary reader conditional input with
    | error e =>
      unfold parsePostfix chain
      rw [bind_error hprimary]
      exact stuck_error e
    | ok r =>
      obtain ⟨expr', rest''⟩ := r
      obtain ⟨c, after, rfl, hc⟩ := h.2 hbad expr' rest'' hprimary
      unfold parsePostfix chain
      rw [bind_ok hprimary, get_bind, postfix_stop (not_prefix_of_isNameChar rfl hc after),
        (closed_of_isNameChar hc after).trimmed]
      intro expr'' rest hok
      cases hok
      exact ⟨c, after, rfl, hc⟩

theorem parseUnary_plain {c : Char} {after : List Char} (h : trimmed input = c :: after)
    (hc : c ≠ '!') (n : Nat) :
    parseUnary reader conditional (n + 1) input = parsePostfix reader conditional (c :: after) := by
  have hmiss : ¬ ['!'] <+: trimmed input := by
    rw [h]
    exact not_prefix_cons hc.symm
  unfold parseUnary
  rw [bind_ok (consume_miss hmiss), h]
  rfl

theorem parseUnary_not {after : List Char} (h : trimmed input = '!' :: after) (n : Nat) :
    parseUnary reader conditional (n + 1) input
      = (parseUnary reader conditional n after).map fun r => (.unary .not r.1, r.2) := by
  rw [parseUnary, bind_ok (consume_hit h), if_pos rfl]
  exact bind_pure_eq _ (RuleExpr.unary .not) after

/-- What may follow a condition. -/
def ConditionEnd (rest : List Char) : Prop :=
  ∀ c after, trimmed rest = c :: after → c = ')' ∨ c = ',' ∨ c = ':' ∨ c = '?'

theorem ConditionEnd.operandEnd (h : ConditionEnd rest) : OperandEnd rest := by
  intro c after hc
  rcases h c after hc with rfl | rfl | rfl | rfl
  all_goals decide

theorem ConditionEnd.closed (h : ConditionEnd rest) : Closed (ExprParser.trimmed rest) := by
  intro c after hc
  rcases h c after hc with rfl | rfl | rfl | rfl
  all_goals decide

theorem WholeEnd.conditionEnd (h : WholeEnd rest) : ConditionEnd rest := by
  intro c after hc
  rcases h c after hc with rfl | rfl | rfl
  · exact .inl rfl
  · exact .inr (.inl rfl)
  · exact .inr (.inr (.inl rfl))

/-- From the lowest level to the top one. -/
theorem parseOr_answers (hend : ConditionEnd rest)
    (h : Answers good expr (trimmed rest) (level reader conditional 0 input)) :
    Answers good expr (trimmed rest) (parseOr reader conditional input) :=
  level_climb (j := 7) (Nat.zero_le 7) (le_refl 7) h (trimmed_trimmed rest) fun i _ _ =>
    nextOperator_closed hend.closed i

theorem parseConditional_stuck {fuel : Nat}
    (h : Stuck (parseOr reader (parseConditional reader fuel) input)) :
    Stuck (parseConditional reader (fuel + 1) input) := by
  unfold parseConditional
  cases hcondition : parseOr reader (parseConditional reader fuel) input with
  | error e =>
    rw [bind_error hcondition]
    exact stuck_error e
  | ok r =>
    obtain ⟨expr, rest⟩ := r
    obtain ⟨c, after, rfl, hc⟩ := h expr rest hcondition
    rw [bind_ok hcondition, bind_ok (consume_miss (not_prefix_of_isNameChar rfl hc after)),
      (closed_of_isNameChar hc after).trimmed]
    intro expr' rest hok
    cases hok
    exact ⟨c, after, rfl, hc⟩

/-- An expression without a conditional on top of it. -/
theorem parseConditional_answers (hend : WholeEnd rest) {fuel : Nat}
    (h : Answers good expr (trimmed rest) (parseOr reader (parseConditional reader fuel) input)) :
    Answers good expr (trimmed rest) (parseConditional reader (fuel + 1) input) := by
  refine ⟨fun hgood => ?_, fun hbad => parseConditional_stuck (h.2 hbad)⟩
  have hmiss : ¬ ['?'] <+: trimmed (trimmed rest) := by
    rw [trimmed_trimmed]
    rintro ⟨after, hafter⟩
    rcases hend '?' after hafter.symm with h | h | h
    all_goals exact absurd h (by decide)
  unfold parseConditional
  rw [bind_ok (h.1 hgood), bind_ok (consume_miss hmiss), trimmed_trimmed]
  rfl

theorem parseConditional_join {fuel : Nat} {goodTrue goodFalse : Prop}
    {whenTrue whenFalse : RuleExpr} {rest₁ rest₂ : List Char}
    (hcondition : Answers good expr ('?' :: rest₁)
      (parseOr reader (parseConditional reader fuel) input))
    (htrue : Answers goodTrue whenTrue (':' :: rest₂) (parseConditional reader fuel rest₁))
    (hfalse : Answers goodFalse whenFalse rest (parseConditional reader fuel rest₂)) :
    Answers (good ∧ goodTrue ∧ goodFalse) (.conditional expr whenTrue whenFalse) rest
      (parseConditional reader (fuel + 1) input) := by
  by_cases hgood : good
  · have hquestion : trimmed ('?' :: rest₁) = ['?'] ++ rest₁ := rfl
    unfold parseConditional
    rw [bind_ok (hcondition.1 hgood), bind_ok (consume_hit hquestion), if_pos rfl]
    by_cases hgoodTrue : goodTrue
    · have hcolon : trimmed (':' :: rest₂) = [':'] ++ rest₂ := rfl
      rw [bind_ok (htrue.1 hgoodTrue), bind_ok (expect_hit hcolon _)]
      refine ⟨fun h => ?_, fun h => ?_⟩
      · rw [bind_ok (hfalse.1 h.2.2)]
        rfl
      · have hstuck := hfalse.2 fun hgoodFalse => h ⟨hgood, hgoodTrue, hgoodFalse⟩
        rw [bind_pure_eq]
        intro expr' rest' hok
        cases hresult : parseConditional reader fuel rest₂ with
        | error e =>
          rw [hresult] at hok
          cases hok
        | ok r =>
          rw [hresult] at hok
          cases hok
          exact hstuck r.1 r.2 hresult
    · refine ⟨fun h => absurd h.2.1 hgoodTrue, fun _ => ?_⟩
      cases hresult : parseConditional reader fuel rest₁ with
      | error e =>
        rw [bind_error hresult]
        exact stuck_error e
      | ok r =>
        obtain ⟨expr', rest'⟩ := r
        obtain ⟨c, after, rfl, hc⟩ := htrue.2 hgoodTrue expr' rest' hresult
        rw [bind_ok hresult, bind_error (expect_miss (not_prefix_of_isNameChar rfl hc after) _)]
        exact stuck_error _
  · exact ⟨fun h => absurd h.1 hgood, fun _ => parseConditional_stuck (hcondition.2 hgood)⟩

theorem parsePrimary_parenthesised {text : List Char}
    (h : Answers good expr (')' :: rest) (conditional text)) :
    Answers good expr rest (parsePrimary reader conditional ('(' :: text)) := by
  rw [parsePrimary_open]
  refine ⟨fun hgood => ?_, fun hbad => ?_⟩
  · have hclose : trimmed (')' :: rest) = [')'] ++ rest := rfl
    rw [bind_ok (h.1 hgood), bind_ok (expect_hit hclose _)]
    rfl
  · cases hresult : conditional text with
    | error e =>
      rw [bind_error hresult]
      exact stuck_error e
    | ok r =>
      obtain ⟨expr', rest'⟩ := r
      obtain ⟨c, after, rfl, hc⟩ := h.2 hbad expr' rest' hresult
      rw [bind_ok hresult, bind_error (expect_miss (not_prefix_of_isNameChar rfl hc after) _)]
      exact stuck_error _

end Whole

end ExprParser

end Pdfv
