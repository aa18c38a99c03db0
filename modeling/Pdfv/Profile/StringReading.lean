import Pdfv.Profile.ExprPrinting
/-!
# Readings of a string literal

The productions either hand a string literal on as it was read or make another expression of it
(`HandsOn`). So what is imported as a string literal is one literal, up to its closing quotation mark
(`parseImportedExpr_string`).
-/

namespace Pdfv

open ExprParser

/-! ## Steps that build other expressions -/

namespace ExprParser

variable {π : Type} {α β : Type}

/-- Every result satisfies `Q`. -/
def Yields (Q : α → Prop) (x : ExprParser π α) : Prop :=
  ∀ rest a rest', x rest = .ok (a, rest') → Q a

theorem Yields.pure {Q : α → Prop} {a : α} (h : Q a) : Yields Q (pure a : ExprParser π α) := by
  intro rest b rest' hok
  cases hok
  exact h

theorem Yields.lift {Q : α → Prop} {x : Except (ParseStop π) α} (h : ∀ a, x = .ok a → Q a) :
    Yields Q (lift x) := by
  intro rest b rest' hok
  cases x with
  | error e => cases hok
  | ok value =>
    cases hok
    exact h _ rfl

theorem Yields.bind {Q : β → Prop} {x : ExprParser π α} {g : α → ExprParser π β}
    (h : ∀ a, Yields Q (g a)) : Yields Q (x >>= g) := by
  intro rest b rest' hok
  cases hx : x rest with
  | error e =>
    rw [bind_error hx] at hok
    cases hok
  | ok r =>
    rw [bind_ok (show x rest = .ok (r.1, r.2) from hx)] at hok
    exact h r.1 r.2 b rest' hok

theorem Yields.ite {Q : α → Prop} {p : Prop} [Decidable p] {x y : ExprParser π α}
    (hx : Yields Q x) (hy : Yields Q y) : Yields Q (if p then x else y) := by
  split
  · exact hx
  · exact hy

/-- Not a string literal. -/
def NotString (expr : RuleExpr) : Prop :=
  ∀ text, expr ≠ .string text

theorem methodCallExpr_notString {receiver expr : RuleExpr} {method : String} {args : List RuleExpr}
    (h : (methodCallExpr receiver method args : Except (ParseStop π) _) = .ok expr) :
    NotString expr := by
  unfold methodCallExpr receiverFirstCall at h
  intro text
  rintro rfl
  repeat' split at h
  all_goals cases h

theorem appendPropertyMember_notString {expr expr' : RuleExpr} {member : String}
    (h : (appendPropertyMember expr member : Except (ParseStop π) _) = .ok expr') :
    NotString expr' := by
  cases expr with
  | property path =>
    show NotString _
    unfold appendPropertyMember at h
    cases hname : (propertyNameFromSource member : Except (ParseStop π) _) with
    | error e =>
      rw [hname] at h
      cases h
    | ok name =>
      rw [hname] at h
      cases h
      intro text htext
      cases htext
  | _ => cases h

section Postfix

variable {reader : LiteralReader π} {conditional : ExprParser π RuleExpr}

theorem parseMethodCall_notString (receiver : RuleExpr) (method : String) :
    Yields NotString (parseMethodCall reader conditional receiver method) := by
  refine Yields.ite ?_ (Yields.ite ?_ ?_)
  · refine Yields.bind fun content => Yields.bind fun predicate => Yields.bind fun call => ?_
    exact Yields.pure fun text htext => by cases htext
  · refine Yields.bind fun content => Yields.bind fun predicate => Yields.bind fun args => ?_
    exact Yields.pure fun text htext => by cases htext
  · refine Yields.bind fun args => ?_
    exact Yields.lift fun expr => methodCallExpr_notString

/-- A step of a loop that makes an expression other than a string literal of what it is given. -/
def Builds (step : RuleExpr → ExprParser π (Option RuleExpr)) : Prop :=
  ∀ expr, Yields (fun next => ∀ expr', next = some expr' → NotString expr') (step expr)

theorem postfixStep_builds : Builds (postfixStep reader conditional) := by
  intro expr
  refine Yields.bind fun dot => Yields.ite ?_ ?_
  · refine Yields.bind fun member => Yields.bind fun opened => Yields.ite ?_ (Yields.ite ?_ ?_)
    · intro rest next rest' hok expr' hnext
      rw [bind_pure_eq] at hok
      cases hcall : parseMethodCall reader conditional expr member rest with
      | error e =>
        rw [hcall] at hok
        cases hok
      | ok r =>
        rw [hcall] at hok
        cases hok
        cases hnext
        exact parseMethodCall_notString expr member rest r.1 r.2 hcall
    · refine Yields.pure fun expr' hnext text htext => ?_
      cases hnext
      cases htext
    · intro rest next rest' hok expr' hnext
      rw [bind_pure_eq] at hok
      cases hmember : (appendPropertyMember expr member : Except (ParseStop π) _) with
      | error e =>
        rw [hmember] at hok
        cases hok
      | ok property =>
        rw [hmember] at hok
        cases hok
        cases hnext
        exact appendPropertyMember_notString hmember
  · exact Yields.pure fun expr' hnext => by cases hnext

theorem levelStep_builds (k : Nat) : Builds (levelStep reader conditional k) := by
  intro expr rest next rest' hok expr' hnext text
  subst hnext
  unfold levelStep at hok
  split at hok
  · rename_i op after hop
    cases hright : level reader conditional k after with
    | error e =>
      rw [hright] at hok
      cases hok
    | ok r =>
      rw [hright] at hok
      cases hok
      intro htext
      cases htext
  · cases hok

end Postfix

/-- A loop whose steps build other expressions ends with a string literal only at once. -/
theorem repeatWhile_string {step : RuleExpr → ExprParser π (Option RuleExpr)} (hstep : Builds step)
    {fuel : Nat} {expr : RuleExpr} {rest rest' : List Char} {text : BoundedText}
    (h : repeatWhile step fuel expr rest = .ok (.string text, rest')) :
    (expr = .string text ∧ step expr rest = .ok (none, rest')) := by
  induction fuel generalizing expr rest with
  | zero => cases h
  | succ fuel ih =>
    unfold repeatWhile at h
    cases hnext : step expr rest with
    | error e =>
      rw [bind_error hnext] at h
      cases h
    | ok r =>
      obtain ⟨next, rest''⟩ := r
      rw [bind_ok hnext] at h
      cases next with
      | none =>
        cases h
        exact ⟨rfl, rfl⟩
      | some expr' =>
        obtain ⟨hexpr, -⟩ := ih h
        exact absurd hexpr (hstep expr rest _ _ hnext expr' rfl text)

/-! ## Handing a literal on -/

/-- A literal that is handed on, up to white space, or made into something else. -/
def HandsOn (literal r : Except (ParseStop π) (RuleExpr × List Char)) : Prop :=
  ∀ text rest', r = .ok (.string text, rest') →
    ∃ rest, literal = .ok (.string text, rest) ∧ trimmed rest' = trimmed rest

section HandsOn

variable {reader : LiteralReader π} {conditional : ExprParser π RuleExpr}
  {literal : Except (ParseStop π) (RuleExpr × List Char)} {input : List Char}

theorem levelStep_none {k : Nat} {expr : RuleExpr} {rest rest' : List Char}
    (h : levelStep reader conditional k expr rest = .ok (none, rest')) : rest' = trimmed rest := by
  unfold levelStep at h
  split at h
  · rename_i op after hop
    cases hright : level reader conditional k after with
    | error e =>
      rw [hright] at h
      cases h
    | ok r =>
      rw [hright] at h
      cases h
  · cases h
    rfl

theorem levelTail_string {k : Nat} {expr : RuleExpr} {rest rest' : List Char} {text : BoundedText}
    (h : levelTail reader conditional k expr rest = .ok (.string text, rest')) :
    expr = .string text ∧ rest' = trimmed rest := by
  unfold levelTail at h
  split at h
  · cases hnext : levelStep reader conditional k expr rest with
    | error e =>
      rw [bind_error hnext] at h
      cases h
    | ok r =>
      obtain ⟨next, rest''⟩ := r
      rw [bind_ok hnext] at h
      cases next with
      | none =>
        cases h
        exact ⟨rfl, levelStep_none hnext⟩
      | some expr' =>
        cases h
        exact absurd rfl (levelStep_builds k expr rest _ _ hnext _ rfl text)
  · obtain ⟨hexpr, hnone⟩ := repeatWhile_string (levelStep_builds k) h
    exact ⟨hexpr, levelStep_none hnone⟩

theorem HandsOn.bind {x : ExprParser π RuleExpr} {g : RuleExpr → ExprParser π RuleExpr}
    (h : HandsOn literal (x input))
    (hg : ∀ expr rest text rest', g expr rest = .ok (.string text, rest') →
      expr = .string text ∧ trimmed rest' = trimmed rest) : HandsOn literal ((x >>= g) input) := by
  intro text rest' hok
  cases hx : x input with
  | error e =>
    rw [bind_error hx] at hok
    cases hok
  | ok r =>
    obtain ⟨expr, rest⟩ := r
    rw [bind_ok hx] at hok
    obtain ⟨rfl, htrimmed⟩ := hg expr rest text rest' hok
    obtain ⟨rest₀, hliteral, hrest⟩ := h text rest hx
    exact ⟨rest₀, hliteral, htrimmed.trans hrest⟩

theorem HandsOn.level (h : HandsOn literal (level reader conditional 0 input)) {k : Nat}
    (hk : k ≤ 7) : HandsOn literal (ExprParser.level reader conditional k input) := by
  induction k with
  | zero => exact h
  | succ k ih =>
    rw [level_succ reader conditional (by omega)]
    apply (ih (by omega)).bind
    intro expr rest text rest' hok
    obtain ⟨hexpr, rfl⟩ := levelTail_string hok
    exact ⟨hexpr, trimmed_trimmed rest⟩

theorem postfixStep_none {expr : RuleExpr} {rest rest' : List Char}
    (h : postfixStep reader conditional expr rest = .ok (none, rest')) : rest' = trimmed rest := by
  unfold postfixStep at h
  by_cases hdot : ['.'] <+: trimmed rest
  · obtain ⟨after, hafter⟩ := hdot
    rw [bind_ok (consume_hit hafter.symm), if_pos rfl] at h
    -- after a point there is a next expression or an error
    have hsome : Yields (fun next => next ≠ none) (do
        let member ← parseIdentifier
        if ← consume ['('] then
          return some (← parseMethodCall reader conditional expr member)
        else if member = "length" then return some (RuleExpr.call .size [expr])
        else return some (← lift (appendPropertyMember expr member)) : ExprParser π _) := by
      refine Yields.bind fun member => Yields.bind fun opened => Yields.ite ?_ (Yields.ite ?_ ?_)
      · exact Yields.bind fun call => Yields.pure (by simp)
      · exact Yields.pure (by simp)
      · exact Yields.bind fun property => Yields.pure (by simp)
    exact absurd rfl (hsome after none rest' h)
  · rw [bind_ok (consume_miss hdot)] at h
    cases h
    rfl

theorem HandsOn.postfix (h : HandsOn literal (parsePrimary reader conditional input)) :
    HandsOn literal (parsePostfix reader conditional input) := by
  apply h.bind
  intro expr rest text rest' hok
  obtain ⟨hexpr, hnone⟩ := repeatWhile_string postfixStep_builds hok
  rw [postfixStep_none hnone]
  exact ⟨hexpr, trimmed_trimmed rest⟩

theorem HandsOn.whole {fuel : Nat}
    (h : HandsOn literal (parseOr reader (parseConditional reader fuel) input)) :
    HandsOn literal (parseConditional reader (fuel + 1) input) := by
  apply h.bind
  intro expr rest text rest' hok
  by_cases hquestion : ['?'] <+: trimmed rest
  · obtain ⟨after, hafter⟩ := hquestion
    rw [bind_ok (consume_hit hafter.symm), if_pos rfl] at hok
    have hnot : Yields NotString (do
        let whenTrue ← parseConditional reader fuel
        expect [':'] "missing ternary separator"
        let whenFalse ← parseConditional reader fuel
        return .conditional expr whenTrue whenFalse : ExprParser π _) := by
      refine Yields.bind fun whenTrue => Yields.bind fun _ => Yields.bind fun whenFalse => ?_
      exact Yields.pure fun text htext => by cases htext
    exact absurd rfl (hnot after _ rest' hok text)
  · rw [bind_ok (consume_miss hquestion)] at hok
    cases hok
    exact ⟨rfl, trimmed_trimmed rest⟩

theorem handsOn_quote {quote : Char} (h : isQuote quote = true) (tail : List Char) (fuel : Nat) :
    HandsOn (parseString reader quote tail) (parseConditional reader (fuel + 1) (quote :: tail)) := by
  have hnot : quote ≠ '!' := by
    rintro rfl
    exact absurd h (by decide)
  have hprimary : HandsOn (parseString reader quote tail)
      (parsePrimary reader (parseConditional reader fuel) (quote :: tail)) := by
    rw [parsePrimary_quote h]
    exact fun text rest hok => ⟨rest, hok, rfl⟩
  have hunary : HandsOn (parseString reader quote tail)
      (ExprParser.level reader (parseConditional reader fuel) 0 (quote :: tail)) := by
    show HandsOn _ (parseUnary reader _ ((quote :: tail).length + 1) (quote :: tail))
    rw [parseUnary_plain (trimmed_cons (isBlank_of_isQuote h) tail) hnot]
    exact hprimary.postfix
  exact (hunary.level (Nat.le_refl 7)).whole

end HandsOn

/-! ## The literal that is read -/

theorem scanBytes_string_ok {quote : Char} {unterminated : String} {text raw rest : List Char}
    (h : scanBytes (stringStep quote) unterminated () text = .ok (raw, rest)) :
    text = raw ++ quote :: rest ∧ ∀ c ∈ raw, c.utf8Size = 1 ∧ c ≠ quote := by
  induction text generalizing raw with
  | nil => cases h
  | cons c text ih =>
    unfold scanBytes at h
    by_cases hquote : c = quote
    · rw [show stringStep quote () c = none from if_pos hquote] at h
      cases h
      exact ⟨by rw [hquote]; rfl, fun c hc => absurd hc List.not_mem_nil⟩
    · rw [show stringStep quote () c = some () from if_neg hquote] at h
      by_cases hsize : c.utf8Size = 1
      · dsimp only at h
        rw [if_pos hsize] at h
        cases hscan : scanBytes (stringStep quote) unterminated () text with
        | error e =>
          rw [hscan] at h
          cases h
        | ok r =>
          rw [hscan] at h
          cases h
          obtain ⟨htext, hraw⟩ := ih hscan
          refine ⟨by rw [htext]; rfl, ?_⟩
          intro d hd
          rcases List.mem_cons.mp hd with rfl | hd
          · exact ⟨hsize, hquote⟩
          · exact hraw d hd
      · dsimp only at h
        rw [if_neg hsize] at h
        cases h

/-- A string literal is read up to the next quotation mark of its kind, and without decoding. -/
theorem parseString_ok {quote : Char} {tail rest : List Char} {text : BoundedText}
    (h : parseString byteReader quote tail = .ok (.string text, rest)) :
    ∃ raw, tail = raw ++ quote :: rest ∧ (∀ c ∈ raw, c.utf8Size = 1)
      ∧ text = ⟨String.ofList raw⟩ ∧ (utf8 text.text).length ≤ maxProfileStringBytes := by
  unfold parseString at h
  cases hscan : scanBytes (stringStep quote) "unterminated string literal" () tail with
  | error e =>
    rw [bind_error (show scan byteReader _ _ _ tail = _ from hscan)] at h
    cases h
  | ok r =>
    obtain ⟨raw, rest'⟩ := r
    rw [bind_ok (show scan byteReader _ _ _ tail = _ from hscan)] at h
    obtain ⟨htail, hraw⟩ := scanBytes_string_ok hscan
    unfold boundedLiteral at h
    cases htext : BoundedText.new (String.ofList raw) maxProfileStringBytes with
    | error e =>
      rw [htext] at h
      cases h
    | ok text' =>
      rw [htext] at h
      cases h
      obtain ⟨rfl, hlimit⟩ := BoundedText.new_eq_ok htext
      exact ⟨raw, htail, fun c hc => (hraw c hc).1, rfl, hlimit⟩

theorem trimmed_append_quote {quote : Char} (h : isQuote quote = true) (rest : List Char) :
    trimmed (rest ++ [quote]) ≠ [] := by
  intro hnil
  have hblank := List.dropWhile_eq_nil_iff.mp hnil quote (by simp)
  rw [isBlank_of_isQuote h] at hblank
  cases hblank

/-- What is imported as a string literal is the text between the quotation marks. -/
theorem parseImportedExpr_string {quote : Char} (hquote : isQuote quote = true) {body : List Char}
    {text : BoundedText}
    (h : parseImportedExpr (String.ofList (quote :: body ++ [quote])) = .ok (.string text)) :
    text = ⟨String.ofList body⟩ ∧ (∀ c ∈ body, c.utf8Size = 1)
      ∧ (utf8 text.text).length ≤ maxProfileStringBytes := by
  rw [parseImportedExpr_eq] at h
  have hhands := @handsOn_quote _ byteReader quote hquote (body ++ [quote])
    (quote :: body ++ [quote]).length
  cases hresult : parseConditional byteReader ((quote :: body ++ [quote]).length + 1)
      (quote :: body ++ [quote]) with
  | error e =>
    rw [hresult] at h
    cases h
  | ok r =>
    obtain ⟨expr, rest'⟩ := r
    rw [hresult, Fallible.ok_bind] at h
    obtain ⟨rfl, hrest'⟩ : expr = .string text ∧ trimmed rest' = [] := by
      split at h
      · rename_i hunsupported
        cases h
        cases hunsupported
      · split at h
        · rename_i hempty
          cases h
          exact ⟨rfl, List.isEmpty_iff.mp hempty⟩
        · cases h
    obtain ⟨rest, hstring, hrest⟩ := hhands text rest' hresult
    obtain ⟨raw, htail, hraw, htext, hlimit⟩ := parseString_ok hstring
    rw [hrest'] at hrest
    obtain ⟨rfl, rfl⟩ : rest = [] ∧ raw = body := by
      rcases List.eq_nil_or_concat' rest with rfl | ⟨init, last, rfl⟩
      · exact ⟨rfl, (List.append_cancel_right htail).symm⟩
      · have hsplit : body ++ [quote] = (raw ++ quote :: init) ++ [last] := by
          rw [htail, List.append_assoc]
          rfl
        have hlast : [quote] = [last] := (List.append_inj' hsplit rfl).2
        rw [← hlast] at hrest
        exact absurd hrest.symm (trimmed_append_quote hquote init)
    exact ⟨htext, hraw, hlimit⟩

end ExprParser

end Pdfv
