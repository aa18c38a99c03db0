import Mathlib.Tactic.IntervalCases
import Pdfv.Profile.ExprOperands
/-!
# Printed expressions

Expressions written in infix form with every compound operand in parentheses, and with white space
anywhere between the tokens (`InfixText`). The import reads such a text as the expression it was
written from, except where a property path starts with one of the words `true`, `false` and `null`
and goes on, and where a string literal is too long (`parseImportedExpr_infixText_iff`).
-/

namespace Pdfv

open ExprParser

/-! ## Tokens -/

/-- The text of a binary operator. -/
def BinaryOp.token : BinaryOp → List Char
  | eq => ['=', '=']
  | ne => ['!', '=']
  | le => ['<', '=']
  | ge => ['>', '=']
  | lt => ['<']
  | gt => ['>']
  | and => ['&', '&']
  | or => ['|', '|']
  | bitAnd => ['&']
  | shr => ['>', '>']
  | add => ['+']
  | sub => ['-']
  | mul => ['*']
  | div => ['/']
  | rem => ['%']

/-- The level on which the operator joins its operands. -/
def BinaryOp.level : BinaryOp → Nat
  | mul | div | rem => 1
  | add | sub => 2
  | shr => 3
  | bitAnd => 4
  | eq | ne | le | ge | lt | gt => 5
  | and => 6
  | or => 7

/-- The built-in functions that a profile calls by name. -/
def BuiltinFunction.sourceName : BuiltinFunction → Option String
  | hasParseFact => some "hasParseFact"
  | size => some "size"
  | isEmpty => some "isEmpty"
  | contains => some "contains"
  | all => some "all"
  | .exists => some "exists"
  | .matches => some "matches"
  | _ => none

theorem builtinFunction_sourceName {π : Type} {function : BuiltinFunction} {name : String}
    (h : function.sourceName = some name) :
    (builtinFunction name : Except (ParseStop π) _) = .ok function := by
  cases function
  all_goals cases h
  all_goals rfl

/-- Texts with a separator between any two of them. -/
def separatedBy (separator : Char) : List (List Char) → List Char
  | [] => []
  | [text] => text
  | text :: texts => text ++ separator :: separatedBy separator texts

/-- A part of a property path that is written as it is named. -/
structure PlainPart (part : String) : Prop where
  identifier : isIdentifier part.toList = true
  named : Identifier.new part = some ⟨part⟩
  notWord : part.toList ∉ literalWords
  notRenamed : mapVerapdfProperty part = part

theorem PlainPart.toList_ne_nil {part : String} (h : PlainPart part) : part.toList ≠ [] := by
  intro hnil
  have hid := h.identifier
  rw [hnil] at hid
  cases hid

theorem PlainPart.isNameChar {part : String} (h : PlainPart part) :
    ∀ c ∈ part.toList, isNameChar c = true := by
  have hid := h.identifier
  intro c hc
  cases hlist : part.toList with
  | nil => exact absurd hlist h.toList_ne_nil
  | cons first rest =>
    rw [hlist] at hid hc
    simp only [isIdentifier, Bool.and_eq_true, List.all_eq_true] at hid
    rcases List.mem_cons.mp hc with rfl | hc
    · simp only [Pdfv.isNameChar, Char.isAlphanum]
      simp only [Bool.or_eq_true] at hid ⊢
      rcases hid.1 with hfirst | hfirst
      · exact .inl (.inl hfirst)
      · exact .inr hfirst
    · exact hid.2 c hc

theorem PlainPart.property {part : String} (h : PlainPart part) :
    (propertyNameFromSource part : Except (ParseStop π) _) = .ok part := by
  unfold propertyNameFromSource
  rw [h.notRenamed, h.named]

/-! ## Texts -/

/-- Where a text stands: as an operand, or on its own. -/
inductive TextPlace where
  | operand
  | whole

/-- The texts of an expression in infix form. -/
inductive InfixText : TextPlace → List Char → RuleExpr → Prop
  | bool (value : Bool) : InfixText .operand (toString value).toList (.bool value)
  | null : InfixText .operand ['n', 'u', 'l', 'l'] .null
  | number (n : Nat) : InfixText .operand (Nat.toDigits 10 n) (.number (Double.ofInt n))
  | string {quote : Char} {value : String} (hquote : isQuote quote = true)
      (hvalue : ∀ c ∈ value.toList, isAsciiChar c = true ∧ isQuote c = false ∧ c ≠ '\\') :
      InfixText .operand (quote :: value.toList ++ [quote]) (.string ⟨value⟩)
  | property {path : PropertyPath} (hne : path ≠ []) (hpath : ∀ part ∈ path, PlainPart part) :
      InfixText .operand (separatedBy '.' (path.map String.toList)) (.property path)
  | call {function : BuiltinFunction} {name : String} (hname : function.sourceName = some name)
      (args : List (List Char × RuleExpr)) (hargs : ∀ arg ∈ args, InfixText .whole arg.1 arg.2) :
      InfixText .operand (name.toList ++ '(' :: separatedBy ',' (args.map Prod.fst) ++ [')'])
        (.call function (args.map Prod.snd))
  | parenthesised {text : List Char} {expr : RuleExpr} (h : InfixText .whole text expr) :
      InfixText .operand ('(' :: text ++ [')']) expr
  | operand {text : List Char} {expr : RuleExpr} (h : InfixText .operand text expr) :
      InfixText .whole text expr
  | not {text : List Char} {expr : RuleExpr} (h : InfixText .operand text expr) :
      InfixText .whole ('!' :: text) (.unary .not expr)
  | binary (op : BinaryOp) {left right : List Char} {l r : RuleExpr}
      (hleft : InfixText .operand left l) (hright : InfixText .operand right r) :
      InfixText .whole (left ++ op.token ++ right) (.binary op l r)
  | conditional {condition whenTrue whenFalse : List Char} {c t f : RuleExpr}
      (hcondition : InfixText .operand condition c) (htrue : InfixText .operand whenTrue t)
      (hfalse : InfixText .operand whenFalse f) :
      InfixText .whole (condition ++ '?' :: whenTrue ++ ':' :: whenFalse) (.conditional c t f)
  | spaced {place : TextPlace} {text gap gap' : List Char} {expr : RuleExpr} (hgap : ExprParser.Gap gap)
      (hgap' : ExprParser.Gap gap') (h : InfixText place text expr) :
      InfixText place (gap ++ text ++ gap') expr

mutual

/-- The literals and paths of an expression. -/
def RuleExpr.leaves : RuleExpr → List RuleExpr
  | .unary _ expr => expr.leaves
  | .binary _ left right => left.leaves ++ right.leaves
  | .conditional condition whenTrue whenFalse =>
    condition.leaves ++ whenTrue.leaves ++ whenFalse.leaves
  | .call _ args => listLeaves args
  | expr => [expr]

/-- The literals and paths of expressions. -/
def RuleExpr.listLeaves : List RuleExpr → List RuleExpr
  | [] => []
  | expr :: exprs => expr.leaves ++ RuleExpr.listLeaves exprs

end

/-- A path that does not start with the word of a literal, a text within the limit, or another
literal. -/
def RuleExpr.Readable : RuleExpr → Prop
  | .property (first :: _) => ∀ word ∈ literalWords, ¬ word <+: first.toList
  | .string text => (utf8 text.text).length ≤ maxProfileStringBytes
  | _ => True

/-- Every literal and path can be read. -/
def RuleExpr.AllReadable (expr : RuleExpr) : Prop :=
  ∀ leaf ∈ expr.leaves, leaf.Readable

namespace ExprParser

variable {π : Type}

/-! ## Paths -/

theorem parseIdentifier_name {name rest : List Char} (hne : name ≠ [])
    (hname : ∀ c ∈ name, isNameChar c = true)
    (hrest : ∀ c after, rest = c :: after → isNameChar c = false) :
    (parseIdentifier : ExprParser π String) (name ++ rest) = .ok (String.ofList name, rest) := by
  unfold parseIdentifier
  rw [takeWhile_append_stop hname hrest]
  show (if name.isEmpty = true then _ else _) = _
  rw [if_neg (by simpa using hne), List.drop_left]

/-- The members of a path. -/
def memberText (parts : List String) : List Char :=
  parts.flatMap fun part => '.' :: part.toList

theorem separatedBy_cons (separator : Char) (text : List Char) (texts : List (List Char)) :
    separatedBy separator (text :: texts) = text ++ texts.flatMap (separator :: ·) := by
  induction texts generalizing text with
  | nil => simp [separatedBy]
  | cons next texts ih =>
    rw [separatedBy, ih next]
    · simp
    · simp

theorem length_le_flatMap_cons {α : Type} (separator : Char) (text : α → List Char) (items : List α) :
    items.length ≤ (items.flatMap fun item => separator :: text item).length := by
  induction items with
  | nil => exact Nat.le_refl 0
  | cons item items ih =>
    rw [List.flatMap_cons, List.length_append, List.length_cons, List.length_cons]
    omega

/-- What stands after a part of a path goes on with another part or ends the operand. -/
theorem memberText_next (members : List String) {rest : List Char} (h : OperandEnd rest) :
    (∀ c after, memberText members ++ rest = c :: after → isNameChar c = false)
      ∧ ∀ c after, trimmed (memberText members ++ rest) = c :: after → c ≠ '(' := by
  cases members with
  | nil =>
    refine ⟨?_, fun c after hc => (h c after hc).2.2⟩
    rintro c after hc
    rw [show rest = c :: after from hc] at h
    exact h.head.1
  | cons member members =>
    refine ⟨?_, ?_⟩
    · rintro c after hc
      cases hc
      rfl
    · rintro c after hc
      cases hc
      decide

theorem membersLoop_members {members : List String} (hmembers : ∀ part ∈ members, PlainPart part)
    {rest : List Char} (hrest : OperandEnd rest) {fuel : Nat} (hfuel : members.length < fuel)
    (parts : PropertyPath) : (membersLoop fuel parts : ExprParser π PropertyPath)
      (memberText members ++ rest) = .ok (parts ++ members, trimmed rest) := by
  induction members generalizing fuel parts with
  | nil =>
    obtain ⟨fuel, rfl⟩ : ∃ n, fuel = n + 1 := ⟨fuel - 1, by simp at hfuel; omega⟩
    have hdot : ¬ ['.'] <+: trimmed rest := by
      rintro ⟨after, hafter⟩
      exact (hrest '.' after hafter.symm).2.1 rfl
    unfold membersLoop
    show ((consume ['.'] : ExprParser π Bool) >>= _) rest = _
    rw [bind_ok (consume_miss hdot), List.append_nil]
    rfl
  | cons member members ih =>
    obtain ⟨fuel, rfl⟩ : ∃ n, fuel = n + 1 := ⟨fuel - 1, by simp at hfuel; omega⟩
    have hmember := hmembers member List.mem_cons_self
    obtain ⟨hname, hopen⟩ := memberText_next members hrest
    have htext : memberText (member :: members) ++ rest
        = ['.'] ++ (member.toList ++ (memberText members ++ rest)) := by
      simp [memberText]
    rw [htext]
    unfold membersLoop
    rw [bind_ok (consume_hit rfl), if_pos rfl, get_bind,
      bind_ok (parseIdentifier_name hmember.toList_ne_nil hmember.isNameChar hname), get_bind,
      bind_ok (skipWs_eq _), get_bind, if_neg]
    · rw [set_bind, String.ofList_toList, hmember.property, lift_bind,
        ih (fun part hpart => hmembers part (List.mem_cons_of_mem _ hpart))
        (by simp at hfuel; omega), List.append_assoc]
      rfl
    · intro hhead
      cases htrimmed : trimmed (memberText members ++ rest) with
      | nil =>
        rw [htrimmed] at hhead
        cases hhead
      | cons c after =>
        rw [htrimmed] at hhead
        cases hhead
        exact hopen _ _ htrimmed rfl

theorem parseProperty_path {conditional : ExprParser π RuleExpr} {first : String}
    {members : List String} (hpath : ∀ part ∈ first :: members, PlainPart part)
    {rest : List Char} (hrest : OperandEnd rest) : parseProperty conditional
      (first.toList ++ (memberText members ++ rest))
        = .ok (.property (first :: members), trimmed rest) := by
  have hfirst := hpath first List.mem_cons_self
  have hmembers : ∀ part ∈ members, PlainPart part := fun part hpart =>
    hpath part (List.mem_cons_of_mem _ hpart)
  obtain ⟨hname, hopen⟩ := memberText_next members hrest
  have hmiss : ¬ ['('] <+: trimmed (memberText members ++ rest) := by
    rintro ⟨after, hafter⟩
    exact hopen '(' after hafter.symm rfl
  -- the white space before what follows the path is skipped already when the path has one part
  obtain ⟨rest', hrest', htrimmed, hloop⟩ : ∃ rest', OperandEnd rest' ∧ trimmed rest' = trimmed rest
      ∧ trimmed (memberText members ++ rest) = memberText members ++ rest' := by
    cases members with
    | nil =>
      refine ⟨trimmed rest, ?_, trimmed_trimmed rest, rfl⟩
      intro c after hc
      rw [trimmed_trimmed] at hc
      exact hrest c after hc
    | cons member members => exact ⟨rest, hrest, rfl, rfl⟩
  have hlength : members.length ≤ (memberText members ++ rest').length := by
    have hle := length_le_flatMap_cons '.' String.toList members
    rw [List.length_append, memberText]
    omega
  unfold parseProperty
  rw [bind_ok (parseIdentifier_name hfirst.toList_ne_nil hfirst.isNameChar hname),
    bind_ok (consume_miss hmiss), if_neg (by decide), String.ofList_toList, hfirst.property,
    lift_bind, hloop, get_bind,
    bind_ok (membersLoop_members hmembers hrest' (by omega) [first]), htrimmed]
  rfl

/-! ## Arguments -/

/-- A parser reads a text as an expression, whatever follows that may follow it. -/
def ReadsWhole (conditional : ExprParser π RuleExpr) (text : List Char) (expr : RuleExpr) : Prop :=
  ∀ input rest, WholeEnd rest → trimmed input = trimmed (text ++ rest) →
    Answers expr.AllReadable expr (trimmed rest) (conditional input)

theorem argsLoop_stuck {conditional : ExprParser π RuleExpr} {input : List Char}
    (h : Stuck (conditional input)) (fuel : Nat) (exprs : List RuleExpr) :
    ∃ e, argsLoop conditional (fuel + 1) exprs input = .error e := by
  unfold argsLoop
  cases hx : conditional input with
  | error e => exact ⟨e, bind_error hx⟩
  | ok r =>
    obtain ⟨expr, rest⟩ := r
    obtain ⟨d, after, rfl, hd⟩ := h expr rest hx
    have hclose := not_prefix_of_isNameChar (show isNameChar ')' = false from rfl) hd after
    have hcomma := not_prefix_of_isNameChar (show isNameChar ',' = false from rfl) hd after
    rw [bind_ok hx, bind_ok (consume_miss hclose), if_neg (by decide)]
    rw [← trimmed_trimmed] at hcomma
    exact ⟨_, bind_error (expect_miss hcomma _)⟩

theorem argsLoop_last {conditional : ExprParser π RuleExpr} {input rest : List Char}
    {expr : RuleExpr} (h : conditional input = .ok (expr, ')' :: rest)) (fuel : Nat)
    (exprs : List RuleExpr) :
    argsLoop conditional (fuel + 1) exprs input = .ok (exprs ++ [expr], rest) := by
  unfold argsLoop
  rw [bind_ok h, bind_ok (consume_hit (show trimmed (')' :: rest) = [')'] ++ rest from rfl))]
  rfl

theorem argsLoop_next {conditional : ExprParser π RuleExpr} {input rest : List Char}
    {expr : RuleExpr} (h : conditional input = .ok (expr, ',' :: rest)) (fuel : Nat)
    (exprs : List RuleExpr) : argsLoop conditional (fuel + 1) exprs input
      = argsLoop conditional fuel (exprs ++ [expr]) rest := by
  have hclose : ¬ [')'] <+: trimmed (',' :: rest) := not_prefix_cons (by decide)
  have hcomma : trimmed (trimmed (',' :: rest)) = [','] ++ rest := rfl
  rw [argsLoop, bind_ok h, bind_ok (consume_miss hclose), if_neg (by decide),
    bind_ok (expect_hit hcomma _)]

/-- Every argument can be read. -/
def ArgsReadable (args : List (List Char × RuleExpr)) : Prop :=
  ∀ arg ∈ args, arg.2.AllReadable

theorem argsLoop_args {conditional : ExprParser π RuleExpr} {args : List (List Char × RuleExpr)}
    (hne : args ≠ []) (hargs : ∀ arg ∈ args, ReadsWhole conditional arg.1 arg.2) {fuel : Nat}
    (hfuel : args.length ≤ fuel) (exprs : List RuleExpr) (rest : List Char) {input : List Char}
    (hinput : trimmed input = trimmed (separatedBy ',' (args.map Prod.fst) ++ ')' :: rest)) :
    (ArgsReadable args → argsLoop conditional fuel exprs input
        = .ok (exprs ++ args.map Prod.snd, rest))
      ∧ (¬ ArgsReadable args → ∃ e, argsLoop conditional fuel exprs input = .error e) := by
  induction args generalizing fuel exprs input with
  | nil => exact absurd rfl hne
  | cons arg args ih =>
    obtain ⟨fuel, rfl⟩ : ∃ n, fuel = n + 1 := ⟨fuel - 1, by simp at hfuel; omega⟩
    have hreads := hargs arg List.mem_cons_self
    cases args with
    | nil =>
      obtain ⟨hend, htrimmed⟩ := wholeEnd_cons (.inl rfl) rest
      have harg := hreads input (')' :: rest) hend hinput
      rw [htrimmed] at harg
      refine ⟨fun h => ?_, fun h => ?_⟩
      · exact argsLoop_last (harg.1 (h arg List.mem_cons_self)) fuel exprs
      · refine argsLoop_stuck (harg.2 fun hgood => h ?_) fuel exprs
        intro other hother
        rw [List.mem_singleton.mp hother]
        exact hgood
    | cons next args =>
      obtain ⟨hend, htrimmed⟩ := wholeEnd_cons (.inr (.inl rfl))
        (separatedBy ',' ((next :: args).map Prod.fst) ++ ')' :: rest)
      have htext : separatedBy ',' ((arg :: next :: args).map Prod.fst) ++ ')' :: rest
          = arg.1 ++ ',' :: (separatedBy ',' ((next :: args).map Prod.fst) ++ ')' :: rest) := by
        show arg.1 ++ ',' :: separatedBy ',' ((next :: args).map Prod.fst) ++ ')' :: rest = _
        rw [List.append_assoc]
        rfl
      rw [htext] at hinput
      have harg := hreads input _ hend hinput
      rw [htrimmed] at harg
      by_cases hgood : arg.2.AllReadable
      · have hloop := argsLoop_next (harg.1 hgood) fuel exprs
        obtain ⟨hok, herror⟩ := ih (by simp) (fun arg harg => hargs arg (List.mem_cons_of_mem _ harg))
          (by simp at hfuel ⊢; omega) (exprs ++ [arg.2]) rfl
        rw [hloop]
        refine ⟨fun h => ?_, fun h => ?_⟩
        · rw [hok fun arg harg => h arg (List.mem_cons_of_mem _ harg), List.append_assoc]
          rfl
        · apply herror
          intro hrest
          apply h
          intro other hother
          rcases List.mem_cons.mp hother with rfl | hother
          · exact hgood
          · exact hrest other hother
      · refine ⟨fun h => absurd (h arg List.mem_cons_self) hgood, fun h => ?_⟩
        exact argsLoop_stuck (harg.2 hgood) fuel exprs

/-! ## Heads of texts -/

/-- A first character of an operand. -/
def opensOperand (c : Char) : Bool :=
  isNameChar c || isQuote c || c = '('

/-- The first character of a text that is not white space. -/
def HeadIs (p : Char → Prop) (text : List Char) : Prop :=
  ∃ gap c after, text = gap ++ c :: after ∧ Gap gap ∧ isBlank c = false ∧ p c

theorem HeadIs.append {p : Char → Prop} {text : List Char} (h : HeadIs p text)
    (rest : List Char) : HeadIs p (text ++ rest) := by
  obtain ⟨gap, c, after, rfl, hgap, hblank, hc⟩ := h
  exact ⟨gap, c, after ++ rest, by simp, hgap, hblank, hc⟩

theorem HeadIs.weaken {p q : Char → Prop} {text : List Char} (h : HeadIs p text)
    (hpq : ∀ c, p c → q c) : HeadIs q text := by
  obtain ⟨gap, c, after, htext, hgap, hblank, hc⟩ := h
  exact ⟨gap, c, after, htext, hgap, hblank, hpq c hc⟩

theorem HeadIs.trimmed {p : Char → Prop} {text : List Char} (h : HeadIs p text) :
    ∃ c after, trimmed text = c :: after ∧ p c := by
  obtain ⟨gap, c, after, rfl, hgap, hblank, hc⟩ := h
  exact ⟨c, after, by rw [trimmed_gap hgap, trimmed_cons hblank], hc⟩

theorem headIs_cons {p : Char → Prop} {c : Char} (hblank : isBlank c = false) (hc : p c)
    (after : List Char) : HeadIs p (c :: after) :=
  ⟨[], c, after, rfl, fun _ h => absurd h List.not_mem_nil, hblank, hc⟩

theorem headIs_nameChar {c : Char} (h : isNameChar c = true) (after : List Char) :
    HeadIs (opensOperand · = true) (c :: after) := by
  apply headIs_cons (closed_of_isNameChar h after c after rfl).1
  simp [opensOperand, h]

/-- What the first character of a text may be, by where the text stands. -/
def Opens : TextPlace → Char → Prop
  | .operand, c => opensOperand c = true
  | .whole, c => opensOperand c = true ∨ c = '!'

theorem infixText_head {place : TextPlace} {text : List Char} {expr : RuleExpr}
    (h : InfixText place text expr) : HeadIs (Opens place) text := by
  induction h with
  | bool value =>
    cases value with
    | true => exact headIs_nameChar (by decide) _
    | false => exact headIs_nameChar (by decide) _
  | null => exact headIs_nameChar (by decide) _
  | number n =>
    obtain ⟨c, tail, hcons⟩ := List.exists_cons_of_ne_nil (Nat.toDigits_ne_nil (n := n) (b := 10))
    have hdigit := Nat.isDigit_of_mem_toDigits (by decide) (by decide)
      (show c ∈ Nat.toDigits 10 n by rw [hcons]; exact List.mem_cons_self)
    rw [hcons]
    apply headIs_nameChar
    simp [isNameChar, Char.isAlphanum, hdigit]
  | @string quote value hquote hvalue =>
    exact headIs_cons (isBlank_of_isQuote hquote) (by simp [Opens, opensOperand, hquote]) _
  | @property path hne hpath =>
    obtain ⟨first, members, rfl⟩ := List.exists_cons_of_ne_nil hne
    have hfirst := hpath first List.mem_cons_self
    obtain ⟨c, tail, hcons⟩ := List.exists_cons_of_ne_nil hfirst.toList_ne_nil
    have hc := hfirst.isNameChar c (by rw [hcons]; exact List.mem_cons_self)
    rw [List.map_cons, separatedBy_cons, hcons]
    exact headIs_nameChar hc _
  | @call function name hname args hargs ih =>
    apply HeadIs.append
    apply HeadIs.append
    cases function
    all_goals cases hname
    all_goals exact headIs_nameChar (by decide) _
  | parenthesised h ih => exact headIs_cons (by decide) (show opensOperand '(' = true by decide) _
  | operand h ih => exact ih.weaken fun c hc => .inl hc
  | not h ih => exact headIs_cons (by decide) (.inr rfl) _
  | binary op hleft hright ihleft ihright =>
    exact ((ihleft.weaken fun c hc => .inl hc).append _).append _
  | conditional hcondition htrue hfalse ihcondition ihtrue ihfalse =>
    exact ((ihcondition.weaken fun c hc => .inl hc).append _).append _
  | spaced hgap hgap' h ih =>
    apply HeadIs.append
    obtain ⟨gap, c, after, rfl, hgap'', hblank, hc⟩ := ih
    exact ⟨_, c, after, by simp, gap_append hgap hgap'', hblank, hc⟩

/-! ## Operators -/

/-- What stands after the token of an operator: white space or an operand. -/
def AfterToken (c : Char) : Prop :=
  c ≠ '=' ∧ c ≠ '>' ∧ c ≠ '&'

theorem afterToken_of_headIs {text : List Char} (h : HeadIs (opensOperand · = true) text) :
    ∃ c after, text = c :: after ∧ AfterToken c := by
  obtain ⟨gap, c, after, rfl, hgap, hblank, hc⟩ := h
  cases gap with
  | nil =>
    refine ⟨c, after, rfl, ?_, ?_, ?_⟩
    all_goals
      rintro rfl
      exact absurd hc (by decide)
  | cons d gap =>
    have hd := hgap d List.mem_cons_self
    refine ⟨d, gap ++ c :: after, rfl, ?_, ?_, ?_⟩
    all_goals
      rintro rfl
      exact absurd hd (by decide)

theorem nextOperator_token (op : BinaryOp) {c : Char} (hc : AfterToken c) (after : List Char) :
    nextOperator op.level (op.token ++ c :: after) = (some op, c :: after) := by
  obtain ⟨heq, hgt, hamp⟩ := hc
  cases op
  all_goals simp [nextOperator, levelTokens, operatorAt, BinaryOp.token, BinaryOp.level, heq.symm,
    hamp]

theorem nextOperator_below (op : BinaryOp) {c : Char} (hc : AfterToken c) (after : List Char)
    {i : Nat} (hpos : 0 < i) (hi : i < op.level) :
    nextOperator i (op.token ++ c :: after) = (none, op.token ++ c :: after) := by
  obtain ⟨heq, hgt, hamp⟩ := hc
  cases op
  all_goals
    simp only [BinaryOp.level] at hi
    interval_cases i
    all_goals simp [nextOperator, levelTokens, operatorAt, BinaryOp.token, hgt.symm, hamp]

end ExprParser

/-! ## Reading printed expressions -/

namespace RuleExpr

theorem allReadable_leaf {expr : RuleExpr} (h : expr.leaves = [expr]) :
    expr.AllReadable ↔ expr.Readable := by
  unfold AllReadable
  rw [h, List.forall_mem_singleton]

theorem allReadable_binary (op : BinaryOp) (left right : RuleExpr) :
    (binary op left right).AllReadable ↔ left.AllReadable ∧ right.AllReadable := by
  unfold AllReadable
  rw [leaves, List.forall_mem_append]

theorem allReadable_conditional (condition whenTrue whenFalse : RuleExpr) :
    (conditional condition whenTrue whenFalse).AllReadable
      ↔ condition.AllReadable ∧ whenTrue.AllReadable ∧ whenFalse.AllReadable := by
  unfold AllReadable
  rw [leaves, List.forall_mem_append, List.forall_mem_append, and_assoc]

theorem allReadable_unary (op : UnaryOp) (expr : RuleExpr) :
    (unary op expr).AllReadable ↔ expr.AllReadable := by
  unfold AllReadable
  rw [leaves]

theorem mem_listLeaves {leaf : RuleExpr} {exprs : List RuleExpr} :
    leaf ∈ listLeaves exprs ↔ ∃ expr ∈ exprs, leaf ∈ expr.leaves := by
  induction exprs with
  | nil => simp [listLeaves]
  | cons expr exprs ih => simp [listLeaves, ih]

theorem allReadable_call (function : BuiltinFunction) (args : List (List Char × RuleExpr)) :
    (call function (args.map Prod.snd)).AllReadable ↔ ExprParser.ArgsReadable args := by
  unfold AllReadable ExprParser.ArgsReadable
  rw [leaves]
  constructor
  · intro h arg harg leaf hleaf
    exact h leaf (mem_listLeaves.mpr ⟨arg.2, List.mem_map_of_mem harg, hleaf⟩)
  · intro h leaf hleaf
    obtain ⟨expr, hexpr, hleaf⟩ := mem_listLeaves.mp hleaf
    obtain ⟨arg, harg, rfl⟩ := List.mem_map.mp hexpr
    exact h arg harg leaf hleaf

end RuleExpr

namespace ExprParser

/-- How a text is read where it stands: an operand by `parse_unary`, whatever ends it, and anything
else by `parse_conditional`. -/
def Reads : TextPlace → List Char → RuleExpr → Prop
  | .operand, text, expr => ∀ fuel, text.length ≤ fuel → ∀ input rest, OperandEnd rest →
    trimmed input = trimmed (text ++ rest) → ∀ n, Answers expr.AllReadable expr (trimmed rest)
      (parseUnary byteReader (parseConditional byteReader fuel) (n + 1) input)
  | .whole, text, expr => ∀ fuel, text.length ≤ fuel →
    ReadsWhole (parseConditional byteReader (fuel + 1)) text expr

theorem reads_primary {c : Char} {text : List Char} {expr : RuleExpr} (hblank : isBlank c = false)
    (hc : opensOperand c = true)
    (h : ∀ fuel, text.length + 1 ≤ fuel → ∀ rest, OperandEnd rest →
      ∃ rest', trimmed rest' = trimmed rest ∧ Answers expr.AllReadable expr rest'
        (parsePrimary byteReader (parseConditional byteReader fuel) (c :: text ++ rest))) :
    Reads .operand (c :: text) expr := by
  intro fuel hfuel input rest hend hinput n
  obtain ⟨rest', hrest', hanswers⟩ := h fuel hfuel rest hend
  have hnot : c ≠ '!' := by
    rintro rfl
    exact absurd hc (by decide)
  have htrimmed : trimmed input = c :: (text ++ rest) := by
    rw [hinput]
    exact trimmed_cons hblank _
  rw [parseUnary_plain htrimmed hnot]
  exact parsePostfix_answers hanswers hrest' hend

theorem reads_nameChar {c : Char} {text : List Char} {expr : RuleExpr} (hc : isNameChar c = true)
    (h : ∀ fuel, text.length + 1 ≤ fuel → ∀ rest, OperandEnd rest →
      ∃ rest', trimmed rest' = trimmed rest ∧ Answers expr.AllReadable expr rest'
        (parsePrimary byteReader (parseConditional byteReader fuel) (c :: text ++ rest))) :
    Reads .operand (c :: text) expr :=
  reads_primary (closed_of_isNameChar hc text c text rfl).1 (by simp [opensOperand, hc]) h

/-- A word of a literal. -/
theorem reads_word {c : Char} {text : List Char} {expr : RuleExpr} (hc : isNameChar c = true)
    (hgood : expr.AllReadable) (h : ∀ (conditional : ExprParser SlicePanic RuleExpr) rest,
      parsePrimary byteReader conditional (c :: text ++ rest) = .ok (expr, rest)) :
    Reads .operand (c :: text) expr :=
  reads_nameChar hc fun _ _ rest _ => ⟨rest, rfl, .good hgood (h _ rest)⟩

theorem wordless_cons {c : Char} (h : c ≠ 't' ∧ c ≠ 'f' ∧ c ≠ 'n') (after : List Char) :
    Wordless (c :: after) := by
  intro word hword
  simp only [literalWords, List.mem_cons, List.not_mem_nil, or_false] at hword
  rcases hword with rfl | rfl | rfl
  · exact not_prefix_cons h.1.symm
  · exact not_prefix_cons h.2.1.symm
  · exact not_prefix_cons h.2.2.symm

theorem wordless_of_isDigit {c : Char} (h : c.isDigit = true) (after : List Char) :
    Wordless (c :: after) := by
  apply wordless_cons
  refine ⟨?_, ?_, ?_⟩
  all_goals
    rintro rfl
    exact absurd h (by decide)

theorem reads_number (n : Nat) : Reads .operand (Nat.toDigits 10 n) (.number (Double.ofInt n)) := by
  obtain ⟨c, tail, hcons⟩ := List.exists_cons_of_ne_nil (Nat.toDigits_ne_nil (n := n) (b := 10))
  have hdigit := Nat.isDigit_of_mem_toDigits (by decide) (by decide)
    (show c ∈ Nat.toDigits 10 n by rw [hcons]; exact List.mem_cons_self)
  have hname : isNameChar c = true := by
    simp [isNameChar, Char.isAlphanum, hdigit]
  rw [hcons]
  apply reads_nameChar hname
  intro fuel _ rest hend
  refine ⟨rest, rfl, .good ?_ ?_⟩
  · rw [RuleExpr.allReadable_leaf rfl]
    trivial
  · show parsePrimary byteReader _ (c :: (tail ++ rest)) = _
    rw [parsePrimary_wordless hname (wordless_of_isDigit hdigit _), if_pos (by simp [hdigit])]
    have hnumber := @parseNumber_digits SlicePanic n rest hend
    rw [hcons] at hnumber
    exact hnumber

theorem reads_quoted {quote : Char} {value : String} (hquote : isQuote quote = true)
    (hvalue : ∀ c ∈ value.toList, c.utf8Size = 1 ∧ c ≠ quote) :
    Reads .operand (quote :: value.toList ++ [quote]) (.string ⟨value⟩) := by
  show Reads .operand (quote :: (value.toList ++ [quote])) (.string ⟨value⟩)
  apply reads_primary (isBlank_of_isQuote hquote) (by simp [opensOperand, hquote])
  intro fuel _ rest hend
  refine ⟨rest, rfl, ?_⟩
  have htext : quote :: (value.toList ++ [quote]) ++ rest
      = quote :: (value.toList ++ quote :: rest) := by
    simp
  rw [htext, parsePrimary_quote hquote]
  apply (parseString_plain quote hvalue rest).congr
  rw [RuleExpr.allReadable_leaf rfl]
  rfl

theorem reads_string {quote : Char} {value : String} (hquote : isQuote quote = true)
    (hvalue : ∀ c ∈ value.toList, isAsciiChar c = true ∧ isQuote c = false ∧ c ≠ '\\') :
    Reads .operand (quote :: value.toList ++ [quote]) (.string ⟨value⟩) := by
  apply reads_quoted hquote
  intro c hc
  obtain ⟨hascii, hnot, _⟩ := hvalue c hc
  refine ⟨(isAsciiChar_iff c).mp hascii, ?_⟩
  rintro rfl
  rw [hquote] at hnot
  cases hnot

theorem literalWords_isNameChar : ∀ word ∈ literalWords, ∀ c ∈ word, isNameChar c = true := by
  decide

/-- A word ends before a character that no name has. -/
theorem prefix_of_append {p : Char → Bool} {word text rest : List Char}
    (hword : ∀ c ∈ word, p c = true) (hrest : ∀ c after, rest = c :: after → p c = false)
    (h : word <+: text ++ rest) : word <+: text := by
  obtain ⟨after, hafter⟩ := h
  rcases List.append_eq_append_iff.mp hafter with ⟨more, rfl, _⟩ | ⟨more, rfl, hmore⟩
  · exact List.prefix_append _ _
  · cases more with
    | nil => simp
    | cons c more =>
      have hc := hword c (by simp)
      rw [hrest c (more ++ after) hmore] at hc
      cases hc

/-- After the word of a literal that goes on as a name nothing can follow. -/
theorem parsePrimary_word_stuck {conditional : ExprParser SlicePanic RuleExpr} {word : List Char}
    (hword : word ∈ literalWords) {c : Char} (hc : isNameChar c = true) (after : List Char) :
    Stuck (parsePrimary byteReader conditional (word ++ c :: after)) := by
  simp only [literalWords, List.mem_cons, List.not_mem_nil, or_false] at hword
  intro expr rest hok
  rcases hword with rfl | rfl | rfl
  · have hprimary := @parsePrimary_true _ byteReader conditional (c :: after)
    cases hprimary.symm.trans hok
    exact ⟨c, after, rfl, hc⟩
  · have hprimary := @parsePrimary_false _ byteReader conditional (c :: after)
    cases hprimary.symm.trans hok
    exact ⟨c, after, rfl, hc⟩
  · have hprimary := @parsePrimary_null _ byteReader conditional (c :: after)
    cases hprimary.symm.trans hok
    exact ⟨c, after, rfl, hc⟩

theorem isIdentifier_head {c : Char} {tail : List Char} (h : isIdentifier (c :: tail) = true) :
    ¬ (c.isDigit || c = '-') = true := by
  simp only [isIdentifier, Bool.and_eq_true, Bool.or_eq_true, decide_eq_true_eq] at h
  intro hdigit
  simp only [Bool.or_eq_true, decide_eq_true_eq] at hdigit
  rcases hdigit with hdigit | rfl
  · rcases h.1 with halpha | rfl
    · have hletter := isAlpha_range halpha
      have hrange := isDigit_range hdigit
      omega
    · exact absurd hdigit (by decide)
  · exact absurd h.1 (by decide)

theorem reads_property {first : String} {members : List String}
    (hpath : ∀ part ∈ first :: members, PlainPart part) :
    Reads .operand (first.toList ++ memberText members) (.property (first :: members)) := by
  have hfirst := hpath first List.mem_cons_self
  obtain ⟨c, tail, hcons⟩ := List.exists_cons_of_ne_nil hfirst.toList_ne_nil
  have hname : isNameChar c = true := hfirst.isNameChar c (by rw [hcons]; exact List.mem_cons_self)
  have hdigit : ¬ (c.isDigit || c = '-') = true := by
    apply @isIdentifier_head c tail
    rw [← hcons]
    exact hfirst.identifier
  rw [hcons, List.cons_append]
  apply reads_nameChar hname
  intro fuel _ rest hend
  refine ⟨trimmed rest, trimmed_trimmed rest, ?_⟩
  have htext : c :: (tail ++ memberText members) ++ rest
      = first.toList ++ (memberText members ++ rest) := by
    rw [hcons]
    simp
  rw [htext]
  refine ⟨fun hgood => ?_, fun hbad => ?_⟩
  · rw [RuleExpr.allReadable_leaf rfl] at hgood
    have hwordless : Wordless (first.toList ++ (memberText members ++ rest)) := fun word hword h =>
      hgood word hword (prefix_of_append (literalWords_isNameChar word hword)
        (memberText_next members hend).1 h)
    have hpathText := @parseProperty_path _ (parseConditional byteReader fuel) _ _ hpath rest hend
    rw [hcons, List.cons_append] at hwordless hpathText ⊢
    rw [parsePrimary_wordless hname hwordless, if_neg hdigit]
    exact hpathText
  · rw [RuleExpr.allReadable_leaf rfl] at hbad
    obtain ⟨word, hword, more, hmore⟩ : ∃ word ∈ literalWords, word <+: first.toList := by
      by_contra hnone
      exact hbad fun word hword hstart => hnone ⟨word, hword, hstart⟩
    cases more with
    | nil =>
      rw [List.append_nil] at hmore
      rw [hmore] at hword
      exact absurd hword hfirst.notWord
    | cons d more =>
      have hd : isNameChar d = true := hfirst.isNameChar d (by rw [← hmore]; simp)
      rw [← hmore, List.append_assoc]
      exact parsePrimary_word_stuck hword hd _

theorem parseCallArgs_args {conditional : ExprParser π RuleExpr}
    {args : List (List Char × RuleExpr)} (hhead : ∀ arg ∈ args, HeadIs (Opens .whole) arg.1)
    (hargs : ∀ arg ∈ args, ReadsWhole conditional arg.1 arg.2) (rest : List Char) :
    (ArgsReadable args → parseCallArgsAfterOpen conditional
        (separatedBy ',' (args.map Prod.fst) ++ ')' :: rest) = .ok (args.map Prod.snd, rest))
      ∧ (¬ ArgsReadable args → ∃ e, parseCallArgsAfterOpen conditional
        (separatedBy ',' (args.map Prod.fst) ++ ')' :: rest) = .error e) := by
  cases args with
  | nil =>
    have hclose : trimmed (')' :: rest) = [')'] ++ rest := rfl
    refine ⟨fun _ => ?_, fun h => absurd (fun arg harg => absurd harg List.not_mem_nil) h⟩
    unfold parseCallArgsAfterOpen
    show ((consume [')'] : ExprParser π Bool) >>= _) (')' :: rest) = _
    rw [bind_ok (consume_hit hclose)]
    rfl
  | cons arg args =>
    obtain ⟨gap, c, after, htext, hgap, hblank, hc⟩ := hhead arg List.mem_cons_self
    have htrimmed : trimmed (separatedBy ',' ((arg :: args).map Prod.fst) ++ ')' :: rest)
        = c :: (after ++ (args.flatMap fun arg => ',' :: arg.1) ++ ')' :: rest) := by
      rw [List.map_cons, separatedBy_cons, List.flatMap_map, htext]
      simp only [List.append_assoc, List.cons_append]
      rw [trimmed_gap hgap, trimmed_cons hblank]
    have hmiss : ¬ [')'] <+: trimmed (separatedBy ',' ((arg :: args).map Prod.fst) ++ ')' :: rest) := by
      rw [htrimmed]
      apply not_prefix_cons
      rintro rfl
      rcases hc with hc | hc
      all_goals exact absurd hc (by decide)
    have hlength : (arg :: args).length
        ≤ (trimmed (separatedBy ',' ((arg :: args).map Prod.fst) ++ ')' :: rest)).length + 1 := by
      have hle := length_le_flatMap_cons ',' (Prod.fst : List Char × RuleExpr → List Char) args
      rw [htrimmed]
      simp only [List.length_cons, List.length_append] at hle ⊢
      omega
    unfold parseCallArgsAfterOpen
    rw [bind_ok (consume_miss hmiss), if_neg (by decide), get_bind]
    exact argsLoop_args (by simp) hargs hlength [] rest (trimmed_trimmed _)

theorem parseProperty_call {conditional : ExprParser π RuleExpr} {function : BuiltinFunction}
    {name : String} (hname : function.sourceName = some name) {args : List (List Char × RuleExpr)}
    (hhead : ∀ arg ∈ args, HeadIs (Opens .whole) arg.1)
    (hargs : ∀ arg ∈ args, ReadsWhole conditional arg.1 arg.2) (rest : List Char) :
    Answers (ArgsReadable args) (.call function (args.map Prod.snd)) rest
      (parseProperty conditional
        (name.toList ++ '(' :: (separatedBy ',' (args.map Prod.fst) ++ ')' :: rest))) := by
  have hchars : name.toList ≠ [] ∧ ∀ c ∈ name.toList, isNameChar c = true := by
    cases function
    all_goals cases hname
    all_goals decide
  have hopen (tail : List Char) : trimmed ('(' :: tail) = ['('] ++ tail := rfl
  obtain ⟨hok, herror⟩ := parseCallArgs_args hhead hargs rest
  unfold parseProperty
  rw [bind_ok (parseIdentifier_name hchars.1 hchars.2 _), bind_ok (consume_hit (hopen _)),
    if_pos rfl]
  · refine ⟨fun hgood => ?_, fun hbad => ?_⟩
    · rw [bind_ok (hok hgood), String.ofList_toList, builtinFunction_sourceName hname]
      rfl
    · obtain ⟨e, he⟩ := herror hbad
      rw [bind_error he]
      exact stuck_error e
  · intro c after heq
    cases heq
    rfl

theorem length_le_separatedBy (separator : Char) {text : List Char} {texts : List (List Char)}
    (h : text ∈ texts) : text.length ≤ (separatedBy separator texts).length := by
  cases texts with
  | nil => exact absurd h List.not_mem_nil
  | cons first texts =>
    rw [separatedBy_cons, List.length_append]
    rcases List.mem_cons.mp h with rfl | h
    · omega
    · have hle : (separator :: text).length ≤ (texts.flatMap (separator :: ·)).length :=
        (List.sublist_flatten_of_mem (List.mem_map_of_mem h)).length_le
      rw [List.length_cons] at hle
      omega

theorem sourceName_head {function : BuiltinFunction} {name : String}
    (h : function.sourceName = some name) : ∃ c tail, name.toList = c :: tail
      ∧ isNameChar c = true ∧ (c ≠ 't' ∧ c ≠ 'f' ∧ c ≠ 'n') ∧ ¬ (c.isDigit || c = '-') = true := by
  cases function
  all_goals cases h
  all_goals exact ⟨_, _, rfl, by decide, by decide, by decide⟩

theorem reads_call {function : BuiltinFunction} {name : String}
    (hname : function.sourceName = some name) {args : List (List Char × RuleExpr)}
    (hhead : ∀ arg ∈ args, HeadIs (Opens .whole) arg.1)
    (hargs : ∀ arg ∈ args, Reads .whole arg.1 arg.2) :
    Reads .operand (name.toList ++ '(' :: separatedBy ',' (args.map Prod.fst) ++ [')'])
      (.call function (args.map Prod.snd)) := by
  obtain ⟨c, tail, hcons, hc, hword, hdigit⟩ := sourceName_head hname
  have htext : name.toList ++ '(' :: separatedBy ',' (args.map Prod.fst) ++ [')']
      = c :: (tail ++ '(' :: separatedBy ',' (args.map Prod.fst) ++ [')']) := by
    rw [hcons]
    rfl
  rw [htext]
  apply reads_nameChar hc
  intro fuel hfuel rest _
  obtain ⟨fuel, rfl⟩ : ∃ n, fuel = n + 1 := ⟨fuel - 1, by omega⟩
  refine ⟨rest, rfl, ?_⟩
  have hreads : ∀ arg ∈ args, ReadsWhole (parseConditional byteReader (fuel + 1)) arg.1 arg.2 := by
    intro arg harg
    apply hargs arg harg
    have hle := length_le_separatedBy ',' (List.mem_map_of_mem (f := Prod.fst) harg)
    simp only [List.length_append, List.length_cons] at hfuel
    omega
  have hcall := (parseProperty_call hname hhead hreads rest).congr
    (RuleExpr.allReadable_call function args).symm
  have hall : c :: (tail ++ '(' :: separatedBy ',' (args.map Prod.fst) ++ [')']) ++ rest
      = c :: (tail ++ '(' :: (separatedBy ',' (args.map Prod.fst) ++ ')' :: rest)) := by
    simp
  rw [hcons, List.cons_append] at hcall
  rw [hall, parsePrimary_wordless hc (wordless_cons hword _), if_neg hdigit]
  exact hcall

theorem reads_whole {text : List Char} {expr : RuleExpr} (h : Reads .operand text expr) :
    Reads .whole text expr := by
  intro fuel hfuel input rest hend hinput
  apply parseConditional_answers hend
  apply parseOr_answers hend.conditionEnd
  exact h fuel hfuel input rest hend.conditionEnd.operandEnd hinput input.length

theorem reads_not {text : List Char} {expr : RuleExpr} (h : Reads .operand text expr) :
    Reads .whole ('!' :: text) (.unary .not expr) := by
  intro fuel hfuel input rest hend hinput
  apply parseConditional_answers hend
  apply parseOr_answers hend.conditionEnd
  have htrimmed : trimmed input = '!' :: (text ++ rest) := hinput
  -- the exclamation mark is a character, so there is fuel for what stands after it
  obtain ⟨n, hn⟩ : ∃ n, input.length = n + 1 := by
    cases input with
    | nil => cases htrimmed
    | cons c after => exact ⟨after.length, rfl⟩
  have hoperand := h fuel (by rw [List.length_cons] at hfuel; omega) (text ++ rest) rest
    hend.conditionEnd.operandEnd rfl n
  show Answers _ _ _ (parseUnary byteReader (parseConditional byteReader fuel) (input.length + 1)
    input)
  rw [hn, parseUnary_not htrimmed]
  exact (hoperand.map (RuleExpr.unary .not)).congr (RuleExpr.allReadable_unary .not expr).symm

theorem token_next (op : BinaryOp) (after : List Char) :
    OperandEnd (op.token ++ after) ∧ trimmed (op.token ++ after) = op.token ++ after := by
  have htrimmed : trimmed (op.token ++ after) = op.token ++ after := by
    cases op
    all_goals rfl
  refine ⟨?_, htrimmed⟩
  intro c tail hc
  rw [htrimmed] at hc
  cases op
  all_goals
    cases hc
    decide

theorem reads_binary (op : BinaryOp) {left right : List Char} {l r : RuleExpr}
    (hleft : Reads .operand left l) (hright : Reads .operand right r)
    (hhead : HeadIs (opensOperand · = true) right) :
    Reads .whole (left ++ op.token ++ right) (.binary op l r) := by
  intro fuel hfuel input rest hend hinput
  rw [List.length_append, List.length_append] at hfuel
  apply parseConditional_answers hend
  obtain ⟨c, after, hright', hc⟩ := afterToken_of_headIs (hhead.append rest)
  obtain ⟨k, hk, hk'⟩ : ∃ k, op.level = k + 1 ∧ k < 7 := by
    cases op
    all_goals exact ⟨_, rfl, by decide⟩
  obtain ⟨htokenEnd, htokenTrimmed⟩ := token_next op (c :: after)
  have hinput' : trimmed input = trimmed (left ++ (op.token ++ c :: after)) := by
    rw [hinput, ← hright']
    simp only [List.append_assoc]
  have hl := hleft fuel (by omega) input _ htokenEnd hinput' input.length
  rw [htokenTrimmed] at hl
  have hr := hright fuel (by omega) (c :: after) rest hend.conditionEnd.operandEnd
    (by rw [hright']) (c :: after).length
  have hclosed := hend.conditionEnd.closed
  have hleftLevel := level_climb (k := 0) (j := k) (Nat.zero_le k) (by omega) hl htokenTrimmed
    fun i hi hik => nextOperator_below op hc after hi (by omega)
  have hrightLevel := level_climb (k := 0) (j := k) (Nat.zero_le k) (by omega) hr
    (trimmed_trimmed rest) fun i _ _ => nextOperator_closed hclosed i
  have hnext := nextOperator_token op hc after
  rw [hk] at hnext
  have hjoined := level_join hk' hleftLevel htokenTrimmed hnext hrightLevel hclosed
  have htop := level_climb (j := 7) hk' (le_refl 7) hjoined (trimmed_trimmed rest) fun i _ _ =>
    nextOperator_closed hclosed i
  exact htop.congr (RuleExpr.allReadable_binary op l r).symm

theorem conditionEnd_question (after : List Char) : ConditionEnd ('?' :: after) := by
  intro c tail hc
  have htrimmed : trimmed ('?' :: after) = '?' :: after := rfl
  rw [htrimmed] at hc
  cases hc
  exact .inr (.inr (.inr rfl))

theorem reads_conditional {condition whenTrue whenFalse : List Char} {c t f : RuleExpr}
    (hcondition : Reads .operand condition c) (htrue : Reads .whole whenTrue t)
    (hfalse : Reads .whole whenFalse f) :
    Reads .whole (condition ++ '?' :: whenTrue ++ ':' :: whenFalse) (.conditional c t f) := by
  intro fuel hfuel input rest hend hinput
  simp only [List.length_append, List.length_cons] at hfuel
  obtain ⟨fuel, rfl⟩ : ∃ n, fuel = n + 1 := ⟨fuel - 1, by omega⟩
  have hquestion := conditionEnd_question (whenTrue ++ ':' :: (whenFalse ++ rest))
  obtain ⟨hcolonEnd, hcolon⟩ := wholeEnd_cons (.inr (.inr rfl)) (whenFalse ++ rest)
  have hinput' : trimmed input
      = trimmed (condition ++ '?' :: (whenTrue ++ ':' :: (whenFalse ++ rest))) := by
    rw [hinput]
    simp only [List.append_assoc, List.cons_append]
  have hc := parseOr_answers hquestion (hcondition (fuel + 1) (by omega) input _ hquestion.operandEnd
    hinput' input.length)
  have ht := htrue fuel (by omega) (whenTrue ++ ':' :: (whenFalse ++ rest)) _ hcolonEnd rfl
  have hf := hfalse fuel (by omega) (whenFalse ++ rest) rest hend rfl
  rw [hcolon] at ht
  exact (parseConditional_join hc ht hf).congr (RuleExpr.allReadable_conditional c t f).symm

theorem reads_spaced {place : TextPlace} {text gap gap' : List Char} {expr : RuleExpr} (hgap : Gap gap)
    (hgap' : Gap gap') (h : Reads place text expr) : Reads place (gap ++ text ++ gap') expr := by
  have hinput (rest : List Char) :
      trimmed (gap ++ text ++ gap' ++ rest) = trimmed (text ++ (gap' ++ rest)) := by
    rw [List.append_assoc, List.append_assoc, trimmed_gap hgap]
  have hrest (rest : List Char) := trimmed_gap hgap' rest
  have hlength (fuel : Nat) (hfuel : (gap ++ text ++ gap').length ≤ fuel) : text.length ≤ fuel := by
    rw [List.length_append, List.length_append] at hfuel
    omega
  cases place with
  | operand =>
    intro fuel hfuel input rest hend htext n
    have hend' : OperandEnd (gap' ++ rest) := by
      intro c after hc
      exact hend c after (by rw [← hrest, hc])
    have hanswers := h fuel (hlength fuel hfuel) input (gap' ++ rest) hend'
      (htext.trans (hinput rest)) n
    rwa [hrest] at hanswers
  | whole =>
    intro fuel hfuel input rest hend htext
    have hend' : WholeEnd (gap' ++ rest) := by
      intro c after hc
      exact hend c after (by rw [← hrest, hc])
    have hanswers := h fuel (hlength fuel hfuel) input (gap' ++ rest) hend' (htext.trans (hinput rest))
    rwa [hrest] at hanswers

theorem infixText_reads {place : TextPlace} {text : List Char} {expr : RuleExpr}
    (h : InfixText place text expr) : Reads place text expr := by
  induction h with
  | bool value =>
    have hgood : (RuleExpr.bool value).AllReadable := (RuleExpr.allReadable_leaf rfl).mpr trivial
    cases value with
    | true => exact reads_word (by decide) hgood fun _ => parsePrimary_true
    | false => exact reads_word (by decide) hgood fun _ => parsePrimary_false
  | null =>
    exact reads_word (by decide) ((RuleExpr.allReadable_leaf rfl).mpr trivial) fun _ =>
      parsePrimary_null
  | number n => exact reads_number n
  | string hquote hvalue => exact reads_string hquote hvalue
  | @property path hne hpath =>
    obtain ⟨first, members, rfl⟩ := List.exists_cons_of_ne_nil hne
    rw [List.map_cons, separatedBy_cons, List.flatMap_map]
    exact reads_property hpath
  | call hname args hargs ih =>
    exact reads_call hname (fun arg harg => infixText_head (hargs arg harg)) ih
  | @parenthesised text expr h ih =>
    show Reads .operand ('(' :: (text ++ [')'])) expr
    apply reads_primary (by decide) (by decide)
    intro fuel hfuel rest _
    obtain ⟨fuel, rfl⟩ : ∃ n, fuel = n + 1 := ⟨fuel - 1, by omega⟩
    obtain ⟨hend, htrimmed⟩ := wholeEnd_cons (.inl rfl) rest
    have hlen : text.length ≤ fuel := by
      rw [List.length_append] at hfuel
      omega
    have hinner := ih fuel hlen (text ++ ')' :: rest) (')' :: rest) hend rfl
    rw [htrimmed] at hinner
    refine ⟨rest, rfl, ?_⟩
    have htext : '(' :: (text ++ [')']) ++ rest = '(' :: (text ++ ')' :: rest) := by simp
    rw [htext]
    exact parsePrimary_parenthesised hinner
  | operand h ih => exact reads_whole ih
  | not h ih => exact reads_not ih
  | binary op hleft hright ihleft ihright =>
    exact reads_binary op ihleft ihright (infixText_head hright)
  | conditional hcondition htrue hfalse ihcondition ihtrue ihfalse =>
    exact reads_conditional ihcondition (reads_whole ihtrue) (reads_whole ihfalse)
  | spaced hgap hgap' h ih => exact reads_spaced hgap hgap' ih

end ExprParser

/-! ## Importing printed expressions -/

theorem infixText_not_unsupported {place : TextPlace} {text : List Char} {expr : RuleExpr}
    (h : InfixText place text expr) : expr.isUnsupported = false := by
  induction h with
  | parenthesised h ih => exact ih
  | operand h ih => exact ih
  | spaced hgap hgap' h ih => exact ih
  | _ => rfl

/-- The result of an import, from that of the top production. -/
theorem parseImportedExpr_eq (text : List Char) : parseImportedExpr (String.ofList text)
    = (parseConditional byteReader (text.length + 1) text >>= fun r =>
      if r.1.isUnsupported then .ok r.1
      else if (trimmed r.2).isEmpty then .ok r.1 else invalid "trailing expression input") := by
  unfold parseImportedExpr parseExpr
  rw [String.toList_ofList]
  show (parseConditional byteReader (text.length + 1) text >>= _) = _
  cases parseConditional byteReader (text.length + 1) text with
  | error e => rfl
  | ok r => rfl

/-- A text that is read whole is imported as that expression, unless the reading is stuck. -/
theorem parseImportedExpr_reads_iff {text : List Char} {expr : RuleExpr}
    (h : ExprParser.Reads .whole text expr) (hsupported : expr.isUnsupported = false) :
    parseImportedExpr (String.ofList text) = .ok expr ↔ expr.AllReadable := by
  have hend : WholeEnd [] := by
    intro c after hc
    cases hc
  have hanswers := h text.length (Nat.le_refl _) text [] hend (by rw [List.append_nil])
  rw [parseImportedExpr_eq]
  constructor
  · intro hok
    by_contra hbad
    cases hresult : parseConditional byteReader (text.length + 1) text with
    | error e =>
      rw [hresult] at hok
      cases hok
    | ok r =>
      obtain ⟨expr', rest⟩ := r
      obtain ⟨c, after, rfl, hc⟩ := hanswers.2 hbad expr' rest hresult
      rw [hresult, Fallible.ok_bind, (closed_of_isNameChar hc after).trimmed] at hok
      split at hok
      · rename_i hunsupported
        cases hok
        rw [hsupported] at hunsupported
        cases hunsupported
      · cases hok
  · intro hgood
    rw [hanswers.1 hgood, Fallible.ok_bind, hsupported]
    rfl

/-- An expression in infix form is imported as what it was written from exactly when no path starts
with the word of a literal, and no string literal exceeds the limit. -/
theorem parseImportedExpr_infixText_iff {text : List Char} {expr : RuleExpr}
    (h : InfixText .whole text expr) :
    parseImportedExpr (String.ofList text) = .ok expr ↔ expr.AllReadable :=
  parseImportedExpr_reads_iff (infixText_reads h) (infixText_not_unsupported h)

/-- A path of one part. -/
theorem infixText_name (part : String) (h : isIdentifier part.toList = true
    ∧ Identifier.new part = some ⟨part⟩ ∧ part.toList ∉ literalWords
    ∧ mapVerapdfProperty part = part) : InfixText .operand part.toList (.property [part]) := by
  apply @InfixText.property [part] (List.cons_ne_nil _ _)
  intro other hother
  rw [List.mem_singleton.mp hother]
  exact ⟨h.1, h.2.1, h.2.2.1, h.2.2.2⟩

theorem parseImportedExpr_infixText_negated : parseImportedExpr (String.ofList "size>>(!open)".toList)
    = .ok (.binary .shr (.property ["size"]) (.unary .not (.property ["open"]))) := by
  have hsize := infixText_name "size" (by decide)
  have hopen := infixText_name "open" (by decide)
  have htext : InfixText .whole "size>>(!open)".toList
      (.binary .shr (.property ["size"]) (.unary .not (.property ["open"]))) :=
    .binary .shr hsize (.parenthesised (.not hopen))
  apply (parseImportedExpr_infixText_iff htext).mpr
  intro leaf hleaf
  simp only [RuleExpr.leaves, List.cons_append, List.nil_append, List.mem_cons, List.not_mem_nil,
    or_false] at hleaf
  rcases hleaf with rfl | rfl
  · show ∀ word ∈ literalWords, ¬ word <+: "size".toList
    decide
  · show ∀ word ∈ literalWords, ¬ word <+: "open".toList
    decide

/-- A path of one part that goes on after the word `null`. -/
theorem parseImportedExpr_infixText_lost :
    InfixText .whole "nullable".toList (.property ["nullable"])
      ∧ parseImportedExpr (String.ofList "nullable".toList)
        = .error (.invalid ⟨"trailing expression input"⟩) :=
  ⟨.operand (infixText_name "nullable" (by decide)), rfl⟩

end Pdfv
