import Pdfv.Profile.StringReading
/-!
# String literals of rule tests

A rule test is written in JavaScript, whose string literals have escapes: `LiteralPart` is a part of
such a literal, with the UTF-16 code units it stands for. The import decodes no escape, and so a
literal keeps its meaning exactly when it is written without any, in ASCII and within the limit
(`literalKept_iff`).
-/

namespace Pdfv

open ExprParser

/-! ## Literals of the source language -/

/-- The UTF-16 code units of a character. -/
def utf16Units (c : Char) : List Nat :=
  if c.toNat < 0x10000 then [c.toNat]
  else [0xD800 + (c.toNat - 0x10000) / 0x400, 0xDC00 + (c.toNat - 0x10000) % 0x400]

/-- The value of a hexadecimal digit. -/
def hexValue (c : Char) : Option Nat :=
  if c.isDigit then some (c.toNat - 48)
  else if 'a' ≤ c ∧ c ≤ 'f' then some (c.toNat - 87)
  else if 'A' ≤ c ∧ c ≤ 'F' then some (c.toNat - 55)
  else none

/-- A part of a string literal: a character of its own, a backslash and one more character, or a
code unit in hexadecimal. -/
inductive LiteralPart where
  | plain (c : Char)
  | backslash
  | single
  | double
  | newline
  | tab
  | unicode (a b c d : Char)

namespace LiteralPart

/-- How the part is written. -/
def text : LiteralPart → List Char
  | plain c => [c]
  | backslash => ['\\', '\\']
  | single => ['\\', '\'']
  | double => ['\\', '"']
  | newline => ['\\', 'n']
  | tab => ['\\', 't']
  | unicode a b c d => ['\\', 'u', a, b, c, d]

/-- The code units the part stands for. -/
def units : LiteralPart → List Nat
  | plain c => utf16Units c
  | backslash => ['\\'.toNat]
  | single => ['\''.toNat]
  | double => ['"'.toNat]
  | newline => ['\n'.toNat]
  | tab => ['\t'.toNat]
  | unicode a b c d => [[a, b, c, d].foldl (fun n c => n * 16 + (hexValue c).getD 0) 0]

/-- The part may stand between these quotation marks. -/
def Fits (quote : Char) : LiteralPart → Prop
  | plain c => c ≠ quote ∧ c ≠ '\\' ∧ c ≠ '\n' ∧ c ≠ '\r'
  | unicode a b c d => ∀ digit ∈ [a, b, c, d], (hexValue digit).isSome = true
  | _ => True

instance (quote : Char) : (piece : LiteralPart) → Decidable (piece.Fits quote)
  | plain c => inferInstanceAs (Decidable (c ≠ quote ∧ c ≠ '\\' ∧ c ≠ '\n' ∧ c ≠ '\r'))
  | unicode a b c d =>
    inferInstanceAs (Decidable (∀ digit ∈ [a, b, c, d], (hexValue digit).isSome = true))
  | backslash | single | double | newline | tab => .isTrue trivial

/-- Not an escape. -/
def isPlain : LiteralPart → Bool
  | plain _ => true
  | _ => false

end LiteralPart

/-- A string literal. -/
structure StringLiteral where
  quote : Char
  pieces : List LiteralPart
  isQuote : isQuote quote = true
  fits : ∀ piece ∈ pieces, piece.Fits quote

namespace StringLiteral

/-- What stands between the quotation marks. -/
def body (literal : StringLiteral) : List Char :=
  literal.pieces.flatMap LiteralPart.text

/-- The literal as it is written. -/
def text (literal : StringLiteral) : List Char :=
  literal.quote :: literal.body ++ [literal.quote]

/-- The literal stands for the value. -/
def Denotes (literal : StringLiteral) (value : String) : Prop :=
  literal.pieces.flatMap LiteralPart.units = value.toList.flatMap utf16Units

end StringLiteral

/-! ## Lengths in code units -/

theorem utf16Units_ascii {c : Char} (h : c.utf8Size = 1) : utf16Units c = [c.toNat] := by
  have hlt : c.toNat < 128 := of_decide_eq_true ((isAsciiChar_iff c).mpr h)
  unfold utf16Units
  rw [if_pos (by omega)]

theorem flatMap_utf16Units_ascii {chars : List Char} (h : ∀ c ∈ chars, c.utf8Size = 1) :
    chars.flatMap utf16Units = chars.map Char.toNat := by
  induction chars with
  | nil => rfl
  | cons c chars ih =>
    rw [List.flatMap_cons, utf16Units_ascii (h c List.mem_cons_self),
      ih fun c hc => h c (List.mem_cons_of_mem _ hc)]
    rfl

/-- A text of the same code units as one in ASCII. -/
theorem eq_of_utf16Units {chars ascii : List Char} (hascii : ∀ c ∈ ascii, c.utf8Size = 1)
    (h : chars.flatMap utf16Units = ascii.flatMap utf16Units) : chars = ascii := by
  induction ascii generalizing chars with
  | nil =>
    cases chars with
    | nil => rfl
    | cons c chars =>
      rw [List.flatMap_cons, utf16Units] at h
      split at h
      all_goals cases h
  | cons d ascii ih =>
    have hd := hascii d List.mem_cons_self
    have hlt : d.toNat < 128 := of_decide_eq_true ((isAsciiChar_iff d).mpr hd)
    cases chars with
    | nil =>
      rw [List.flatMap_cons, utf16Units_ascii hd] at h
      cases h
    | cons c chars =>
      rw [List.flatMap_cons, List.flatMap_cons, utf16Units_ascii hd, utf16Units] at h
      split at h
      · obtain ⟨hc, hrest⟩ := List.cons.inj h
        rw [Char.toNat_inj.mp hc, ih (fun c hc => hascii c (List.mem_cons_of_mem _ hc)) hrest]
      · have hc := (List.cons.inj h).1
        omega

namespace LiteralPart

/-- A part of ASCII has as many code units as characters, and an escape fewer. -/
theorem units_le_text {piece : LiteralPart} (h : ∀ c ∈ piece.text, c.utf8Size = 1) :
    piece.units.length ≤ piece.text.length
      ∧ (piece.isPlain = false → piece.units.length < piece.text.length) := by
  cases piece with
  | plain c =>
    have hc : utf16Units c = [c.toNat] := utf16Units_ascii (h c List.mem_cons_self)
    refine ⟨?_, fun hplain => by cases hplain⟩
    show (utf16Units c).length ≤ 1
    rw [hc]
    exact Nat.le_refl 1
  | _ => exact ⟨by simp [units, text], fun _ => by simp [units, text]⟩

theorem flatMap_units_le {pieces : List LiteralPart}
    (h : ∀ c ∈ pieces.flatMap text, c.utf8Size = 1) :
    (pieces.flatMap units).length ≤ (pieces.flatMap text).length
      ∧ ((pieces.flatMap units).length = (pieces.flatMap text).length →
        ∀ piece ∈ pieces, piece.isPlain = true) := by
  induction pieces with
  | nil => exact ⟨Nat.le_refl 0, fun _ piece hpiece => absurd hpiece List.not_mem_nil⟩
  | cons piece pieces ih =>
    simp only [List.flatMap_cons, List.length_append]
    rw [List.flatMap_cons, List.forall_mem_append] at h
    obtain ⟨hle, hlt⟩ := units_le_text h.1
    obtain ⟨hles, hplain⟩ := ih h.2
    refine ⟨by omega, fun heq => ?_⟩
    have hpiece : piece.isPlain = true := by
      cases hp : piece.isPlain with
      | true => rfl
      | false =>
        have := hlt hp
        omega
    intro other hother
    rcases List.mem_cons.mp hother with rfl | hother
    · exact hpiece
    · exact hplain (by omega) other hother

end LiteralPart

/-! ## Delimiting calls -/

/-- Between the literals of a call. -/
def CallScan.Outside (state : CallScan) : Prop :=
  state.quote = none ∧ state.regex = false ∧ state.escaped = false

/-- What is read, with a text before it. -/
def readAfter {π : Type} (text : List Char) (r : Except (ParseStop π) (List Char × List Char)) :
    Except (ParseStop π) (List Char × List Char) :=
  r.map fun r => (text ++ r.1, r.2)

theorem scanBytes_cons {σ : Type} {step : σ → Char → Option σ} {state state' : σ} {c : Char}
    (hstep : step state c = some state') (hsize : c.utf8Size = 1) (unterminated : String)
    (rest : List Char) : scanBytes step unterminated state (c :: rest)
      = readAfter [c] (scanBytes step unterminated state' rest) := by
  rw [scanBytes, hstep]
  dsimp only
  rw [if_pos hsize]
  cases scanBytes step unterminated state' rest with
  | error e => rfl
  | ok r => rfl

theorem readAfter_nil {π : Type} (r : Except (ParseStop π) (List Char × List Char)) :
    readAfter [] r = r := by
  cases r with
  | error e => rfl
  | ok r => rfl

theorem readAfter_readAfter {π : Type} (text text' : List Char)
    (r : Except (ParseStop π) (List Char × List Char)) :
    readAfter text (readAfter text' r) = readAfter (text ++ text') r := by
  cases r with
  | error e => rfl
  | ok r =>
    show Except.ok (text ++ (text' ++ r.1), r.2) = Except.ok (text ++ text' ++ r.1, r.2)
    rw [List.append_assoc]

/-- The scanner of a call inside a string literal. -/
def CallScan.inside (quote : Char) (state : CallScan) : CallScan :=
  { state with quote := some quote, escaped := false }

section Inside

variable {state : CallScan} {quote : Char} (unterminated : String)

theorem scan_plain {c : Char} (hquote : c ≠ quote) (hbackslash : c ≠ '\\') (hsize : c.utf8Size = 1)
    (rest : List Char) : scanBytes callStep unterminated (state.inside quote) (c :: rest)
      = readAfter [c] (scanBytes callStep unterminated (state.inside quote) rest) := by
  apply scanBytes_cons _ hsize
  have hnext : nextEscaped c false = false := by
    cases h : nextEscaped c false with
    | false => rfl
    | true =>
      simp only [nextEscaped, Bool.not_false, Bool.and_true, decide_eq_true_eq] at h
      exact absurd (Char.toNat_inj.mp h) hbackslash
  show some { state with
    quote := if (c = quote && !false) = true then none else some quote
    escaped := nextEscaped c false } = _
  rw [hnext, if_neg (by simp [hquote])]
  rfl

theorem scan_escape (hquote : isQuote quote = true) {c : Char} (hsize : c.utf8Size = 1)
    (rest : List Char) : scanBytes callStep unterminated (state.inside quote) ('\\' :: c :: rest)
      = readAfter ['\\', c] (scanBytes callStep unterminated (state.inside quote) rest) := by
  have hbackslash : '\\' ≠ quote := by
    rintro rfl
    exact absurd hquote (by decide)
  have hfirst : callStep (state.inside quote) '\\'
      = some { state with quote := some quote, escaped := true } := by
    show some { state with
      quote := if ('\\' = quote && !false) = true then none else some quote
      escaped := nextEscaped '\\' false } = _
    rw [if_neg (by simp [hbackslash])]
    rfl
  have hsecond : callStep { state with quote := some quote, escaped := true } c
      = some (state.inside quote) := by
    show some { state with
      quote := if (c = quote && !true) = true then none else some quote
      escaped := nextEscaped c true } = _
    rw [if_neg (by simp)]
    simp [nextEscaped, CallScan.inside]
  rw [scanBytes_cons hfirst (by decide), scanBytes_cons hsecond hsize, readAfter_readAfter]
  rfl

theorem not_special_of_hexValue {c : Char} (h : (hexValue c).isSome = true) :
    isQuote c = false ∧ c ≠ '\\' := by
  refine ⟨?_, ?_⟩
  · cases hq : isQuote c with
    | false => rfl
    | true =>
      rcases isQuote_cases hq with rfl | rfl
      all_goals exact absurd h (by decide)
  · rintro rfl
    exact absurd h (by decide)

/-- Inside a literal the scanner of a call passes over a part as a whole. -/
theorem scan_piece (hquote : isQuote quote = true) {piece : LiteralPart}
    (hfits : piece.Fits quote) (hascii : ∀ c ∈ piece.text, c.utf8Size = 1) (rest : List Char) :
    scanBytes callStep unterminated (state.inside quote) (piece.text ++ rest)
      = readAfter piece.text (scanBytes callStep unterminated (state.inside quote) rest) := by
  cases piece with
  | plain c => exact scan_plain _ hfits.1 hfits.2.1 (hascii c List.mem_cons_self) rest
  | unicode a b c d =>
    have hdigit (digit : Char) (hmem : digit ∈ [a, b, c, d]) (after : List Char) :
        scanBytes callStep unterminated (state.inside quote) (digit :: after)
          = readAfter [digit] (scanBytes callStep unterminated (state.inside quote) after) := by
      obtain ⟨hnot, hbackslash⟩ := not_special_of_hexValue (hfits digit hmem)
      refine scan_plain _ ?_ hbackslash (hascii digit ?_) after
      · rintro rfl
        rw [hquote] at hnot
        cases hnot
      · exact List.mem_cons_of_mem _ (List.mem_cons_of_mem _ hmem)
    show scanBytes callStep unterminated _ ('\\' :: 'u' :: a :: b :: c :: d :: rest) = _
    rw [scan_escape _ hquote (by decide), hdigit a (by simp), hdigit b (by simp), hdigit c (by simp),
      hdigit d (by simp), readAfter_readAfter, readAfter_readAfter, readAfter_readAfter,
      readAfter_readAfter]
    rfl
  | _ => exact scan_escape _ hquote (by decide) rest

theorem scan_pieces (hquote : isQuote quote = true) {pieces : List LiteralPart}
    (hfits : ∀ piece ∈ pieces, piece.Fits quote)
    (hascii : ∀ c ∈ pieces.flatMap LiteralPart.text, c.utf8Size = 1) (rest : List Char) :
    scanBytes callStep unterminated (state.inside quote) (pieces.flatMap LiteralPart.text ++ rest)
      = readAfter (pieces.flatMap LiteralPart.text)
        (scanBytes callStep unterminated (state.inside quote) rest) := by
  induction pieces with
  | nil => exact (readAfter_nil _).symm
  | cons piece pieces ih =>
    rw [List.flatMap_cons, List.forall_mem_append] at hascii
    rw [List.flatMap_cons, List.append_assoc,
      scan_piece _ hquote (hfits piece List.mem_cons_self) hascii.1,
      ih (fun piece hpiece => hfits piece (List.mem_cons_of_mem _ hpiece)) hascii.2,
      readAfter_readAfter]

end Inside

/-- The scanner of a call passes over a literal in ASCII as a whole, escapes included. -/
theorem StringLiteral.delimited (literal : StringLiteral) (hascii : ∀ c ∈ literal.body, c.utf8Size = 1)
    {state : CallScan} (hstate : state.Outside) (unterminated : String) (rest : List Char) :
    scanBytes callStep unterminated state (literal.text ++ rest)
      = readAfter literal.text (scanBytes callStep unterminated state rest) := by
  obtain ⟨depth, quote, regex, escaped⟩ := state
  obtain ⟨rfl, rfl, rfl⟩ := hstate
  have hsize : literal.quote.utf8Size = 1 := by
    rcases isQuote_cases literal.isQuote with h | h
    all_goals
      rw [h]
      decide
  have hopen : callStep ⟨depth, none, false, false⟩ literal.quote
      = some (CallScan.inside literal.quote ⟨depth, none, false, false⟩) := by
    show (if Pdfv.isQuote literal.quote = true then _ else _) = _
    rw [if_pos literal.isQuote]
    rfl
  have hclose : callStep (CallScan.inside literal.quote ⟨depth, none, false, false⟩) literal.quote
      = some ⟨depth, none, false, false⟩ := by
    have hescaped : nextEscaped literal.quote false = false := by
      rcases isQuote_cases literal.isQuote with h | h
      all_goals
        rw [h]
        decide
    show some (CallScan.mk depth (if (literal.quote = literal.quote && !false) = true then none
      else some literal.quote) false (nextEscaped literal.quote false)) = _
    rw [hescaped, if_pos (by simp)]
  have htext : literal.text ++ rest
      = literal.quote :: (literal.body ++ literal.quote :: rest) := by
    simp [text]
  rw [htext, scanBytes_cons hopen hsize, body,
    scan_pieces _ literal.isQuote literal.fits hascii, scanBytes_cons hclose hsize,
    readAfter_readAfter, readAfter_readAfter]
  congr 1

/-! ## Searching for a literal -/

/-- The methods that search for their argument. -/
def searchMethods : List (String × BuiltinFunction) :=
  [("indexOf", .indexOf), ("contains", .contains)]

namespace ExprParser

theorem parseProperty_receiver {conditional : ExprParser SlicePanic RuleExpr} {receiver : String}
    (hreceiver : PlainPart receiver) {method : List Char} (hne : method ≠ [])
    (hmethod : ∀ c ∈ method, isNameChar c = true) (after : List Char) :
    parseProperty conditional (receiver.toList ++ '.' :: (method ++ '(' :: after))
      = .ok (.property [receiver], '.' :: (method ++ '(' :: after)) := by
  have hopen : ¬ ['('] <+: trimmed ('.' :: (method ++ '(' :: after)) := not_prefix_cons (by decide)
  have hdot : trimmed ('.' :: (method ++ '(' :: after)) = ['.'] ++ (method ++ '(' :: after) := rfl
  unfold parseProperty
  rw [bind_ok (parseIdentifier_name hreceiver.toList_ne_nil hreceiver.isNameChar _),
    bind_ok (consume_miss hopen), if_neg (by decide), String.ofList_toList, hreceiver.property,
    lift_bind, get_bind]
  · have hloop (fuel : Nat) : (membersLoop (fuel + 1) [receiver] : ExprParser SlicePanic _)
        (trimmed ('.' :: (method ++ '(' :: after)))
          = .ok ([receiver], '.' :: (method ++ '(' :: after)) := by
      have hnext : ∀ c tail, '(' :: after = c :: tail → isNameChar c = false := by
        intro c tail h
        cases h
        rfl
      unfold membersLoop
      rw [bind_ok (consume_hit (by rw [trimmed_trimmed, hdot])), if_pos rfl, get_bind,
        bind_ok (parseIdentifier_name hne hmethod hnext), get_bind, bind_ok (skipWs_eq _), get_bind,
        if_pos (show (trimmed ('(' :: after)).head? = some '(' from rfl), set_bind]
      rfl
    rw [bind_ok (hloop _)]
    rfl
  · intro c tail h
    cases h
    rfl

theorem methodCallExpr_search {receiver literal : RuleExpr} {method : String}
    {function : BuiltinFunction} (h : (method, function) ∈ searchMethods) :
    (methodCallExpr receiver method [literal] : Except (ParseStop π) _)
      = .ok (.call function [receiver, literal]) := by
  simp only [searchMethods, List.mem_cons, List.not_mem_nil, or_false, Prod.mk.injEq] at h
  rcases h with ⟨rfl, rfl⟩ | ⟨rfl, rfl⟩
  all_goals simp [methodCallExpr, receiverFirstCall]

theorem searchMethods_name {method : String} {function : BuiltinFunction}
    (h : (method, function) ∈ searchMethods) : method.toList ≠ []
      ∧ (∀ c ∈ method.toList, isNameChar c = true) ∧ method ≠ "filter" ∧ method ≠ "findIndex" := by
  simp only [searchMethods, List.mem_cons, List.not_mem_nil, or_false, Prod.mk.injEq] at h
  rcases h with ⟨rfl, rfl⟩ | ⟨rfl, rfl⟩
  all_goals decide

/-- A call of a searching method, after the receiver. -/
theorem postfixStep_search {conditional : ExprParser SlicePanic RuleExpr} {receiver : RuleExpr}
    {method : String} {function : BuiltinFunction} (hmethod : (method, function) ∈ searchMethods)
    {literal : List Char} {value : BoundedText} (hhead : HeadIs (Opens .whole) literal)
    (hliteral : ReadsWhole conditional literal (.string value))
    (hlimit : (RuleExpr.string value).AllReadable) (rest : List Char) :
    postfixStep byteReader conditional receiver
        ('.' :: (method.toList ++ '(' :: (literal ++ ')' :: rest)))
      = .ok (some (.call function [receiver, .string value]), rest) := by
  obtain ⟨hne, hname, hfilter, hfind⟩ := searchMethods_name hmethod
  have hdot : trimmed ('.' :: (method.toList ++ '(' :: (literal ++ ')' :: rest)))
      = ['.'] ++ (method.toList ++ '(' :: (literal ++ ')' :: rest)) := rfl
  have hopen : trimmed ('(' :: (literal ++ ')' :: rest)) = ['('] ++ (literal ++ ')' :: rest) := rfl
  have hnext : ∀ c tail, '(' :: (literal ++ ')' :: rest) = c :: tail → isNameChar c = false := by
    intro c tail h
    cases h
    rfl
  have hargs : parseCallArgsAfterOpen conditional (literal ++ ')' :: rest)
      = .ok ([.string value], rest) := by
    apply (@parseCallArgs_args _ _ [(literal, .string value)] _ _ rest).1
    · exact fun arg harg => by rwa [List.mem_singleton.mp harg]
    · exact fun arg harg => by rwa [List.mem_singleton.mp harg]
    · exact fun arg harg => by rwa [List.mem_singleton.mp harg]
  have hcall : parseMethodCall byteReader conditional receiver method (literal ++ ')' :: rest)
      = .ok (.call function [receiver, .string value], rest) := by
    unfold parseMethodCall
    rw [if_neg hfilter, if_neg hfind, bind_ok hargs, methodCallExpr_search hmethod]
    rfl
  unfold postfixStep
  rw [bind_ok (consume_hit hdot), if_pos rfl, bind_ok (parseIdentifier_name hne hname hnext),
    bind_ok (consume_hit hopen), if_pos rfl, String.ofList_toList, bind_ok hcall]
  rfl

theorem allReadable_search {receiver : String} (hwordless : Wordless receiver.toList)
    {value : BoundedText} (hlimit : (RuleExpr.string value).AllReadable)
    (function : BuiltinFunction) :
    (RuleExpr.call function [.property [receiver], .string value]).AllReadable := by
  intro leaf hleaf
  simp only [RuleExpr.leaves, RuleExpr.listLeaves, List.append_nil, List.cons_append,
    List.nil_append, List.mem_cons, List.not_mem_nil, or_false] at hleaf
  rcases hleaf with rfl | rfl
  · exact hwordless
  · exact hlimit _ List.mem_cons_self

/-- A search of a property for a literal that can be read. -/
theorem reads_search {receiver : String} (hreceiver : PlainPart receiver)
    (hwordless : Wordless receiver.toList) {method : String} {function : BuiltinFunction}
    (hmethod : (method, function) ∈ searchMethods) {literal : List Char} {value : BoundedText}
    (hhead : HeadIs (Opens .whole) literal) (hliteral : Reads .whole literal (.string value))
    (hlimit : (RuleExpr.string value).AllReadable) :
    Reads .operand (receiver.toList ++ '.' :: (method.toList ++ '(' :: (literal ++ [')'])))
      (.call function [.property [receiver], .string value]) := by
  intro fuel hfuel input rest hend hinput n
  refine .good (allReadable_search hwordless hlimit function) ?_
  simp only [List.length_append, List.length_cons] at hfuel
  obtain ⟨fuel, rfl⟩ : ∃ n, fuel = n + 1 := ⟨fuel - 1, by omega⟩
  obtain ⟨c, tail, hcons⟩ := List.exists_cons_of_ne_nil hreceiver.toList_ne_nil
  have hc : isNameChar c = true := hreceiver.isNameChar c (by rw [hcons]; exact List.mem_cons_self)
  have hdigit : ¬ (c.isDigit || c = '-') = true := by
    apply @isIdentifier_head c tail
    rw [← hcons]
    exact hreceiver.identifier
  obtain ⟨hne, hname, -, -⟩ := searchMethods_name hmethod
  have htext : receiver.toList ++ '.' :: (method.toList ++ '(' :: (literal ++ [')'])) ++ rest
      = receiver.toList ++ '.' :: (method.toList ++ '(' :: (literal ++ ')' :: rest)) := by
    simp
  have hprimary : parsePrimary byteReader (parseConditional byteReader (fuel + 1))
      (receiver.toList ++ '.' :: (method.toList ++ '(' :: (literal ++ ')' :: rest)))
        = .ok (.property [receiver], '.' :: (method.toList ++ '(' :: (literal ++ ')' :: rest))) := by
    have hproperty := @parseProperty_receiver (parseConditional byteReader (fuel + 1)) receiver
      hreceiver method.toList hne hname (literal ++ ')' :: rest)
    have hword : Wordless
        (receiver.toList ++ '.' :: (method.toList ++ '(' :: (literal ++ ')' :: rest))) := by
      intro word hword hstart
      refine hwordless word hword (prefix_of_append (literalWords_isNameChar word hword) ?_ hstart)
      intro c tail h
      cases h
      rfl
    rw [hcons, List.cons_append] at hproperty hword ⊢
    rw [parsePrimary_wordless hc hword, if_neg hdigit]
    exact hproperty
  have hstep := @postfixStep_search (parseConditional byteReader (fuel + 1)) (.property [receiver])
    _ _ hmethod _ _ hhead (hliteral fuel (by omega)) hlimit rest
  have htrimmed : trimmed input
      = c :: (tail ++ '.' :: (method.toList ++ '(' :: (literal ++ ')' :: rest))) := by
    rw [hinput, htext, hcons]
    exact trimmed_cons (closed_of_isNameChar hc tail c tail rfl).1 _
  have hnot : c ≠ '!' := by
    rintro rfl
    exact absurd hc (by decide)
  rw [parseUnary_plain htrimmed hnot]
  rw [hcons, List.cons_append] at hprimary
  unfold parsePostfix chain
  rw [bind_ok hprimary, get_bind, repeatWhile, bind_ok hstep]
  exact postfix_stop hend.not_dot _ _

end ExprParser

/-! ## Literals that keep their meaning -/

/-- The value of a test, evaluated on its own. -/
def importedValue (context : EvalContext) (text : List Char) : Option ModelValue := do
  let expr ← (parseImportedExpr (String.ofList text)).toOption
  let result ← ((evalExpr context 0 expr).run 0).toOption
  return result.1

/-- The test `receiver.method(literal)`. -/
def searchTest (receiver method : String) (literal : List Char) : List Char :=
  receiver.toList ++ '.' :: (method.toList ++ '(' :: (literal ++ [')']))

/-- A literal is imported as the value, a call that contains it ends where it would end without it,
and a search for it is a search for the value. -/
structure StringLiteral.Keeps (literal : StringLiteral) (value : String) : Prop where
  imported : parseImportedExpr (String.ofList literal.text) = .ok (.string ⟨value⟩)
  delimited : ∀ (state : CallScan) (unterminated : String) (rest : List Char), state.Outside →
    scanBytes callStep unterminated state (literal.text ++ rest)
      = readAfter literal.text (scanBytes callStep unterminated state rest)
  indexOf : ∀ (receiver : String) (context : EvalContext) (haystack : BoundedText),
    PlainPart receiver → Wordless receiver.toList → 0 < context.maxObjectDepth →
    context.property [receiver] = .ok (.string haystack) →
    importedValue context (searchTest receiver "indexOf" literal.text)
      = (i64ToF64 (indexOrNone (findText haystack.text value))).toOption.map .number
  contains : ∀ (receiver : String) (context : EvalContext) (haystack : BoundedText),
    PlainPart receiver → Wordless receiver.toList → 0 < context.maxObjectDepth →
    context.property [receiver] = .ok (.string haystack) →
    importedValue context (searchTest receiver "contains" literal.text)
      = some (.bool (findText haystack.text value).isSome)

/-! ## Evaluating a search -/

section Evaluation

variable {context : EvalContext} {depth n : Nat}

theorem eval_bind_ok {α β : Type} {x : Eval α} {f : α → Eval β} {n' : Nat} {a : α}
    (h : x n = .ok (a, n')) : (x >>= f) n = f a n' := by
  show (x n >>= fun r => f r.1 r.2) = _
  rw [h]
  rfl

theorem chargeInstruction_ok (hn : n < maxRuleInstructions) (hdepth : depth ≤ maxRuleDepth)
    (hobject : depth ≤ context.maxObjectDepth) :
    chargeInstruction context depth n = .ok ((), n + 1) := by
  unfold chargeInstruction
  rw [(Fallible.failIf_eq_ok (u := ())).mpr (by omega), (Fallible.failIf_eq_ok (u := ())).mpr]
  · rfl
  · simp only [Bool.or_eq_true, decide_eq_true_eq]
    omega

theorem evalExpr_string (hn : n < maxRuleInstructions) (hdepth : depth ≤ maxRuleDepth)
    (hobject : depth ≤ context.maxObjectDepth) (text : BoundedText) :
    evalExpr context depth (.string text) n = .ok (.string text, n + 1) := by
  unfold evalExpr
  exact eval_bind_ok (chargeInstruction_ok hn hdepth hobject)

theorem evalExpr_property (hn : n < maxRuleInstructions) (hdepth : depth ≤ maxRuleDepth)
    (hobject : depth ≤ context.maxObjectDepth) {path : PropertyPath} {value : ModelValue}
    (h : context.property path = .ok value) :
    evalExpr context depth (.property path) n = .ok (value, n + 1) := by
  unfold evalExpr
  rw [eval_bind_ok (chargeInstruction_ok hn hdepth hobject), h]
  rfl

/-- A built-in function of a property and a literal. -/
theorem evalExpr_search {receiver : String} {function : BuiltinFunction}
    (hshape : function.shape = .two) {haystack value : BoundedText}
    (hdepth : 0 < context.maxObjectDepth)
    (hproperty : context.property [receiver] = .ok (.string haystack)) :
    evalExpr context 0 (.call function [.property [receiver], .string value]) 0
      = (applyBinaryCall context function (.string haystack) (.string value)).map fun v => (v, 3) := by
  unfold evalExpr
  rw [eval_bind_ok (chargeInstruction_ok (by decide) (by decide) (Nat.zero_le _)), hshape]
  dsimp only
  rw [eval_bind_ok (evalExpr_property (by decide) (by decide) hdepth hproperty),
    eval_bind_ok (evalExpr_string (by decide) (by decide) hdepth value)]
  cases applyBinaryCall context function (.string haystack) (.string value) with
  | error e => rfl
  | ok v => rfl

end Evaluation

theorem importedValue_search {context : EvalContext} {receiver method : String}
    {function : BuiltinFunction} (hshape : function.shape = .two) {haystack value : BoundedText}
    (hdepth : 0 < context.maxObjectDepth)
    (hproperty : context.property [receiver] = .ok (.string haystack)) {literal : List Char}
    (himported : parseImportedExpr (String.ofList (searchTest receiver method literal))
      = .ok (.call function [.property [receiver], .string value])) :
    importedValue context (searchTest receiver method literal)
      = (applyBinaryCall context function (.string haystack) (.string value)).toOption := by
  unfold importedValue
  rw [himported]
  have heval := @evalExpr_search context receiver function hshape haystack value hdepth hproperty
  show (((evalExpr context 0 _).run 0).toOption >>= fun result => some result.1) = _
  rw [show (evalExpr context 0 _).run 0 = _ from heval]
  cases applyBinaryCall context function (.string haystack) (.string value) with
  | error e => rfl
  | ok v => rfl

namespace StringLiteral

variable {literal : StringLiteral} {value : String}

theorem headIs (literal : StringLiteral) : HeadIs (Opens .whole) literal.text :=
  headIs_cons (isBlank_of_isQuote literal.isQuote)
    (.inl (by simp [opensOperand, literal.isQuote])) _

theorem flatMap_units_plain {pieces : List LiteralPart}
    (hplain : ∀ piece ∈ pieces, piece.isPlain = true) :
    (pieces.flatMap LiteralPart.text).flatMap utf16Units = pieces.flatMap LiteralPart.units := by
  induction pieces with
  | nil => rfl
  | cons piece pieces ih =>
    rw [List.flatMap_cons, List.flatMap_cons, List.flatMap_append,
      ih fun piece hpiece => hplain piece (List.mem_cons_of_mem _ hpiece)]
    have hpiece := hplain piece List.mem_cons_self
    cases piece with
    | plain c =>
      show (utf16Units c ++ []) ++ _ = utf16Units c ++ _
      rw [List.append_nil]
    | _ => cases hpiece

/-- A literal without escapes is written as the value itself. -/
theorem body_of_plain (hplain : ∀ piece ∈ literal.pieces, piece.isPlain = true)
    (hascii : ∀ c ∈ value.toList, c.utf8Size = 1) (hvalue : literal.Denotes value) :
    literal.body = value.toList := by
  apply eq_of_utf16Units hascii
  rw [← hvalue]
  exact flatMap_units_plain hplain

theorem not_quote_of_plain (hplain : ∀ piece ∈ literal.pieces, piece.isPlain = true) :
    ∀ c ∈ literal.body, c ≠ literal.quote := by
  intro c hc
  obtain ⟨piece, hpiece, hmem⟩ := List.mem_flatMap.mp hc
  have hp := hplain piece hpiece
  have hfits := literal.fits piece hpiece
  cases piece with
  | plain d =>
    rw [List.mem_singleton.mp hmem]
    exact hfits.1
  | _ => cases hp

/-- The condition is enough. -/
theorem keeps_of_plain (hvalue : literal.Denotes value)
    (hplain : ∀ piece ∈ literal.pieces, piece.isPlain = true)
    (hascii : ∀ c ∈ value.toList, isAsciiChar c = true)
    (hlimit : (utf8 value).length ≤ maxProfileStringBytes) : literal.Keeps value := by
  have hsize : ∀ c ∈ value.toList, c.utf8Size = 1 := fun c hc => (isAsciiChar_iff c).mp (hascii c hc)
  have hbody := literal.body_of_plain hplain hsize hvalue
  have hquoted : ∀ c ∈ value.toList, c.utf8Size = 1 ∧ c ≠ literal.quote := by
    intro c hc
    refine ⟨hsize c hc, ?_⟩
    rw [← hbody] at hc
    exact literal.not_quote_of_plain hplain c hc
  have hreads : ExprParser.Reads .whole literal.text (.string ⟨value⟩) := by
    unfold text
    rw [hbody]
    exact reads_whole (reads_quoted literal.isQuote hquoted)
  have hgood : (RuleExpr.string ⟨value⟩).AllReadable := (RuleExpr.allReadable_leaf rfl).mpr hlimit
  have hsearch {receiver : String} (hreceiver : PlainPart receiver)
      (hwordless : Wordless receiver.toList) {method : String} {function : BuiltinFunction}
      (hmethod : (method, function) ∈ searchMethods) :
      parseImportedExpr (String.ofList (searchTest receiver method literal.text))
        = .ok (.call function [.property [receiver], .string ⟨value⟩]) :=
    (parseImportedExpr_reads_iff (reads_whole (reads_search hreceiver hwordless hmethod literal.headIs
      hreads hgood)) rfl).mpr (allReadable_search hwordless hgood function)
  refine ⟨(parseImportedExpr_reads_iff hreads rfl).mpr hgood, ?_, ?_, ?_⟩
  · intro state unterminated rest hstate
    exact literal.delimited (by rwa [hbody]) hstate unterminated rest
  · intro receiver context haystack hreceiver hwordless hdepth hproperty
    rw [importedValue_search rfl hdepth hproperty
      (hsearch hreceiver hwordless (show ("indexOf", BuiltinFunction.indexOf) ∈ searchMethods from
        List.mem_cons_self))]
    show (i64ToF64 _ >>= fun index => Except.ok (ModelValue.number index)).toOption = _
    cases i64ToF64 (indexOrNone (findText haystack.text value)) with
    | error e => rfl
    | ok index => rfl
  · intro receiver context haystack hreceiver hwordless hdepth hproperty
    rw [importedValue_search rfl hdepth hproperty
      (hsearch hreceiver hwordless (show ("contains", BuiltinFunction.contains) ∈ searchMethods from
        List.mem_cons_of_mem _ List.mem_cons_self))]
    rfl

/-- What is imported as the value is written without escapes. -/
theorem plain_of_imported (hvalue : literal.Denotes value)
    (h : parseImportedExpr (String.ofList literal.text) = .ok (.string ⟨value⟩)) :
    (∀ piece ∈ literal.pieces, piece.isPlain = true) ∧ (∀ c ∈ value.toList, isAsciiChar c = true)
      ∧ (utf8 value).length ≤ maxProfileStringBytes := by
  obtain ⟨htext, hascii, hlimit⟩ := parseImportedExpr_string literal.isQuote h
  have hbody : value.toList = literal.body := by
    have hvalue' : value = String.ofList literal.body := congrArg BoundedText.text htext
    rw [hvalue', String.toList_ofList]
  refine ⟨?_, ?_, hlimit⟩
  · apply (LiteralPart.flatMap_units_le hascii).2
    have hlength := congrArg List.length hvalue
    rw [hlength, hbody, flatMap_utf16Units_ascii hascii, List.length_map]
    rfl
  · intro c hc
    rw [hbody] at hc
    exact (isAsciiChar_iff c).mpr (hascii c hc)

end StringLiteral

/-- A string literal keeps its meaning exactly when it is written without escapes, in ASCII, and
within the limit. -/
theorem literalKept_iff {literal : StringLiteral} {value : String} (h : literal.Denotes value) :
    literal.Keeps value ↔ (∀ piece ∈ literal.pieces, piece.isPlain = true)
      ∧ (∀ c ∈ value.toList, isAsciiChar c = true)
      ∧ (utf8 value).length ≤ maxProfileStringBytes :=
  ⟨fun hkeeps => literal.plain_of_imported h hkeeps.imported, fun ⟨hplain, hascii, hlimit⟩ =>
    literal.keeps_of_plain h hplain hascii hlimit⟩

theorem artifact_fits : ∀ piece ∈ "Artifact".toList.map LiteralPart.plain, piece.Fits '\'' := by
  decide

/-- `'Artifact'`. -/
def artifactLiteral : StringLiteral :=
  ⟨'\'', "Artifact".toList.map .plain, isQuote_apostrophe, artifact_fits⟩

theorem artifactLiteral_kept : artifactLiteral.Keeps "Artifact" :=
  (literalKept_iff (show artifactLiteral.Denotes "Artifact" from rfl)).mpr
    ⟨by decide, by decide, by decide⟩

theorem byteOrderMark_fits :
    ∀ piece ∈ [LiteralPart.unicode 'F' 'E' 'F' 'F'], piece.Fits '"' := by
  decide

/-- `"\uFEFF"`. -/
def byteOrderMarkLiteral : StringLiteral :=
  ⟨'"', [.unicode 'F' 'E' 'F' 'F'], rfl, byteOrderMark_fits⟩

/-- The literal of a byte order mark is imported as the six characters it is written with. -/
theorem byteOrderMarkLiteral_lost : byteOrderMarkLiteral.Denotes "\uFEFF"
    ∧ parseImportedExpr (String.ofList byteOrderMarkLiteral.text) = .ok (.string ⟨"\\uFEFF"⟩)
    ∧ ¬ byteOrderMarkLiteral.Keeps "\uFEFF" := by
  have hraw : parseImportedExpr (String.ofList byteOrderMarkLiteral.text)
      = .ok (.string ⟨"\\uFEFF"⟩) := rfl
  refine ⟨rfl, hraw, fun hkeeps => ?_⟩
  have hvalue := hraw.symm.trans hkeeps.imported
  simp only [Except.ok.injEq, RuleExpr.string.injEq, BoundedText.mk.injEq] at hvalue
  exact absurd hvalue (by decide)

end Pdfv
