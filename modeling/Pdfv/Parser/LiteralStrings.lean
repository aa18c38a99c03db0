import Pdfv.Basic.Numerals
import Pdfv.Parser.Reading
import Mathlib.Tactic.ByContra
/-!
# Literal strings

The texts of literal strings by their pieces (`StringPiece`): bytes, balanced parentheses, escapes, octal
escapes, line continuations and line ends. The parser reads one token at a time, a byte, a parenthesis
or a backslash with the byte after it (`LiteralToken`): to it an octal escape is an escaped digit and
more digits, and a line end is its bytes. It decodes exactly the strings without such pieces.
-/

namespace Pdfv

open Loop Fallible

/-! ## Tokens and pieces -/

/-- What one pass of the parser's loop reads. -/
inductive LiteralToken where
  | byte (b : UInt8)
  | opening
  | closing
  | escape (c : UInt8)
deriving DecidableEq

namespace LiteralToken

def text : LiteralToken → Bytes
  | byte b => [b]
  | opening => [40]
  | closing => [41]
  | escape c => [92, c]

/-- The byte of a token; the escapes of one letter stand for control characters, and before any other
byte the backslash is ignored. -/
def bytes : LiteralToken → Bytes
  | byte b => [b]
  | opening => [40]
  | closing => [41]
  | escape c => [([(110, 10), (114, 13), (116, 9), (98, 8), (102, 12)].lookup c).getD c]

/-- A byte token is neither a backslash nor a parenthesis. -/
def WellFormed : LiteralToken → Prop
  | byte b => b ≠ 92 ∧ b ≠ 40 ∧ b ≠ 41
  | _ => True

/-- An opening or closing parenthesis. -/
def paren : LiteralToken → Option Bool
  | opening => some true
  | closing => some false
  | _ => none

end LiteralToken

/-- An octal digit. -/
def isOctalDigit (b : UInt8) : Bool :=
  48 ≤ b && b ≤ 55

/-- A piece of a literal string. -/
inductive StringPiece where
  | token (token : LiteralToken)
  /-- A backslash and one to three octal digits. -/
  | octal (digits : Bytes)
  /-- A backslash and a line end. -/
  | continuation (eol : Bytes)
  /-- A line end that starts with CR; a line end that is LF is a byte. -/
  | lineEnd (eol : Bytes)

namespace StringPiece

def text : StringPiece → Bytes
  | token t => t.text
  | octal digits => 92 :: digits
  | continuation eol => 92 :: eol
  | lineEnd eol => eol

/-- The bytes a piece stands for. A high-order overflow of an octal escape is ignored. -/
def bytes : StringPiece → Bytes
  | token t => t.bytes
  | octal digits => [UInt8.ofNat (Positional.value 8 (digits.map fun d => d.toNat - 48))]
  | continuation _ => []
  | lineEnd _ => [10]

def WellFormed : StringPiece → Prop
  | token (.byte b) => b ≠ 92 ∧ b ≠ 40 ∧ b ≠ 41 ∧ b ≠ 13
  | token (.escape c) => isOctalDigit c = false ∧ c ≠ 10 ∧ c ≠ 13
  | token _ => True
  | octal digits => 1 ≤ digits.length ∧ digits.length ≤ 3 ∧ ∀ d ∈ digits, isOctalDigit d = true
  | continuation eol => eol = [10] ∨ eol = [13] ∨ eol = [13, 10]
  | lineEnd eol => eol = [13] ∨ eol = [13, 10]

/-- The text after a piece does not belong to it. -/
def Ends (after : Bytes) : StringPiece → Prop
  | token _ => True
  | octal digits => digits.length = 3 ∨ ∀ b, after.head? = some b → isOctalDigit b = false
  | continuation eol => eol = [13] → after.head? ≠ some 10
  | lineEnd eol => eol = [13] → after.head? ≠ some 10

def paren : StringPiece → Option Bool
  | token t => t.paren
  | _ => none

/-- The piece as the parser reads it. -/
def tokens : StringPiece → List LiteralToken
  | token t => [t]
  | octal [] => []
  | octal (d :: digits) => .escape d :: digits.map .byte
  | continuation [] => []
  | continuation (b :: eol) => .escape b :: eol.map .byte
  | lineEnd eol => eol.map .byte

def isToken : StringPiece → Bool
  | token _ => true
  | _ => false

end StringPiece

/-- Parentheses are balanced from a depth on. -/
def balancedParens : Nat → List Bool → Bool
  | depth, [] => depth = 0
  | depth, true :: parens => balancedParens (depth + 1) parens
  | depth, false :: parens => 0 < depth && balancedParens (depth - 1) parens

/-- The greatest depth of parentheses from a depth on. -/
def deepestParen : Nat → List Bool → Nat
  | depth, [] => depth
  | depth, true :: parens => deepestParen (depth + 1) parens
  | depth, false :: parens => max depth (deepestParen (depth - 1) parens)

/-- Each piece ends where the text after it begins. -/
def PiecesEnd : List StringPiece → Prop
  | [] => True
  | piece :: pieces => piece.Ends (pieces.flatMap StringPiece.text) ∧ PiecesEnd pieces

/-- The pieces of a literal string. -/
structure StringPieces (pieces : List StringPiece) : Prop where
  wellFormed : ∀ piece ∈ pieces, piece.WellFormed
  ends : PiecesEnd pieces
  balanced : balancedParens 0 (pieces.filterMap StringPiece.paren) = true

/-! ## The loop of the parser -/

section Loop

variable {limits : ResourceLimits} {source rest : Bytes} {depth pos : Nat} {read : Bytes}

/-- The depth after a token. -/
def LiteralToken.depthAfter (depth : Nat) : LiteralToken → Nat
  | opening => depth + 1
  | closing => depth - 1
  | _ => depth

theorem escape_bytes (c : UInt8) :
    (LiteralToken.escape c).bytes = [ByteSource.unescape c] := by
  unfold LiteralToken.bytes ByteSource.unescape
  by_cases hn : c = 110
  · subst hn
    rfl
  by_cases hr : c = 114
  · subst hr
    rfl
  by_cases ht : c = 116
  · subst ht
    rfl
  by_cases hb : c = 98
  · subst hb
    rfl
  by_cases hf : c = 102
  · subst hf
    rfl
  simp [List.lookup_cons, beq_eq_false_iff_ne.mpr hn, beq_eq_false_iff_ne.mpr hr,
    beq_eq_false_iff_ne.mpr ht, beq_eq_false_iff_ne.mpr hb, beq_eq_false_iff_ne.mpr hf, hn, hr, ht,
    hb, hf]

theorem length_tokenBytes (t : LiteralToken) : t.bytes.length = 1 := by
  cases t <;> rfl

theorem length_tokenText (t : LiteralToken) : 1 ≤ t.text.length := by
  cases t with
  | byte => exact Nat.le_refl 1
  | opening => exact Nat.le_refl 1
  | closing => exact Nat.le_refl 1
  | escape => exact Nat.le_succ 1

/-- One pass of the loop reads one token. -/
theorem literalStep_token {t : LiteralToken} {more : Bytes} (hwf : t.WellFormed)
    (h : At source pos (t.text ++ more)) (hclosing : t = .closing → 0 < depth) :
    (readerOf source).parseLiteralStringStep limits (depth + 1, read, pos) =
      if t = .opening ∧ ¬ depth + 2 < u32Size then
        .done (.error (.arithmeticOverflow "string nesting"))
      else ByteSource.checkStringLen limits (t.depthAfter (depth + 1)) (read ++ t.bytes)
        (pos + t.text.length) := by
  have hfirst : (readerOf source).byte pos = (t.text ++ more).head? := h.byte
  unfold ByteSource.parseLiteralStringStep
  dsimp only
  rw [hfirst]
  cases t with
  | byte b =>
    obtain ⟨hbackslash, hopening, hclosing⟩ := hwf
    show (if b = 92 then _ else if b = 40 then _ else if b = 41 then _ else _) = _
    rw [if_neg hbackslash, if_neg hopening, if_neg hclosing, if_neg (fun h => by cases h.1)]
    rfl
  | opening =>
    show (if (40 : UInt8) = 92 then _ else if (40 : UInt8) = 40 then _ else _) = _
    rw [if_neg (by decide), if_pos rfl]
    by_cases hdepth : depth + 2 < u32Size
    · rw [if_pos hdepth, if_neg (fun h => h.2 hdepth)]
      rfl
    · rw [if_neg hdepth, if_pos ⟨rfl, hdepth⟩]
  | closing =>
    have hpos := hclosing rfl
    show (if (41 : UInt8) = 92 then _ else if (41 : UInt8) = 40 then _
      else if (41 : UInt8) = 41 then _ else _) = _
    rw [if_neg (by decide), if_neg (by decide), if_pos rfl, Nat.add_sub_cancel, if_neg (by omega),
      if_neg (fun h => by cases h.1)]
    rfl
  | escape c =>
    have hnext : At source (pos + 1) (c :: more) := h.next
    have hsecond : (readerOf source).byte (pos + 1) = some c := hnext.byte
    show (if (92 : UInt8) = 92 then _ else _) = _
    rw [if_pos rfl, hsecond, if_neg (fun h => by cases h.1), escape_bytes]
    rfl

theorem le_deepestParen (depth : Nat) (parens : List Bool) : depth ≤ deepestParen depth parens := by
  induction parens generalizing depth with
  | nil => exact Nat.le_refl depth
  | cons opens parens ih =>
    cases opens with
    | true => exact (Nat.le_succ depth).trans (ih (depth + 1))
    | false => exact Nat.le_max_left _ _

/-- What a token does to the depth: a closing parenthesis has its opening one, an opening one may be
too deep, and every other token leaves balanced parentheses after it. -/
theorem token_parens {t : LiteralToken} {tokens : List LiteralToken} (hdepth : depth + 1 < u32Size)
    (hbalanced : balancedParens depth ((t :: tokens).filterMap LiteralToken.paren) = true) :
    (t = .closing → 0 < depth) ∧
    (t = .opening ∧ ¬ depth + 2 < u32Size →
      ¬ deepestParen (depth + 1) ((t :: tokens).filterMap LiteralToken.paren) < u32Size) ∧
    (¬ (t = .opening ∧ ¬ depth + 2 < u32Size) →
      ∃ depth', t.depthAfter (depth + 1) = depth' + 1 ∧ depth' + 1 < u32Size ∧
        balancedParens depth' (tokens.filterMap LiteralToken.paren) = true ∧
        (deepestParen (depth + 1) ((t :: tokens).filterMap LiteralToken.paren) < u32Size ↔
          deepestParen (depth' + 1) (tokens.filterMap LiteralToken.paren) < u32Size)) := by
  cases t with
  | byte b =>
    refine ⟨nofun, ?_, fun _ => ⟨depth, rfl, hdepth, hbalanced, Iff.rfl⟩⟩
    rintro ⟨h, -⟩
    cases h
  | escape c =>
    refine ⟨nofun, ?_, fun _ => ⟨depth, rfl, hdepth, hbalanced, Iff.rfl⟩⟩
    rintro ⟨h, -⟩
    cases h
  | opening =>
    refine ⟨nofun, ?_, fun h => ?_⟩
    · rintro ⟨-, hout⟩ hdeep
      exact hout (Nat.lt_of_le_of_lt (le_deepestParen (depth + 2) _) hdeep)
    · have hfits : depth + 2 < u32Size := by
        by_contra hout
        exact h ⟨rfl, hout⟩
      exact ⟨depth + 1, rfl, hfits, hbalanced, Iff.rfl⟩
  | closing =>
    have hinside : 0 < depth ∧
        balancedParens (depth - 1) (tokens.filterMap LiteralToken.paren) = true := by
      have h : (0 < depth &&
          balancedParens (depth - 1) (tokens.filterMap LiteralToken.paren)) = true := hbalanced
      rwa [Bool.and_eq_true, decide_eq_true_eq] at h
    obtain ⟨hpos, hrest⟩ := hinside
    have hback : depth - 1 + 1 = depth := Nat.sub_add_cancel hpos
    refine ⟨fun _ => hpos, ?_, fun _ => ⟨depth - 1, hback.symm, by omega, hrest, ?_⟩⟩
    · rintro ⟨h, -⟩
      cases h
    · have hmax : deepestParen (depth + 1)
          ((LiteralToken.closing :: tokens).filterMap LiteralToken.paren)
          = max (depth + 1) (deepestParen depth (tokens.filterMap LiteralToken.paren)) := rfl
      rw [hmax, hback, Nat.max_lt, and_iff_right hdepth]

/-- The loop reads the tokens up to the closing parenthesis, or gives up at a limit. -/
theorem literalTokens_run {tokens : List LiteralToken} (hwf : ∀ t ∈ tokens, t.WellFormed)
    (hbalanced : balancedParens depth (tokens.filterMap LiteralToken.paren) = true)
    (h : At source pos (tokens.flatMap LiteralToken.text ++ 41 :: rest))
    (hdepth : depth + 1 < u32Size) (hread : read.length ≤ limits.maxStringBytes) :
    ∃ n r, n ≤ (tokens.flatMap LiteralToken.text).length + 1 ∧
      EndsIn ((readerOf source).parseLiteralStringStep limits) n (depth + 1, read, pos) r ∧
      (deepestParen (depth + 1) (tokens.filterMap LiteralToken.paren) < u32Size ∧
          read.length + (tokens.flatMap LiteralToken.bytes).length ≤ limits.maxStringBytes →
        r = .ok (read ++ tokens.flatMap LiteralToken.bytes,
          pos + (tokens.flatMap LiteralToken.text).length + 1)) ∧
      (¬ (deepestParen (depth + 1) (tokens.filterMap LiteralToken.paren) < u32Size ∧
          read.length + (tokens.flatMap LiteralToken.bytes).length ≤ limits.maxStringBytes) →
        ∃ e, r = .error e) := by
  induction tokens generalizing depth read pos with
  | nil =>
    have hzero : depth = 0 := of_decide_eq_true hbalanced
    subst hzero
    have hbyte : (readerOf source).byte pos = some 41 := h.byte
    have hstep : (readerOf source).parseLiteralStringStep limits (0 + 1, read, pos)
        = .done (.ok (read, pos + 1)) := by
      unfold ByteSource.parseLiteralStringStep
      dsimp only
      rw [hbyte]
      rfl
    refine ⟨1, .ok (read, pos + 1), Nat.le_refl 1, .done hstep, fun _ => by simp, fun hnot => ?_⟩
    exact absurd ⟨hdepth, by simpa using hread⟩ hnot
  | cons t tokens ih =>
    obtain ⟨ht, htokens⟩ := List.forall_mem_cons.mp hwf
    rw [List.flatMap_cons, List.append_assoc] at h
    have hrest := h.skip
    have hbytes := length_tokenBytes t
    have htext := length_tokenText t
    obtain ⟨hclosing, hopening, hdeeper⟩ := token_parens hdepth hbalanced
    have hstep := @literalStep_token limits source depth pos read t _ ht h hclosing
    have hcount : read.length + ((t :: tokens).flatMap LiteralToken.bytes).length
        = (read ++ t.bytes).length + (tokens.flatMap LiteralToken.bytes).length := by
      simp only [List.flatMap_cons, List.length_append]
      omega
    by_cases hoverflow : t = .opening ∧ ¬ depth + 2 < u32Size
    · rw [if_pos hoverflow] at hstep
      refine ⟨1, _, Nat.le_add_left 1 _, .done hstep, fun hfits => ?_, fun _ => ⟨_, rfl⟩⟩
      exact absurd hfits.1 (hopening hoverflow)
    rw [if_neg hoverflow] at hstep
    obtain ⟨depth', hafter, hdepth', hbalanced', hdeepest⟩ := hdeeper hoverflow
    by_cases hlimit : (read ++ t.bytes).length > limits.maxStringBytes
    · rw [ByteSource.checkStringLen, if_pos hlimit] at hstep
      refine ⟨1, _, Nat.le_add_left 1 _, .done hstep, fun hfits => ?_, fun _ => ⟨_, rfl⟩⟩
      omega
    · rw [ByteSource.checkStringLen, if_neg hlimit, hafter] at hstep
      have hread' : (read ++ t.bytes).length ≤ limits.maxStringBytes := Nat.not_lt.mp hlimit
      obtain ⟨n, r, hn, hends, hresult⟩ := ih htokens hbalanced' hrest hdepth' hread'
      refine ⟨n + 1, r, ?_, .next hstep hends, ?_⟩
      · rw [List.flatMap_cons, List.length_append]
        omega
      · rw [hdeepest, hcount]
        simpa [Nat.add_assoc] using hresult

end Loop

/-! ## Pieces as tokens -/

section Pieces

variable {piece : StringPiece} {pieces : List StringPiece}

theorem byteTokens_text (bytes : Bytes) :
    (bytes.map LiteralToken.byte).flatMap LiteralToken.text = bytes := by
  rw [List.flatMap_map]
  exact List.flatMap_singleton' bytes

theorem byteTokens_bytes (bytes : Bytes) :
    (bytes.map LiteralToken.byte).flatMap LiteralToken.bytes = bytes := by
  rw [List.flatMap_map]
  exact List.flatMap_singleton' bytes

theorem byteTokens_paren (bytes : Bytes) :
    (bytes.map LiteralToken.byte).filterMap LiteralToken.paren = [] := by
  induction bytes with
  | nil => rfl
  | cons b bytes ih => exact ih

theorem octalDigit_bounds {d : UInt8} (h : isOctalDigit d = true) : 48 ≤ d.toNat ∧ d.toNat ≤ 55 := by
  unfold isOctalDigit at h
  rw [Bool.and_eq_true, decide_eq_true_eq, decide_eq_true_eq, UInt8.le_iff_toNat_le,
    UInt8.le_iff_toNat_le] at h
  exact h

theorem octalDigit_ne {d b : UInt8} (h : isOctalDigit d = true) (hb : isOctalDigit b = false) :
    d ≠ b := by
  rintro rfl
  rw [h] at hb
  cases hb

/-- An escaped byte that is not one of the letters stands for itself. -/
theorem escape_self {c : UInt8} (hn : c ≠ 110) (hr : c ≠ 114) (ht : c ≠ 116) (hb : c ≠ 98)
    (hf : c ≠ 102) : (LiteralToken.escape c).bytes = [c] := by
  rw [escape_bytes]
  unfold ByteSource.unescape
  rw [if_neg hn, if_neg hr, if_neg ht, if_neg hb, if_neg hf]

theorem escape_octalDigit {d : UInt8} (h : isOctalDigit d = true) :
    (LiteralToken.escape d).bytes = [d] :=
  escape_self (octalDigit_ne h (by decide)) (octalDigit_ne h (by decide))
    (octalDigit_ne h (by decide)) (octalDigit_ne h (by decide)) (octalDigit_ne h (by decide))

theorem byteTokens_wellFormed {bytes : Bytes} (h : ∀ b ∈ bytes, b ≠ 92 ∧ b ≠ 40 ∧ b ≠ 41) :
    ∀ t ∈ bytes.map LiteralToken.byte, t.WellFormed := by
  intro t ht
  obtain ⟨b, hb, rfl⟩ := List.mem_map.mp ht
  exact h b hb

theorem lineEnd_plain {eol : Bytes} (h : eol = [10] ∨ eol = [13] ∨ eol = [13, 10]) :
    ∀ b ∈ eol, b ≠ 92 ∧ b ≠ 40 ∧ b ≠ 41 := by
  rcases h with rfl | rfl | rfl <;> decide

/-- A piece is read as its tokens. -/
theorem tokens_text (h : piece.WellFormed) : piece.tokens.flatMap LiteralToken.text = piece.text := by
  cases piece with
  | token t => exact List.append_nil _
  | octal digits =>
    obtain ⟨hone, -, -⟩ := h
    cases digits with
    | nil => cases hone
    | cons d digits =>
      show [92, d] ++ (digits.map LiteralToken.byte).flatMap LiteralToken.text = 92 :: d :: digits
      rw [byteTokens_text]
      rfl
  | continuation eol =>
    rcases h with rfl | rfl | rfl <;> rfl
  | lineEnd eol => exact byteTokens_text eol

theorem tokens_paren : piece.tokens.filterMap LiteralToken.paren = piece.paren.toList := by
  cases piece with
  | token t => cases t <;> rfl
  | octal digits =>
    cases digits with
    | nil => rfl
    | cons d digits => exact byteTokens_paren digits
  | continuation eol =>
    cases eol with
    | nil => rfl
    | cons b eol => exact byteTokens_paren eol
  | lineEnd eol => exact byteTokens_paren eol

theorem tokens_wellFormed (h : piece.WellFormed) : ∀ t ∈ piece.tokens, t.WellFormed := by
  cases piece with
  | token t =>
    intro t' ht'
    obtain rfl := List.mem_singleton.mp ht'
    cases t' with
    | byte b => exact ⟨h.1, h.2.1, h.2.2.1⟩
    | opening => trivial
    | closing => trivial
    | escape c => trivial
  | octal digits =>
    obtain ⟨hone, -, hdigits⟩ := h
    cases digits with
    | nil => cases hone
    | cons d digits =>
      refine List.forall_mem_cons.mpr ⟨trivial, byteTokens_wellFormed fun b hb => ?_⟩
      have hdigit := hdigits b (List.mem_cons_of_mem _ hb)
      exact ⟨octalDigit_ne hdigit (by decide), octalDigit_ne hdigit (by decide),
        octalDigit_ne hdigit (by decide)⟩
  | continuation eol =>
    have hplain := lineEnd_plain h
    cases eol with
    | nil => exact fun t ht => absurd ht List.not_mem_nil
    | cons b eol =>
      exact List.forall_mem_cons.mpr
        ⟨trivial, byteTokens_wellFormed fun c hc => hplain c (List.mem_cons_of_mem _ hc)⟩
  | lineEnd eol => exact byteTokens_wellFormed (lineEnd_plain (.inr h))

/-- The bytes the parser reads for a piece. -/
theorem tokens_bytes (h : piece.WellFormed) :
    piece.tokens.flatMap LiteralToken.bytes =
      match piece with
      | .token t => t.bytes
      | .octal digits => digits
      | .continuation eol => eol
      | .lineEnd eol => eol := by
  cases piece with
  | token t => exact List.append_nil _
  | octal digits =>
    obtain ⟨hone, -, hdigits⟩ := h
    cases digits with
    | nil => cases hone
    | cons d digits =>
      show (LiteralToken.escape d).bytes
          ++ (digits.map LiteralToken.byte).flatMap LiteralToken.bytes = d :: digits
      rw [escape_octalDigit (hdigits d List.mem_cons_self), byteTokens_bytes]
      rfl
  | continuation eol =>
    rcases h with rfl | rfl | rfl <;> rfl
  | lineEnd eol => exact byteTokens_bytes eol

/-- The parser never reads fewer bytes than a piece stands for. -/
theorem length_bytes_le (h : piece.WellFormed) :
    piece.bytes.length ≤ (piece.tokens.flatMap LiteralToken.bytes).length := by
  rw [tokens_bytes h]
  cases piece with
  | token t => exact Nat.le_refl _
  | octal digits => exact h.1
  | continuation eol => exact Nat.zero_le _
  | lineEnd eol =>
    rcases h with rfl | rfl
    · exact Nat.le_refl 1
    · exact Nat.le_succ 1

/-- It reads the bytes of a piece exactly when the piece is a token. -/
theorem tokens_bytes_iff (h : piece.WellFormed) :
    piece.tokens.flatMap LiteralToken.bytes = piece.bytes ↔ piece.isToken = true := by
  rw [tokens_bytes h]
  cases piece with
  | token t => exact iff_of_true rfl rfl
  | octal digits =>
    obtain ⟨-, -, hdigits⟩ := h
    refine iff_of_false (fun heq => ?_) Bool.false_ne_true
    have heq : digits
        = [UInt8.ofNat (Positional.value 8 (digits.map fun d => d.toNat - 48))] := heq
    obtain ⟨d, rfl⟩ : ∃ d, digits = [d] := List.length_eq_one_iff.mp (by rw [heq]; rfl)
    obtain ⟨hlow, hhigh⟩ := octalDigit_bounds (hdigits d List.mem_cons_self)
    have hvalue : Positional.value 8 ([d].map fun d => d.toNat - 48) = d.toNat - 48 := by
      simp [Positional.value]
    rw [hvalue, List.cons.injEq, ← UInt8.toNat_inj, UInt8.toNat_ofNat'] at heq
    omega
  | continuation eol =>
    refine iff_of_false (fun heq => ?_) Bool.false_ne_true
    have heq : eol = [] := heq
    rcases h with rfl | rfl | rfl <;> cases heq
  | lineEnd eol =>
    refine iff_of_false (fun heq => ?_) Bool.false_ne_true
    have heq : eol = [10] := heq
    rcases h with rfl | rfl <;> cases heq

/-! ## Lists of pieces -/

theorem length_flatMap_le {α β : Type} {l : List α} {f g : α → List β}
    (hle : ∀ a ∈ l, (f a).length ≤ (g a).length) : (l.flatMap f).length ≤ (l.flatMap g).length := by
  induction l with
  | nil => exact Nat.le_refl 0
  | cons a l ih =>
    have ha := hle a List.mem_cons_self
    have hl := ih fun b hb => hle b (List.mem_cons_of_mem _ hb)
    rw [List.flatMap_cons, List.flatMap_cons, List.length_append, List.length_append]
    omega

/-- Lists put together from parts, none of which is shorter on the right, are equal exactly when
their parts are. -/
theorem flatMap_eq_iff {α β : Type} {l : List α} {f g : α → List β}
    (hle : ∀ a ∈ l, (f a).length ≤ (g a).length) :
    l.flatMap g = l.flatMap f ↔ ∀ a ∈ l, g a = f a := by
  induction l with
  | nil => exact iff_of_true rfl fun a ha => absurd ha List.not_mem_nil
  | cons a l ih =>
    have htail : ∀ b ∈ l, (f b).length ≤ (g b).length := fun b hb =>
      hle b (List.mem_cons_of_mem _ hb)
    have hhead := hle a List.mem_cons_self
    have hlength := length_flatMap_le htail
    rw [List.flatMap_cons, List.flatMap_cons, List.forall_mem_cons, ← ih htail]
    refine ⟨fun h => ?_, fun h => by rw [h.1, h.2]⟩
    have htotal := congrArg List.length h
    rw [List.length_append, List.length_append] at htotal
    exact List.append_inj h (by omega)

theorem flatMap_tokens (f : LiteralToken → Bytes) (g : StringPiece → Bytes)
    (h : ∀ piece ∈ pieces, piece.tokens.flatMap f = g piece) :
    (pieces.flatMap StringPiece.tokens).flatMap f = pieces.flatMap g := by
  rw [List.flatMap_assoc]
  exact List.flatMap_congr h

theorem filterMap_tokens :
    (pieces.flatMap StringPiece.tokens).filterMap LiteralToken.paren
      = pieces.filterMap StringPiece.paren := by
  induction pieces with
  | nil => rfl
  | cons piece pieces ih =>
    rw [List.flatMap_cons, List.filterMap_append, ih, tokens_paren]
    cases h : piece.paren with
    | none => rw [List.filterMap_cons_none h]; rfl
    | some opens => rw [List.filterMap_cons_some h]; rfl

end Pieces

/-! ## The parser -/

section Parser

variable {limits : ResourceLimits} {source rest : Bytes} {pos : Nat}

/-- The parser reads the bytes of the tokens, when they are within the limit and no parenthesis is
too deep, and refuses the string otherwise. -/
theorem parseLiteralString_tokens {tokens : List LiteralToken}
    (hwf : ∀ t ∈ tokens, t.WellFormed)
    (hbalanced : balancedParens 0 (tokens.filterMap LiteralToken.paren) = true)
    (h : At source pos (40 :: (tokens.flatMap LiteralToken.text ++ 41 :: rest)))
    (bytes : Bytes) (stop : Nat) :
    (readerOf source).parseLiteralString limits pos = .ok (⟨bytes⟩, stop) ↔
      (deepestParen 1 (tokens.filterMap LiteralToken.paren) < u32Size ∧
        (tokens.flatMap LiteralToken.bytes).length ≤ limits.maxStringBytes) ∧
      tokens.flatMap LiteralToken.bytes = bytes ∧
      pos + (tokens.flatMap LiteralToken.text).length + 2 = stop := by
  have hparen : At source pos ([40] ++ (tokens.flatMap LiteralToken.text ++ 41 :: rest)) := h
  have hlength := h.next.length
  rw [List.length_append, List.length_cons] at hlength
  have hempty : ([] : Bytes).length ≤ limits.maxStringBytes := Nat.zero_le _
  obtain ⟨n, r, hn, hends, hfits, hout⟩ := literalTokens_run hwf hbalanced h.next (by decide) hempty
  have hloop : runLoop ((readerOf source).parseLiteralStringStep limits)
      (fun _ => .error (.bad "unterminated literal string"))
      ((readerOf source).len - (pos + 1) + 1) (1, [], pos + 1) = r := by
    refine hends.runLoop ?_ _
    show n ≤ source.length - (pos + 1) + 1
    omega
  unfold ByteSource.parseLiteralString
  rw [hparen.consumeBytes, ok_bind, List.length_singleton, hloop]
  simp only [List.length_nil, Nat.zero_add, List.nil_append] at hfits hout
  by_cases hlimits : deepestParen 1 (tokens.filterMap LiteralToken.paren) < u32Size ∧
      (tokens.flatMap LiteralToken.bytes).length ≤ limits.maxStringBytes
  · rw [hfits hlimits, ok_bind]
    dsimp only
    unfold PdfString.new
    rw [if_neg (Nat.not_lt.mpr hlimits.2), and_iff_right hlimits]
    show Except.ok _ = Except.ok _ ↔ _
    simp only [Except.ok.injEq, Prod.mk.injEq, PdfString.mk.injEq]
    have hstop : pos + 1 + (tokens.flatMap LiteralToken.text).length + 1
        = pos + (tokens.flatMap LiteralToken.text).length + 2 := by omega
    rw [hstop]
  · obtain ⟨e, rfl⟩ := hout hlimits
    exact iff_of_false nofun fun hall => hlimits hall.1

/-- A literal string within the limit is decoded exactly when it has neither octal escapes nor
continuations nor line ends that start with CR, and its parentheses are not too deep. -/
theorem parseLiteralString_iff {pieces : List StringPiece} (hpieces : StringPieces pieces)
    (threshold : Nat)
    (h : At source pos (40 :: (pieces.flatMap StringPiece.text ++ 41 :: rest)))
    (hlimit : (pieces.flatMap StringPiece.bytes).length ≤ limits.maxStringBytes) :
    (SourceStorage.fromSource source threshold).reader.parseLiteralString limits pos
        = .ok (⟨pieces.flatMap StringPiece.bytes⟩,
          pos + (pieces.flatMap StringPiece.text).length + 2) ↔
      (∀ piece ∈ pieces, piece.isToken = true) ∧
        deepestParen 1 (pieces.filterMap StringPiece.paren) < u32Size := by
  have hwellFormed := hpieces.wellFormed
  have htext : (pieces.flatMap StringPiece.tokens).flatMap LiteralToken.text
      = pieces.flatMap StringPiece.text :=
    flatMap_tokens _ _ fun piece hmem => tokens_text (hwellFormed piece hmem)
  have hbytes : (pieces.flatMap StringPiece.tokens).flatMap LiteralToken.bytes
      = pieces.flatMap StringPiece.bytes ↔ ∀ piece ∈ pieces, piece.isToken = true := by
    rw [flatMap_tokens _ (fun piece => piece.tokens.flatMap LiteralToken.bytes) fun _ _ => rfl,
      flatMap_eq_iff fun piece hmem => length_bytes_le (hwellFormed piece hmem)]
    exact forall₂_congr fun piece hmem => tokens_bytes_iff (hwellFormed piece hmem)
  have hwf : ∀ t ∈ pieces.flatMap StringPiece.tokens, t.WellFormed := by
    intro t ht
    obtain ⟨piece, hpiece, hmem⟩ := List.mem_flatMap.mp ht
    exact tokens_wellFormed (hwellFormed piece hpiece) t hmem
  have hbalanced := hpieces.balanced
  rw [← filterMap_tokens] at hbalanced
  rw [← htext] at h
  rw [reader_fromSource, ← htext, parseLiteralString_tokens hwf hbalanced h, filterMap_tokens, hbytes,
    and_iff_left rfl]
  constructor
  · rintro ⟨⟨hdepth, -⟩, htokens⟩
    exact ⟨htokens, hdepth⟩
  · rintro ⟨htokens, hdepth⟩
    refine ⟨⟨hdepth, ?_⟩, htokens⟩
    rw [hbytes.mpr htokens]
    exact hlimit

/-- The string `(a(\n)\))`. -/
theorem parseLiteralString_iff_nested :
    (SourceStorage.fromSource [40, 97, 40, 92, 110, 41, 92, 41, 41] 0).reader.parseLiteralString {} 0
      = .ok (⟨[97, 40, 10, 41, 41]⟩, 9) := by
  have hpieces : StringPieces [.token (.byte 97), .token .opening, .token (.escape 110),
      .token .closing, .token (.escape 41)] := by
    refine ⟨?_, ⟨trivial, trivial, trivial, trivial, trivial, trivial⟩, rfl⟩
    simp only [List.forall_mem_cons]
    exact ⟨⟨by decide, by decide, by decide, by decide⟩, trivial,
      ⟨by decide, by decide, by decide⟩, trivial, ⟨by decide, by decide, by decide⟩,
      fun _ h => absurd h List.not_mem_nil⟩
  have hat : At [40, 97, 40, 92, 110, 41, 92, 41, 41] 0 (40 :: (List.flatMap StringPiece.text
      [.token (.byte 97), .token .opening, .token (.escape 110), .token .closing,
        .token (.escape 41)] ++ 41 :: [])) := .start _
  exact (parseLiteralString_iff hpieces 0 hat (by decide)).mpr ⟨by decide, by decide⟩

/-- The octal escape of `(\061)` is read as an escaped digit and two more digits. -/
theorem parseLiteralString_fails :
    StringPieces [.octal [48, 54, 49]] ∧
    [StringPiece.octal [48, 54, 49]].flatMap StringPiece.text = [92, 48, 54, 49] ∧
    [StringPiece.octal [48, 54, 49]].flatMap StringPiece.bytes = [49] ∧
    (readerOf [40, 92, 48, 54, 49, 41]).parseLiteralString {} 0 = .ok (⟨[48, 54, 49]⟩, 6) := by
  refine ⟨⟨?_, ⟨.inl rfl, trivial⟩, rfl⟩, rfl, by decide, by decide⟩
  simp only [List.forall_mem_singleton]
  exact ⟨by decide, by decide, by decide⟩

end Parser

end Pdfv
