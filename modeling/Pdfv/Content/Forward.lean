import Pdfv.Content.Tokenizer
/-!
# The tokenizer moves forward

Every reader of the tokenizer stops behind the position it starts at: a token takes at least one byte
(`nextToken_lt`), and an inline image ends where its entries do or later (`parseInlineImage_le`).
-/

namespace Pdfv

open Loop Fallible

namespace ContentTokenizer

variable {bytes : Bytes} {limits : ResourceLimits}

theorem consumeWhile_le (p : UInt8 → Bool) (pos : Nat) : pos ≤ consumeWhile bytes p pos := by
  refine runLoop_inv (fun s => pos ≤ s) (fun r => pos ≤ r) ?_ ?_ (fun _ h => h) (Nat.le_refl pos)
  · intro s s' hs hstep
    unfold consumeWhileStep at hstep
    split at hstep
    · split at hstep
      · cases hstep
        omega
      · cases hstep
    · cases hstep
  · intro s r hs hdone
    unfold consumeWhileStep at hdone
    split at hdone
    · split at hdone
      · cases hdone
      · cases hdone
        exact hs
    · cases hdone
      exact hs

theorem skipWsAndComments_le (pos : Nat) : pos ≤ skipWsAndComments bytes pos := by
  refine runLoop_inv (fun s => pos ≤ s) (fun r => pos ≤ r) ?_ ?_ (fun _ h => h) (Nat.le_refl pos)
  · intro s s' hs hstep
    have hws : s ≤ consumeWhile bytes isWs s := consumeWhile_le isWs s
    have hline : consumeWhile bytes isWs s
        ≤ consumeWhile bytes (fun b => !isEol b) (consumeWhile bytes isWs s) := consumeWhile_le _ _
    unfold skipWsAndCommentsStep at hstep
    dsimp only at hstep
    split at hstep
    · cases hstep
      omega
    · cases hstep
  · intro s r hs hdone
    have hws : s ≤ consumeWhile bytes isWs s := consumeWhile_le isWs s
    unfold skipWsAndCommentsStep at hdone
    dsimp only at hdone
    split at hdone
    · cases hdone
    · cases hdone
      omega

theorem consumeLiteralString_lt {pos stop : Nat} (h : consumeLiteralString bytes pos = .ok stop) :
    pos < stop := by
  suffices hall : ∀ stop, consumeLiteralString bytes pos = .ok stop → pos < stop from hall stop h
  refine runLoop_inv (fun (s : Nat × Nat) => pos < s.1)
    (fun (r : Except ParseError Nat) => ∀ stop, r = .ok stop → pos < stop) ?_ ?_ ?_
    (Nat.lt_succ_self pos)
  · rintro ⟨at', depth⟩ s' hs hstep
    unfold literalStringStep at hstep
    dsimp only at hstep hs
    split at hstep
    · cases hstep
    · cases hstep
      exact Nat.lt_add_right 2 hs
    · split at hstep
      · cases hstep
        exact Nat.lt_succ_of_lt hs
      · cases hstep
    · split at hstep
      · cases hstep
      · cases hstep
        exact Nat.lt_succ_of_lt hs
    · cases hstep
      exact Nat.lt_succ_of_lt hs
  · rintro ⟨at', depth⟩ r hs hdone stop rfl
    unfold literalStringStep at hdone
    dsimp only at hdone hs
    split at hdone
    · cases hdone
    · cases hdone
    · split at hdone
      · cases hdone
      · cases hdone
    · split at hdone
      · cases hdone
        exact Nat.lt_succ_of_lt hs
      · cases hdone
    · cases hdone
  · intro s _ stop hgive
    cases hgive

theorem consumeHexString_lt {pos stop : Nat} (h : consumeHexString bytes pos = .ok stop) :
    pos < stop := by
  suffices hall : ∀ stop, consumeHexString bytes pos = .ok stop → pos < stop from hall stop h
  refine runLoop_inv (fun s => pos < s)
    (fun (r : Except ParseError Nat) => ∀ stop, r = .ok stop → pos < stop) ?_ ?_ ?_
    (Nat.lt_succ_self pos)
  · intro s s' hs hstep
    unfold hexStringStep at hstep
    split at hstep
    · cases hstep
    · cases hstep
    · cases hstep
      exact Nat.lt_succ_of_lt hs
  · rintro s r hs hdone stop rfl
    unfold hexStringStep at hdone
    split at hdone
    · cases hdone
    · cases hdone
      exact Nat.lt_succ_of_lt hs
    · cases hdone
  · intro s _ stop hgive
    cases hgive

theorem compositeNext_next {pos : Nat} {stack : Bytes} {s : Nat × Bytes}
    (h : compositeNext limits pos stack = .next s) : s = (pos, stack) := by
  unfold compositeNext at h
  split at h
  · cases h
  · cases h
    rfl

theorem compositeNext_ok {pos stop : Nat} {stack : Bytes} :
    compositeNext limits pos stack ≠ .done (.ok stop) := by
  unfold compositeNext
  split <;> exact nofun

theorem compositeClose_next {close : UInt8} {message : String} {pos : Nat} {stack : Bytes}
    {s : Nat × Bytes} (h : compositeClose limits close message pos stack = .next s) :
    s = (pos, stack.tail) := by
  unfold compositeClose at h
  split at h
  · split at h
    · cases h
    · exact compositeNext_next h
  · cases h

theorem compositeClose_ok {close : UInt8} {message : String} {pos stop : Nat} {stack : Bytes}
    (h : compositeClose limits close message pos stack = .done (.ok stop)) : stop = pos := by
  unfold compositeClose at h
  split at h
  · split at h
    · cases h
      rfl
    · exact absurd h compositeNext_ok
  · cases h

/-- Every pass of the composite scanner moves forward. -/
theorem compositeStep_next {s s' : Nat × Bytes} (h : compositeStep bytes limits s = .next s') :
    s.1 < s'.1 := by
  obtain ⟨pos, stack⟩ := s
  unfold compositeStep at h
  dsimp only at h ⊢
  split at h
  · cases h
  · split_ifs at h
    · rw [compositeNext_next h]
      exact Nat.lt_succ_self pos
    · rw [compositeNext_next h]
      exact Nat.lt_add_of_pos_right (by decide)
    · rw [compositeClose_next h]
      exact Nat.lt_succ_self pos
    · rw [compositeClose_next h]
      exact Nat.lt_add_of_pos_right (by decide)
    · split at h
      · rename_i hliteral
        rw [compositeNext_next h]
        exact consumeLiteralString_lt hliteral
      · cases h
    · split at h
      · rename_i hhex
        rw [compositeNext_next h]
        exact consumeHexString_lt hhex
      · cases h
    · rw [compositeNext_next h]
      exact Nat.lt_succ_self pos

theorem compositeStep_ok {s : Nat × Bytes} {stop : Nat}
    (h : compositeStep bytes limits s = .done (.ok stop)) : s.1 < stop := by
  obtain ⟨pos, stack⟩ := s
  unfold compositeStep at h
  dsimp only at h ⊢
  split at h
  · cases h
  · split_ifs at h
    · exact absurd h compositeNext_ok
    · exact absurd h compositeNext_ok
    · rw [compositeClose_ok h]
      exact Nat.lt_succ_self pos
    · rw [compositeClose_ok h]
      exact Nat.lt_add_of_pos_right (by decide)
    · split at h
      · exact absurd h compositeNext_ok
      · cases h
    · split at h
      · exact absurd h compositeNext_ok
      · cases h
    · exact absurd h compositeNext_ok

theorem consumeCompositeRange_lt {pos stop : Nat}
    (h : consumeCompositeRange bytes limits pos = .ok stop) : pos < stop := by
  suffices hall : ∀ stop, consumeCompositeRange bytes limits pos = .ok stop → pos < stop from hall stop h
  refine runLoop_inv (fun (s : Nat × Bytes) => pos ≤ s.1)
    (fun (r : Except ParseError Nat) => ∀ stop, r = .ok stop → pos < stop) ?_ ?_ ?_ (Nat.le_refl pos)
  · intro s s' hs hstep
    have hlt := compositeStep_next hstep
    omega
  · rintro s r hs hdone stop rfl
    have hlt := compositeStep_ok hdone
    omega
  · intro s _ stop hgive
    cases hgive

theorem consumeRegularToken_lt {start stop : Nat} {token : Token}
    (h : consumeRegularToken bytes limits start = .ok (token, stop)) : start < stop := by
  have hle : start ≤ consumeUntilDelimiter bytes start := consumeWhile_le _ start
  unfold consumeRegularToken at h
  dsimp only at h
  have hstop : stop = consumeUntilDelimiter bytes start := by
    split at h
    · cases h
      rfl
    · split at h
      · cases h
        rfl
      · split at h
        · cases h
          rfl
        · obtain ⟨op, -, h⟩ := bind_eq_ok.mp h
          cases pure_eq_ok.mp h
          rfl
  rcases Nat.lt_or_eq_of_le hle with hlt | heq
  · rwa [hstop]
  · -- an empty token is neither an operand nor an operator
    exfalso
    rw [← heq, Nat.sub_self, List.take_zero] at h
    have hkeyword : isKeywordOperand [] = false := by decide
    have hinteger : parseInteger [] = none := by decide
    have hnumber : isNumberLike [] = false := by decide
    rw [hkeyword, hinteger, hnumber] at h
    simp only [Bool.false_eq_true, if_false] at h
    obtain ⟨op, hop, -⟩ := bind_eq_ok.mp h
    cases hop

/-- Every token moves forward, and starts inside the bytes. -/
theorem nextToken_lt {pos next : Nat} {token : Token}
    (h : nextToken bytes limits pos = .ok (some token, next)) : pos < bytes.length ∧ pos < next := by
  have hle : pos ≤ skipWsAndComments bytes pos := skipWsAndComments_le pos
  unfold nextToken at h
  dsimp only at h
  split at h
  · cases pure_eq_ok.mp h
  · rename_i b hb
    have hlength := (List.getElem?_eq_some_iff.mp hb).1
    refine ⟨by omega, ?_⟩
    split_ifs at h
    · obtain ⟨name, -, h⟩ := bind_eq_ok.mp h
      obtain ⟨name', -, h⟩ := bind_eq_ok.mp h
      cases pure_eq_ok.mp h
      have hname : skipWsAndComments bytes pos + 1
          ≤ consumeUntilDelimiter bytes (skipWsAndComments bytes pos + 1) := consumeWhile_le _ _
      omega
    · obtain ⟨stop, hstop, h⟩ := bind_eq_ok.mp h
      cases pure_eq_ok.mp h
      have hlt := consumeLiteralString_lt hstop
      omega
    · obtain ⟨stop, hstop, h⟩ := bind_eq_ok.mp h
      cases pure_eq_ok.mp h
      have hlt := consumeHexString_lt hstop
      omega
    · obtain ⟨stop, hstop, h⟩ := bind_eq_ok.mp h
      cases pure_eq_ok.mp h
      have hlt := consumeCompositeRange_lt hstop
      omega
    · obtain ⟨⟨slice, stop⟩, hstop, h⟩ := bind_eq_ok.mp h
      cases pure_eq_ok.mp h
      unfold consumeCompositeBytes at hstop
      obtain ⟨stop', hrange, hstop⟩ := bind_eq_ok.mp hstop
      obtain ⟨-, -, hstop⟩ := bind_eq_ok.mp hstop
      split at hstop
      · cases pure_eq_ok.mp hstop
        have hlt := consumeCompositeRange_lt hrange
        omega
      · cases hstop
    · obtain ⟨⟨token', stop⟩, hstop, h⟩ := bind_eq_ok.mp h
      cases pure_eq_ok.mp h
      have hlt := consumeRegularToken_lt hstop
      omega

theorem inlineStep_next {s s' : InlineState} (h : inlineStep bytes limits s = .next s') :
    s.pos < s'.pos := by
  unfold inlineStep at h
  split at h
  · cases h
  · cases h
  · rename_i htoken
    have hlt := (nextToken_lt htoken).2
    split at h
    · cases h
    · cases h
      unfold InlineState.take
      split <;> exact hlt
  · rename_i htoken
    have hlt := (nextToken_lt htoken).2
    split at h
    · cases h
      exact hlt
    · cases h
      unfold InlineState.take
      split <;> exact hlt

theorem nextToken_le {pos next : Nat} {token : Option Token}
    (h : nextToken bytes limits pos = .ok (token, next)) : pos ≤ next := by
  cases token with
  | some token => exact Nat.le_of_lt (nextToken_lt h).2
  | none =>
    have hle : pos ≤ skipWsAndComments bytes pos := skipWsAndComments_le pos
    unfold nextToken at h
    dsimp only at h
    split at h
    · cases pure_eq_ok.mp h
      exact hle
    · split_ifs at h
      · obtain ⟨name, -, h⟩ := bind_eq_ok.mp h
        obtain ⟨name', -, h⟩ := bind_eq_ok.mp h
        cases pure_eq_ok.mp h
      · obtain ⟨stop, -, h⟩ := bind_eq_ok.mp h
        cases pure_eq_ok.mp h
      · obtain ⟨stop, -, h⟩ := bind_eq_ok.mp h
        cases pure_eq_ok.mp h
      · obtain ⟨stop, -, h⟩ := bind_eq_ok.mp h
        cases pure_eq_ok.mp h
      · obtain ⟨found, -, h⟩ := bind_eq_ok.mp h
        cases pure_eq_ok.mp h
      · obtain ⟨found, -, h⟩ := bind_eq_ok.mp h
        cases pure_eq_ok.mp h

theorem inlineStep_ok {s s' : InlineState} (h : inlineStep bytes limits s = .done (.ok s')) :
    s.pos ≤ s'.pos := by
  unfold inlineStep at h
  split at h
  · cases h
  · rename_i htoken
    cases h
    exact nextToken_le htoken
  · rename_i htoken
    split at h
    · cases h
      exact nextToken_le htoken
    · cases h
  · split at h <;> cases h

theorem consumeInlineImageData_le {pos stop : Nat}
    (h : consumeInlineImageData bytes limits pos = .ok stop) : pos ≤ stop := by
  suffices hall : ∀ stop, consumeInlineImageData bytes limits pos = .ok stop → pos ≤ stop from hall stop h
  unfold consumeInlineImageData
  have hstart : pos ≤ if (bytes[pos]?).any isWs then pos + 1 else pos := by
    split <;> omega
  generalize (if (bytes[pos]?).any isWs then pos + 1 else pos) = start at hstart ⊢
  refine runLoop_inv (fun s => pos ≤ s)
    (fun (r : Except ParseError Nat) => ∀ stop, r = .ok stop → pos ≤ stop) ?_ ?_ ?_ hstart
  · intro s s' hs hstep
    unfold inlineDataStep at hstep
    split_ifs at hstep
    cases hstep
    omega
  · rintro s r hs hdone stop rfl
    unfold inlineDataStep at hdone
    split_ifs at hdone
    · cases hdone
    · cases hdone
    · cases hdone
      omega
  · intro s _ stop hgive
    cases hgive

theorem parseInlineImage_le {pos stop : Nat} {image : InlineImageSummary}
    (h : parseInlineImage bytes limits pos = .ok (image, stop)) : pos ≤ stop := by
  unfold parseInlineImage at h
  obtain ⟨s, hs, h⟩ := bind_eq_ok.mp h
  obtain ⟨after, hafter, h⟩ := bind_eq_ok.mp h
  cases pure_eq_ok.mp h
  have hdata := consumeInlineImageData_le hafter
  have hentries : ∀ s, runLoop (inlineStep bytes limits) (fun s => .ok s) (bytes.length + 1)
      ⟨pos, [], none⟩ = .ok s → pos ≤ s.pos := by
    refine runLoop_inv (fun (s : InlineState) => pos ≤ s.pos)
      (fun (r : Except ParseError InlineState) => ∀ s, r = .ok s → pos ≤ s.pos) ?_ ?_ ?_ (Nat.le_refl pos)
    · intro s s' hs hstep
      have hlt := inlineStep_next hstep
      omega
    · rintro s r hs hdone s' rfl
      have hle := inlineStep_ok hdone
      omega
    · intro s hs s' hgive
      cases hgive
      exact hs
  have hle := hentries s hs
  omega

end ContentTokenizer

end Pdfv
