import Pdfv.Profile.ExprParser
/-!
# Levels of expressions

The binary operators of an expression stand on seven levels. A level reads an operand on the level
below and goes on as long as one of its own operators stands next, so what an operand was read as
climbs through every level whose operators do not stand after it (`level_climb`), and two operands
are joined on the level of the operator between them (`level_join`).
-/

namespace Pdfv

namespace ExprParser

variable {π : Type}

/-! ## Running the parser -/

section Runs

variable {α β : Type} {x : ExprParser π α} {g : α → ExprParser π β} {rest rest' : List Char} {a : α}

theorem bind_ok (h : x rest = .ok (a, rest')) : (x >>= g) rest = g a rest' := by
  show (x rest >>= fun r => g r.1 r.2) = _
  rw [h]
  rfl

theorem bind_error {e : ParseStop π} (h : x rest = .error e) : (x >>= g) rest = .error e := by
  show (x rest >>= fun r => g r.1 r.2) = _
  rw [h]
  rfl

theorem get_bind (f : List Char → ExprParser π β) : (get >>= f) rest = f rest rest := rfl

theorem set_bind (f : PUnit → ExprParser π β) : (set rest' >>= f) rest = f ⟨⟩ rest' := rfl

theorem lift_bind (f : α → ExprParser π β) : (lift (.ok a) >>= f) rest = f a rest := rfl

theorem bind_pure_eq (x : ExprParser π α) (f : α → β) (rest : List Char) :
    (do return f (← x) : ExprParser π β) rest = (x rest).map fun r => (f r.1, r.2) := by
  show (x rest >>= fun r => _) = _
  cases x rest with
  | error e => rfl
  | ok r => rfl

end Runs

/-- White space that is skipped between tokens. -/
def isBlank (c : Char) : Bool :=
  c.utf8Size = 1 && isAsciiWhitespace c.toNat.toUInt8

theorem isBlank_cases {c : Char} (h : isBlank c = true) :
    c = '\t' ∨ c = '\n' ∨ c = '\x0c' ∨ c = '\r' ∨ c = ' ' := by
  simp only [isBlank, isAsciiWhitespace, Bool.and_eq_true, decide_eq_true_eq, Bool.or_eq_true] at h
  obtain ⟨hsize, hbyte⟩ := h
  have hlt : c.toNat < 128 := by
    have hle := UInt32.le_iff_toNat_le.mp (Char.utf8Size_eq_one_iff.mp hsize)
    exact Nat.lt_succ_of_le hle
  have hchar (d : Char) (hd : c.toNat.toUInt8 = d.toNat.toUInt8) (hlow : d.toNat < 128) :
      c = d := by
    have hnat := congrArg UInt8.toNat hd
    simp only [Nat.toUInt8_eq, UInt8.toNat_ofNat'] at hnat
    exact Char.toNat_inj.mp (by omega)
  rcases hbyte with (((h | h) | h) | h) | h
  · exact .inl (hchar '\t' h (by decide))
  · exact .inr (.inl (hchar '\n' h (by decide)))
  · exact .inr (.inr (.inl (hchar '\x0c' h (by decide))))
  · exact .inr (.inr (.inr (.inl (hchar '\r' h (by decide)))))
  · exact .inr (.inr (.inr (.inr (hchar ' ' h (by decide)))))

/-- A text without the white space at its start. -/
def trimmed (rest : List Char) : List Char :=
  rest.dropWhile isBlank

/-- White space only. -/
def Gap (gap : List Char) : Prop :=
  ∀ c ∈ gap, isBlank c = true

theorem trimmed_cons {c : Char} (h : isBlank c = false) (rest : List Char) :
    trimmed (c :: rest) = c :: rest := by
  unfold trimmed
  rw [List.dropWhile_cons_of_neg (by rw [h]; decide)]

theorem trimmed_gap {gap : List Char} (h : Gap gap) (rest : List Char) :
    trimmed (gap ++ rest) = trimmed rest := by
  unfold trimmed
  rw [List.dropWhile_append_of_pos h]

theorem trimmed_trimmed (rest : List Char) : trimmed (trimmed rest) = trimmed rest := by
  induction rest with
  | nil => rfl
  | cons c rest ih =>
    cases hc : isBlank c with
    | true =>
      have h : trimmed (c :: rest) = trimmed rest := List.dropWhile_cons_of_pos hc
      rw [h, ih]
    | false => rw [trimmed_cons hc, trimmed_cons hc]

theorem gap_append {gap gap' : List Char} (h : Gap gap) (h' : Gap gap') : Gap (gap ++ gap') := by
  intro c hc
  rcases List.mem_append.mp hc with hc | hc
  · exact h c hc
  · exact h' c hc

theorem skipWs_eq (rest : List Char) :
    (skipWs : ExprParser π Unit) rest = .ok ((), trimmed rest) := rfl

theorem consume_eq (token rest : List Char) : (consume token : ExprParser π Bool) rest
    = if token.isPrefixOf (trimmed rest) then .ok (true, (trimmed rest).drop token.length)
      else .ok (false, trimmed rest) := by
  show (consumeWord token : ExprParser π Bool) (trimmed rest) = _
  show (if token.isPrefixOf (trimmed rest) = true then _ else _ : ExprParser π Bool) _ = _
  split
  · rfl
  · rfl

theorem consume_hit {token rest after : List Char} (h : trimmed rest = token ++ after) :
    (consume token : ExprParser π Bool) rest = .ok (true, after) := by
  rw [consume_eq, h, if_pos (List.isPrefixOf_iff_prefix.mpr (List.prefix_append _ _)),
    List.drop_left]

theorem consume_miss {token rest : List Char} (h : ¬ token <+: trimmed rest) :
    (consume token : ExprParser π Bool) rest = .ok (false, trimmed rest) := by
  rw [consume_eq, if_neg (by rwa [List.isPrefixOf_iff_prefix])]

theorem expect_hit {token rest after : List Char} (h : trimmed rest = token ++ after)
    (reason : String) : (expect token reason : ExprParser π Unit) rest = .ok ((), after) := by
  unfold expect
  rw [bind_ok (consume_hit h)]
  rfl

theorem expect_miss {token rest : List Char} (h : ¬ token <+: trimmed rest) (reason : String) :
    (expect token reason : ExprParser π Unit) rest = .error (.invalid ⟨reason⟩) := by
  unfold expect
  rw [bind_ok (consume_miss h)]
  rfl

/-- A character that no token of an operator starts with. -/
def isPlainHead (c : Char) : Bool :=
  c != '*' && c != '/' && c != '%' && c != '+' && c != '-' && c != '>' && c != '&' && c != '='
    && c != '!' && c != '<' && c != '|'

/-- The first operator of the list whose token stands at the start of the text, and what follows the
token. -/
def operatorAt : List (List Char × BinaryOp) → List Char → Option BinaryOp × List Char
  | [], rest => (none, rest)
  | (token, op) :: ops, rest =>
    if token.isPrefixOf rest then (some op, rest.drop token.length) else operatorAt ops rest

theorem operatorAt_hit (token : List Char) (op : BinaryOp) (ops : List (List Char × BinaryOp))
    (after : List Char) : operatorAt ((token, op) :: ops) (token ++ after) = (some op, after) := by
  unfold operatorAt
  rw [if_pos (List.isPrefixOf_iff_prefix.mpr (List.prefix_append _ _)), List.drop_left]

theorem operatorAt_miss {token rest : List Char} (h : ¬ token <+: rest) (op : BinaryOp)
    (ops : List (List Char × BinaryOp)) :
    operatorAt ((token, op) :: ops) rest = operatorAt ops rest := by
  rw [operatorAt, if_neg]
  rwa [List.isPrefixOf_iff_prefix]

theorem consumeOp_trimmed (ops : List (List Char × BinaryOp)) {rest : List Char}
    (h : trimmed rest = rest) :
    (consumeOp ops : ExprParser π (Option BinaryOp)) rest = .ok (operatorAt ops rest) := by
  induction ops with
  | nil => rfl
  | cons op ops ih =>
    obtain ⟨token, op⟩ := op
    unfold consumeOp
    by_cases htoken : token <+: rest
    · obtain ⟨after, rfl⟩ := htoken
      rw [bind_ok (consume_hit h), operatorAt_hit]
      rfl
    · rw [bind_ok (consume_miss (by rwa [h])), h, operatorAt_miss htoken]
      exact ih

theorem consumeOp_eq (op : List Char × BinaryOp) (ops : List (List Char × BinaryOp))
    (rest : List Char) : (consumeOp (op :: ops) : ExprParser π (Option BinaryOp)) rest
      = .ok (operatorAt (op :: ops) (trimmed rest)) := by
  rw [← consumeOp_trimmed _ (trimmed_trimmed rest)]
  unfold consumeOp
  show ((consume op.1 : ExprParser π Bool) >>= _) rest
    = ((consume op.1 : ExprParser π Bool) >>= _) (trimmed rest)
  have hconsume : (consume op.1 : ExprParser π Bool) rest = consume op.1 (trimmed rest) := by
    rw [consume_eq, consume_eq, trimmed_trimmed]
  show ((consume op.1 : ExprParser π Bool) rest >>= _) = (consume op.1 (trimmed rest) >>= _)
  rw [hconsume]

/-! ## The levels -/

section Levels

variable (reader : LiteralReader π) (conditional : ExprParser π RuleExpr)

/-- The tokens of the operators of a level. -/
def levelTokens : Nat → List (List Char × BinaryOp)
  | 1 => [(['*'], .mul), (['/'], .div), (['%'], .rem)]
  | 2 => [(['+'], .add), (['-'], .sub)]
  | 3 => [(['>', '>'], .shr)]
  | 5 => [(['=', '='], .eq), (['!', '='], .ne), (['<', '='], .le), (['>', '='], .ge),
      (['<'], .lt), (['>'], .gt)]
  | 6 => [(['&', '&'], .and)]
  | 7 => [(['|', '|'], .or)]
  | _ => []

/-- The operator of a level at the start of a text, and what follows its token. -/
def nextOperator (k : Nat) (rest : List Char) : Option BinaryOp × List Char :=
  if k = 4 then
    if rest.head? = some '&' && rest[1]? ≠ some '&' then (some .bitAnd, rest.drop 1)
    else (none, rest)
  else operatorAt (levelTokens k) rest

/-- The productions from `parse_unary` up to `parse_or`. -/
def level : Nat → ExprParser π RuleExpr
  | 0 => do
    let rest ← get
    parseUnary reader conditional (rest.length + 1)
  | 1 => parseMultiplicative reader conditional
  | 2 => parseAdditive reader conditional
  | 3 => parseShift reader conditional
  | 4 => parseBitwiseAnd reader conditional
  | 5 => parseComparison reader conditional
  | 6 => parseAnd reader conditional
  | _ => parseOr reader conditional

/-- An operator of level `k + 1` and its right operand, as the next expression of the level. -/
def levelStep (k : Nat) (expr : RuleExpr) : ExprParser π (Option RuleExpr) := fun rest =>
  match nextOperator (k + 1) (trimmed rest) with
  | (some op, after) =>
    (level reader conditional k after).map fun r => (some (.binary op expr r.1), r.2)
  | (none, _) => .ok (none, trimmed rest)

/-- What level `k + 1` does after its first operand; comparisons are not chained. -/
def levelTail (k : Nat) (expr : RuleExpr) : ExprParser π RuleExpr := do
  if k = 4 then
    match ← levelStep reader conditional k expr with
    | some expr => return expr
    | none => return expr
  else
    let rest ← get
    repeatWhile (levelStep reader conditional k) (rest.length + 1) expr

theorem operatorAt_none {ops : List (List Char × BinaryOp)} {rest after : List Char}
    (h : operatorAt ops rest = (none, after)) : after = rest := by
  induction ops with
  | nil =>
    cases h
    rfl
  | cons op ops ih =>
    unfold operatorAt at h
    split at h
    · cases h
    · exact ih h

theorem nextOperator_none {k : Nat} {rest after : List Char}
    (h : nextOperator k rest = (none, after)) : after = rest := by
  unfold nextOperator at h
  split at h
  · split at h
    · cases h
    · cases h
      rfl
  · exact operatorAt_none h

/-- The step of a loop that looks for the operators of a level. -/
theorem levelStep_eq {k : Nat} {next : ExprParser π (Option BinaryOp)}
    (hnext : ∀ rest, next rest = .ok (nextOperator (k + 1) (trimmed rest))) (expr : RuleExpr) :
    levelStep reader conditional k expr = do
      match ← next with
      | some op => return some (.binary op expr (← level reader conditional k))
      | none => return none := by
  funext rest
  have hrest := hnext rest
  unfold levelStep
  rcases hop : nextOperator (k + 1) (trimmed rest) with ⟨_ | op, after⟩
  · rw [hop, nextOperator_none hop] at hrest
    rw [bind_ok hrest]
    rfl
  · rw [hop] at hrest
    rw [bind_ok hrest]
    exact (bind_pure_eq _ (fun right => some (RuleExpr.binary op expr right)) after).symm

theorem leftAssociative_eq (k : Nat) {ops : List (List Char × BinaryOp)} (hk : k ≠ 4)
    (hnext : ∀ rest, (consumeOp ops : ExprParser π (Option BinaryOp)) rest
      = .ok (nextOperator (k + 1) (trimmed rest))) :
    leftAssociative ops (level reader conditional k)
      = level reader conditional k >>= levelTail reader conditional k := by
  have hchain : leftAssociative ops (level reader conditional k)
      = chain (level reader conditional k) (levelStep reader conditional k) := by
    unfold leftAssociative
    congr 1
    funext expr
    exact (levelStep_eq reader conditional hnext expr).symm
  rw [hchain]
  unfold levelTail
  simp only [if_neg hk]
  rfl

theorem parseBitwiseAnd_eq : parseBitwiseAnd reader conditional
    = level reader conditional 3 >>= levelTail reader conditional 3 := by
  have hchain : parseBitwiseAnd reader conditional
      = chain (level reader conditional 3) (levelStep reader conditional 3) := by
    unfold parseBitwiseAnd
    congr 1
    funext expr rest
    show (if ((trimmed rest).head? = some '&' && (trimmed rest)[1]? ≠ some '&') = true
      then _ else _ : ExprParser π (Option RuleExpr)) (trimmed rest) = _
    unfold levelStep nextOperator
    rw [if_pos (show 3 + 1 = 4 from rfl)]
    by_cases hnext : ((trimmed rest).head? = some '&' && (trimmed rest)[1]? ≠ some '&') = true
    · rw [if_pos hnext, if_pos hnext]
      exact bind_pure_eq (level reader conditional 3)
        (fun right => some (RuleExpr.binary .bitAnd expr right)) _
    · rw [if_neg hnext, if_neg hnext]
      rfl
  rw [hchain]
  rfl

theorem parseComparison_eq : parseComparison reader conditional
    = level reader conditional 4 >>= levelTail reader conditional 4 := by
  unfold parseComparison
  show (level reader conditional 4 >>= _) = _
  congr 1
  funext left
  have hnext (rest : List Char) : (consumeOp (levelTokens 5) : ExprParser π (Option BinaryOp)) rest
      = .ok (nextOperator (4 + 1) (trimmed rest)) := consumeOp_eq _ _ rest
  unfold levelTail
  rw [if_pos rfl, levelStep_eq reader conditional hnext, bind_assoc]
  congr 1
  funext op
  cases op with
  | none => rfl
  | some op =>
    simp only [bind_assoc, pure_bind]
    rfl

theorem level_succ {k : Nat} (hk : k < 7) : level reader conditional (k + 1)
    = level reader conditional k >>= levelTail reader conditional k := by
  match k, hk with
  | 0, _ => exact leftAssociative_eq reader conditional 0 (by decide) (consumeOp_eq _ _)
  | 1, _ => exact leftAssociative_eq reader conditional 1 (by decide) (consumeOp_eq _ _)
  | 2, _ => exact leftAssociative_eq reader conditional 2 (by decide) (consumeOp_eq _ _)
  | 3, _ => exact parseBitwiseAnd_eq reader conditional
  | 4, _ => exact parseComparison_eq reader conditional
  | 5, _ => exact leftAssociative_eq reader conditional 5 (by decide) (consumeOp_eq _ _)
  | 6, _ => exact leftAssociative_eq reader conditional 6 (by decide) (consumeOp_eq _ _)

end Levels

/-! ## Climbing and joining -/

/-- The end of a text, or a character that neither is skipped nor starts an operator. -/
def Closed (rest : List Char) : Prop :=
  ∀ c after, rest = c :: after → isBlank c = false ∧ isPlainHead c = true

theorem Closed.trimmed {rest : List Char} (h : Closed rest) : trimmed rest = rest := by
  cases rest with
  | nil => rfl
  | cons c after => exact trimmed_cons (h c after rfl).1 after

theorem operatorAt_eq_none {ops : List (List Char × BinaryOp)} {rest : List Char}
    (h : ∀ op ∈ ops, ¬ op.1 <+: rest) : operatorAt ops rest = (none, rest) := by
  induction ops with
  | nil => rfl
  | cons op ops ih =>
    obtain ⟨token, op⟩ := op
    rw [operatorAt_miss (h _ List.mem_cons_self)]
    exact ih fun op hop => h op (List.mem_cons_of_mem _ hop)

theorem levelTokens_head (k : Nat) :
    ∀ op ∈ levelTokens k, ∃ c token, op.1 = c :: token ∧ isPlainHead c = false := by
  unfold levelTokens
  split
  all_goals simp [isPlainHead]

theorem nextOperator_closed {rest : List Char} (h : Closed rest) (k : Nat) :
    nextOperator k rest = (none, rest) := by
  unfold nextOperator
  split
  · rw [if_neg]
    cases rest with
    | nil => decide
    | cons c after =>
      have hc : c ≠ '&' := by
        rintro rfl
        exact absurd (h _ after rfl).2 (by decide)
      simp [hc]
  · apply operatorAt_eq_none
    intro op hop hstart
    obtain ⟨c, token, htoken, hc⟩ := levelTokens_head k op hop
    rw [htoken] at hstart
    obtain ⟨after, rfl⟩ := hstart
    rw [(h c (token ++ after) rfl).2] at hc
    cases hc

section Climb

variable {reader : LiteralReader π} {conditional : ExprParser π RuleExpr} {k : Nat}
  {input rest : List Char}

theorem levelTail_idle (htrimmed : trimmed rest = rest)
    (hnext : nextOperator (k + 1) rest = (none, rest)) (expr : RuleExpr) :
    levelTail reader conditional k expr rest = .ok (expr, rest) := by
  have hstep : levelStep reader conditional k expr rest = .ok (none, rest) := by
    unfold levelStep
    rw [htrimmed, hnext]
  unfold levelTail
  split
  · rw [bind_ok hstep]
    rfl
  · show repeatWhile _ (rest.length + 1) expr rest = _
    unfold repeatWhile
    rw [bind_ok hstep]
    rfl

theorem levelTail_error {op : BinaryOp} {after : List Char} {e : ParseStop π}
    (htrimmed : trimmed rest = rest) (hnext : nextOperator (k + 1) rest = (some op, after))
    (hright : level reader conditional k after = .error e) (expr : RuleExpr) :
    levelTail reader conditional k expr rest = .error e := by
  have hstep : levelStep reader conditional k expr rest = .error e := by
    unfold levelStep
    rw [htrimmed, hnext]
    show (level reader conditional k after).map _ = _
    rw [hright]
    rfl
  unfold levelTail
  split
  · exact bind_error hstep
  · show repeatWhile _ (rest.length + 1) expr rest = _
    unfold repeatWhile
    exact bind_error hstep

theorem levelTail_join {op : BinaryOp} {after rest' : List Char} {right : RuleExpr}
    (htrimmed : trimmed rest = rest) (hnext : nextOperator (k + 1) rest = (some op, after))
    (hright : level reader conditional k after = .ok (right, rest'))
    (htrimmed' : trimmed rest' = rest') (hnext' : nextOperator (k + 1) rest' = (none, rest'))
    (expr : RuleExpr) :
    levelTail reader conditional k expr rest = .ok (.binary op expr right, rest') := by
  have hstep : levelStep reader conditional k expr rest
      = .ok (some (.binary op expr right), rest') := by
    unfold levelStep
    rw [htrimmed, hnext]
    show (level reader conditional k after).map _ = _
    rw [hright]
    rfl
  have hidle : levelStep reader conditional k (.binary op expr right) rest' = .ok (none, rest') := by
    unfold levelStep
    rw [htrimmed', hnext']
  unfold levelTail
  split
  · rw [bind_ok hstep]
    rfl
  · show repeatWhile _ (rest.length + 1) expr rest = _
    -- an operator stands there, so the loop has fuel for two turns
    obtain ⟨c, tail, rfl⟩ : ∃ c tail, rest = c :: tail := by
      cases rest with
      | nil =>
        rw [nextOperator_closed (fun c after h => by cases h)] at hnext
        cases hnext
      | cons c tail => exact ⟨c, tail, rfl⟩
    unfold repeatWhile
    rw [bind_ok hstep]
    show repeatWhile _ (tail.length + 1) _ rest' = _
    unfold repeatWhile
    rw [bind_ok hidle]
    rfl

theorem level_pass (hk : k < 7) {expr : RuleExpr}
    (hoperand : level reader conditional k input = .ok (expr, rest))
    (htrimmed : trimmed rest = rest) (hnext : nextOperator (k + 1) rest = (none, rest)) :
    level reader conditional (k + 1) input = .ok (expr, rest) := by
  rw [level_succ reader conditional hk, bind_ok hoperand]
  exact levelTail_idle htrimmed hnext expr

theorem level_error (hk : k < 7) {e : ParseStop π}
    (hoperand : level reader conditional k input = .error e) :
    level reader conditional (k + 1) input = .error e := by
  rw [level_succ reader conditional hk]
  exact bind_error hoperand

end Climb

/-! ## Readings that go wrong -/

/-- An error, or a rest that starts with a character of a name: nothing that may follow an
expression stands next. -/
def Stuck (r : Except (ParseStop π) (RuleExpr × List Char)) : Prop :=
  ∀ expr rest, r = .ok (expr, rest) → ∃ c after, rest = c :: after ∧ isNameChar c = true

/-- Read as `expr` up to `rest` if the condition holds, and else stuck. -/
def Answers (good : Prop) (expr : RuleExpr) (rest : List Char)
    (r : Except (ParseStop π) (RuleExpr × List Char)) : Prop :=
  (good → r = .ok (expr, rest)) ∧ (¬ good → Stuck r)

theorem Answers.good {good : Prop} {expr : RuleExpr} {rest : List Char}
    {r : Except (ParseStop π) (RuleExpr × List Char)} (h : good) (hr : r = .ok (expr, rest)) :
    Answers good expr rest r :=
  ⟨fun _ => hr, fun hbad => absurd h hbad⟩

theorem Answers.congr {good good' : Prop} {expr : RuleExpr} {rest : List Char}
    {r : Except (ParseStop π) (RuleExpr × List Char)} (h : Answers good expr rest r)
    (hgood : good ↔ good') : Answers good' expr rest r := by
  rwa [← propext hgood]

theorem stuck_error (e : ParseStop π) : Stuck (.error e : Except (ParseStop π) _) := by
  intro expr rest h
  cases h

theorem Answers.map {good : Prop} {expr : RuleExpr} {rest : List Char}
    {r : Except (ParseStop π) (RuleExpr × List Char)} (h : Answers good expr rest r)
    (f : RuleExpr → RuleExpr) : Answers good (f expr) rest (r.map fun r => (f r.1, r.2)) := by
  refine ⟨fun hgood => ?_, fun hbad => ?_⟩
  · rw [h.1 hgood]
    rfl
  · intro expr' rest' hok
    cases r with
    | error e => cases hok
    | ok r =>
      cases hok
      exact h.2 hbad r.1 r.2 rfl

theorem closed_of_isNameChar {c : Char} (h : isNameChar c = true) (after : List Char) :
    Closed (c :: after) := by
  intro c' after' heq
  cases heq
  refine ⟨?_, ?_⟩
  · cases hblank : isBlank c with
    | false => rfl
    | true =>
      rcases isBlank_cases hblank with rfl | rfl | rfl | rfl | rfl
      all_goals exact absurd h (by decide)
  · simp only [isPlainHead, Bool.and_eq_true, bne_iff_ne]
    refine ⟨⟨⟨⟨⟨⟨⟨⟨⟨⟨?_, ?_⟩, ?_⟩, ?_⟩, ?_⟩, ?_⟩, ?_⟩, ?_⟩, ?_⟩, ?_⟩, ?_⟩
    all_goals
      rintro rfl
      exact absurd h (by decide)

section Stuck

variable {reader : LiteralReader π} {conditional : ExprParser π RuleExpr} {k : Nat}
  {input rest : List Char} {expr : RuleExpr}

theorem Stuck.level (h : Stuck (level reader conditional k input)) (hk : k < 7) :
    Stuck (level reader conditional (k + 1) input) := by
  cases hoperand : ExprParser.level reader conditional k input with
  | error e =>
    rw [level_error hk hoperand]
    exact stuck_error e
  | ok r =>
    obtain ⟨c, after, hrest, hc⟩ := h r.1 r.2 hoperand
    have hclosed : Closed r.2 := by
      rw [hrest]
      exact closed_of_isNameChar hc after
    rw [level_pass hk hoperand hclosed.trimmed (nextOperator_closed hclosed (k + 1))]
    intro expr rest heq
    cases heq
    exact ⟨c, after, hrest, hc⟩

theorem level_climb {good : Prop} {j : Nat} (hj : k ≤ j) (hj' : j ≤ 7)
    (h : Answers good expr rest (level reader conditional k input)) (htrimmed : trimmed rest = rest)
    (hnext : ∀ i, k < i → i ≤ j → nextOperator i rest = (none, rest)) :
    Answers good expr rest (level reader conditional j input) := by
  induction j, hj using Nat.le_induction with
  | base => exact h
  | succ j hkj ih =>
    obtain ⟨hgood, hbad⟩ := ih (by omega) fun i hi hij => hnext i hi (by omega)
    exact ⟨fun hg => level_pass (by omega) (hgood hg) htrimmed (hnext (j + 1) (by omega) le_rfl),
      fun hg => (hbad hg).level (by omega)⟩

theorem level_join {goodL goodR : Prop} {op : BinaryOp} {right : RuleExpr}
    {after rest' : List Char} (hk : k < 7)
    (hleft : Answers goodL expr rest (level reader conditional k input))
    (htrimmed : trimmed rest = rest) (hnext : nextOperator (k + 1) rest = (some op, after))
    (hright : Answers goodR right rest' (level reader conditional k after)) (hclosed : Closed rest') :
    Answers (goodL ∧ goodR) (.binary op expr right) rest'
      (level reader conditional (k + 1) input) := by
  by_cases hl : goodL
  · rw [level_succ reader conditional hk, bind_ok (hleft.1 hl)]
    refine ⟨fun hg => ?_, fun hg => ?_⟩
    · exact levelTail_join htrimmed hnext (hright.1 hg.2) hclosed.trimmed
        (nextOperator_closed hclosed _) expr
    · have hstuck := hright.2 fun hr => hg ⟨hl, hr⟩
      cases hr : level reader conditional k after with
      | error e =>
        rw [levelTail_error htrimmed hnext hr]
        exact stuck_error e
      | ok r =>
        obtain ⟨c, tail, hrest, hc⟩ := hstuck r.1 r.2 hr
        have hclosed : Closed r.2 := by
          rw [hrest]
          exact closed_of_isNameChar hc tail
        rw [levelTail_join htrimmed hnext hr hclosed.trimmed (nextOperator_closed hclosed _)]
        intro expr rest heq
        cases heq
        exact ⟨c, tail, hrest, hc⟩
  · exact ⟨fun hg => absurd hg.1 hl, fun _ => (hleft.2 hl).level hk⟩

end Stuck

end ExprParser

end Pdfv
