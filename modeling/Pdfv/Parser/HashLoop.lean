import Pdfv.Parser.Encryption
/-!
# The hash of revision 6

`revision6HashLoop` beside the loop of Algorithm 2.B, which counts its completed rounds and reads the
selector as a big-endian number. The rounds are the same; the two loops stop at different rounds exactly
when the ciphertext of a round `k` from the 64th on ends with the byte `k - 32`.
-/

namespace Pdfv

open Loop Fallible

/-- Bytes as a big-endian number. -/
def bigEndianValue (bytes : Bytes) : Nat :=
  bytes.foldl (fun value b => value * 256 + b.toNat) 0

section Reference

variable (crates : Crates) (password : Bytes) (ownerContext : Option Bytes)

/-- One round of Algorithm 2.B: the digest and the last ciphertext byte. The first sixteen bytes of the
ciphertext, as a big-endian number modulo three, select the hash. -/
def referenceRound (digest : Bytes) : DecryptResult (Bytes × UInt8) := do
  let encrypted ← revision6Ciphertext crates password ownerContext digest
  let head ← orElseError (subrange encrypted 0 16) (.malformed "revision 6 selector missing")
  let digest := selectHash crates (bigEndianValue head % 3) encrypted
  let last ← orElseError encrypted.getLast? (.malformed "revision 6 hash block missing")
  return (digest, last)

/-- One pass of the loop of Algorithm 2.B after `completed` rounds: after round `k` it stops when
`k ≥ 64` and the last byte of the ciphertext is at most `k - 32`. -/
def referenceStep (s : Nat × Bytes) : Step (Nat × Bytes) (DecryptResult Bytes) :=
  let (completed, digest) := s
  match referenceRound crates password ownerContext digest with
  | .error e => .done (.error e)
  | .ok (digest, last) =>
    let k := completed + 1
    if 64 ≤ k ∧ last.toNat ≤ k - 32 then .done (.ok digest) else .next (k, digest)

/-- `revision6HashLoop` is the loop of Algorithm 2.B: both make the same number of rounds and end with
the same result. -/
def MatchesReference (digest : Bytes) : Prop :=
  ∃ rounds result, EndsIn (referenceStep crates password ownerContext) rounds (0, digest) result
    ∧ EndsIn (revision6HashStep crates password ownerContext) rounds (0, digest) result
    ∧ revision6HashLoop crates password ownerContext digest = result

/-- No round `k` from the 64th on that the loop of Algorithm 2.B makes has a ciphertext that ends with
the byte `k - 32`. -/
def OffBoundary (digest : Bytes) : Prop :=
  ∀ k before after last, Steps (referenceStep crates password ownerContext) k (0, digest) (k, before) →
    referenceRound crates password ownerContext before = .ok (after, last) →
    64 ≤ k + 1 → last.toNat ≠ k + 1 - 32

end Reference

/-! ## The selector -/

theorem foldl_bigEndianValue_mod (bytes : Bytes) (value sum : Nat) (h : value % 3 = sum % 3) :
    bytes.foldl (fun value b => value * 256 + b.toNat) value % 3
      = bytes.foldl (fun sum b => sum + b.toNat) sum % 3 := by
  induction bytes generalizing value sum with
  | nil => exact h
  | cons b bytes ih =>
    have hstep : (value * 256 + b.toNat) % 3 = (sum + b.toNat) % 3 := by
      omega
    exact ih _ _ hstep

/-- The sum of the bytes selects the hash that the big-endian number selects: 256 is 1 modulo 3. -/
theorem bigEndianValue_mod (bytes : Bytes) :
    bigEndianValue bytes % 3 = (bytes.foldl (fun sum b => sum + b.toNat) 0) % 3 :=
  foldl_bigEndianValue_mod bytes 0 0 rfl

section Loops

variable {crates : Crates} {password : Bytes} {ownerContext : Option Bytes}

theorem revision6Round_eq (digest : Bytes) : revision6Round crates password ownerContext digest
    = referenceRound crates password ownerContext digest := by
  unfold revision6Round referenceRound
  simp only [bigEndianValue_mod]

/-! ## One pass -/

/-- The reference loop makes at most 287 rounds: no byte is above 255. -/
theorem referenceStep_next {k : Nat} {digest : Bytes} {s' : Nat × Bytes}
    (h : referenceStep crates password ownerContext (k, digest) = .next s') :
    ∃ after last, referenceRound crates password ownerContext digest = .ok (after, last)
      ∧ s' = (k + 1, after) ∧ k < 287 ∧ (64 ≤ k + 1 → k + 1 - 32 < last.toNat) := by
  unfold referenceStep at h
  dsimp only at h
  split at h
  · cases h
  · rename_i after last hround
    by_cases hstop : 64 ≤ k + 1 ∧ last.toNat ≤ k + 1 - 32
    · rw [if_pos hstop] at h
      cases h
    · rw [if_neg hstop] at h
      have hlast := last.toNat_lt
      exact ⟨after, last, hround, (Step.next.inj h).symm, by omega, by omega⟩

/-- A pass that the reference loop does not end with is a pass of the other loop. -/
theorem revision6HashStep_next {k : Nat} {digest : Bytes} {s' : Nat × Bytes}
    (h : referenceStep crates password ownerContext (k, digest) = .next s') :
    revision6HashStep crates password ownerContext (k, digest) = .next s' := by
  obtain ⟨after, last, hround, rfl, hk, hlast⟩ := referenceStep_next h
  unfold revision6HashStep
  dsimp only
  rw [if_neg (by unfold revision6HashMaxRounds; omega), revision6Round_eq, hround]
  exact if_neg (by omega)

/-- On the boundary the other loop goes on. -/
theorem revision6HashStep_boundary {k : Nat} {digest after : Bytes} {last : UInt8}
    (hround : referenceRound crates password ownerContext digest = .ok (after, last))
    (hk : 64 ≤ k + 1) (hlast : last.toNat = k + 1 - 32) :
    referenceStep crates password ownerContext (k, digest) = .done (.ok after)
      ∧ revision6HashStep crates password ownerContext (k, digest) = .next (k + 1, after) := by
  have hbyte := last.toNat_lt
  constructor
  · unfold referenceStep
    dsimp only
    rw [hround]
    exact if_pos ⟨hk, by omega⟩
  · unfold revision6HashStep
    dsimp only
    rw [if_neg (by unfold revision6HashMaxRounds; omega), revision6Round_eq, hround]
    exact if_neg (by omega)

/-- Off the boundary the two passes are the same, up to the bound of the other loop. -/
theorem revision6HashStep_eq {k : Nat} {digest : Bytes} (hk : k < 288)
    (hoff : ∀ after last, referenceRound crates password ownerContext digest = .ok (after, last) →
      64 ≤ k + 1 → last.toNat ≠ k + 1 - 32) :
    revision6HashStep crates password ownerContext (k, digest)
      = referenceStep crates password ownerContext (k, digest) := by
  unfold revision6HashStep referenceStep
  dsimp only
  rw [if_neg (by unfold revision6HashMaxRounds; omega), revision6Round_eq]
  cases hround : referenceRound crates password ownerContext digest with
  | error e => rfl
  | ok round =>
    obtain ⟨after, last⟩ := round
    have hne := hoff after last hround
    dsimp only
    apply if_congr _ rfl rfl
    omega

/-! ## Whole runs -/

/-- The passes of the reference loop are counted in its state, and are passes of the other loop. -/
theorem referenceSteps {n k : Nat} {digest : Bytes} {s' : Nat × Bytes}
    (h : Steps (referenceStep crates password ownerContext) n (k, digest) s') :
    s'.1 = k + n ∧ (k ≤ 287 → k + n ≤ 287)
      ∧ Steps (revision6HashStep crates password ownerContext) n (k, digest) s' := by
  induction n generalizing k digest with
  | zero =>
    cases h
    exact ⟨rfl, id, .refl _⟩
  | succ n ih =>
    cases h with
    | next hstep hrest =>
      obtain ⟨after, last, -, rfl, hk, -⟩ := referenceStep_next hstep
      obtain ⟨hcount, hbound, hsteps⟩ := ih hrest
      exact ⟨by omega, by omega, .next (revision6HashStep_next hstep) hsteps⟩

/-- Off the boundary the two loops end in the same pass. -/
theorem endsIn_together {start : Bytes} (hoff : OffBoundary crates password ownerContext start)
    {n k : Nat} {digest : Bytes} (hn : k + n = 288)
    (hsteps : Steps (referenceStep crates password ownerContext) k (0, start) (k, digest)) :
    ∃ rounds result, rounds ≤ n
      ∧ EndsIn (referenceStep crates password ownerContext) rounds (k, digest) result
      ∧ EndsIn (revision6HashStep crates password ownerContext) rounds (k, digest) result := by
  have hbound := (referenceSteps hsteps).2.1 (Nat.zero_le _)
  induction n generalizing k digest with
  | zero => omega
  | succ n ih =>
    have heq := revision6HashStep_eq (by omega) fun after last hround =>
      hoff k digest after last hsteps hround
    cases hstep : referenceStep crates password ownerContext (k, digest) with
    | done result =>
      exact ⟨1, result, by omega, .done hstep, .done (heq.trans hstep)⟩
    | next s' =>
      obtain ⟨after, last, -, rfl, -, -⟩ := referenceStep_next hstep
      have hmore : Steps (referenceStep crates password ownerContext) (k + 1) (0, start)
          (k + 1, after) := hsteps.trans (.next hstep (.refl _))
      obtain ⟨rounds, result, hrounds, href, hcode⟩ :=
        ih (by omega) hmore ((referenceSteps hmore).2.1 (Nat.zero_le _))
      exact ⟨rounds + 1, result, by omega, .next hstep href, .next (heq.trans hstep) hcode⟩

/-- A round on the boundary ends the reference loop, and not the other one. -/
theorem not_matchesReference {start before after : Bytes} {last : UInt8} {k : Nat}
    (hsteps : Steps (referenceStep crates password ownerContext) k (0, start) (k, before))
    (hround : referenceRound crates password ownerContext before = .ok (after, last))
    (hk : 64 ≤ k + 1) (hlast : last.toNat = k + 1 - 32) :
    ¬ MatchesReference crates password ownerContext start := by
  rintro ⟨rounds, result, href, hcode, -⟩
  obtain ⟨hdone, hnext⟩ := revision6HashStep_boundary hround hk hlast
  obtain ⟨m, rfl, hm⟩ := href.after hsteps
  obtain ⟨m', heq, hm'⟩ := hcode.after (referenceSteps hsteps).2.2
  cases Nat.add_left_cancel heq
  have hone : m = 1 := by
    cases hm with
    | done => rfl
    | next hstep =>
      rw [hdone] at hstep
      cases hstep
  cases hm' with
  | done hstep =>
    rw [hnext] at hstep
    cases hstep
  | next _ hrest =>
    have hpos := hrest.pos
    omega

/-- The hash loop is that of Algorithm 2.B exactly when no round of it ends on the boundary. -/
theorem revision6HashLoop_matches_iff (crates : Crates) (password : Bytes)
    (ownerContext : Option Bytes) (digest : Bytes) :
    MatchesReference crates password ownerContext digest
      ↔ OffBoundary crates password ownerContext digest := by
  constructor
  · intro hmatches k before after last hsteps hround hk hlast
    exact not_matchesReference hsteps hround hk hlast hmatches
  · intro hoff
    obtain ⟨rounds, result, hrounds, href, hcode⟩ :=
      endsIn_together hoff (Nat.zero_add 288) (.refl _)
    refine ⟨rounds, result, href, hcode, hcode.runLoop ?_ _⟩
    unfold revision6HashMaxRounds
    omega

end Loops

/-! ## A run on the boundary -/

/-- A cipher whose ciphertexts end with the byte 32, and hashes that count up their first byte. -/
def countingCrates : Crates :=
  { Crates.unused with
    sha256 := fun bytes => List.replicate 32 (bytes.headD 0 + 1)
    sha384 := fun bytes => List.replicate 32 (bytes.headD 0 + 1)
    sha512 := fun bytes => List.replicate 32 (bytes.headD 0 + 1)
    aes128CbcEncrypt := fun key _ _ => some (key.take 15 ++ [32]) }

/-- The digest after a number of rounds. -/
def countingDigest (rounds : Nat) : Bytes :=
  List.replicate 32 (UInt8.ofNat rounds)

theorem countingRounds : ∀ k < 65,
    (match referenceRound countingCrates [] none (countingDigest k) with
    | .ok (after, last) => after = countingDigest (k + 1) && last = 32
    | .error _ => false) = true := by
  decide

theorem countingRound {k : Nat} (hk : k < 65) :
    referenceRound countingCrates [] none (countingDigest k) = .ok (countingDigest (k + 1), 32) := by
  have h := countingRounds k hk
  split at h
  · rename_i after last hround
    rw [Bool.and_eq_true, decide_eq_true_eq, decide_eq_true_eq] at h
    rw [hround, h.1, h.2]
  · cases h

theorem countingSteps {k : Nat} (hk : k ≤ 63) :
    Steps (referenceStep countingCrates [] none) k (0, countingDigest 0) (k, countingDigest k) := by
  induction k with
  | zero => exact .refl _
  | succ k ih =>
    have hstep : referenceStep countingCrates [] none (k, countingDigest k)
        = .next (k + 1, countingDigest (k + 1)) := by
      unfold referenceStep
      dsimp only
      rw [countingRound (by omega)]
      exact if_neg (by omega)
    exact (ih (by omega)).trans (.next hstep (.refl _))

/-- The 64th ciphertext ends with 32: the loop of Algorithm 2.B stops, the other one makes one more
round and ends with another digest. -/
theorem revision6HashLoop_boundary :
    EndsIn (referenceStep countingCrates [] none) 64 (0, countingDigest 0) (.ok (countingDigest 64))
      ∧ revision6HashLoop countingCrates [] none (countingDigest 0) = .ok (countingDigest 65)
      ∧ ¬ MatchesReference countingCrates [] none (countingDigest 0) := by
  obtain ⟨hdone, hnext⟩ :=
    revision6HashStep_boundary (countingRound (show 63 < 65 by decide)) (le_refl 64) rfl
  have hlast : revision6HashStep countingCrates [] none (64, countingDigest 64)
      = .done (.ok (countingDigest 65)) := by
    unfold revision6HashStep
    dsimp only
    rw [if_neg (by decide), revision6Round_eq, countingRound (show 64 < 65 by decide)]
    rfl
  have hsteps := countingSteps (le_refl 63)
  refine ⟨hsteps.endsIn (.done hdone), ?_, ?_⟩
  · exact ((referenceSteps hsteps).2.2.endsIn (.next hnext (.done hlast))).runLoop (by decide) _
  · exact not_matchesReference hsteps (countingRound (by decide)) (le_refl 64) rfl

end Pdfv
