import Pdfv.Basic.Bytes
/-!
# Lossy text in ASCII

`from_utf8_lossy` reads a character outside ASCII, or U+FFFD, from every byte outside ASCII. So its
own bytes read as an ASCII text (`utf8Lossy_utf8_ascii`), and no others (`utf8Lossy_eq_ascii`).
-/

namespace Pdfv

theorem toNat_ofNat_of_valid {n : Nat} (h : n < 0xD800 ∨ 0xDFFF < n ∧ n < 0x110000) :
    (Char.ofNat n).toNat = n := by
  rw [Char.ofNat, dif_pos h]
  rfl

theorem isCont_iff {b : UInt8} : isCont b = true ↔ 128 ≤ b.toNat ∧ b.toNat ≤ 191 := by
  simp [isCont, UInt8.le_iff_toNat_le]

theorem second3_bounds {lead b : UInt8} (h : second3 lead b = true) :
    128 ≤ b.toNat ∧ b.toNat ≤ 191 ∧ (lead.toNat = 0xE0 → 0xA0 ≤ b.toNat) ∧
      (lead.toNat = 0xED → b.toNat ≤ 0x9F) := by
  unfold second3 at h
  split at h
  case isTrue heq =>
    subst heq
    simp only [Bool.and_eq_true, decide_eq_true_eq, UInt8.le_iff_toNat_le, UInt8.reduceToNat] at h
    exact ⟨by omega, by omega, fun _ => h.1, fun h => absurd h (by decide)⟩
  case isFalse hne =>
    have hlead : lead.toNat ≠ 0xE0 := fun h => hne (UInt8.toNat_inj.mp h)
    split at h
    case isTrue heq =>
      subst heq
      simp only [Bool.and_eq_true, decide_eq_true_eq, UInt8.le_iff_toNat_le, UInt8.reduceToNat] at h
      exact ⟨by omega, by omega, fun h => absurd h (by decide), fun _ => h.2⟩
    case isFalse hne' =>
      have hlead' : lead.toNat ≠ 0xED := fun h => hne' (UInt8.toNat_inj.mp h)
      obtain ⟨h1, h2⟩ := isCont_iff.mp h
      exact ⟨h1, h2, fun h => absurd h hlead, fun h => absurd h hlead'⟩

theorem second4_bounds {lead b : UInt8} (h : second4 lead b = true) :
    128 ≤ b.toNat ∧ b.toNat ≤ 191 ∧ (lead.toNat = 0xF0 → 0x90 ≤ b.toNat) ∧
      (lead.toNat = 0xF4 → b.toNat ≤ 0x8F) := by
  unfold second4 at h
  split at h
  case isTrue heq =>
    subst heq
    simp only [Bool.and_eq_true, decide_eq_true_eq, UInt8.le_iff_toNat_le, UInt8.reduceToNat] at h
    exact ⟨by omega, by omega, fun _ => h.1, fun h => absurd h (by decide)⟩
  case isFalse hne =>
    have hlead : lead.toNat ≠ 0xF0 := fun h => hne (UInt8.toNat_inj.mp h)
    split at h
    case isTrue heq =>
      subst heq
      simp only [Bool.and_eq_true, decide_eq_true_eq, UInt8.le_iff_toNat_le, UInt8.reduceToNat] at h
      exact ⟨by omega, by omega, fun h => absurd h (by decide), fun _ => h.2⟩
    case isFalse hne' =>
      have hlead' : lead.toNat ≠ 0xF4 := fun h => hne' (UInt8.toNat_inj.mp h)
      obtain ⟨h1, h2⟩ := isCont_iff.mp h
      exact ⟨h1, h2, fun h => absurd h hlead, fun h => absurd h hlead'⟩

/-- A byte outside ASCII starts a character outside ASCII. -/
theorem utf8Step_lead {b0 : UInt8} (h : 128 ≤ b0.toNat) (rest : Bytes) :
    128 ≤ (utf8Step b0 rest).1.toNat := by
  have hreplacement : 128 ≤ replacement.toNat := by decide
  have hge : ¬ b0 < 128 := by
    rw [UInt8.lt_iff_toNat_lt]
    simpa using h
  unfold utf8Step
  rw [if_neg hge]
  split
  case isTrue htwo =>
    simp only [Bool.and_eq_true, decide_eq_true_eq, UInt8.le_iff_toNat_le, UInt8.reduceToNat]
      at htwo
    split
    · split
      · show 128 ≤ (Char.ofNat _).toNat
        rw [toNat_ofNat_of_valid] <;> unfold contBits <;> omega
      · exact hreplacement
    · exact hreplacement
  case isFalse =>
    split
    case isTrue hthree =>
      simp only [Bool.and_eq_true, decide_eq_true_eq, UInt8.le_iff_toNat_le, UInt8.reduceToNat]
        at hthree
      split
      · split
        case isTrue hsecond =>
          have hbounds := second3_bounds hsecond
          split
          · show 128 ≤ (Char.ofNat _).toNat
            rw [toNat_ofNat_of_valid] <;> unfold contBits <;> omega
          · exact hreplacement
        case isFalse => exact hreplacement
      all_goals exact hreplacement
    case isFalse =>
      split
      case isTrue hfour =>
        simp only [Bool.and_eq_true, decide_eq_true_eq, UInt8.le_iff_toNat_le, UInt8.reduceToNat]
          at hfour
        split
        · split
          case isTrue hsecond =>
            have hbounds := second4_bounds hsecond
            split
            · split
              · show 128 ≤ (Char.ofNat _).toNat
                rw [toNat_ofNat_of_valid] <;> unfold contBits <;> omega
              · exact hreplacement
            · exact hreplacement
          case isFalse => exact hreplacement
        all_goals exact hreplacement
      case isFalse => exact hreplacement

theorem utf8Step_ascii {b0 : UInt8} (h : b0.toNat < 128) (rest : Bytes) :
    utf8Step b0 rest = (Char.ofNat b0.toNat, 0) := by
  unfold utf8Step
  rw [if_pos (UInt8.lt_iff_toNat_lt.mpr h)]

/-- Only the bytes of an ASCII text read as that text. -/
theorem utf8LossyChars_ascii {chars : List Char} (h : ∀ c ∈ chars, c.toNat < 128) {fuel : Nat}
    {bytes : Bytes} (hfuel : bytes.length ≤ fuel) (hread : utf8LossyChars fuel bytes = chars) :
    bytes = chars.map fun c => UInt8.ofNat c.toNat := by
  induction fuel generalizing bytes chars with
  | zero =>
    rw [List.length_eq_zero_iff.mp (Nat.le_zero.mp hfuel)] at hread ⊢
    rw [← hread]
    rfl
  | succ fuel ih =>
    cases bytes with
    | nil => rw [← hread]; rfl
    | cons b0 rest =>
      rw [utf8LossyChars] at hread
      subst hread
      have hfirst := h _ List.mem_cons_self
      have hlead : b0.toNat < 128 := by
        by_contra hge
        exact absurd hfirst (Nat.not_lt.mpr (utf8Step_lead (Nat.le_of_not_lt hge) rest))
      rw [utf8Step_ascii hlead] at h ⊢
      have hrest := ih (fun c hc => h c (List.mem_cons_of_mem _ hc))
        (Nat.le_of_succ_le_succ hfuel) rfl
      rw [List.map_cons, List.cons.injEq]
      refine ⟨?_, hrest⟩
      rw [toNat_ofNat_of_valid (by omega), UInt8.ofNat_toNat]

theorem utf8_ascii {chars : List Char} (h : ∀ c ∈ chars, c.toNat < 128) :
    utf8 (String.ofList chars) = chars.map fun c => UInt8.ofNat c.toNat := by
  rw [utf8_ofList]
  induction chars with
  | nil => rfl
  | cons c chars ih =>
    have hsmall : c.val.toNat ≤ 0x7F := Nat.le_of_lt_succ (h c List.mem_cons_self)
    rw [List.flatMap_cons, ih fun c hc => h c (List.mem_cons_of_mem _ hc), String.utf8EncodeChar,
      if_pos hsmall]
    rfl

/-- ASCII bytes read as their characters. -/
theorem utf8LossyChars_map_ascii {chars : List Char} (h : ∀ c ∈ chars, c.toNat < 128) {fuel : Nat}
    (hfuel : chars.length ≤ fuel) :
    utf8LossyChars fuel (chars.map fun c => UInt8.ofNat c.toNat) = chars := by
  induction chars generalizing fuel with
  | nil => cases fuel <;> rfl
  | cons c chars ih =>
    obtain ⟨fuel, rfl⟩ := Nat.exists_eq_succ_of_ne_zero (Nat.ne_zero_of_lt hfuel)
    have hc : c.toNat < 128 := h c List.mem_cons_self
    have hbyte : (UInt8.ofNat c.toNat).toNat = c.toNat := by
      rw [UInt8.toNat_ofNat', Nat.mod_eq_of_lt (by omega)]
    rw [List.map_cons, utf8LossyChars, utf8Step_ascii (by omega), hbyte, Char.ofNat_toNat]
    dsimp only
    rw [List.drop_zero, ih (fun c hc => h c (List.mem_cons_of_mem _ hc))
      (Nat.le_of_succ_le_succ hfuel)]

theorem utf8Lossy_utf8_ascii {text : String} (h : ∀ c ∈ text.toList, c.toNat < 128) :
    utf8Lossy (utf8 text) = text := by
  have hbytes := utf8_ascii h
  rw [String.ofList_toList] at hbytes
  unfold utf8Lossy
  rw [hbytes, utf8LossyChars_map_ascii h (by rw [List.length_map]), String.ofList_toList]

theorem utf8Lossy_eq_ascii {bytes : Bytes} {text : String} (h : ∀ c ∈ text.toList, c.toNat < 128)
    (hread : utf8Lossy bytes = text) : bytes = utf8 text := by
  subst hread
  unfold utf8Lossy at h ⊢
  rw [String.toList_ofList] at h
  rw [utf8_ascii h]
  exact utf8LossyChars_ascii h (Nat.le_refl _) rfl

end Pdfv
