import Pdfv.Parser.Ascii85
import Pdfv.Parser.LzwEncoding
/-!
# LZW decoding inverts LZW encoding

The decoder's table is the encoder's without its last entry, which the decoder learns with the next
number (`LzwMatches`). With every number counted as an entry of the encoder's table both sides change
the width at the same code.
-/

namespace Pdfv

open Loop Fallible Positional

/-! ## Bits -/

/-- A byte of bits has the bits. -/
theorem packedByte_bit {l : List Nat} (hbits : ∀ d ∈ l, d < 2) (hlength : l.length = 8) {i : Nat}
    (hi : i < 8) : (UInt8.ofNat (value 2 l)).toNat / 2 ^ (7 - i % 8) % 2 = (l[i]?).getD 0 := by
  have hlt : value 2 l < 256 := by
    have h := value_lt hbits
    rw [hlength] at h
    exact h
  have hdigits := digits_value hbits
  rw [hlength] at hdigits
  have hbit : (digits 2 8 (value 2 l))[i]? = some (value 2 l / 2 ^ (8 - 1 - i) % 2) :=
    getElem?_digits hi _
  rw [hdigits] at hbit
  rw [UInt8.toNat_ofNat_of_lt' hlt, hbit, Nat.mod_eq_of_lt hi]
  rfl

theorem length_lt_eight {bits : List Nat} (hshort : ∀ (a b c d e f g h : Nat) (rest : List Nat),
    bits = a :: b :: c :: d :: e :: f :: g :: h :: rest → False) : bits.length < 8 := by
  rcases bits with _ | ⟨a, _ | ⟨b, _ | ⟨c, _ | ⟨d, _ | ⟨e, _ | ⟨f, _ | ⟨g, _ | ⟨h, rest⟩⟩⟩⟩⟩⟩⟩⟩
  all_goals first
    | exact absurd rfl (hshort a b c d e f g h rest)
    | simp

/-- Packed bits are read back, and zeros after them. -/
theorem bitAt_packBits {bits : List Nat} (hbits : ∀ d ∈ bits, d < 2) (pos : Nat) :
    bitAt (packBits bits) pos = (bits[pos]?).getD 0 := by
  fun_induction packBits bits generalizing pos with
  | case1 a b c d e f g h bits ih =>
    by_cases hpos : pos < 8
    · have hbyte := packedByte_bit (l := [a, b, c, d, e, f, g, h])
        (fun x hx => hbits x (by simp only [List.mem_cons, List.not_mem_nil, or_false] at hx ⊢; tauto))
        rfl hpos
      have hget : (a :: b :: c :: d :: e :: f :: g :: h :: bits)[pos]?
          = [a, b, c, d, e, f, g, h][pos]? :=
        @List.getElem?_append_left _ [a, b, c, d, e, f, g, h] bits pos hpos
      rw [bitAt, Nat.div_eq_of_lt hpos, hget, ← hbyte]
      rfl
    · obtain ⟨pos, rfl⟩ : ∃ before, pos = before + 8 := ⟨pos - 8, by omega⟩
      have hrest := ih (fun x hx => hbits x (by simp [hx])) pos
      rw [bitAt, Nat.add_div_right _ (by omega), Nat.add_mod_right]
      simpa [bitAt] using hrest
  | case2 => simp [bitAt]
  | case3 bits hshort hempty =>
    have hlength := length_lt_eight hshort
    by_cases hpos : pos < 8
    · have hbyte := packedByte_bit (l := bits ++ List.replicate (8 - bits.length) 0)
        (fun x hx => by
          rcases List.mem_append.mp hx with hx | hx
          · exact hbits x hx
          · rw [List.eq_of_mem_replicate hx]
            decide)
        (by simp; omega) hpos
      rw [bitAt, Nat.div_eq_of_lt hpos]
      refine hbyte.trans ?_
      by_cases hin : pos < bits.length
      · rw [List.getElem?_append_left hin]
      · rw [List.getElem?_append_right (by omega), List.getElem?_replicate,
          List.getElem?_eq_none (by omega)]
        split <;> rfl
    · rw [bitAt, List.getElem?_eq_none (by simp; omega), List.getElem?_eq_none (by omega)]
      simp

theorem length_packBits (bits : List Nat) : bits.length ≤ (packBits bits).length * 8 := by
  fun_induction packBits bits with
  | case1 a b c d e f g h bits ih =>
    simp only [List.length_cons]
    omega
  | case2 => simp
  | case3 bits hshort hempty =>
    have hlength := length_lt_eight hshort
    simp only [List.length_singleton]
    omega

/-- The bits stand in the buffer from a position on. -/
structure Ahead (input : Bytes) (pos : Nat) (bits : List Nat) : Prop where
  inside : pos + bits.length ≤ input.length * 8
  bit : ∀ i, i < bits.length → bitAt input (pos + i) = (bits[i]?).getD 0

theorem Ahead.packBits {bits : List Nat} (hbits : ∀ d ∈ bits, d < 2) :
    Ahead (packBits bits) 0 bits where
  inside := by
    rw [Nat.zero_add]
    exact length_packBits bits
  bit i _ := by rw [Nat.zero_add, bitAt_packBits hbits]

/-- A code is read back, and the rest stands after it. -/
theorem Ahead.code {input : Bytes} {pos : Nat} {code : LzwCode} {codes : List LzwCode}
    (h : Ahead input pos (codeBits (code :: codes))) (hcode : code.2 < 2 ^ code.1) :
    readBits input pos code.1 = some code.2 ∧ Ahead input (pos + code.1) (codeBits codes) := by
  have hbits : codeBits (code :: codes) = digits 2 code.1 code.2 ++ codeBits codes := rfl
  obtain ⟨hinside, hbit⟩ := h
  rw [hbits] at hinside hbit
  rw [List.length_append, length_digits] at hinside hbit
  constructor
  · have hdigits : (List.range code.1).map (fun i => bitAt input (pos + i))
        = digits 2 code.1 code.2 := by
      apply List.ext_getElem
      · simp
      · intro i hi _
        have hi : i < code.1 := by simpa using hi
        have hlength : i < (digits 2 code.1 code.2).length := by simpa using hi
        have hread := hbit i (by omega)
        rw [List.getElem?_append_left hlength, List.getElem?_eq_getElem hlength] at hread
        simpa using hread
    rw [readBits, if_neg (by omega), ← value_digits_of_lt hcode, ← hdigits, value, List.foldl_map]
  · refine ⟨by omega, fun i hi => ?_⟩
    have hread := hbit (code.1 + i) (by omega)
    rw [List.getElem?_append_right (by simp), length_digits, Nat.add_sub_cancel_left,
      ← Nat.add_assoc] at hread
    exact hread

theorem codeBits_lt (codes : List LzwCode) : ∀ d ∈ codeBits codes, d < 2 := by
  intro d hd
  obtain ⟨code, -, hcode⟩ := List.mem_flatMap.mp hd
  exact digit_lt (by omega) hcode

/-! ## The width of a code -/

/-- Between 9 and 12 bits, by the three bounds. -/
theorem width_eq (earlyChange size : Nat) :
    (lzwScheme earlyChange).width size
      = 9 + ((if 512 < size + min earlyChange 1 then 1 else 0)
        + ((if 1024 < size + min earlyChange 1 then 1 else 0)
          + if 2048 < size + min earlyChange 1 then 1 else 0)) := by
  simp only [lzwScheme, List.countP_cons, List.countP_nil, decide_eq_true_eq]
  omega

/-- The width grows with the table as it does in `lzwGrow`. -/
theorem width_grow (earlyChange size : Nat) :
    (lzwScheme earlyChange).width (size + 1) =
      if size ≥ 2 ^ (lzwScheme earlyChange).width size - min earlyChange 1
        ∧ (lzwScheme earlyChange).width size < 12 then (lzwScheme earlyChange).width size + 1
      else (lzwScheme earlyChange).width size := by
  have hearly : min earlyChange 1 ≤ 1 := Nat.min_le_right _ _
  rw [width_eq, width_eq]
  generalize min earlyChange 1 = early at *
  by_cases h512 : 512 < size + early
  · by_cases h1024 : 1024 < size + early
    · by_cases h2048 : 2048 < size + early
      · rw [if_pos h512, if_pos h1024, if_pos h2048, if_pos (by omega : 512 < size + 1 + early),
          if_pos (by omega : 1024 < size + 1 + early), if_pos (by omega : 2048 < size + 1 + early)]
        norm_num
      · rw [if_pos h512, if_pos h1024, if_neg h2048, if_pos (by omega : 512 < size + 1 + early),
          if_pos (by omega : 1024 < size + 1 + early)]
        norm_num
        split <;> split <;> omega
    · rw [if_pos h512, if_neg h1024, if_neg (by omega : ¬ 2048 < size + early),
        if_pos (by omega : 512 < size + 1 + early), if_neg (by omega : ¬ 2048 < size + 1 + early)]
      norm_num
      split <;> split <;> omega
  · rw [if_neg h512, if_neg (by omega : ¬ 1024 < size + early),
      if_neg (by omega : ¬ 2048 < size + early), if_neg (by omega : ¬ 1024 < size + 1 + early),
      if_neg (by omega : ¬ 2048 < size + 1 + early)]
    norm_num
    split <;> split <;> omega

/-- Every number of the table has a code of the width. -/
theorem lt_two_pow_width (earlyChange : Nat) {size number : Nat} (hsize : size ≤ 4096)
    (h : number < size) : number < 2 ^ (lzwScheme earlyChange).width size := by
  have hearly : min earlyChange 1 ≤ 1 := Nat.min_le_right _ _
  rw [width_eq]
  generalize min earlyChange 1 = early at *
  split <;> split <;> split <;> norm_num <;> omega

/-! ## Matches -/

theorem initialLzwDictionary_byte (b : UInt8) : initialLzwDictionary[b.toNat]? = some [b] := by
  have hlt : b.toNat < 256 := b.toNat_lt
  unfold initialLzwDictionary
  rw [List.getElem?_append_left (by simpa using hlt), List.getElem?_map, List.getElem?_range hlt]
  simp

theorem length_initialLzwDictionary : initialLzwDictionary.length = 258 := by
  simp [initialLzwDictionary]

/-- The two numbers without an entry. -/
theorem initialLzwDictionary_control {number : Nat} (h : number = 256 ∨ number = 257) :
    initialLzwDictionary[number]? = some [] := by
  unfold initialLzwDictionary
  rw [List.getElem?_append_right (by simp; omega)]
  rcases h with rfl | rfl
  · simp
  · simp

/-- A match is an entry of the table that the data begins with, and it is not empty. -/
structure LzwMatch (table : List Bytes) (input entry : Bytes) (number : Nat) : Prop where
  entry_eq : table[number]? = some entry
  begins : entry <+: input
  ne_nil : entry ≠ []

theorem longestMatch_match {table : List Bytes} (hinitial : initialLzwDictionary <+: table)
    {input : Bytes} (hinput : input ≠ []) :
    LzwMatch table input (longestMatch table input).1 (longestMatch table input).2 := by
  obtain ⟨b, rest, rfl⟩ := List.exists_cons_of_ne_nil hinput
  have hbyte : table[b.toNat]? = some [b] := by
    obtain ⟨more, rfl⟩ := hinitial
    rw [List.getElem?_append_left (by
      rw [length_initialLzwDictionary]
      exact Nat.lt_trans b.toNat_lt (by decide)), initialLzwDictionary_byte]
  have hmem : (([b] : Bytes), b.toNat) ∈ table.zipIdx.filter fun entry =>
      entry.1.isPrefixOf (b :: rest) := by
    rw [List.mem_filter]
    exact ⟨List.mk_mem_zipIdx_iff_getElem?.mpr hbyte, by simp⟩
  unfold longestMatch
  cases hbest : (table.zipIdx.filter fun entry => entry.1.isPrefixOf (b :: rest)).argmax
      fun entry => entry.1.length with
  | none =>
    rw [List.argmax_eq_none] at hbest
    rw [hbest] at hmem
    cases hmem
  | some best =>
    have hlongest := List.le_of_mem_argmax hmem hbest
    have hbest := List.argmax_mem hbest
    rw [List.mem_filter] at hbest
    refine ⟨List.mk_mem_zipIdx_iff_getElem?.mp hbest.1, List.isPrefixOf_iff_prefix.mp hbest.2, ?_⟩
    exact List.ne_nil_of_length_pos hlongest

theorem LzwMatch.number_lt {table : List Bytes} {input entry : Bytes} {number : Nat}
    (h : LzwMatch table input entry number) : number < table.length :=
  (List.getElem?_eq_some_iff.mp h.entry_eq).choose

/-- The number of a match is neither the clear code nor the end of the data. -/
theorem LzwMatch.ne_control {table : List Bytes} (hinitial : initialLzwDictionary <+: table)
    {input entry : Bytes} {number : Nat} (h : LzwMatch table input entry number) :
    number ≠ 256 ∧ number ≠ 257 := by
  have hcontrol : ¬ (number = 256 ∨ number = 257) := fun hnumber => by
    obtain ⟨more, rfl⟩ := hinitial
    have hentry := h.entry_eq
    rw [List.getElem?_append_left (by rw [length_initialLzwDictionary]; omega),
      initialLzwDictionary_control hnumber] at hentry
    exact h.ne_nil (Option.some.inj hentry).symm
  exact not_or.mp hcontrol

/-! ## The two tables -/

variable {earlyChange maxDecodeBytes : Nat}

/-- The decoder has the encoder's table without the entry that the last number added, which begins
with what that number stood for and ends with the next byte of the data. -/
structure LzwMatches (earlyChange : Nat) (table : List Bytes) (input : Bytes) (s : LzwState) :
    Prop where
  codeBits : s.codeBits = (lzwScheme earlyChange).width table.length
  nextCode : s.nextCode = s.dictionary.length
  size : table.length ≤ 4096
  initial : initialLzwDictionary <+: table
  lagging : s.previous = none ∧ s.dictionary = table ∧ table.length = 258 ∨
    ∃ entry, s.previous = some entry ∧ entry ≠ [] ∧ table = s.dictionary ++ [entry ++ input.take 1]

/-- The tables after a clear code. -/
theorem LzwMatches.cleared (input : Bytes) {s : LzwState}
    (hdictionary : s.dictionary = initialLzwDictionary) (hbits : s.codeBits = 9)
    (hnext : s.nextCode = 258) (hprevious : s.previous = none) :
    LzwMatches earlyChange initialLzwDictionary input s where
  codeBits := by
    have hearly : min earlyChange 1 ≤ 1 := Nat.min_le_right _ _
    rw [hbits, length_initialLzwDictionary, width_eq, if_neg (by omega), if_neg (by omega),
      if_neg (by omega)]
  nextCode := by rw [hnext, hdictionary, length_initialLzwDictionary]
  size := by rw [length_initialLzwDictionary]; decide
  initial := List.prefix_refl _
  lagging := .inl ⟨hprevious, hdictionary, length_initialLzwDictionary⟩

theorem LzwMatches.size_pos {table : List Bytes} {input : Bytes} {s : LzwState}
    (h : LzwMatches earlyChange table input s) : 258 ≤ table.length := by
  have hlength := h.initial.length_le
  rwa [length_initialLzwDictionary] at hlength

/-- The decoder finds what the number stands for, also when it is the entry it lacks. -/
theorem LzwMatches.entry {table : List Bytes} {input entry : Bytes} {number : Nat} {s : LzwState}
    (h : LzwMatches earlyChange table input s) (hmatch : LzwMatch table input entry number) :
    lzwEntry s number = .ok entry := by
  obtain ⟨hentry, hbegins, hne⟩ := hmatch
  unfold lzwEntry
  rcases h.lagging with ⟨-, hdictionary, -⟩ | ⟨previous, hprevious, hpreviousNe, htable⟩
  · rw [hdictionary, hentry]
  · rw [htable] at hentry
    by_cases hnumber : number < s.dictionary.length
    · rw [List.getElem?_append_left hnumber] at hentry
      rw [hentry]
    · have hlast : number = s.dictionary.length := by
        have hlt := (List.getElem?_eq_some_iff.mp hentry).choose
        rw [List.length_append, List.length_singleton] at hlt
        omega
      rw [hlast, List.getElem?_concat_length, Option.some.injEq] at hentry
      rw [List.getElem?_eq_none (by omega), if_pos (by rw [h.nextCode, hlast]), hprevious]
      obtain ⟨first, rest, rfl⟩ := List.exists_cons_of_ne_nil hpreviousNe
      -- The data begins with the missing entry, so its next byte is the entry's first one.
      obtain ⟨after, rfl⟩ := hbegins
      rw [← hentry]
      cases hinput : entry ++ after with
      | nil => simp_all
      | cons b data =>
        rw [hinput] at hentry
        have hfirst : b = first := by
          rw [← hentry] at hinput
          simp only [List.cons_append, List.cons.injEq] at hinput
          exact hinput.1.symm
        simp [hfirst]

/-- A number is written as its entry, and the tables stay in step. -/
theorem LzwMatches.data {table : List Bytes} {input entry : Bytes} {number : Nat} {s : LzwState}
    (h : LzwMatches earlyChange table input s) (hmatch : LzwMatch table input entry number)
    (hroom : table.length < 4096) (hfits : s.output.length + entry.length ≤ maxDecodeBytes) :
    ∃ s', lzwData earlyChange maxDecodeBytes s number = .ok s' ∧ s'.bitPos = s.bitPos ∧
      s'.output = s.output ++ entry ∧
      LzwMatches earlyChange (table ++ [entry ++ (input.drop entry.length).take 1])
        (input.drop entry.length) s' := by
  have hentry := h.entry hmatch
  obtain ⟨-, hbegins, hne⟩ := hmatch
  have hgrown : (table ++ [entry ++ (input.drop entry.length).take 1]).length = table.length + 1 := by
    rw [List.length_append, List.length_singleton]
  have hinitial := h.initial.trans
    (List.prefix_append table [entry ++ (input.drop entry.length).take 1])
  unfold lzwData
  rw [hentry, ok_bind, extendLimited_eq hfits, ok_bind]
  dsimp only
  rcases h.lagging with ⟨hprevious, hdictionary, hsize⟩ | ⟨previous, hprevious, -, htable⟩
  · rw [hprevious]
    refine ⟨_, rfl, rfl, rfl, ?_⟩
    refine ⟨?_, h.nextCode, by omega, hinitial, .inr ⟨entry, rfl, hne, by rw [← hdictionary]⟩⟩
    have hearly : min earlyChange 1 ≤ 1 := Nat.min_le_right _ _
    have hbits := h.codeBits
    rw [hsize, width_eq, if_neg (by omega), if_neg (by omega), if_neg (by omega)] at hbits
    rw [hgrown, hsize, width_eq, if_neg (by omega), if_neg (by omega), if_neg (by omega)]
    exact hbits
  · rw [hprevious]
    obtain ⟨first, tail, rfl⟩ := List.exists_cons_of_ne_nil hne
    have hfirst : input.take 1 = [first] := by
      obtain ⟨after, rfl⟩ := hbegins
      rfl
    rw [hfirst] at htable
    have hlength : table.length = s.dictionary.length + 1 := by
      rw [htable, List.length_append, List.length_singleton]
    dsimp only
    unfold lzwGrow
    dsimp only
    rw [if_pos (by omega)]
    refine ⟨_, rfl, rfl, rfl, ?_⟩
    refine ⟨?_, ?_, by omega, hinitial, .inr ⟨first :: tail, rfl, hne, by rw [← htable]⟩⟩
    · rw [hgrown, width_grow, ← h.codeBits, hlength, ← h.nextCode]
    · dsimp only
      rw [← htable, h.nextCode, hlength]

/-! ## The run of the decoder -/

section Run

variable {bytes : Bytes} (maxDecodeBytes)

/-- A clear code is read with the width of the table it clears. -/
theorem clearCode_step {table : List Bytes} {input : Bytes} {s : LzwState} {codes : List LzwCode}
    (h : LzwMatches earlyChange table input s)
    (hahead : Ahead bytes s.bitPos
      (codeBits (((lzwScheme earlyChange).width table.length, 256) :: codes))) :
    ∃ s', lzwStep bytes earlyChange maxDecodeBytes s = .next s' ∧
      Ahead bytes s'.bitPos (codeBits codes) ∧ s'.output = s.output ∧
      LzwMatches earlyChange initialLzwDictionary input s' := by
  have hlt : 256 < 2 ^ (lzwScheme earlyChange).width table.length :=
    lt_two_pow_width earlyChange h.size (Nat.lt_of_lt_of_le (by omega) h.size_pos)
  obtain ⟨hread, hrest⟩ := hahead.code hlt
  unfold lzwStep
  rw [h.codeBits, hread]
  refine ⟨_, rfl, hrest, rfl, LzwMatches.cleared input rfl rfl rfl rfl⟩

theorem length_clearCodes (scheme : LzwScheme) (size count : Nat) :
    (clearCodes scheme size count).length = count := by
  induction count generalizing size with
  | zero => rfl
  | succ count ih => rw [clearCodes, List.length_cons, ih]

/-- Clear codes in a row leave the initial table. -/
theorem clearCodes_steps {table : List Bytes} {input : Bytes} {s : LzwState} (count : Nat)
    {codes : List LzwCode} (h : LzwMatches earlyChange table input s)
    (hahead : Ahead bytes s.bitPos
      (codeBits (clearCodes (lzwScheme earlyChange) table.length count ++ codes))) :
    ∃ s', Steps (lzwStep bytes earlyChange maxDecodeBytes) count s s' ∧
      Ahead bytes s'.bitPos (codeBits codes) ∧ s'.output = s.output ∧
      LzwMatches earlyChange (clearedTable table count) input s' := by
  induction count generalizing table s with
  | zero => exact ⟨s, .refl s, hahead, rfl, h⟩
  | succ count ih =>
    rw [clearCodes, List.cons_append] at hahead
    obtain ⟨mid, hstep, hmid, houtput, hmatches⟩ := clearCode_step maxDecodeBytes h hahead
    rw [← length_initialLzwDictionary] at hmid
    obtain ⟨s', hsteps, hrest, houtput', hmatches'⟩ := ih hmatches hmid
    refine ⟨s', .next hstep hsteps, hrest, houtput'.trans houtput, ?_⟩
    rwa [clearedTable, ite_self] at hmatches'

/-- The end of the data ends the run. -/
theorem endCode_step {table : List Bytes} {input : Bytes} {s : LzwState}
    (h : LzwMatches earlyChange table input s)
    (hahead : Ahead bytes s.bitPos
      (codeBits [((lzwScheme earlyChange).width table.length, 257)])) :
    lzwStep bytes earlyChange maxDecodeBytes s = .done (.ok s.output) := by
  have hlt : 257 < 2 ^ (lzwScheme earlyChange).width table.length :=
    lt_two_pow_width earlyChange h.size (Nat.lt_of_lt_of_le (by omega) h.size_pos)
  obtain ⟨hread, -⟩ := hahead.code hlt
  unfold lzwStep
  rw [h.codeBits, hread]
  rfl

/-- A number writes its entry. -/
theorem number_step {table : List Bytes} {input entry : Bytes} {number : Nat} {s : LzwState}
    {codes : List LzwCode} (h : LzwMatches earlyChange table input s)
    (hmatch : LzwMatch table input entry number) (hroom : table.length < 4096)
    (hfits : s.output.length + entry.length ≤ maxDecodeBytes)
    (hahead : Ahead bytes s.bitPos
      (codeBits (((lzwScheme earlyChange).width table.length, number) :: codes))) :
    ∃ s', lzwStep bytes earlyChange maxDecodeBytes s = .next s' ∧
      Ahead bytes s'.bitPos (codeBits codes) ∧ s'.output = s.output ++ entry ∧
      LzwMatches earlyChange (table ++ [entry ++ (input.drop entry.length).take 1])
        (input.drop entry.length) s' := by
  have hlt := lt_two_pow_width earlyChange h.size hmatch.number_lt
  obtain ⟨hclear, hend⟩ := hmatch.ne_control h.initial
  obtain ⟨hread, hrest⟩ := hahead.code hlt
  dsimp only at hread hrest
  rw [← h.codeBits] at hread hrest
  -- Reading a code moves the position and leaves the tables alone.
  have hmoved : LzwMatches earlyChange table input { s with bitPos := s.bitPos + s.codeBits } :=
    ⟨h.codeBits, h.nextCode, h.size, h.initial, h.lagging⟩
  obtain ⟨s', hdata, hpos, houtput, hmatches⟩ := hmoved.data hmatch hroom hfits
  refine ⟨s', ?_, by rw [hpos]; exact hrest, houtput, hmatches⟩
  unfold lzwStep
  rw [hread]
  dsimp only
  rw [if_neg hclear, if_neg hend, hdata]

/-- A full table is cleared when a number follows. -/
theorem clearedTable_room {table : List Bytes} (hsize : table.length ≤ 4096) (clears : Nat → Nat)
    (index : Nat) {input : Bytes} (hinput : input ≠ []) :
    (clearedTable table (clearsBefore clears index table input)).length < 4096 := by
  have hinitial : initialLzwDictionary.length < 4096 := by
    rw [length_initialLzwDictionary]
    decide
  unfold clearedTable
  by_cases hfull : table.length = 4096
  · rw [clearsBefore, if_pos (And.intro hfull hinput), if_neg (Nat.succ_ne_zero _)]
    exact hinitial
  · split
    · omega
    · exact hinitial

/-- The decoder writes the rest of the data. -/
theorem lzwCodes_ends (clears : Nat → Nat) (fuel index : Nat) {table : List Bytes} {input : Bytes}
    {s : LzwState} (h : LzwMatches earlyChange table input s) (hfuel : input.length < fuel)
    (hahead : Ahead bytes s.bitPos
      (codeBits (lzwCodes (lzwScheme earlyChange) clears fuel index table input)))
    (hfits : s.output.length + input.length ≤ maxDecodeBytes) :
    ∃ n, n ≤ (lzwCodes (lzwScheme earlyChange) clears fuel index table input).length ∧
      EndsIn (lzwStep bytes earlyChange maxDecodeBytes) n s (.ok (s.output ++ input)) := by
  induction fuel generalizing index table input s with
  | zero => exact absurd hfuel (Nat.not_lt_zero _)
  | succ fuel ih =>
    rw [lzwCodes] at hahead ⊢
    dsimp only at hahead ⊢
    obtain ⟨mid, hsteps, hmid, hsame, hmatches⟩ := clearCodes_steps maxDecodeBytes _ h hahead
    have hroom : input ≠ [] → _ := clearedTable_room h.size clears index
    generalize clearsBefore clears index table input = count at *
    generalize clearedTable table count = cleared at *
    rw [List.length_append, length_clearCodes]
    by_cases hinput : input = []
    · rw [if_pos hinput] at hmid ⊢
      have hend := hsteps.endsIn (.done (endCode_step maxDecodeBytes hmatches hmid))
      rw [hsame] at hend
      rw [hinput, List.append_nil]
      exact ⟨count + 1, Nat.le_refl _, hend⟩
    · rw [if_neg hinput] at hmid ⊢
      have hmatch := longestMatch_match hmatches.initial hinput
      have hlonger := hmatch.begins.length_le
      have hpositive := List.length_pos_of_ne_nil hmatch.ne_nil
      have hfits' : mid.output.length + (longestMatch cleared input).1.length ≤ maxDecodeBytes := by
        rw [hsame]
        omega
      obtain ⟨s', hstep, hrest, houtput, hmatches'⟩ :=
        number_step maxDecodeBytes hmatches hmatch (hroom hinput) hfits' hmid
      rw [grownTable, if_neg (fun h => absurd h.2 Bool.false_ne_true)] at hrest ⊢
      obtain ⟨n, hn, hends⟩ := ih (index + 1) hmatches' (by rw [List.length_drop]; omega) hrest
        (by rw [houtput, List.length_append, List.length_drop, hsame]; omega)
      have hdata : s'.output ++ input.drop (longestMatch cleared input).1.length
          = s.output ++ input := by
        rw [houtput, hsame, List.append_assoc]
        congr 1
        exact (List.prefix_append_drop hmatch.begins).symm
      rw [hdata] at hends
      refine ⟨count + (n + 1), ?_, hsteps.endsIn (.next hstep hends)⟩
      rw [List.length_cons]
      omega

end Run

/-- Every code has a width. -/
theorem lzwCodes_width {scheme : LzwScheme} (hwidth : ∀ size, 0 < scheme.width size)
    (clears : Nat → Nat) (fuel index : Nat) (table : List Bytes) (input : Bytes) :
    ∀ code ∈ lzwCodes scheme clears fuel index table input, 0 < code.1 := by
  have hclears : ∀ size count, ∀ code ∈ clearCodes scheme size count, 0 < code.1 := by
    intro size count
    induction count generalizing size with
    | zero => simp [clearCodes]
    | succ count ih =>
      rw [clearCodes, List.forall_mem_cons]
      exact ⟨hwidth size, ih 258⟩
  induction fuel generalizing index table input with
  | zero => simp [lzwCodes]
  | succ fuel ih =>
    rw [lzwCodes, List.forall_mem_append]
    refine ⟨hclears _ _, ?_⟩
    by_cases hinput : input = []
    · rw [if_pos hinput, List.forall_mem_singleton]
      exact hwidth _
    · rw [if_neg hinput, List.forall_mem_cons]
      exact ⟨hwidth _, ih _ _ _⟩

theorem length_le_codeBits {codes : List LzwCode} (h : ∀ code ∈ codes, 0 < code.1) :
    codes.length ≤ (codeBits codes).length := by
  induction codes with
  | nil => exact Nat.le_refl _
  | cons code codes ih =>
    obtain ⟨hcode, hcodes⟩ := List.forall_mem_cons.mp h
    have hbits : codeBits (code :: codes) = digits 2 code.1 code.2 ++ codeBits codes := rfl
    have hrest := ih hcodes
    rw [hbits, List.length_append, length_digits, List.length_cons]
    omega

/-- LZW decoding inverts LZW encoding, for every choice of further clear codes. -/
theorem decodeLzw_inverts (input : Bytes) (earlyChange : Nat) (clears : Nat → Nat)
    {maxDecodeBytes : Nat} (hfits : input.length ≤ maxDecodeBytes) :
    decodeLzw (lzwEncode (lzwScheme earlyChange) clears input) earlyChange maxDecodeBytes
      = .ok input := by
  have hwidth : ∀ size, 0 < (lzwScheme earlyChange).width size := fun size => by
    rw [width_eq]
    omega
  unfold decodeLzw lzwEncode
  -- The initial clear code finds the decoder in the state it leaves.
  have hstart : LzwMatches earlyChange initialLzwDictionary input
      ⟨0, initialLzwDictionary, 9, 258, none, []⟩ := LzwMatches.cleared input rfl rfl rfl rfl
  have hnine : (lzwScheme earlyChange).width initialLzwDictionary.length = 9 :=
    hstart.codeBits.symm
  generalize hcodes : lzwCodes (lzwScheme earlyChange) clears (input.length + 1) 0
    initialLzwDictionary input = codes
  have hahead := Ahead.packBits (codeBits_lt ((9, 256) :: codes))
  have hlength : codes.length + 1 ≤ (packBits (codeBits ((9, 256) :: codes))).length * 8 := by
    have hwidths : ∀ code ∈ (9, 256) :: codes, 0 < code.1 := by
      rw [List.forall_mem_cons, ← hcodes]
      exact ⟨by decide, lzwCodes_width hwidth _ _ _ _ _⟩
    exact (length_le_codeBits hwidths).trans (length_packBits _)
  generalize packBits (codeBits ((9, 256) :: codes)) = bytes at *
  rw [← hnine] at hahead
  obtain ⟨s', hstep, hrest, houtput, hmatches⟩ := clearCode_step maxDecodeBytes hstart hahead
  rw [← hcodes] at hrest
  obtain ⟨n, hn, hends⟩ := lzwCodes_ends maxDecodeBytes clears (input.length + 1) 0 hmatches
    (Nat.lt_succ_self _) hrest (by rw [houtput, List.length_nil, Nat.zero_add]; exact hfits)
  rw [houtput, List.nil_append] at hends
  refine (EndsIn.next hstep hends).runLoop ?_ _
  rw [hcodes] at hn
  omega

/-- The first 600 numbers modulo 256, with clear codes before the hundredth number. -/
theorem decodeLzw_inverts_cleared :
    decodeLzw (lzwEncode (lzwScheme 0) (fun index => if index = 100 then 2 else 0)
        ((List.range 600).map UInt8.ofNat)) 0 600 = .ok ((List.range 600).map UInt8.ofNat) :=
  decodeLzw_inverts _ 0 _ (by simp)

/-! ## Widths that grow one code earlier

The data of the bytes 1 to 255 has 255 numbers, each for a single byte. In the other scheme the last
one has 10 bits and the decoder takes 9 of them: it goes on with the number 640, which has no entry. -/

/-- The bytes from one on up to 255. -/
def rampFrom (k : Nat) : Bytes :=
  (List.range' (k + 1) (255 - k)).map UInt8.ofNat

/-- The table after the first numbers of the data. -/
def rampTable (k : Nat) : List Bytes :=
  initialLzwDictionary ++ (List.range k).map fun i => [UInt8.ofNat (i + 1), UInt8.ofNat (i + 2)]

theorem rampFrom_succ {k : Nat} (h : k < 255) :
    rampFrom k = UInt8.ofNat (k + 1) :: rampFrom (k + 1) := by
  have hcount : 255 - k = 255 - (k + 1) + 1 := by omega
  rw [rampFrom, hcount, List.range'_succ, List.map_cons]
  rfl

theorem length_rampTable (k : Nat) : (rampTable k).length = 258 + k := by
  rw [rampTable, List.length_append, length_initialLzwDictionary, List.length_map, List.length_range]

theorem rampTable_succ {k : Nat} (h : k + 1 < 255) :
    rampTable (k + 1) = rampTable k ++ [[UInt8.ofNat (k + 1)] ++ (rampFrom (k + 1)).take 1] := by
  unfold rampTable
  rw [List.range_succ, List.map_append, ← List.append_assoc, rampFrom_succ h]
  rfl

/-- The number of the only match is taken. -/
theorem longestMatch_eq {table : List Bytes} (hinitial : initialLzwDictionary <+: table)
    {input entry : Bytes} {number : Nat} (hinput : input ≠ [])
    (honly : ∀ entry' number', LzwMatch table input entry' number' →
      entry' = entry ∧ number' = number) :
    longestMatch table input = (entry, number) := by
  obtain ⟨hentry, hnumber⟩ := honly _ _ (longestMatch_match hinitial hinput)
  exact Prod.ext hentry hnumber

theorem rampTable_match {k : Nat} (h : k < 255) :
    longestMatch (rampTable k) (rampFrom k) = ([UInt8.ofNat (k + 1)], k + 1) := by
  rw [rampFrom_succ h]
  refine longestMatch_eq (List.prefix_append _ _) (List.cons_ne_nil _ _) ?_
  rintro entry number ⟨hentry, ⟨after, hbegins⟩, hne⟩
  have hinj : ∀ {i : Nat}, i < 256 → UInt8.ofNat i = UInt8.ofNat (k + 1) → i = k + 1 := by
    intro i hi heq
    have hnat := congrArg UInt8.toNat heq
    rwa [UInt8.toNat_ofNat_of_lt' hi, UInt8.toNat_ofNat_of_lt' (by
      show k + 1 < 256
      omega)] at hnat
  by_cases hbyte : number < 256
  · have hdictionary := initialLzwDictionary_byte (UInt8.ofNat number)
    rw [UInt8.toNat_ofNat_of_lt' hbyte] at hdictionary
    rw [List.getElem?_append_left (by rw [length_initialLzwDictionary]; omega), hdictionary,
      Option.some.injEq] at hentry
    rw [← hentry, List.cons_append, List.cons.injEq] at hbegins
    rw [← hentry, hbegins.1]
    exact ⟨rfl, hinj hbyte hbegins.1⟩
  · by_cases hcontrol : number < 258
    · rw [List.getElem?_append_left (by rw [length_initialLzwDictionary]; exact hcontrol),
        initialLzwDictionary_control (by omega), Option.some.injEq] at hentry
      exact absurd hentry.symm hne
    · rw [List.getElem?_append_right (by rw [length_initialLzwDictionary]; omega),
        length_initialLzwDictionary, List.getElem?_map, Option.map_eq_some_iff] at hentry
      obtain ⟨i, hi, rfl⟩ := hentry
      have hlt : i < k := List.mem_range.mp (List.mem_of_getElem? hi)
      rw [List.cons_append, List.cons.injEq] at hbegins
      have heq := hinj (by omega) hbegins.1
      omega

/-- One number of the data. -/
theorem rampCodes_succ (fuel : Nat) {k : Nat} (h : k < 255) :
    lzwCodes (earlierScheme 0) (fun _ => 0) (fuel + 1) k (rampTable k) (rampFrom k)
      = ((earlierScheme 0).width (258 + k), k + 1) ::
        lzwCodes (earlierScheme 0) (fun _ => 0) fuel (k + 1)
          (grownTable (earlierScheme 0) (rampTable k) [UInt8.ofNat (k + 1)] (rampFrom (k + 1)))
          (rampFrom (k + 1)) := by
  have hne : rampFrom k ≠ [] := by
    rw [rampFrom_succ h]
    exact List.cons_ne_nil _ _
  have hkept : clearsBefore (fun _ => 0) k (rampTable k) (rampFrom k) = 0 := by
    rw [clearsBefore, length_rampTable, if_neg (fun h => by omega)]
  have hrest : (rampFrom k).drop 1 = rampFrom (k + 1) := by
    rw [rampFrom_succ h]
    rfl
  rw [lzwCodes]
  dsimp only
  rw [hkept, clearedTable, if_pos rfl, clearCodes, List.nil_append, if_neg hne, rampTable_match h,
    List.length_singleton, hrest, length_rampTable]

/-- The codes of the data from a byte on. -/
theorem rampCodes (left k : Nat) (h : k + left = 254) :
    lzwCodes (earlierScheme 0) (fun _ => 0) (left + 2) k (rampTable k) (rampFrom k)
      = (List.range' (k + 1) left).map (fun number => (9, number)) ++ [(10, 255), (10, 257)] := by
  have hempty : rampFrom 255 = [] := rfl
  induction left generalizing k with
  | zero =>
    obtain rfl : k = 254 := h
    have hwidth : (earlierScheme 0).width 512 = 10 := by decide
    have hkept : clearsBefore (fun _ => 0) 255 (rampTable 254) [] = 0 := by
      rw [clearsBefore, if_neg (fun h => h.2 rfl)]
    rw [rampCodes_succ _ (by omega), hempty, grownTable, if_pos ⟨rfl, rfl⟩, lzwCodes]
    dsimp only
    rw [hkept, clearedTable, if_pos rfl, clearCodes, List.nil_append, if_pos rfl, length_rampTable,
      hwidth]
    rfl
  | succ left ih =>
    have hne : rampFrom (k + 1) ≠ [] := by
      rw [rampFrom_succ (by omega)]
      exact List.cons_ne_nil _ _
    have hwidth : (earlierScheme 0).width (258 + k) = 9 := by
      simp only [earlierScheme, List.countP_cons, List.countP_nil, decide_eq_true_eq]
      rw [if_neg (by omega), if_neg (by omega), if_neg (by omega)]
    rw [rampCodes_succ _ (by omega), grownTable, if_neg (fun h => hne h.1),
      ← rampTable_succ (by omega), ih (k + 1) (by omega), hwidth, List.range'_succ, List.map_cons,
      List.cons_append]

/-- The decoder reads the numbers of 9 bits. -/
theorem ramp_steps {bytes : Bytes} (maxDecodeBytes : Nat) (tail : List LzwCode) (left k : Nat)
    (h : k + left = 254) {s : LzwState} (hmatches : LzwMatches 0 (rampTable k) (rampFrom k) s)
    (hahead : Ahead bytes s.bitPos
      (codeBits ((List.range' (k + 1) left).map (fun number => (9, number)) ++ tail)))
    (hfits : s.output.length + left ≤ maxDecodeBytes) :
    ∃ s', Steps (lzwStep bytes 0 maxDecodeBytes) left s s' ∧ Ahead bytes s'.bitPos (codeBits tail) ∧
      LzwMatches 0 (rampTable 254) (rampFrom 254) s' ∧
      s'.output.length = s.output.length + left := by
  induction left generalizing k s with
  | zero =>
    obtain rfl : k = 254 := h
    exact ⟨s, .refl s, hahead, hmatches, rfl⟩
  | succ left ih =>
    have hne : rampFrom k ≠ [] := by
      rw [rampFrom_succ (by omega)]
      exact List.cons_ne_nil _ _
    have hmatch := longestMatch_match hmatches.initial hne
    rw [rampTable_match (by omega)] at hmatch
    have hrest : (rampFrom k).drop 1 = rampFrom (k + 1) := by
      rw [rampFrom_succ (by omega)]
      rfl
    have hwidth : (lzwScheme 0).width (rampTable k).length = 9 := by
      rw [length_rampTable, width_eq, if_neg (by omega), if_neg (by omega), if_neg (by omega)]
    rw [List.range'_succ, List.map_cons, List.cons_append, ← hwidth] at hahead
    obtain ⟨mid, hstep, hmid, houtput, hmid'⟩ := number_step maxDecodeBytes hmatches hmatch
      (by rw [length_rampTable]; omega) (by rw [List.length_singleton]; omega) hahead
    rw [List.length_singleton, hrest, ← rampTable_succ (by omega)] at hmid'
    rw [hwidth] at hmid
    have hlength : mid.output.length = s.output.length + 1 := by
      rw [houtput, List.length_append, List.length_singleton]
    obtain ⟨s', hsteps, hend, hmatches', houtput'⟩ := ih (k + 1) (by omega) hmid' hmid (by omega)
    exact ⟨s', .next hstep hsteps, hend, hmatches', by omega⟩

/-- The entry that the decoder lacks depends on the data that follows. -/
theorem LzwMatches.other {table : List Bytes} {input : Bytes} {s : LzwState}
    (h : LzwMatches earlyChange table input s) (hsize : 258 < table.length) (input' : Bytes) :
    ∃ table', table'.length = table.length ∧ LzwMatches earlyChange table' input' s := by
  rcases h.lagging with ⟨-, -, hinitial⟩ | ⟨entry, hprevious, hne, htable⟩
  · omega
  · have hlength : table.length = s.dictionary.length + 1 := by
      rw [htable, List.length_append, List.length_singleton]
    have hother : (s.dictionary ++ [entry ++ input'.take 1]).length = table.length := by
      rw [hlength, List.length_append, List.length_singleton]
    refine ⟨s.dictionary ++ [entry ++ input'.take 1], hother, ?_, h.nextCode, by
      rw [hother]; exact h.size, ?_, .inr ⟨entry, hprevious, hne, rfl⟩⟩
    · rw [hother]
      exact h.codeBits
    · have hprefix := h.initial
      rw [htable] at hprefix
      refine (List.prefix_of_prefix_length_le hprefix (List.prefix_append _ _) ?_).trans
        (List.prefix_append _ _)
      rw [length_initialLzwDictionary]
      omega

/-- The codes that the decoder sees in the encoded bytes 1 to 255. -/
def misreadCodes : List LzwCode :=
  (9, 256) :: ((List.range' 1 254).map (fun number => (9, number)) ++ [(9, 127), (10, 640), (1, 1)])

theorem lzwEncode_earlier :
    lzwEncode (earlierScheme 0) (fun _ => 0) (rampFrom 0) = packBits (codeBits misreadCodes) := by
  have hlength : (rampFrom 0).length = 255 := by
    rw [rampFrom, List.length_map, List.length_range']
  have hzero : rampTable 0 = initialLzwDictionary := List.append_nil _
  have hcodes : lzwCodes (earlierScheme 0) (fun _ => 0) 256 0 initialLzwDictionary (rampFrom 0)
      = (List.range' 1 254).map (fun number => (9, number)) ++ [(10, 255), (10, 257)] := by
    have h := rampCodes 254 0 rfl
    rw [hzero] at h
    exact h
  -- The bits of the last two codes are those of 127, of 640 and of one more.
  have htail : codeBits [(10, 255), (10, 257)] = codeBits [(9, 127), (10, 640), (1, 1)] := by decide
  have hbits : codeBits ((9, 256) :: ((List.range' 1 254).map (fun number => (9, number))
      ++ [(10, 255), (10, 257)])) = codeBits misreadCodes := by
    simp only [misreadCodes, codeBits, List.flatMap_cons, List.flatMap_append] at htail ⊢
    rw [htail]
  rw [lzwEncode, hlength, hcodes, hbits]

theorem length_misreadCodes : 257 ≤ (packBits (codeBits misreadCodes)).length * 8 := by
  have hwidths : ∀ code ∈ misreadCodes, 0 < code.1 := by
    intro code hcode
    simp only [misreadCodes, List.mem_cons, List.mem_append, List.mem_map, List.not_mem_nil,
      or_false] at hcode
    rcases hcode with rfl | ⟨number, -, rfl⟩ | rfl | rfl | rfl
    all_goals exact Nat.succ_pos _
  refine Nat.le_trans ?_ ((length_le_codeBits hwidths).trans (length_packBits _))
  simp [misreadCodes]

/-- With the width growing when the table has 512 entries the data of the bytes 1 to 255 is not
decoded. -/
theorem decodeLzw_earlier_fails :
    decodeLzw (lzwEncode (earlierScheme 0) (fun _ => 0) (rampFrom 0)) 0 255
      = .error (decodeError "invalid LZW code") := by
  have hzero : rampTable 0 = initialLzwDictionary := List.append_nil _
  have hahead := Ahead.packBits (codeBits_lt misreadCodes)
  have hlength := length_misreadCodes
  rw [lzwEncode_earlier]
  unfold decodeLzw
  generalize packBits (codeBits misreadCodes) = bytes at *
  unfold misreadCodes at hahead
  have hstart : LzwMatches 0 initialLzwDictionary (rampFrom 0)
      ⟨0, initialLzwDictionary, 9, 258, none, []⟩ := LzwMatches.cleared _ rfl rfl rfl rfl
  have hnine : (lzwScheme 0).width initialLzwDictionary.length = 9 := hstart.codeBits.symm
  nth_rewrite 1 [← hnine] at hahead
  obtain ⟨s, hclear, hnumbers, houtput, hmatches⟩ := clearCode_step 255 hstart hahead
  rw [← hzero] at hmatches
  obtain ⟨s', hsteps, hlast, hmatches', hlength'⟩ := ramp_steps 255 [(9, 127), (10, 640), (1, 1)]
    254 0 rfl hmatches hnumbers (by rw [houtput]; decide)
  -- The decoder's table has not yet reached the next width.
  obtain ⟨table, hsize, hother⟩ := hmatches'.other (by rw [length_rampTable]; decide) [127]
  rw [length_rampTable] at hsize
  have hwidth : (lzwScheme 0).width table.length = 9 := by rw [hsize]; decide
  have hmatch : LzwMatch table [127] [127] 127 := by
    refine ⟨?_, List.prefix_refl _, List.cons_ne_nil _ _⟩
    obtain ⟨more, rfl⟩ := hother.initial
    rw [List.getElem?_append_left (by rw [length_initialLzwDictionary]; decide)]
    exact initialLzwDictionary_byte 127
  nth_rewrite 1 [← hwidth] at hlast
  obtain ⟨last, hstep, hrest, -, hlastMatches⟩ := number_step 255 hother hmatch
    (by rw [hsize]; decide) (by rw [hlength', houtput]; decide) hlast
  obtain ⟨grown, hgrown, hlastMatches⟩ : ∃ grown, grown.length = 513 ∧
      LzwMatches 0 grown _ last :=
    ⟨_, by rw [List.length_append, List.length_singleton, hsize], hlastMatches⟩
  have hdictionary : last.dictionary.length = 512 := by
    rcases hlastMatches.lagging with ⟨-, -, h⟩ | ⟨entry, -, -, h⟩
    · rw [hgrown] at h
      cases h
    · have hcount := congrArg List.length h
      rw [hgrown, List.length_append, List.length_singleton] at hcount
      omega
  have hbitsLast : last.codeBits = 10 := by
    rw [hlastMatches.codeBits, hgrown]
    decide
  obtain ⟨hread, -⟩ := hrest.code (by decide)
  have hend : lzwStep bytes 0 255 last = .done (.error (decodeError "invalid LZW code")) := by
    have hentry : lzwEntry { last with bitPos := last.bitPos + last.codeBits } 640
        = .error (decodeError "invalid LZW code") := by
      unfold lzwEntry
      rw [List.getElem?_eq_none (by rw [hdictionary]; decide),
        if_neg (by rw [hlastMatches.nextCode, hdictionary]; decide)]
    unfold lzwStep
    rw [hbitsLast, hread]
    dsimp only
    rw [if_neg (by decide), if_neg (by decide), lzwData, ← hbitsLast, hentry]
    rfl
  have hrun := EndsIn.next hclear (hsteps.endsIn (.next hstep (.done hend)))
  exact hrun.runLoop (by omega) _

end Pdfv
