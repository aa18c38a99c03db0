import Pdfv.Basic.Numerals
import Pdfv.Parser.Filters
/-!
# ASCII85

The texts that encode a byte string in ASCII85 (`Ascii85Text`), and that the decoder reads every one
of them back. A group of fewer than four bytes is encoded after filling it up with zero bytes, and
decoded after filling its characters up with the digit `u`; that the two agree is `filled_div`.
-/

namespace Pdfv

open Fallible Positional

/-- The value of a group of at most four bytes, filled up with zero bytes. -/
def ascii85GroupValue (bytes : Bytes) : Nat :=
  value 256 (bytes.map UInt8.toNat) * 256 ^ (4 - bytes.length)

/-- The base-85 digits of a group of at most four bytes: one more than the group has bytes. -/
def ascii85Digits (bytes : Bytes) : List Nat :=
  (digits 85 5 (ascii85GroupValue bytes)).take (bytes.length + 1)

/-- The printable character of a base-85 digit. -/
def ascii85Character (digit : Nat) : UInt8 :=
  UInt8.ofNat (33 + digit)

/-- A text without whitespace that encodes a byte string. -/
inductive Ascii85Text : Bytes → Bytes → Prop where
  | empty : Ascii85Text [] []
  /-- The shorthand `z` of a group of four zero bytes. -/
  | zeros {bytes text : Bytes} (rest : Ascii85Text bytes text) :
    Ascii85Text (0 :: 0 :: 0 :: 0 :: bytes) (122 :: text)
  | group {group bytes text : Bytes} (length : group.length = 4) (rest : Ascii85Text bytes text) :
    Ascii85Text (group ++ bytes) ((ascii85Digits group).map ascii85Character ++ text)
  /-- The last group may be a partial one. -/
  | last {group : Bytes} (pos : 0 < group.length) (short : group.length < 4) :
    Ascii85Text group ((ascii85Digits group).map ascii85Character)

/-- An encoder; `shorthand` says whether it writes `z`. -/
def ascii85Encode (shorthand : Bool) : Bytes → Bytes
  | a :: b :: c :: d :: bytes =>
    if shorthand ∧ [a, b, c, d] = [0, 0, 0, 0] then 122 :: ascii85Encode shorthand bytes
    else (ascii85Digits [a, b, c, d]).map ascii85Character ++ ascii85Encode shorthand bytes
  | [] => []
  | group => (ascii85Digits group).map ascii85Character

/-- Every byte string has a text, with the shorthand and without it. -/
theorem ascii85Encode_text (shorthand : Bool) (bytes : Bytes) :
    Ascii85Text bytes (ascii85Encode shorthand bytes) := by
  fun_induction ascii85Encode shorthand bytes with
  | case1 a b c d bytes hzeros ih =>
    obtain ⟨-, hzeros⟩ := hzeros
    simp only [List.cons.injEq, and_true] at hzeros
    obtain ⟨rfl, rfl, rfl, rfl⟩ := hzeros
    exact .zeros ih
  | case2 a b c d bytes _ ih =>
    show Ascii85Text ([a, b, c, d] ++ bytes) _
    exact .group rfl ih
  | case3 => exact .empty
  | case4 group hfour hempty =>
    refine .last (List.length_pos_of_ne_nil hempty) ?_
    rcases group with _ | ⟨a, _ | ⟨b, _ | ⟨c, _ | ⟨d, bytes⟩⟩⟩⟩
    · exact absurd rfl hempty
    · exact Nat.lt_of_sub_eq_succ rfl
    · exact Nat.lt_of_sub_eq_succ rfl
    · exact Nat.lt_of_sub_eq_succ rfl
    · exact absurd rfl (hfour a b c d bytes)

example : ascii85Encode true [0, 0, 0, 0, 255, 255, 255, 255, 77]
    = [122, 115, 56, 87, 45, 33, 57, 96] := by decide

/-! ## One group -/

theorem value_bytes_lt (bytes : Bytes) :
    value 256 (bytes.map UInt8.toNat) < 256 ^ bytes.length := by
  have h : value 256 (bytes.map UInt8.toNat) < 256 ^ (bytes.map UInt8.toNat).length := value_lt (by
    intro d hd
    obtain ⟨b, -, rfl⟩ := List.mem_map.mp hd
    exact b.toNat_lt)
  rwa [List.length_map] at h

theorem digits_bytes (bytes : Bytes) :
    (digits 256 bytes.length (value 256 (bytes.map UInt8.toNat))).map UInt8.ofNat = bytes := by
  have h : digits 256 (bytes.map UInt8.toNat).length (value 256 (bytes.map UInt8.toNat))
      = bytes.map UInt8.toNat := digits_value (by
    intro d hd
    obtain ⟨b, -, rfl⟩ := List.mem_map.mp hd
    exact b.toNat_lt)
  rw [List.length_map] at h
  rw [h, List.map_map]
  exact (List.map_congr_left fun b _ => UInt8.ofNat_toNat).trans (List.map_id bytes)

theorem toBeBytes32_eq (value : Nat) :
    toBeBytes32 value = (digits 256 4 value).map UInt8.ofNat := by
  have hmod : ∀ n : Nat, UInt8.ofNat (n % 256) = UInt8.ofNat n := fun n => by
    apply UInt8.toNat_inj.mp
    simp only [UInt8.toNat_ofNat', Nat.reducePow, Nat.mod_mod]
  simp only [toBeBytes32, digits, Nat.div_div_eq_div_mul, List.map_cons, List.map_nil, hmod,
    List.nil_append, List.cons_append, Nat.reducePow, Nat.reduceMul]

/-- The digits of a value that fits in 32 bits are read without an overflow. -/
theorem ascii85Value_eq {group : Bytes} (h : value 85 (group.map UInt8.toNat) < u32Size) :
    ascii85Value group = .ok (value 85 (group.map UInt8.toNat)) := by
  have hrun : ∀ (group : Bytes) (v : Nat),
      (group.map UInt8.toNat).foldl (fun v d => v * 85 + d) v < u32Size →
      group.foldlM (fun value digit =>
        let next := value * 85 + digit.toNat
        if next < u32Size then Except.ok next
        else .error (decodeError "ASCII85 group overflows")) v
        = .ok ((group.map UInt8.toNat).foldl (fun v d => v * 85 + d) v) := by
    intro group
    induction group with
    | nil =>
      intro v _
      rfl
    | cons d group ih =>
      intro v hv
      have hprefix : v * 85 + d.toNat
          ≤ (group.map UInt8.toNat).foldl (fun v d => v * 85 + d) (v * 85 + d.toNat) :=
        foldl_le (by omega) _ _
      have hnext : v * 85 + d.toNat < u32Size := Nat.lt_of_le_of_lt hprefix hv
      rw [List.foldlM_cons]
      simp only [hnext, ↓reduceIte, ok_bind]
      exact ih (v * 85 + d.toNat) hv
  exact hrun group 0 h

theorem extendLimited_eq {output bytes : Bytes} {maxDecodeBytes : Nat}
    (h : output.length + bytes.length ≤ maxDecodeBytes) :
    extendLimited output bytes maxDecodeBytes = .ok (output ++ bytes) := by
  unfold extendLimited enforceDecodedLen
  rw [if_neg (Nat.not_lt.mpr h)]
  rfl

/-- The digits of a group, filled up with the digit `u`, have the group as their first bytes. -/
theorem filledDigits_value {group : Bytes} (h : group.length ≤ 4) :
    value 85 (ascii85Digits group ++ List.replicate (4 - group.length) 84) / 256 ^ (4 - group.length)
      = value 256 (group.map UInt8.toNat) := by
  have hmax : value 85 (List.replicate (4 - group.length) 84) + 1 = 85 ^ (4 - group.length) :=
    value_replicate_max (by omega) _
  have hpos : 0 < 85 ^ (4 - group.length) := Nat.pow_pos (by omega)
  have hbound : ascii85GroupValue group < 85 ^ 5 := by
    have hlt : ascii85GroupValue group < 256 ^ group.length * 256 ^ (4 - group.length) :=
      Nat.mul_lt_mul_of_pos_right (value_bytes_lt group) (Nat.pow_pos (by omega))
    rw [← Nat.pow_add, Nat.add_sub_cancel' h] at hlt
    omega
  have hcount : 5 = group.length + 1 + (4 - group.length) := by omega
  have hquotient : ascii85GroupValue group / 85 ^ (4 - group.length) < 85 ^ (group.length + 1) := by
    rw [Nat.div_lt_iff_lt_mul hpos, ← Nat.pow_add, ← hcount]
    exact hbound
  have hdigits : value 85 (ascii85Digits group)
      = ascii85GroupValue group / 85 ^ (4 - group.length) := by
    rw [ascii85Digits, hcount, take_digits, value_digits_of_lt hquotient]
  have hfill : value 85 (List.replicate (4 - group.length) 84) = 85 ^ (4 - group.length) - 1 :=
    Nat.eq_sub_of_add_eq hmax
  rw [value_append, List.length_replicate, hdigits, hfill]
  exact filled_div (by omega) (by omega) _ _

theorem length_ascii85Digits {group : Bytes} (h : group.length ≤ 4) :
    (ascii85Digits group).length = group.length + 1 := by
  rw [ascii85Digits, List.length_take, length_digits]
  omega

theorem ascii85Digit_lt {group : Bytes} {d : Nat} (h : d ∈ ascii85Digits group) : d < 85 :=
  digit_lt (by omega) (List.mem_of_mem_take h)

/-- A group that was read is appended as the bytes it encodes. -/
theorem appendAscii85Group_digits (group output : Bytes) (maxDecodeBytes : Nat)
    (h : group.length ≤ 4) (hfits : output.length + group.length ≤ maxDecodeBytes) :
    appendAscii85Group output
        ((ascii85Digits group).map UInt8.ofNat ++ List.replicate (4 - group.length) 84)
        group.length maxDecodeBytes
      = .ok (output ++ group) := by
  have hnats : ((ascii85Digits group).map UInt8.ofNat
      ++ List.replicate (4 - group.length) 84).map UInt8.toNat
        = ascii85Digits group ++ List.replicate (4 - group.length) 84 := by
    rw [List.map_append, List.map_map, List.map_replicate]
    refine congrArg (· ++ _) ((List.map_congr_left fun d hd => ?_).trans (List.map_id _))
    exact UInt8.toNat_ofNat_of_lt' (Nat.lt_trans (ascii85Digit_lt hd) (by decide))
  have hvalue := filledDigits_value h
  have hgroup : value 256 (group.map UInt8.toNat) < 256 ^ group.length := value_bytes_lt group
  have hlt : value 85 (ascii85Digits group ++ List.replicate (4 - group.length) 84) < u32Size := by
    have hpow : 256 ^ group.length * 256 ^ (4 - group.length) = u32Size := by
      rw [← Nat.pow_add, Nat.add_sub_cancel' h]
      rfl
    rw [← hvalue, Nat.div_lt_iff_lt_mul (Nat.pow_pos (by omega)), hpow] at hgroup
    exact hgroup
  have hbytes : subrange (toBeBytes32 (value 85 (ascii85Digits group
      ++ List.replicate (4 - group.length) 84))) 0 group.length = some group := by
    have hfour : 4 = group.length + (4 - group.length) := by omega
    rw [toBeBytes32_eq, subrange, if_pos ⟨Nat.zero_le _, by simpa using h⟩, List.drop_zero,
      Nat.sub_zero, ← List.map_take]
    rw [congrArg (digits 256 · _) hfour, take_digits, hvalue, digits_bytes]
  unfold appendAscii85Group
  rw [ascii85Value_eq (by rw [hnats]; exact hlt), hnats, ok_bind, hbytes]
  exact extendLimited_eq hfits

/-! ## The loop of the decoder -/

variable {maxDecodeBytes : Nat}

/-- What the loop asks of a character that is a digit. -/
theorem ascii85Character_class {d : Nat} (h : d < 85) :
    isWs (ascii85Character d) = false ∧ ascii85Character d ≠ 126 ∧ ascii85Character d ≠ 122 ∧
      (33 ≤ ascii85Character d ∧ ascii85Character d ≤ 117) ∧
      ascii85Character d - 33 = UInt8.ofNat d := by
  revert d
  decide

theorem ascii85Loop_digit {d : Nat} (h : d < 85) (rest output group : Bytes) :
    ascii85Loop maxDecodeBytes (ascii85Character d :: rest) output group =
      if (group ++ [UInt8.ofNat d]).length = 5 then do
        let output ← appendAscii85Group output (group ++ [UInt8.ofNat d]) 4 maxDecodeBytes
        ascii85Loop maxDecodeBytes rest output []
      else ascii85Loop maxDecodeBytes rest output (group ++ [UInt8.ofNat d]) := by
  obtain ⟨hws, htilde, hz, hrange, hdigit⟩ := ascii85Character_class h
  simp [ascii85Loop, hws, htilde, hz, hrange, hdigit]

/-- Digits that leave the group short are collected. -/
theorem ascii85Loop_short {ds : List Nat} (hds : ∀ d ∈ ds, d < 85) (rest output : Bytes)
    {group : Bytes} (hshort : group.length + ds.length < 5) :
    ascii85Loop maxDecodeBytes (ds.map ascii85Character ++ rest) output group
      = ascii85Loop maxDecodeBytes rest output (group ++ ds.map UInt8.ofNat) := by
  induction ds generalizing group with
  | nil => simp
  | cons d ds ih =>
    rw [List.length_cons] at hshort
    have hd : d < 85 := hds d List.mem_cons_self
    have hlength : (group ++ [UInt8.ofNat d]).length = group.length + 1 := by simp
    rw [List.map_cons, List.cons_append, ascii85Loop_digit hd, if_neg (by omega),
      ih (fun d hd => hds d (List.mem_cons_of_mem _ hd)) (by omega)]
    simp

/-- Five digits are a group of four bytes. -/
theorem ascii85Loop_full {ds : List Nat} (hds : ∀ d ∈ ds, d < 85) (hfull : ds.length = 5)
    (rest output : Bytes) :
    ascii85Loop maxDecodeBytes (ds.map ascii85Character ++ rest) output [] =
      (appendAscii85Group output (ds.map UInt8.ofNat) 4 maxDecodeBytes >>= fun output =>
        ascii85Loop maxDecodeBytes rest output []) := by
  obtain ⟨init, last, rfl⟩ : ∃ init last, ds = init ++ [last] :=
    ⟨ds.dropLast, ds.getLast (by rintro rfl; cases hfull), (List.dropLast_concat_getLast _).symm⟩
  rw [List.length_append, List.length_singleton] at hfull
  have hlast : last < 85 := hds last (by simp)
  have hinit : ∀ d ∈ init, d < 85 := fun d hd => hds d (by simp [hd])
  rw [List.map_append, List.append_assoc, ascii85Loop_short hinit _ _ (by simp; omega),
    List.nil_append, List.map_cons, List.map_nil, List.cons_append, List.nil_append,
    ascii85Loop_digit hlast, if_pos (by simp; omega), List.map_append, List.map_cons, List.map_nil]

/-- The text of a byte string is read as the byte string, up to the end of the data. -/
theorem Ascii85Text.loop {bytes text : Bytes} (htext : Ascii85Text bytes text) {output : Bytes}
    (hfits : output.length + bytes.length ≤ maxDecodeBytes) (rest : Bytes) :
    ascii85Loop maxDecodeBytes (text ++ 126 :: 62 :: rest) output [] = .ok (output ++ bytes) := by
  induction htext generalizing output with
  | empty => simp [ascii85Loop, isWs, ascii85Finish]
  | @zeros bytes text _ ih =>
    simp only [List.length_cons] at hfits
    have hzeros : extendLimited output [0, 0, 0, 0] maxDecodeBytes
        = .ok (output ++ [0, 0, 0, 0]) := extendLimited_eq (by simp; omega)
    have hrest := @ih (output ++ [0, 0, 0, 0]) (by simp; omega)
    simp only [List.append_assoc, List.cons_append, List.nil_append] at hrest
    simpa [ascii85Loop, isWs, hzeros] using hrest
  | @group group bytes text hlength _ ih =>
    rw [List.length_append] at hfits
    have hgroup := appendAscii85Group_digits group output maxDecodeBytes (by omega) (by omega)
    have hds : (ascii85Digits group).length = 5 := by
      rw [length_ascii85Digits (by omega), hlength]
    rw [hlength, Nat.sub_self, List.replicate_zero, List.append_nil] at hgroup
    rw [List.append_assoc, ascii85Loop_full (fun _ => ascii85Digit_lt) hds, hgroup, ok_bind,
      ih (by rw [List.length_append]; omega), List.append_assoc]
  | @last group hpos hshort =>
    have hds := length_ascii85Digits (Nat.le_of_lt hshort)
    have hgroup := appendAscii85Group_digits group output maxDecodeBytes (Nat.le_of_lt hshort) hfits
    have hstop : ∀ digits : Bytes,
        ascii85Loop maxDecodeBytes (126 :: 62 :: rest) output digits
          = ascii85Finish output digits maxDecodeBytes := fun digits => by
      simp [ascii85Loop, isWs]
    have hcount : 5 - (group.length + 1) = 4 - group.length := by omega
    have hfilled : (ascii85Digits group).map UInt8.ofNat ≠ [] := by
      apply List.ne_nil_of_length_pos
      rw [List.length_map, hds]
      exact Nat.succ_pos _
    rw [ascii85Loop_short (fun _ => ascii85Digit_lt) _ _ (by simp [hds]; omega), List.nil_append,
      hstop, ascii85Finish, if_neg (by simpa using hfilled), List.length_map, hds, hcount,
      Nat.add_sub_cancel]
    exact hgroup

/-- Whitespace between the characters makes no difference. -/
theorem ascii85Loop_spaced {spaced : Bytes} (h : ∀ b ∈ spaced, b ≠ 126) (rest output group : Bytes) :
    ascii85Loop maxDecodeBytes (spaced ++ rest) output group
      = ascii85Loop maxDecodeBytes (spaced.filter (fun b => !isWs b) ++ rest) output group := by
  induction spaced generalizing output group with
  | nil => rfl
  | cons b spaced ih =>
    have hb : b ≠ 126 := h b List.mem_cons_self
    replace ih := ih fun b hb => h b (List.mem_cons_of_mem _ hb)
    by_cases hws : isWs b
    · simp [ascii85Loop, hws, ih]
    · simp [ascii85Loop, hws, hb, ih]

/-- The end of the data does not begin inside a text. -/
theorem Ascii85Text.ne_tilde {bytes text : Bytes} (htext : Ascii85Text bytes text) :
    ∀ b ∈ text, b ≠ 126 := by
  have hgroup : ∀ group : Bytes, ∀ b ∈ (ascii85Digits group).map ascii85Character, b ≠ 126 := by
    intro group b hb
    obtain ⟨d, hd, rfl⟩ := List.mem_map.mp hb
    exact (ascii85Character_class (ascii85Digit_lt hd)).2.1
  induction htext with
  | empty => simp
  | zeros _ ih =>
    intro b hb
    rcases List.mem_cons.mp hb with rfl | hb
    · decide
    · exact ih b hb
  | group _ _ ih =>
    intro b hb
    rcases List.mem_append.mp hb with hb | hb
    · exact hgroup _ b hb
    · exact ih b hb
  | last _ _ => exact hgroup _

/-- ASCII85 decoding inverts ASCII85 encoding: whatever groups are written as `z`, wherever whitespace
stands between the characters and whatever follows the end of the data. -/
theorem ascii85Decoder_inverts {bytes text spaced : Bytes} (htext : Ascii85Text bytes text)
    (hspaced : spaced.filter (fun b => !isWs b) = text) (rest : Bytes) (params : DecodeParams)
    (limits : ResourceLimits) (hfits : bytes.length ≤ limits.maxStreamDecodeBytes) :
    ascii85Decoder (spaced ++ 126 :: 62 :: rest) params limits = .ok ⟨bytes, false⟩ := by
  have htilde : ∀ b ∈ spaced, b ≠ 126 := by
    rintro b hb rfl
    refine htext.ne_tilde 126 ?_ rfl
    rw [← hspaced, List.mem_filter]
    exact ⟨hb, by decide⟩
  have hloop : ascii85Loop limits.maxStreamDecodeBytes (text ++ 126 :: 62 :: rest) [] []
      = .ok ([] ++ bytes) :=
    htext.loop (by rw [List.length_nil, Nat.zero_add]; exact hfits) rest
  unfold ascii85Decoder
  rw [ascii85Loop_spaced htilde, hspaced, hloop]
  rfl

/-- A shorthand, a full group next to `2 ^ 32` and a last group of one byte, with whitespace. -/
theorem ascii85Decoder_inverts_spaced :
    ascii85Decoder ([32, 122, 115, 10, 56, 87, 45, 33, 57, 0, 96, 9] ++ 126 :: 62 :: [1]) {} {}
      = .ok ⟨[0, 0, 0, 0, 255, 255, 255, 255, 77], false⟩ :=
  ascii85Decoder_inverts (ascii85Encode_text true [0, 0, 0, 0, 255, 255, 255, 255, 77]) (by decide)
    [1] {} {} (by decide)

end Pdfv
