import Pdfv.Basic.Numerals
import Pdfv.Parser.Predictors
/-!
# TIFF predictor

The rows of an image as samples, packed as PDF packs them (`packRow`), and TIFF differencing, which
replaces a sample by its difference from the same component of the pixel to its left
(`componentDifferences`). `apply_tiff_predictor` adds bytes, not samples: it gives the rows back
exactly when the packed differences are the differences of the packed bytes. Where a pixel is a whole
number of bytes this means that no difference borrows across a boundary between samples inside a byte
or between bytes inside a sample.
-/

namespace Pdfv

open Fallible Rows Positional

/-! ## Bytes -/

/-- What the loop adds to a byte that follows the given ones. -/
def tiffLeft (distance : Nat) (bytes : Bytes) : UInt8 :=
  if distance ≤ bytes.length then (bytes[bytes.length - distance]?).getD 0 else 0

/-- Each byte less the byte the given distance before it. -/
def byteDifferences (distance : Nat) (bytes : Bytes) : Bytes :=
  bytes.mapIdx fun i b => if distance ≤ i then b - (bytes[i - distance]?).getD 0 else b

section Bytes

variable {distance : Nat}

theorem byteDifferences_concat (hpos : 0 < distance) (bytes : Bytes) (b : UInt8) :
    byteDifferences distance (bytes ++ [b])
      = byteDifferences distance bytes ++ [b - tiffLeft distance bytes] := by
  unfold byteDifferences tiffLeft
  rw [List.mapIdx_concat]
  congr 1
  · refine List.mapIdx_eq_mapIdx_iff.mpr fun i hi => ?_
    by_cases h : distance ≤ i
    · rw [if_pos h, if_pos h, List.getElem?_append_left (by omega)]
    · rw [if_neg h, if_neg h]
  · by_cases h : distance ≤ bytes.length
    · rw [if_pos h, if_pos h, List.getElem?_append_left (by omega)]
    · rw [if_neg h, if_neg h, UInt8.sub_zero]

theorem tiffRowLoop_concat (bytes : Bytes) (b : UInt8) (before : Bytes) :
    tiffRowLoop distance before (bytes ++ [b])
      = tiffRowLoop distance before bytes
        ++ [b + tiffLeft distance (tiffRowLoop distance before bytes)] := by
  induction bytes generalizing before with
  | nil => rfl
  | cons c bytes ih =>
    rw [List.cons_append, tiffRowLoop, ih]
    rfl

/-- The loop undoes exactly the differences of bytes. -/
theorem tiffRowLoop_eq_iff (hpos : 0 < distance) {encoded bytes : Bytes} :
    tiffRowLoop distance [] encoded = bytes ↔ encoded = byteDifferences distance bytes := by
  constructor
  · rintro rfl
    induction encoded using List.reverseRecOn with
    | nil => rfl
    | append_singleton encoded b ih =>
      rw [tiffRowLoop_concat, byteDifferences_concat hpos, ← ih, UInt8.add_sub_cancel]
  · rintro rfl
    induction bytes using List.reverseRecOn with
    | nil => rfl
    | append_singleton bytes b ih =>
      rw [byteDifferences_concat hpos, tiffRowLoop_concat, ih, UInt8.sub_add_cancel]

theorem eq_byteDifferences_iff {encoded bytes : Bytes} (hlength : encoded.length = bytes.length) :
    encoded = byteDifferences distance bytes ↔ ∀ i, i < bytes.length →
      (encoded[i]?).getD 0 =
        if distance ≤ i then (bytes[i]?).getD 0 - (bytes[i - distance]?).getD 0
        else (bytes[i]?).getD 0 := by
  constructor
  · rintro rfl i hi
    simp [byteDifferences, hi]
  · intro h
    apply List.ext_getElem
    · simp [byteDifferences, hlength]
    · intro i hi _
      have hat := h i (by omega)
      rw [List.getElem?_eq_getElem hi, List.getElem?_eq_getElem (hlength ▸ hi)] at hat
      simpa [byteDifferences] using hat

end Bytes

/-! ## Samples -/

/-- The component at a place of a row; zero outside. -/
def sampleAt (row : List Nat) (k : Nat) : Nat :=
  (row[k]?).getD 0

/-- A row of samples of the width and number the geometry says. -/
structure SampleRow (params : DecodeParams) (row : List Nat) : Prop where
  length : row.length = params.colors * params.columns
  sample_lt : ∀ s ∈ row, s < 2 ^ params.bitsPerComponent

/-- The bytes of a row: the samples one after the other, the last byte filled up with zero bits. -/
def packRow (params : DecodeParams) (row : List Nat) : Bytes :=
  (digits 256 params.rowBytes (value (2 ^ params.bitsPerComponent) row
    * 2 ^ (8 * params.rowBytes - params.bitsPerComponent * row.length))).map UInt8.ofNat

/-- Every sample less the same component of the pixel to its left. -/
def componentDifferences (params : DecodeParams) (row : List Nat) : List Nat :=
  row.mapIdx fun k s =>
    if params.colors ≤ k then
      (s + 2 ^ params.bitsPerComponent - sampleAt row (k - params.colors))
        % 2 ^ params.bitsPerComponent
    else s

/-- No difference of a row borrows across a boundary that the bytes and the samples do not share: the
one inside a sample of 16 bits, or those between the samples of a byte. Where a pixel is not a whole
number of bytes, the packed differences are the differences of the bytes. -/
def TiffExact (params : DecodeParams) (row : List Nat) : Prop :=
  if params.bitsPerComponent = 16 then
    ∀ k, params.colors ≤ k → k < row.length →
      sampleAt row (k - params.colors) % 256 ≤ sampleAt row k % 256
  else if 8 ∣ params.colors * params.bitsPerComponent then
    ∀ k, params.colors ≤ k → k < row.length → ¬ 8 / params.bitsPerComponent ∣ k →
      sampleAt row (k - params.colors) ≤ sampleAt row k
  else
    packRow params (componentDifferences params row)
      = byteDifferences params.pixelBytes (packRow params row)

theorem ofNat_eq_sub_iff (a b c : Nat) :
    UInt8.ofNat a = UInt8.ofNat b - UInt8.ofNat c ↔ (a + c) % 256 = b % 256 := by
  rw [← UInt8.toNat_inj, UInt8.toNat_sub]
  simp only [UInt8.toNat_ofNat', Nat.reducePow]
  omega

section Rows

variable {params : DecodeParams} {row : List Nat}

theorem length_packRow : (packRow params row).length = params.rowBytes := by
  simp [packRow]

theorem sampleAt_lt (hrow : SampleRow params row) (k : Nat) :
    sampleAt row k < 2 ^ params.bitsPerComponent := by
  unfold sampleAt
  by_cases hk : k < row.length
  · rw [List.getElem?_eq_getElem hk]
    exact hrow.sample_lt _ (List.getElem_mem hk)
  · rw [List.getElem?_eq_none (Nat.not_lt.mp hk)]
    exact Nat.two_pow_pos _

theorem SampleRow.differences (hrow : SampleRow params row) :
    SampleRow params (componentDifferences params row) := by
  refine ⟨by simpa [componentDifferences] using hrow.length, fun s hs => ?_⟩
  obtain ⟨k, hk, rfl⟩ := List.getElem_of_mem hs
  simp only [componentDifferences, List.getElem_mapIdx]
  split
  · exact Nat.mod_lt _ (Nat.two_pow_pos _)
  · exact hrow.sample_lt _ (List.getElem_mem _)

theorem sampleAt_differences {k : Nat} (hk : k < row.length) :
    sampleAt (componentDifferences params row) k =
      if params.colors ≤ k then
        (sampleAt row k + 2 ^ params.bitsPerComponent - sampleAt row (k - params.colors))
          % 2 ^ params.bitsPerComponent
      else sampleAt row k := by
  simp [sampleAt, componentDifferences, hk]

/-! ## Samples inside a byte -/

section Blocks

variable {samples pixel : Nat} (hbyte : params.bitsPerComponent * samples = 8)
  (hcolors : params.colors = pixel * samples)
include hbyte hcolors

theorem rowBytes_blocks : params.rowBytes = pixel * params.columns := by
  have h : params.colors * params.bitsPerComponent * params.columns
      = 8 * (pixel * params.columns) := by
    rw [hcolors, ← hbyte]
    ring
  rw [DecodeParams.rowBytes, h]
  omega

theorem pixelBytes_blocks : params.pixelBytes = pixel := by
  have h : params.colors * params.bitsPerComponent = 8 * pixel := by
    rw [hcolors, ← hbyte]
    ring
  rw [DecodeParams.pixelBytes, h]
  omega

theorem length_blocks (hrow : SampleRow params row) :
    row.length = params.rowBytes * samples := by
  rw [hrow.length, rowBytes_blocks hbyte hcolors, hcolors]
  ring

/-- Each byte is the value of its samples. -/
theorem packRow_blocks (hrow : SampleRow params row) :
    packRow params row = (List.range params.rowBytes).map fun i =>
      UInt8.ofNat (value (2 ^ params.bitsPerComponent) ((row.drop (i * samples)).take samples)) := by
  have hlength := length_blocks hbyte hcolors hrow
  have hpad : 8 * params.rowBytes - params.bitsPerComponent * row.length = 0 := by
    rw [hlength, Nat.mul_comm params.rowBytes, ← Nat.mul_assoc, hbyte, Nat.sub_self]
  have hbase : 256 = (2 ^ params.bitsPerComponent) ^ samples := by
    rw [← Nat.pow_mul, hbyte]
  rw [packRow, hpad, Nat.pow_zero, Nat.mul_one, hbase, digits_blocks hrow.sample_lt hlength,
    List.map_map]
  rfl

/-- The samples of a byte. -/
theorem block_eq (hrow : SampleRow params row) {i : Nat} (hi : i < params.rowBytes) :
    (row.drop (i * samples)).take samples
      = (List.range samples).map fun j => sampleAt row (i * samples + j) := by
  have hlength := length_blocks hbyte hcolors hrow
  have hend : i * samples + samples ≤ row.length := by
    rw [hlength, ← Nat.succ_mul]
    exact Nat.mul_le_mul_right samples hi
  apply List.ext_getElem
  · rw [List.length_take, List.length_drop, List.length_map, List.length_range]
    omega
  · intro j hj hj'
    rw [List.length_map, List.length_range] at hj'
    have hat : i * samples + j < row.length := by omega
    simp [sampleAt, hat]

/-- A byte of packed differences is the difference of the bytes when the samples after the first one
do not borrow. -/
theorem block_difference_iff (hrow : SampleRow params row) {i : Nat} (hpixel : pixel ≤ i)
    (hi : i < params.rowBytes) (hbits : 0 < params.bitsPerComponent) :
    UInt8.ofNat (value (2 ^ params.bitsPerComponent)
        (((componentDifferences params row).drop (i * samples)).take samples))
      = UInt8.ofNat (value (2 ^ params.bitsPerComponent) ((row.drop (i * samples)).take samples))
        - UInt8.ofNat (value (2 ^ params.bitsPerComponent)
          ((row.drop ((i - pixel) * samples)).take samples))
      ↔ ∀ j, j + 1 < samples →
        sampleAt row (i * samples + (j + 1) - params.colors)
          ≤ sampleAt row (i * samples + (j + 1)) := by
  obtain ⟨count, rfl⟩ : ∃ count, samples = count + 1 := by
    refine Nat.exists_eq_succ_of_ne_zero fun hzero => ?_
    rw [hzero, Nat.mul_zero] at hbyte
    cases hbyte
  have hlength := length_blocks hbyte hcolors hrow
  have hend : i * (count + 1) + (count + 1) ≤ row.length := by
    rw [hlength, ← Nat.succ_mul]
    exact Nat.mul_le_mul_right _ hi
  have hback : ∀ j, (i - pixel) * (count + 1) + j = i * (count + 1) + j - params.colors := by
    intro j
    have hle : pixel * (count + 1) ≤ i * (count + 1) := Nat.mul_le_mul_right _ hpixel
    rw [Nat.sub_mul, ← hcolors] at *
    omega
  have hinside : params.colors ≤ i * (count + 1) := by
    rw [hcolors]
    exact Nat.mul_le_mul_right _ hpixel
  have hbase : 1 < 2 ^ params.bitsPerComponent := Nat.one_lt_two_pow hbits.ne'
  have hdifferences : (List.range (count + 1)).map (fun j =>
      sampleAt (componentDifferences params row) (i * (count + 1) + j))
        = subtract (2 ^ params.bitsPerComponent)
          ((List.range (count + 1)).map fun j => sampleAt row (i * (count + 1) + j))
          ((List.range (count + 1)).map fun j => sampleAt row ((i - pixel) * (count + 1) + j)) := by
    rw [subtract, List.zipWith_map, List.zipWith_self]
    refine List.map_congr_left fun j hj => ?_
    have hj : j < count + 1 := List.mem_range.mp hj
    rw [sampleAt_differences (by omega), if_pos (by omega), hback]
  have hsamples : ∀ (k : Nat) (l : List Nat),
      ∀ d ∈ l.map fun j => sampleAt row (k + j), d < 2 ^ params.bitsPerComponent := by
    intro k l d hd
    obtain ⟨j, -, rfl⟩ := List.mem_map.mp hd
    exact sampleAt_lt hrow _
  have hpow : (2 ^ params.bitsPerComponent) ^ (count + 1) = 256 := by
    rw [← Nat.pow_mul, hbyte]
  rw [block_eq hbyte hcolors hrow.differences hi, block_eq hbyte hcolors hrow hi,
    block_eq hbyte hcolors hrow (by omega), hdifferences, ofNat_eq_sub_iff, ← hpow]
  have hx := hsamples (i * (count + 1)) (List.range (count + 1))
  have hy := hsamples ((i - pixel) * (count + 1)) (List.range (count + 1))
  rw [List.range_succ_eq_map, List.map_cons, List.map_map] at hx hy
  have hiff := subtract_mod_iff hbase hx hy (by simp)
  rw [List.length_map, List.length_range] at hiff
  rw [List.range_succ_eq_map, List.map_cons, List.map_cons, List.map_map, List.map_map]
  refine hiff.trans ?_
  rw [borrows, List.zipWith_map, List.zipWith_self, List.forall_mem_map]
  simp only [List.mem_range, Function.comp_apply, hback, Nat.succ_eq_add_one]
  refine forall_congr' fun j => ?_
  rw [Nat.add_lt_add_iff_right]
  refine imp_congr_right fun _ => ?_
  split <;> omega

theorem packRow_getD (hrow : SampleRow params row) {i : Nat} (hi : i < params.rowBytes) :
    ((packRow params row)[i]?).getD 0 = UInt8.ofNat
      (value (2 ^ params.bitsPerComponent) ((row.drop (i * samples)).take samples)) := by
  rw [packRow_blocks hbyte hcolors hrow]
  simp [hi]

/-- Before the second pixel there is nothing to subtract. -/
theorem block_first (hrow : SampleRow params row) {i : Nat} (hpixel : i < pixel)
    (hi : i < params.rowBytes) :
    ((componentDifferences params row).drop (i * samples)).take samples
      = (row.drop (i * samples)).take samples := by
  have hlength := length_blocks hbyte hcolors hrow
  have hend : i * samples + samples ≤ row.length := by
    rw [hlength, ← Nat.succ_mul]
    exact Nat.mul_le_mul_right samples hi
  have hbefore : i * samples + samples ≤ params.colors := by
    rw [hcolors, ← Nat.succ_mul]
    exact Nat.mul_le_mul_right samples hpixel
  rw [block_eq hbyte hcolors hrow.differences hi, block_eq hbyte hcolors hrow hi]
  refine List.map_congr_left fun j hj => ?_
  have hj : j < samples := List.mem_range.mp hj
  rw [sampleAt_differences (by omega), if_neg (by omega)]

theorem exact_blocks (hrow : SampleRow params row) (hbits : 0 < params.bitsPerComponent) :
    packRow params (componentDifferences params row)
        = byteDifferences params.pixelBytes (packRow params row)
      ↔ ∀ k, params.colors ≤ k → k < row.length → ¬ samples ∣ k →
        sampleAt row (k - params.colors) ≤ sampleAt row k := by
  have hlength := length_blocks hbyte hcolors hrow
  have hsamples : 0 < samples := Nat.pos_of_ne_zero fun h => by
    rw [h, Nat.mul_zero] at hbyte
    cases hbyte
  rw [eq_byteDifferences_iff (by rw [length_packRow, length_packRow]), length_packRow,
    pixelBytes_blocks hbyte hcolors]
  constructor
  · intro h k hcolor hk hboundary
    have hdivision := Nat.div_add_mod k samples
    rw [Nat.mul_comm] at hdivision
    have hi : k / samples < params.rowBytes := by
      rw [Nat.div_lt_iff_lt_mul hsamples, ← hlength]
      exact hk
    have hpixel : pixel ≤ k / samples := by
      rw [Nat.le_div_iff_mul_le hsamples, ← hcolors]
      exact hcolor
    have hinside : k % samples ≠ 0 := fun h => hboundary (Nat.dvd_of_mod_eq_zero h)
    have hlast : k % samples < samples := Nat.mod_lt k hsamples
    have hbyteAt := h (k / samples) hi
    rw [if_pos hpixel, packRow_getD hbyte hcolors hrow.differences hi,
      packRow_getD hbyte hcolors hrow hi, packRow_getD hbyte hcolors hrow (by omega),
      block_difference_iff hbyte hcolors hrow hpixel hi hbits] at hbyteAt
    have hj := hbyteAt (k % samples - 1) (by omega)
    rwa [Nat.sub_add_cancel (by omega), hdivision] at hj
  · intro h i hi
    rw [packRow_getD hbyte hcolors hrow.differences hi, packRow_getD hbyte hcolors hrow hi]
    by_cases hpixel : pixel ≤ i
    · rw [if_pos hpixel, packRow_getD hbyte hcolors hrow (by omega),
        block_difference_iff hbyte hcolors hrow hpixel hi hbits]
      intro j hj
      have hstart : params.colors ≤ i * samples := by
        rw [hcolors]
        exact Nat.mul_le_mul_right _ hpixel
      have hend : i * samples + samples ≤ row.length := by
        rw [hlength, ← Nat.succ_mul]
        exact Nat.mul_le_mul_right samples hi
      refine h _ (by omega) (by omega) fun hdvd => ?_
      rw [Nat.dvd_add_right (Nat.dvd_mul_left samples i)] at hdvd
      exact Nat.not_le_of_lt hj (Nat.le_of_dvd (Nat.succ_pos j) hdvd)
    · rw [if_neg hpixel, block_first hbyte hcolors hrow (by omega) hi]

end Blocks

/-! ## Samples of two bytes -/

section Wide

variable (hbits : params.bitsPerComponent = 16)
include hbits

theorem rowBytes_wide (hrow : SampleRow params row) : params.rowBytes = row.length * 2 := by
  have h : params.colors * params.bitsPerComponent * params.columns
      = 8 * (params.colors * params.columns * 2) := by
    rw [hbits]
    ring
  rw [DecodeParams.rowBytes, h, hrow.length]
  omega

theorem pixelBytes_wide : params.pixelBytes = params.colors * 2 := by
  rw [DecodeParams.pixelBytes, hbits]
  omega

/-- A sample is stored as its high byte and its low byte. -/
theorem packRow_wide (hrow : SampleRow params row) :
    packRow params row = (row.map fun s => [UInt8.ofNat (s / 256), UInt8.ofNat s]).flatten := by
  have hbytes := rowBytes_wide hbits hrow
  have hpad : 8 * params.rowBytes - params.bitsPerComponent * row.length = 0 := by
    rw [hbytes, hbits]
    omega
  have hsamples : ∀ s ∈ row, s < 2 ^ 16 := hbits ▸ hrow.sample_lt
  have hdigits : digits (256 ^ 2) row.length (value (2 ^ 16) row) = row := digits_value hsamples
  have hmod : ∀ n : Nat, UInt8.ofNat (n % 256) = UInt8.ofNat n := fun n =>
    UInt8.toNat_inj.mp (by simp)
  rw [packRow, hpad, Nat.pow_zero, Nat.mul_one, hbytes, digits_pow, hbits, hdigits,
    List.map_flatMap, List.flatMap_def]
  simp [digits, hmod]

theorem packRow_wide_getD (hrow : SampleRow params row) {k : Nat} (hk : k < row.length) :
    ((packRow params row)[k * 2]?).getD 0 = UInt8.ofNat (sampleAt row k / 256) ∧
      ((packRow params row)[k * 2 + 1]?).getD 0 = UInt8.ofNat (sampleAt row k) := by
  have huniform : Uniform 2 (row.map fun s => [UInt8.ofNat (s / 256), UInt8.ofNat s]) := by
    intro pair hpair
    obtain ⟨s, -, rfl⟩ := List.mem_map.mp hpair
    rfl
  have hget : (row.map fun s => [UInt8.ofNat (s / 256), UInt8.ofNat s])[k]?
      = some [UInt8.ofNat (sampleAt row k / 256), UInt8.ofNat (sampleAt row k)] := by
    simp [sampleAt, hk]
  have hhigh := huniform.getElem?_flatten hget (j := 0) (by omega)
  have hlow := huniform.getElem?_flatten hget (j := 1) (by omega)
  rw [Nat.add_zero] at hhigh
  rw [packRow_wide hbits hrow, hhigh, hlow]
  exact ⟨rfl, rfl⟩

theorem exact_wide (hrow : SampleRow params row) :
    packRow params (componentDifferences params row)
        = byteDifferences params.pixelBytes (packRow params row)
      ↔ ∀ k, params.colors ≤ k → k < row.length →
        sampleAt row (k - params.colors) % 256 ≤ sampleAt row k % 256 := by
  have hlength : (componentDifferences params row).length = row.length := by
    simp [componentDifferences]
  have hlt : ∀ k, sampleAt row k < 65536 := fun k => by
    have h := sampleAt_lt hrow k
    rwa [hbits] at h
  rw [eq_byteDifferences_iff (by rw [length_packRow, length_packRow]), length_packRow,
    pixelBytes_wide hbits, rowBytes_wide hbits hrow]
  constructor
  · intro h k hcolor hk
    have hat := h (k * 2) (by omega)
    have hplace : k * 2 - params.colors * 2 = (k - params.colors) * 2 := by omega
    rw [if_pos (by omega), hplace,
      (packRow_wide_getD hbits hrow.differences (hlength ▸ hk)).1,
      (packRow_wide_getD hbits hrow hk).1, (packRow_wide_getD hbits hrow (by omega)).1,
      sampleAt_differences hk, if_pos hcolor, ofNat_eq_sub_iff, hbits] at hat
    have hleft := hlt (k - params.colors)
    have hsample := hlt k
    omega
  · intro h i hi
    obtain ⟨k, hk | hk⟩ : ∃ k, i = k * 2 ∨ i = k * 2 + 1 := ⟨i / 2, by omega⟩
    all_goals
      subst hk
      have hinside : k < row.length := by omega
      have hleft := hlt (k - params.colors)
      have hsample := hlt k
      have hencoded := packRow_wide_getD hbits hrow.differences (hlength ▸ hinside)
      have hbyte := packRow_wide_getD hbits hrow hinside
      rw [sampleAt_differences hinside, hbits] at hencoded
    · rw [hencoded.1, hbyte.1]
      by_cases hcolor : params.colors ≤ k
      · have hplace : k * 2 - params.colors * 2 = (k - params.colors) * 2 := by omega
        have hborrow := h k hcolor hinside
        rw [if_pos hcolor, if_pos (by omega), hplace,
          (packRow_wide_getD hbits hrow (by omega)).1, ofNat_eq_sub_iff]
        omega
      · rw [if_neg hcolor, if_neg (by omega)]
    · rw [hencoded.2, hbyte.2]
      by_cases hcolor : params.colors ≤ k
      · have hplace : k * 2 + 1 - params.colors * 2 = (k - params.colors) * 2 + 1 := by omega
        rw [if_pos hcolor, if_pos (by omega), hplace,
          (packRow_wide_getD hbits hrow (by omega)).2, ofNat_eq_sub_iff]
        omega
      · rw [if_neg hcolor, if_neg (by omega)]

end Wide

theorem exact_iff (hbits : params.bitsPerComponent ∈ [1, 2, 4, 8, 16])
    (hrow : SampleRow params row) :
    packRow params (componentDifferences params row)
        = byteDifferences params.pixelBytes (packRow params row) ↔ TiffExact params row := by
  unfold TiffExact
  by_cases hwide : params.bitsPerComponent = 16
  · rw [if_pos hwide]
    exact exact_wide hwide hrow
  rw [if_neg hwide]
  by_cases hwhole : 8 ∣ params.colors * params.bitsPerComponent
  · rw [if_pos hwhole]
    have hnarrow : params.bitsPerComponent ∣ 8 ∧ 0 < params.bitsPerComponent := by
      simp only [List.mem_cons, List.not_mem_nil, or_false] at hbits
      rcases hbits with h | h | h | h | h
      all_goals rw [h]
      · exact ⟨by decide, by decide⟩
      · exact ⟨by decide, by decide⟩
      · exact ⟨by decide, by decide⟩
      · exact ⟨by decide, by decide⟩
      · exact absurd h hwide
    obtain ⟨hdvd, hpos⟩ := hnarrow
    have hbyte : params.bitsPerComponent * (8 / params.bitsPerComponent) = 8 :=
      Nat.mul_div_cancel' hdvd
    obtain ⟨pixel, hpixel⟩ := hwhole
    have hpixel : params.colors = pixel * (8 / params.bitsPerComponent) := by
      apply Nat.eq_of_mul_eq_mul_right hpos
      rw [hpixel, Nat.mul_assoc, Nat.mul_comm _ params.bitsPerComponent, hbyte, Nat.mul_comm]
    exact exact_blocks hbyte hpixel hrow hpos
  · rw [if_neg hwhole]

/-- Samples of a byte never borrow. -/
theorem TiffExact.of_bytes (hbits : params.bitsPerComponent = 8) : TiffExact params row := by
  unfold TiffExact
  rw [if_neg (by omega), hbits, if_pos (Nat.dvd_mul_left 8 _)]
  intro k _ _ hboundary
  exact absurd (Nat.one_dvd k) hboundary

end Rows

/-! ## The predictor -/

theorem length_tiffRowLoop (distance : Nat) (bytes before : Bytes) :
    (tiffRowLoop distance before bytes).length = before.length + bytes.length := by
  induction bytes generalizing before with
  | nil => rfl
  | cons b bytes ih =>
    rw [tiffRowLoop, ih, List.length_append, List.length_singleton, List.length_cons]
    omega

/-- TIFF predictor decoding gives the differenced rows back exactly when they fit the limit and no
difference borrows where the bytes and the samples differ. -/
theorem applyTiffPredictor_iff {params : DecodeParams} (hparams : params.Geometry)
    (hbits : params.bitsPerComponent ∈ [1, 2, 4, 8, 16]) {rows : List (List Nat)}
    (hrows : ∀ row ∈ rows, SampleRow params row) (maxDecodeBytes : Nat) :
    applyTiffPredictor (rows.flatMap fun row => packRow params (componentDifferences params row))
        params maxDecodeBytes = .ok (rows.flatMap (packRow params))
      ↔ rows.length * params.rowBytes ≤ maxDecodeBytes ∧ ∀ row ∈ rows, TiffExact params row := by
  have huniform : ∀ f : List Nat → Bytes, (∀ row, (f row).length = params.rowBytes) →
      Uniform params.rowBytes (rows.map f) := by
    intro f hf bytes hbytes
    obtain ⟨row, -, rfl⟩ := List.mem_map.mp hbytes
    exact hf row
  have hencoded := huniform (fun row => packRow params (componentDifferences params row))
    fun _ => length_packRow
  have hdecoded := huniform (fun row => tiffRowLoop params.pixelBytes []
    (packRow params (componentDifferences params row))) fun row => by
      rw [length_tiffRowLoop, length_packRow, List.length_nil, Nat.zero_add]
  have hpacked := huniform (packRow params) fun _ => length_packRow
  have hlength := hencoded.length_flatten
  rw [List.length_map] at hlength
  have hwhole : rows.length * params.rowBytes % params.rowBytes = 0 := Nat.mul_mod_left _ _
  have hpos := hparams.rowBytes_pos
  unfold applyTiffPredictor
  rw [List.flatMap_def, List.flatMap_def, hlength, enforceDecodedLen]
  by_cases hfits : rows.length * params.rowBytes ≤ maxDecodeBytes
  · rw [if_neg (Nat.not_lt.mpr hfits), ok_bind, hparams.predictorGeometry_eq, ok_bind]
    dsimp only
    rw [if_neg (by simp [hwhole, hpos.ne']), rowsOf_flatten hpos hencoded, pure_eq_ok,
      List.flatMap_def, List.map_map, and_iff_right hfits]
    constructor
    · intro h row hrow
      have hsplit := congrArg (rowsOf params.rowBytes) h
      rw [rowsOf_flatten hpos hpacked] at hsplit
      replace hsplit := (rowsOf_flatten hpos hdecoded).symm.trans hsplit
      have hloop := List.map_inj_left.mp hsplit row hrow
      rw [← exact_iff hbits (hrows row hrow)]
      exact (tiffRowLoop_eq_iff hparams.pixelBytes_pos).mp hloop
    · intro h
      refine congrArg List.flatten (List.map_congr_left fun row hrow => ?_)
      exact (tiffRowLoop_eq_iff hparams.pixelBytes_pos).mpr
        ((exact_iff hbits (hrows row hrow)).mpr (h row hrow))
  · rw [if_pos (Nat.not_le.mp hfits)]
    constructor
    · intro h
      cases h
    · exact fun h => absurd h.1 hfits

/-- Two rows of two pixels of 16 bits; only the high byte of the second row goes down. -/
theorem applyTiffPredictor_iff_wide :
    applyTiffPredictor
        ([[0x0102, 0x0304], [0x0505, 0x0406]].flatMap fun row =>
          packRow { bitsPerComponent := 16, columns := 2 }
            (componentDifferences { bitsPerComponent := 16, columns := 2 } row))
        { bitsPerComponent := 16, columns := 2 } 8
      = .ok ([[0x0102, 0x0304], [0x0505, 0x0406]].flatMap
        (packRow { bitsPerComponent := 16, columns := 2 })) :=
  (applyTiffPredictor_iff ⟨by decide, by decide, by decide, by decide, by decide, by decide⟩
    (by decide) (fun row hrow => by
      rcases List.mem_cons.mp hrow with rfl | hrow
      · exact ⟨rfl, by decide⟩
      · rw [List.mem_singleton.mp hrow]
        exact ⟨rfl, by decide⟩) 8).mpr ⟨by decide, fun row hrow => by
      unfold TiffExact
      rw [if_pos rfl]
      rcases List.mem_cons.mp hrow with rfl | hrow
      · decide
      · rw [List.mem_singleton.mp hrow]
        decide⟩

/-- A row of two 4-bit samples 1 and 2 comes back as 1 and 1, and a 16-bit sample that goes from 255
to 256 comes back as 0. -/
theorem applyTiffPredictor_fails :
    applyTiffPredictor (packRow { bitsPerComponent := 4, columns := 2 }
        (componentDifferences { bitsPerComponent := 4, columns := 2 } [1, 2]))
        { bitsPerComponent := 4, columns := 2 } 1
      ≠ .ok (packRow { bitsPerComponent := 4, columns := 2 } [1, 2]) ∧
    applyTiffPredictor (packRow { bitsPerComponent := 16, columns := 2 }
        (componentDifferences { bitsPerComponent := 16, columns := 2 } [255, 256]))
        { bitsPerComponent := 16, columns := 2 } 4
      ≠ .ok (packRow { bitsPerComponent := 16, columns := 2 } [255, 256]) := by
  constructor
  · intro h
    have hbytes : ([0x11] : Bytes) = [0x12] := Except.ok.inj h
    revert hbytes
    decide
  · intro h
    have hbytes : ([0x00, 0xff, 0x00, 0x00] : Bytes) = [0x00, 0xff, 0x01, 0x00] := Except.ok.inj h
    revert hbytes
    decide

end Pdfv
