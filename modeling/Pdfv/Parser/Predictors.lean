import Pdfv.Basic.Rows
import Pdfv.Parser.Filters
import Mathlib.Data.List.MinMax
/-!
# PNG predictors

PNG filtering of an image row after row (`pngFiltered`), with the five filter kinds of the format and
zero outside the image, and that `apply_png_predictor` undoes it. The loop of the decoder has always
put out the image up to the byte it is at, so each byte it looks back at is there and is the byte of
the image that the filter subtracted.
-/

namespace Pdfv

open Fallible Rows

/-! ## Geometry -/

/-- A geometry that the predictors take: no entry is zero, and each has the width of its field. -/
structure DecodeParams.Geometry (params : DecodeParams) : Prop where
  colors_pos : 1 ≤ params.colors
  bits_pos : 1 ≤ params.bitsPerComponent
  columns_pos : 1 ≤ params.columns
  colors_lt : params.colors < u16Size
  bits_lt : params.bitsPerComponent < u16Size
  columns_lt : params.columns < u32Size

/-- The bytes of a row of samples. -/
def DecodeParams.rowBytes (params : DecodeParams) : Nat :=
  (params.colors * params.bitsPerComponent * params.columns + 7) / 8

/-- The bytes a pixel takes up, rounded up. -/
def DecodeParams.pixelBytes (params : DecodeParams) : Nat :=
  (params.colors * params.bitsPerComponent + 7) / 8

namespace DecodeParams.Geometry

variable {params : DecodeParams}

theorem pixelBits_pos (h : params.Geometry) : 0 < params.colors * params.bitsPerComponent :=
  Nat.mul_pos h.colors_pos h.bits_pos

theorem pixelBytes_pos (h : params.Geometry) : 0 < params.pixelBytes := by
  have hbits := h.pixelBits_pos
  unfold pixelBytes
  omega

theorem rowBytes_pos (h : params.Geometry) : 0 < params.rowBytes := by
  have hbits := Nat.mul_pos h.pixelBits_pos h.columns_pos
  unfold rowBytes
  omega

/-- No product of the three entries overflows. -/
theorem bits_fit (h : params.Geometry) :
    params.colors * params.bitsPerComponent + 7 < u64Size ∧
      params.colors * params.bitsPerComponent * params.columns + 7 < u64Size := by
  have hpixel : params.colors * params.bitsPerComponent ≤ (u16Size - 1) * (u16Size - 1) :=
    Nat.mul_le_mul (Nat.le_sub_one_of_lt h.colors_lt) (Nat.le_sub_one_of_lt h.bits_lt)
  have hrow : params.colors * params.bitsPerComponent * params.columns
      ≤ (u16Size - 1) * (u16Size - 1) * (u32Size - 1) :=
    Nat.mul_le_mul hpixel (Nat.le_sub_one_of_lt h.columns_lt)
  simp only [u16Size, u32Size, u64Size] at *
  omega

theorem predictorGeometry_eq (h : params.Geometry) :
    predictorGeometry params = .ok (params.rowBytes, params.pixelBytes) := by
  obtain ⟨hpixel, hrow⟩ := h.bits_fit
  have hcolors := h.colors_pos
  have hbits := h.bits_pos
  have hcolumns := h.columns_pos
  have hpos : max params.pixelBytes 1 = params.pixelBytes := Nat.max_eq_left h.pixelBytes_pos
  unfold predictorGeometry
  rw [if_neg (by simp; omega)]
  simp only [checkedU64, if_pos hpixel, if_pos hrow,
    if_pos (show params.colors * params.bitsPerComponent * params.columns < u64Size by omega),
    if_pos (show params.colors * params.bitsPerComponent < u64Size by omega), ok_bind]
  exact congrArg (fun pixel => Except.ok (params.rowBytes, pixel)) hpos

end DecodeParams.Geometry

/-! ## The filter kinds -/

/-- The filter kinds of PNG. -/
inductive PngFilter where
  | none
  | sub
  | up
  | average
  | paeth

namespace PngFilter

/-- The byte in front of a row that names its filter. -/
def code : PngFilter → UInt8
  | none => 0
  | sub => 1
  | up => 2
  | average => 3
  | paeth => 4

/-- The prediction of a byte from the byte of the pixel to its left, the byte above and the byte of
the pixel above and to the left. Paeth takes the first of the three that is nearest to their linear
estimate. -/
def prediction : PngFilter → UInt8 → UInt8 → UInt8 → UInt8
  | none, _, _, _ => 0
  | sub, left, _, _ => left
  | up, _, above, _ => above
  | average, left, above, _ => UInt8.ofNat ((left.toNat + above.toNat) / 2)
  | paeth, left, above, aboveLeft =>
    let estimate : Int := left.toNat + above.toNat - aboveLeft.toNat
    ([left, above, aboveLeft].argmin fun b => (estimate - b.toNat).natAbs).getD 0

end PngFilter

theorem argmin_three {α : Type} (f : α → Nat) (a b c : α) :
    [a, b, c].argmin f = some (if f a ≤ f b ∧ f a ≤ f c then a else if f b ≤ f c then b else c) := by
  rw [List.argmin_cons, List.argmin_cons, List.argmin_singleton]
  by_cases hcb : f c < f b
  · simp only [hcb, if_true]
    grind
  · simp only [hcb, if_false]
    grind

/-- Decoding adds the prediction. -/
theorem pngPredictorValue_eq (filter : PngFilter) (raw left up upLeft : UInt8) :
    pngPredictorValue filter.code raw left up upLeft
      = .ok (raw + filter.prediction left up upLeft) := by
  cases filter with
  | none => simp [pngPredictorValue, PngFilter.code, PngFilter.prediction]
  | sub => simp [pngPredictorValue, PngFilter.code, PngFilter.prediction]
  | up => simp [pngPredictorValue, PngFilter.code, PngFilter.prediction]
  | average => simp [pngPredictorValue, PngFilter.code, PngFilter.prediction]
  | paeth =>
    simp only [PngFilter.prediction, argmin_three, Option.getD_some]
    simp [pngPredictorValue, PngFilter.code, paethPredictor]

/-! ## Filtering an image -/

/-- A byte of the image; zero outside. -/
def imageByte (rows : List Bytes) (row column : Int) : UInt8 :=
  if 0 ≤ row ∧ 0 ≤ column then (((rows[row.toNat]?).getD [])[column.toNat]?).getD 0 else 0

/-- A byte of a filtered row: the byte of the image less its prediction, modulo 256. -/
def pngFilteredByte (pixelBytes : Nat) (rows : List Bytes) (filter : PngFilter) (row column : Nat) :
    UInt8 :=
  imageByte rows row column - filter.prediction (imageByte rows row (column - pixelBytes))
    (imageByte rows (row - 1) column) (imageByte rows (row - 1) (column - pixelBytes))

/-- The name of the filter and the filtered row. -/
def pngFilteredRow (params : DecodeParams) (rows : List Bytes) (filter : PngFilter) (row : Nat) :
    Bytes :=
  filter.code ::
    (List.range params.rowBytes).map (pngFilteredByte params.pixelBytes rows filter row)

/-- The filtered image; `filters` chooses the filter of each row. -/
def pngFiltered (params : DecodeParams) (rows : List Bytes) (filters : Nat → PngFilter) : Bytes :=
  ((List.range rows.length).map fun row =>
    pngFilteredRow params rows (filters row) row).flatten

/-! ## Decoding -/

/-- A byte that is there is found. -/
theorem backByte_take {image : Bytes} {k distance : Nat} (hpos : 0 < distance) (hle : distance ≤ k)
    (hk : k ≤ image.length) (missing : String) :
    backByte (image.take k) distance missing = .ok ((image[k - distance]?).getD 0) := by
  have hlength : (image.take k).length = k := List.length_take_of_le hk
  have hlt : k - distance < image.length := by omega
  unfold backByte
  rw [if_pos (by omega), hlength, List.getElem?_take_of_lt (by omega),
    List.getElem?_eq_getElem hlt]
  rfl

section Image

variable {params : DecodeParams} {rows : List Bytes} (hrows : Uniform params.rowBytes rows)
include hrows

/-- A byte of the image by its place in the buffer. -/
theorem imageByte_eq {row column : Nat} (hrow : row < rows.length)
    (hcolumn : column < params.rowBytes) :
    imageByte rows row column = (rows.flatten[row * params.rowBytes + column]?).getD 0 := by
  have hget : rows[row]? = some rows[row] := List.getElem?_eq_getElem hrow
  rw [hrows.getElem?_flatten hget hcolumn, imageByte, if_pos ⟨by omega, by omega⟩]
  simp [hget]

/-- What the decoder adds to the filtered byte is what the filter subtracted. -/
theorem pngRowLoop_byte (hparams : params.Geometry) (filter : PngFilter) {row column : Nat}
    (hrow : row < rows.length) (hcolumn : column < params.rowBytes) (rest : Bytes) :
    pngRowLoop filter.code params.rowBytes params.pixelBytes (decide (row = 0)) column
        (pngFilteredByte params.pixelBytes rows filter row column :: rest)
        (rows.flatten.take (row * params.rowBytes + column))
      = pngRowLoop filter.code params.rowBytes params.pixelBytes (decide (row = 0)) (column + 1) rest
        (rows.flatten.take (row * params.rowBytes + (column + 1))) := by
  have hpixel := hparams.pixelBytes_pos
  have hlength := hrows.length_flatten
  have hplace : row * params.rowBytes + column < rows.flatten.length := by
    rw [hlength]
    calc row * params.rowBytes + column < row * params.rowBytes + params.rowBytes := by omega
      _ = (row + 1) * params.rowBytes := (Nat.succ_mul row _).symm
      _ ≤ rows.length * params.rowBytes := Nat.mul_le_mul_right _ hrow
  have hleft : neighbourByte (params.pixelBytes ≤ column)
      (rows.flatten.take (row * params.rowBytes + column)) params.pixelBytes
      "PNG predictor left byte missing"
        = .ok (imageByte rows row (column - params.pixelBytes)) := by
    unfold neighbourByte
    by_cases hinside : params.pixelBytes ≤ column
    · have hat : row * params.rowBytes + column - params.pixelBytes
          = row * params.rowBytes + (column - params.pixelBytes) := by omega
      rw [if_pos (by simp [hinside]), backByte_take hpixel (by omega) hplace.le, hat,
        ← imageByte_eq hrows hrow (by omega), Int.ofNat_sub hinside]
    · rw [if_neg (by simp [hinside]), imageByte, if_neg (by omega)]
  have hup : neighbourByte (!decide (row = 0))
      (rows.flatten.take (row * params.rowBytes + column)) params.rowBytes
      "PNG predictor upper byte missing"
        = .ok (imageByte rows (row - 1) column) := by
    cases row with
    | zero => simp [neighbourByte, imageByte]
    | succ row =>
      have hat : (row + 1) * params.rowBytes + column - params.rowBytes
          = row * params.rowBytes + column := by rw [Nat.succ_mul]; omega
      rw [neighbourByte, if_pos (by simp), backByte_take hparams.rowBytes_pos (by rw [Nat.succ_mul]; omega)
        hplace.le, hat, ← imageByte_eq hrows (by omega) hcolumn]
      simp
  have hupLeft : neighbourByte (!decide (row = 0) && params.pixelBytes ≤ column)
      (rows.flatten.take (row * params.rowBytes + column)) (params.rowBytes + params.pixelBytes)
      "PNG predictor upper-left byte missing"
        = .ok (imageByte rows (row - 1) (column - params.pixelBytes)) := by
    unfold neighbourByte
    by_cases hinside : params.pixelBytes ≤ column
    · cases row with
      | zero => simp [imageByte]
      | succ row =>
        have hat : (row + 1) * params.rowBytes + column - (params.rowBytes + params.pixelBytes)
            = row * params.rowBytes + (column - params.pixelBytes) := by rw [Nat.succ_mul]; omega
        rw [if_pos (by simp [hinside]), backByte_take (by omega) (by rw [Nat.succ_mul]; omega)
          hplace.le, hat, ← imageByte_eq hrows (by omega) (by omega), Int.ofNat_sub hinside]
        simp
    · rw [if_neg (by simp [hinside]), imageByte, if_neg (by omega)]
  have hnext : rows.flatten.take (row * params.rowBytes + column) ++ [imageByte rows row column]
      = rows.flatten.take (row * params.rowBytes + (column + 1)) := by
    rw [imageByte_eq hrows hrow hcolumn, List.getElem?_eq_getElem hplace, Option.getD_some,
      ← Nat.add_assoc, List.take_concat_get']
  rw [pngRowLoop, hleft, ok_bind, hup, ok_bind, hupLeft, ok_bind, pngPredictorValue_eq, ok_bind,
    pngFilteredByte, UInt8.sub_add_cancel, hnext]

/-- The columns from one on complete the row. -/
theorem pngRowLoop_row (hparams : params.Geometry) (filter : PngFilter) {row : Nat}
    (hrow : row < rows.length) (left column : Nat) (hcount : column + left = params.rowBytes) :
    pngRowLoop filter.code params.rowBytes params.pixelBytes (decide (row = 0)) column
        ((List.range' column left).map (pngFilteredByte params.pixelBytes rows filter row))
        (rows.flatten.take (row * params.rowBytes + column))
      = .ok (rows.flatten.take ((row + 1) * params.rowBytes)) := by
  induction left generalizing column with
  | zero =>
    rw [Nat.add_zero] at hcount
    rw [hcount, ← Nat.succ_mul]
    rfl
  | succ left ih =>
    rw [List.range'_succ, List.map_cons,
      pngRowLoop_byte hrows hparams filter hrow (by omega)]
    exact ih (column + 1) (by omega)

/-- The rows from one on complete the image. -/
theorem pngRowsLoop_rows (hparams : params.Geometry) (filters : Nat → PngFilter) (left row : Nat)
    (hcount : row + left = rows.length) :
    pngRowsLoop params.rowBytes params.pixelBytes
        ((List.range' row left).map fun row => pngFilteredRow params rows (filters row) row)
        (decide (row = 0)) (rows.flatten.take (row * params.rowBytes))
      = .ok rows.flatten := by
  induction left generalizing row with
  | zero =>
    rw [Nat.add_zero] at hcount
    rw [hcount, ← hrows.length_flatten, List.take_length]
    rfl
  | succ left ih =>
    have hrow := pngRowLoop_row hrows hparams (filters row)
      (show row < rows.length by omega) params.rowBytes 0 (Nat.zero_add _)
    rw [← List.range_eq_range', Nat.add_zero] at hrow
    rw [List.range'_succ, List.map_cons, pngFilteredRow, pngRowsLoop]
    simp only [hrow, ok_bind]
    exact ih (row + 1) (by omega)

end Image

/-- A buffer of rows is taken apart into the rows. -/
theorem rowsOf_flatten {width : Nat} {rows : List Bytes} (hwidth : 0 < width)
    (hrows : Uniform width rows) : rowsOf width rows.flatten = rows := by
  unfold rowsOf
  rw [hrows.length_flatten, Nat.mul_div_cancel _ hwidth]
  apply List.ext_getElem
  · simp
  · intro row _ hrow
    rw [List.getElem_map, List.getElem_range]
    exact hrows.row (List.getElem?_eq_getElem hrow)

/-- PNG predictor decoding inverts PNG filtering, for every geometry and every choice of filters: no
byte the decoder looks back at is missing, and the image comes back. -/
theorem applyPngPredictor_inverts {params : DecodeParams} (hparams : params.Geometry)
    {rows : List Bytes} (hrows : ∀ row ∈ rows, row.length = params.rowBytes)
    (filters : Nat → PngFilter) {maxDecodeBytes : Nat} (hfits : rows.flatten.length ≤ maxDecodeBytes) :
    applyPngPredictor (pngFiltered params rows filters) params maxDecodeBytes = .ok rows.flatten := by
  have hfiltered : Uniform (params.rowBytes + 1) ((List.range rows.length).map fun row =>
      pngFilteredRow params rows (filters row) row) := by
    intro row hrow
    obtain ⟨i, -, rfl⟩ := List.mem_map.mp hrow
    simp [pngFilteredRow]
  have hlength : (pngFiltered params rows filters).length
      = rows.length * (params.rowBytes + 1) := by
    rw [pngFiltered, hfiltered.length_flatten, List.length_map, List.length_range]
  have hwhole : ¬ (pngFiltered params rows filters).length % (params.rowBytes + 1) ≠ 0 := by
    rw [hlength, Nat.mul_mod_left]
    exact fun h => h rfl
  have hlimit : enforceDecodedLen ((pngFiltered params rows filters).length
      / (params.rowBytes + 1) * params.rowBytes) maxDecodeBytes = .ok () := by
    rw [hlength, Nat.mul_div_cancel _ (Nat.succ_pos _), ← Uniform.length_flatten hrows]
    exact if_neg (Nat.not_lt.mpr hfits)
  have hrun := pngRowsLoop_rows hrows hparams filters rows.length 0 (Nat.zero_add _)
  rw [Nat.zero_mul, List.take_zero, ← List.range_eq_range'] at hrun
  unfold applyPngPredictor
  rw [hparams.predictorGeometry_eq, ok_bind]
  dsimp only
  rw [if_neg hwhole, hlimit, ok_bind, pngFiltered, rowsOf_flatten (Nat.succ_pos _) hfiltered]
  exact hrun

/-- Two rows of two pixels of three 4-bit components, filtered by average and Paeth. -/
theorem applyPngPredictor_inverts_two :
    applyPngPredictor (pngFiltered { colors := 3, bitsPerComponent := 4, columns := 2 }
        [[200, 100, 50], [7, 255, 9]] fun row => if row = 0 then .average else .paeth)
      { colors := 3, bitsPerComponent := 4, columns := 2 } 6
      = .ok [200, 100, 50, 7, 255, 9] :=
  applyPngPredictor_inverts ⟨by decide, by decide, by decide, by decide, by decide, by decide⟩
    (by decide) _ (by decide)

end Pdfv
