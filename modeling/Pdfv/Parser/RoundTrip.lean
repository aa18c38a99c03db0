import Pdfv.Parser.PrintedObjects
/-!
# The object parser reads canonical texts

`parseObject` on the canonical text of an object: printed text without reals. Everything is read back,
except where an integer stands before a number that does not fit a generation. `separated` says that
this happens in no array; it is exactly when the round trip succeeds (`parseObject_text_iff`).
-/

namespace Pdfv

open Loop Fallible

/-! ## Numbers that follow an integer -/

namespace CosObject

/-- The non-negative number that the text of an object starts with. -/
def leadingNumber : CosObject → Option Nat
  | .integer value => if 0 ≤ value then some value.natAbs else none
  | .reference key => some key.number
  | _ => none

/-- An integer before a number that is no generation. -/
def clashes (value next : CosObject) : Bool :=
  value.isInteger && next.leadingNumber.any (u16Size ≤ ·)

end CosObject

mutual

/-- No array in the object has an integer directly before a number that is no generation. -/
def separated : CosObject → Bool
  | .array values => separatedItems values
  | .dictionary entries => separatedEntries entries
  | _ => true

/-- The same for the elements of an array. -/
def separatedItems : List CosObject → Bool
  | [] => true
  | value :: rest =>
    separated value && !(rest.head?.any value.clashes) && separatedItems rest

/-- The same for the values of a dictionary. -/
def separatedEntries : List (PdfName × CosObject) → Bool
  | [] => true
  | entry :: rest => separatedEntry entry && separatedEntries rest

/-- The same for one entry. -/
def separatedEntry : PdfName × CosObject → Bool
  | (_, value) => separated value

end

/-! ## Canonical texts as printed texts -/

/-- The canonical syntax has no reals. -/
def noRealText (_ : F64) : Bytes := []

theorem objectText_eq (object : CosObject) : objectText object = printedText noRealText object := by
  induction object using CosObject.nestedInduction with
  | hboolean b => cases b <;> rfl
  | harray values ih =>
    have hitems : itemsText values = printedItems noRealText values := by
      induction values with
      | nil => rfl
      | cons value values ihvalues =>
        rw [itemsText, printedItems, ih value List.mem_cons_self,
          ihvalues fun v hv => ih v (List.mem_cons_of_mem _ hv)]
    rw [objectText, printedText, hitems]
  | hdictionary entries ih =>
    have hentries : entriesText entries = printedEntries noRealText entries := by
      induction entries with
      | nil => rfl
      | cons entry entries ihentries =>
        rw [entriesText, printedEntries, entryText, printedEntry, ih entry List.mem_cons_self,
          ihentries fun e he => ih e (List.mem_cons_of_mem _ he)]
    rw [objectText, printedText, hentries]
  | hnull | hinteger | hreal | hname | hstring | hreference | hstream => rfl

theorem CosObject.clashes_eq (value next : CosObject) :
    value.clashes next = clashesWith noRealText value next := by
  cases next <;> rfl

theorem separated_eq (object : CosObject) : separated object = apart noRealText object := by
  induction object using CosObject.nestedInduction with
  | harray values ih =>
    have hitems : separatedItems values = apartItems noRealText values := by
      induction values with
      | nil => rfl
      | cons value values ihvalues =>
        rw [separatedItems, apartItems, ih value List.mem_cons_self,
          ihvalues fun v hv => ih v (List.mem_cons_of_mem _ hv), funext value.clashes_eq]
    rw [separated, apart, hitems]
  | hdictionary entries ih =>
    have hentries : separatedEntries entries = apartEntries noRealText entries := by
      induction entries with
      | nil => rfl
      | cons entry entries ihentries =>
        rw [separatedEntries, apartEntries, separatedEntry, apartEntry, ih entry List.mem_cons_self,
          ihentries fun e he => ih e (List.mem_cons_of_mem _ he)]
    rw [separated, apart, hentries]
  | hnull | hboolean | hinteger | hreal | hname | hstring | hreference | hstream => rfl

theorem Fits.printable {limits : ResourceLimits} {depth : Nat} {object : CosObject}
    (h : Fits limits depth object) : Printable noRealText limits depth object := by
  induction h with
  | null hdepth => exact .null hdepth
  | boolean hdepth value => exact .boolean hdepth value
  | integer hdepth hmin hmax => exact .integer hdepth hmin hmax
  | name hdepth hlength => exact .name hdepth hlength
  | string hdepth hlength => exact .string hdepth hlength
  | reference hdepth key => exact .reference hdepth key
  | array hdepth hlength _ ih => exact .array hdepth hlength ih
  | dictionary hdepth hlength hsorted hnames _ ih =>
    exact .dictionary hdepth hlength hsorted hnames ih

/-! ## The round trip -/

/-- The canonical text of an object within the limits is read back, up to its end, exactly when no
integer in it clashes with the number after it. -/
theorem parseObject_text_iff {limits : ResourceLimits} {object : CosObject}
    (hfits : Fits limits 0 object) (threshold : Nat) :
    (SourceStorage.fromSource (objectText object) threshold).reader.parseObject limits 0 0
        = .ok (object, (objectText object).length)
      ↔ separated object = true := by
  rw [objectText_eq, separated_eq, reader_fromSource _ threshold]
  exact parseObject_printed_iff hfits.printable

/-- A nested array with two numbers and a reference, and a name that needs escapes. -/
def sampleArray : CosObject :=
  .array [.array [.integer (-5), .integer 7, .reference (.ofNumber 3)],
    .name ⟨[65, 32, 35]⟩]

theorem sampleArray_fits : Fits {} 0 sampleArray := by
  refine .array (by decide) (by decide) fun value hvalue => ?_
  simp only [List.mem_cons, List.not_mem_nil, or_false] at hvalue
  rcases hvalue with rfl | rfl
  · refine .array (by decide) (by decide) fun value hvalue => ?_
    simp only [List.mem_cons, List.not_mem_nil, or_false] at hvalue
    rcases hvalue with rfl | rfl | rfl
    · exact .integer (by decide) (by decide) (by decide)
    · exact .integer (by decide) (by decide) (by decide)
    · exact .reference (by decide) _
  · exact .name (by decide) (by decide)

theorem parseObject_text_iff_sample :
    (SourceStorage.fromSource (objectText sampleArray) 0).reader.parseObject {} 0 0
      = .ok (sampleArray, (objectText sampleArray).length) :=
  (parseObject_text_iff sampleArray_fits 0).mpr (by decide)

/-- `[1 65536]`: two numbers that start no reference. -/
def clashingArray : CosObject :=
  .array [.integer 1, .integer 65536]

/-- The text `[1 65536]` is within the limits, and it is not read. -/
theorem parseObject_text_counterexample :
    Fits {} 0 clashingArray ∧ objectText clashingArray = utf8 "[1 65536]"
      ∧ (readerOf (objectText clashingArray)).parseObject {} 0 0
        ≠ .ok (clashingArray, (objectText clashingArray).length) := by
  refine ⟨?_, by decide, fun hread => ?_⟩
  · refine .array (by decide) (by decide) fun value hvalue => ?_
    simp only [List.mem_cons, List.not_mem_nil, or_false] at hvalue
    rcases hvalue with rfl | rfl
    · exact .integer (by decide) (by decide) (by decide)
    · exact .integer (by decide) (by decide) (by decide)
  · have herror : ((readerOf (objectText clashingArray)).parseObject {} 0 0).isOk = false := by
      decide +kernel
    rw [hread] at herror
    cases herror

end Pdfv
