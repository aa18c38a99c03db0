import Mathlib.Data.List.Nodup
import Pdfv.Content.PrintRoundTrip
/-!
# Inline images

The text `BI dictionary ID data EI` of an inline image, and what the pass over it leaves in the state of the
summary: the fact with the entries of the dictionary, and the position after `EI`. The filters of an array
are not recorded, so the pass is right exactly when the filter is no array with an element
(`inlineImage_iff`).
-/

namespace Pdfv

open Loop Fallible

/-! ## Dictionaries of images -/

/-- An entry of an image dictionary, with the text that spells its value. -/
structure ImageEntry where
  key : PdfName
  value : CosObject
  text : Bytes

/-- The keys that have an abbreviation. -/
def imageKeys : List (String × String) :=
  [("W", "Width"), ("H", "Height"), ("BPC", "BitsPerComponent"), ("CS", "ColorSpace"), ("F", "Filter"),
    ("D", "Decode"), ("DP", "DecodeParms"), ("IM", "ImageMask"), ("I", "Interpolate")]

/-- The full name of a key. -/
def fullKey (key : String) : String :=
  (imageKeys.lookup key).getD key

def ImageEntry.label (entry : ImageEntry) : String :=
  utf8Lossy entry.key.bytes

/-- What an entry is about, by the full name of its key. -/
def ImageEntry.property (entry : ImageEntry) : String :=
  fullKey entry.label

/-- The entry as the tokenizer keeps it. -/
def ImageEntry.read (entry : ImageEntry) : String × Operand :=
  (entry.label, readOperand entry.value entry.text)

/-- The texts of an image dictionary up to `ID`: keys and values, with white space and comments wherever a
token would go on without. -/
inductive ImageDictionary (depth : Nat) : List ImageEntry → Bytes → Prop where
  | id {gap : Bytes} (hgap : TokenGap gap) : ImageDictionary depth [] (gap ++ utf8 "ID")
  | entry {gap keyText between rest : Bytes} {entry : ImageEntry} {entries : List ImageEntry}
    (hgap : TokenGap gap) (hkey : NameText entry.key.bytes keyText) (hbetween : TokenGap between)
    (hkeyEnds : EndsToken (between ++ (entry.text ++ rest))) (hvalue : Spells depth (.value entry.value) entry.text)
    (hvalueEnds : EndsToken rest) (hrest : ImageDictionary depth entries rest) :
    ImageDictionary depth (entry :: entries)
      (gap ++ ((47 :: keyText) ++ (between ++ (entry.text ++ rest))))

theorem ImageDictionary.ne {depth : Nat} {entries : List ImageEntry} {text : Bytes}
    (h : ImageDictionary depth entries text) : text ≠ [] := by
  cases h with
  | id => exact List.append_ne_nil_of_right_ne_nil _ (by decide)
  | entry => exact List.append_ne_nil_of_right_ne_nil _ (List.cons_ne_nil _ _)

theorem EndsToken.append {text : Bytes} (h : EndsToken text) (hne : text ≠ []) (more : Bytes) :
    EndsToken (text ++ more) := by
  obtain ⟨b, rest, rfl⟩ := List.exists_cons_of_ne_nil hne
  exact h

/-- The limits on the key and the value of an entry. -/
def ImageEntry.Fits (limits : ResourceLimits) (entry : ImageEntry) : Prop :=
  entry.key.bytes.length ≤ limits.maxNameBytes ∧ OperandFits limits entry.value entry.text

section Entries

variable {bytes : Bytes} {limits : ResourceLimits} {pos : Nat}

theorem operatorText_id : OperatorText "ID" :=
  pdfOperators_text "ID" (by decide)

/-- The pass over a key. -/
theorem inlineStep_key {name : PdfName} {next : Nat} {values : List (String × Operand)}
    (htoken : ContentTokenizer.nextToken bytes limits pos = .ok (some (.operand (.name name)), next)) :
    ContentTokenizer.inlineStep bytes limits ⟨pos, values, none⟩ = .next ⟨next, values, some name⟩ := by
  unfold ContentTokenizer.inlineStep
  dsimp only
  rw [htoken]

/-- The pass over a value. -/
theorem inlineStep_value {name : PdfName} {operand : Operand} {next : Nat} {values : List (String × Operand)}
    (htoken : ContentTokenizer.nextToken bytes limits pos = .ok (some (.operand operand), next)) :
    ContentTokenizer.inlineStep bytes limits ⟨pos, values, some name⟩
      = .next ⟨next, (utf8Lossy name.bytes, operand) :: values, none⟩ := by
  unfold ContentTokenizer.inlineStep
  dsimp only
  rw [htoken]
  cases operand <;> rfl

/-- The loop over the entries of a dictionary ends behind `ID`, with every entry. -/
theorem ImageDictionary.endsIn {depth : Nat} {entries : List ImageEntry} {text more : Bytes}
    (h : ImageDictionary depth entries text) (hat : At bytes pos (text ++ more)) (hmore : EndsToken more)
    (hdepth : depth ≤ limits.maxObjectDepth) (hfits : ∀ entry ∈ entries, entry.Fits limits)
    (hop : 2 ≤ limits.maxContentStreamOperatorNameBytes) (values : List (String × Operand)) :
    ∃ n ≤ text.length, EndsIn (ContentTokenizer.inlineStep bytes limits) n ⟨pos, values, none⟩
      (.ok ⟨pos + text.length, (entries.map ImageEntry.read).reverse ++ values, none⟩) := by
  induction h generalizing pos values with
  | @id gap hgap =>
    have hlength : (utf8 "ID").length = 2 := by
      decide
    have hlimit : (utf8 "ID").length ≤ limits.maxContentStreamOperatorNameBytes := by omega
    rw [List.append_assoc] at hat
    have htoken := hat.nextToken_operator hgap operatorText_id hlimit hmore
    have hstep : ContentTokenizer.inlineStep bytes limits ⟨pos, values, none⟩
        = .done (.ok ⟨pos + gap.length + (utf8 "ID").length, values, none⟩) := by
      unfold ContentTokenizer.inlineStep
      dsimp only
      rw [htoken]
      rfl
    refine ⟨1, by rw [List.length_append]; omega, ?_⟩
    rw [List.length_append, ← Nat.add_assoc]
    exact .done hstep
  | @entry gap keyText between rest entry entries hgap hkey hbetween hkeyEnds hvalue hvalueEnds hrest ih =>
    obtain ⟨hkeyFits, hvalueFits⟩ := hfits entry List.mem_cons_self
    have hnonempty : between ++ (entry.text ++ rest) ≠ [] :=
      List.append_ne_nil_of_right_ne_nil _ (List.append_ne_nil_of_right_ne_nil _ hrest.ne)
    have hatKey : At bytes pos (gap ++ ((47 :: keyText) ++ ((between ++ (entry.text ++ rest)) ++ more))) := by
      simpa using hat
    have hspells : Spells depth (.value (.name entry.key)) (47 :: keyText) := .name depth hkey
    have hreadKey := hatKey.nextToken_value hgap hspells hdepth hkeyFits (hkeyEnds.append hnonempty more)
    have hatValue : At bytes (pos + gap.length + (47 :: keyText).length)
        (between ++ (entry.text ++ (rest ++ more))) := by
      simpa using hatKey.skip.skip
    have hreadValue := hatValue.nextToken_value hbetween hvalue hdepth hvalueFits
      (hvalueEnds.append hrest.ne more)
    obtain ⟨n, hn, hends⟩ := ih hatValue.skip.skip (fun other hother => hfits other (List.mem_cons_of_mem _ hother))
      (entry.read :: values)
    have hlength : pos + (gap ++ ((47 :: keyText) ++ (between ++ (entry.text ++ rest)))).length
        = pos + gap.length + (47 :: keyText).length + between.length + entry.text.length + rest.length := by
      simp only [List.length_append]
      omega
    refine ⟨n + 1 + 1, ?_, ?_⟩
    · have htext := List.length_pos_iff.mpr (hvalue.startsText []).1
      simp only [List.length_append, List.length_cons]
      omega
    · rw [hlength, List.map_cons, List.reverse_cons, List.append_assoc]
      exact .next (inlineStep_key hreadKey) (.next (inlineStep_value hreadValue) hends)

/-! ## Data -/

/-- The data of an image up to the first `EI` that ends it: white space before it, and white space, a
delimiter or the end after it. -/
structure ImageData (ws : UInt8) (data rest : Bytes) : Prop where
  space : isWs ws = true
  last : ∃ init b, ws :: data = init ++ [b] ∧ isWs b = true
  ends : EndsToken rest
  first : ∀ init b post, ws :: (data ++ 69 :: 73 :: rest) = init ++ b :: 69 :: 73 :: post → isWs b = true →
    EndsToken post → data.length ≤ init.length

theorem endsToken_all {rest : Bytes} :
    EndsToken rest ↔ rest.head?.all (fun b => isWs b || isDelimiter b) = true := by
  unfold EndsToken isRegularByte
  cases rest.head? with
  | none => simp
  | some b =>
    rw [Option.all_some]
    constructor
    · intro h
      have hb := h b rfl
      cases hws : isWs b <;> cases hdelimiter : isDelimiter b <;> simp_all
    · rintro h c hc
      cases hc
      cases hws : isWs b <;> cases hdelimiter : isDelimiter b <;> simp_all

/-- The test for the end of the data, at a byte that comes after another one. -/
theorem inlineDataStep_end {start : Nat} {b : UInt8} {rest : Bytes} (h : At bytes pos (b :: 69 :: 73 :: rest))
    (hb : isWs b = true) (hrest : EndsToken rest) (hsize : pos + 1 - start ≤ limits.maxInlineImageBytes) :
    ContentTokenizer.inlineDataStep bytes limits start (pos + 1) = .done (.ok (pos + 1 + 2)) := by
  have hlen := h.length
  simp only [List.length_cons] at hlen
  have hbefore : bytes[pos + 1 - 1]? = some b := h.get
  have he : bytes[pos + 1]? = some 69 := h.next.get
  have hi : bytes[pos + 1 + 1]? = some 73 := h.next.next.get
  have hafter : bytes[pos + 1 + 2]? = rest.head? := h.next.next.next.get
  unfold ContentTokenizer.inlineDataStep
  rw [if_neg (by omega), if_neg (by omega), if_pos]
  rw [hbefore, he, hi, hafter]
  exact ⟨rfl, rfl, by omega, hb, endsToken_all.mp hrest⟩

/-- The test fails at a byte of the data. -/
theorem inlineDataStep_data {start : Nat} {b : UInt8} {more : Bytes} (h : At bytes pos (b :: more))
    (hmore : more ≠ []) (hnot : ∀ post, more = 69 :: 73 :: post → isWs b = true → ¬ EndsToken post)
    (hsize : pos + 1 - start ≤ limits.maxInlineImageBytes) :
    ContentTokenizer.inlineDataStep bytes limits start (pos + 1) = .next (pos + 1 + 1) := by
  have hlen := h.length
  have hpos := List.length_pos_iff.mpr hmore
  rw [List.length_cons] at hlen
  unfold ContentTokenizer.inlineDataStep
  rw [if_neg (by omega), if_neg (by omega), if_neg]
  rintro ⟨he, hi, -, hws, hall⟩
  have hbefore : bytes[pos + 1 - 1]? = some b := h.get
  rw [h.next.get] at he
  obtain ⟨c, tail, rfl⟩ := List.exists_cons_of_ne_nil hmore
  cases he
  have hi' : tail.head? = some 73 := by
    rw [← h.next.next.get]
    exact hi
  obtain ⟨post, rfl⟩ : ∃ post, tail = 73 :: post := by
    cases tail with
    | nil => cases hi'
    | cons d post =>
      cases hi'
      exact ⟨post, rfl⟩
  rw [hbefore] at hws
  have hafter : bytes[pos + 1 + 2]? = post.head? := h.next.next.next.get
  rw [hafter] at hall
  exact hnot post rfl hws (endsToken_all.mpr hall)

/-- The loop over the data ends behind the closing `EI`. -/
theorem inlineData_endsIn {start : Nat} {b : UInt8} {data rest : Bytes}
    (h : At bytes pos (b :: (data ++ 69 :: 73 :: rest))) (hlast : ∃ init c, b :: data = init ++ [c] ∧ isWs c = true)
    (hrest : EndsToken rest)
    (hfirst : ∀ init c post, b :: (data ++ 69 :: 73 :: rest) = init ++ c :: 69 :: 73 :: post → isWs c = true →
      EndsToken post → data.length ≤ init.length)
    (hsize : pos + 1 + data.length - start ≤ limits.maxInlineImageBytes) :
    EndsIn (ContentTokenizer.inlineDataStep bytes limits start) (data.length + 1) (pos + 1)
      (.ok (pos + 1 + data.length + 2)) := by
  induction data generalizing pos b with
  | nil =>
    obtain ⟨init, c, hsplit, hc⟩ := hlast
    have hb : isWs b = true := by
      cases init with
      | nil =>
        cases hsplit
        exact hc
      | cons d init => simp at hsplit
    exact .done (inlineDataStep_end h hb hrest hsize)
  | cons d data ih =>
    rw [List.length_cons] at hsize ⊢
    have hstep : ContentTokenizer.inlineDataStep bytes limits start (pos + 1) = .next (pos + 1 + 1) := by
      refine inlineDataStep_data h (List.cons_ne_nil _ _) (fun post hpost hb hends => ?_) (by omega)
      have hle := hfirst [] b post (by rw [hpost]; rfl) hb hends
      rw [List.length_nil, List.length_cons] at hle
      omega
    have hlast' : ∃ init c, d :: data = init ++ [c] ∧ isWs c = true := by
      obtain ⟨init, c, hsplit, hc⟩ := hlast
      cases init with
      | nil => simp at hsplit
      | cons e init =>
        rw [List.cons_append] at hsplit
        exact ⟨init, c, (List.cons.inj hsplit).2, hc⟩
    have hends := @ih (pos + 1) d h.next hlast'
      (fun init c post hsplit hc hends => by
        have hle := hfirst (b :: init) c post (congrArg (List.cons b) hsplit) hc hends
        rw [List.length_cons, List.length_cons] at hle
        omega)
      (by omega)
    have hstop : pos + 1 + (data.length + 1) + 2 = pos + 1 + 1 + data.length + 2 := by omega
    rw [hstop]
    exact .next hstep hends

/-- The data and its `EI`. -/
theorem ImageData.consume {ws : UInt8} {data rest : Bytes} (h : ImageData ws data rest)
    (hat : At bytes pos (ws :: (data ++ 69 :: 73 :: rest))) (hsize : data.length ≤ limits.maxInlineImageBytes) :
    ContentTokenizer.consumeInlineImageData bytes limits pos = .ok (pos + 1 + data.length + 2) := by
  have hlen := hat.length
  rw [List.length_cons, List.length_append] at hlen
  have hends := @inlineData_endsIn bytes limits pos (pos + 1) ws data rest hat h.last h.ends h.first (by omega)
  unfold ContentTokenizer.consumeInlineImageData
  dsimp only
  rw [hat.get, List.head?_cons, Option.any_some, h.space, if_pos rfl]
  exact hends.runLoop (by omega) _

end Entries

/-! ## The entries that are recorded -/

/-- The value of an entry, by the full name of its key. -/
def imageValue (entries : List ImageEntry) (property : String) : Option CosObject :=
  (entries.find? fun entry => entry.property = property).map ImageEntry.value

/-- A number that is not negative. -/
def sizeInValue (value : CosObject) : Option Nat :=
  match value with
  | .integer value => u64OfInt value
  | _ => none

/-- The filters that an image states: a name or the names of an array. -/
def filterNames (value : CosObject) : List PdfName :=
  match value with
  | .name name => [name]
  | .array values => values.filterMap nameInValue
  | _ => []

/-- The fact of an image, by its dictionary. -/
def imageFact (entries : List ImageEntry) (location : ObjectLocation) : OperatorFact :=
  .inlineImage ((imageValue entries "Width").bind sizeInValue) ((imageValue entries "Height").bind sizeInValue)
    ((imageValue entries "ColorSpace").bind nameInValue)
    ((imageValue entries "BitsPerComponent").bind sizeInValue)
    (((imageValue entries "Filter").map filterNames).getD []) location

/-- The number that `inline_u64` takes of an operand. -/
def Operand.size : Operand → Option Nat
  | .integer value => u64OfInt value
  | _ => none

theorem size_readOperand (value : CosObject) (text : Bytes) :
    (readOperand value text).size = sizeInValue value := by
  cases value <;> rfl

theorem inlineU64_eq (values : List (String × Operand)) (key : String) :
    ContentTokenizer.inlineU64 values key = (values.lookup key).bind Operand.size := by
  unfold ContentTokenizer.inlineU64
  cases values.lookup key with
  | none => rfl
  | some operand => cases operand <;> rfl

theorem inlineName_eq (values : List (String × Operand)) (key : String) :
    ContentTokenizer.inlineName values key = (values.lookup key).bind Operand.asName := by
  unfold ContentTokenizer.inlineName
  cases values.lookup key with
  | none => rfl
  | some operand => cases operand <;> rfl

/-- The keys that the summary looks at, with their abbreviations. -/
def summaryKeys : List (String × String) :=
  imageKeys.take 5

/-- The keys with the full name of one of these keys are its two spellings. -/
theorem fullKey_eq {short full : String} (h : (short, full) ∈ summaryKeys) (label : String) :
    fullKey label = full ↔ label = short ∨ label = full := by
  by_cases hlabel : label ∈ imageKeys.map Prod.fst
  · have hall : ∀ label ∈ imageKeys.map Prod.fst, ∀ key ∈ summaryKeys,
        (fullKey label = key.2 ↔ label = key.1 ∨ label = key.2) := by
      decide
    exact hall label hlabel (short, full) h
  · have hnone : imageKeys.lookup label = none := by
      rw [List.lookup_eq_none_iff]
      intro key hkey
      rw [bne_iff_ne]
      rintro rfl
      exact hlabel (List.mem_map.mpr ⟨key, hkey, rfl⟩)
    have hshort : label ≠ short := by
      rintro rfl
      exact hlabel (List.mem_map.mpr ⟨(label, full), List.mem_of_mem_take h, rfl⟩)
    unfold fullKey
    rw [hnone, Option.getD_none, or_iff_right hshort]

theorem summaryKeys_ne : ∀ key ∈ summaryKeys, key.1 ≠ key.2 := by
  decide

theorem lookup_absent {entries : List ImageEntry} {label : String}
    (h : ∀ entry ∈ entries, entry.label ≠ label) :
    (entries.map ImageEntry.read).reverse.lookup label = none := by
  rw [List.lookup_eq_none_iff]
  intro pair hpair
  rw [List.mem_reverse, List.mem_map] at hpair
  obtain ⟨entry, hentry, rfl⟩ := hpair
  rw [bne_iff_ne]
  exact fun heq => h entry hentry heq.symm

/-- The only entry with a label is found. -/
theorem lookup_only {before after : List ImageEntry} {entry : ImageEntry}
    (h : ∀ other ∈ after, other.label ≠ entry.label) :
    ((before ++ entry :: after).map ImageEntry.read).reverse.lookup entry.label
      = some (readOperand entry.value entry.text) := by
  rw [List.lookup_eq_some_iff]
  refine ⟨(after.map ImageEntry.read).reverse, (before.map ImageEntry.read).reverse, ?_, ?_⟩
  · simp [ImageEntry.read]
  · intro pair hpair
    rw [List.mem_reverse, List.mem_map] at hpair
    obtain ⟨other, hother, rfl⟩ := hpair
    rw [bne_iff_ne]
    exact fun heq => h other hother heq.symm

/-- What is kept under the two spellings of a key: the value of the entry, under one of them. -/
inductive KeptUnder (value : Option CosObject) (short full : Option Operand) : Prop where
  | absent (hvalue : value = none) (hshort : short = none) (hfull : full = none)
  | short {found : CosObject} {text : Bytes} (hvalue : value = some found)
    (hshort : short = some (readOperand found text)) (hfull : full = none)
  | full {found : CosObject} {text : Bytes} (hvalue : value = some found) (hshort : short = none)
    (hfull : full = some (readOperand found text))

theorem keptUnder {short full : String} (hkey : (short, full) ∈ summaryKeys) {entries : List ImageEntry}
    (hdistinct : (entries.map ImageEntry.property).Nodup) :
    KeptUnder (imageValue entries full) ((entries.map ImageEntry.read).reverse.lookup short)
      ((entries.map ImageEntry.read).reverse.lookup full) := by
  have hlabel : ∀ entry : ImageEntry, entry.property = full ↔ entry.label = short ∨ entry.label = full :=
    fun entry => fullKey_eq hkey entry.label
  unfold imageValue
  cases hfind : entries.find? fun entry => entry.property = full with
  | none =>
    rw [List.find?_eq_none] at hfind
    have hnot : ∀ entry ∈ entries, entry.label ≠ short ∧ entry.label ≠ full := by
      intro entry hentry
      have hne := hfind entry hentry
      rw [decide_eq_true_eq, hlabel, not_or] at hne
      exact hne
    exact .absent rfl (lookup_absent fun entry hentry => (hnot entry hentry).1)
      (lookup_absent fun entry hentry => (hnot entry hentry).2)
  | some entry =>
    obtain ⟨hentry, before, after, rfl, -⟩ := List.find?_eq_some_iff_append.mp hfind
    rw [decide_eq_true_eq] at hentry
    rw [List.map_append, List.map_cons, List.nodup_middle, List.nodup_cons] at hdistinct
    have hothers : ∀ other, other ∈ before ∨ other ∈ after → other.label ≠ short ∧ other.label ≠ full := by
      intro other hother
      rw [← not_or, ← hlabel]
      intro heq
      apply hdistinct.1
      rw [hentry, ← heq, List.mem_append, List.mem_map, List.mem_map]
      exact hother.imp (fun hin => ⟨other, hin, rfl⟩) fun hin => ⟨other, hin, rfl⟩
    have hall : ∀ {label : String}, entry.label ≠ label → (label = short ∨ label = full) →
        ∀ other ∈ before ++ entry :: after, other.label ≠ label := by
      intro label hne hspelling other hother
      rcases List.mem_append.mp hother with hother | hother
      · have hnot := hothers other (.inl hother)
        rcases hspelling with rfl | rfl
        · exact hnot.1
        · exact hnot.2
      · rcases List.mem_cons.mp hother with rfl | hother
        · exact hne
        · have hnot := hothers other (.inr hother)
          rcases hspelling with rfl | rfl
          · exact hnot.1
          · exact hnot.2
    have hne := summaryKeys_ne _ hkey
    rcases (hlabel entry).mp hentry with hshort | hfull
    · have honly := @lookup_only before after entry fun other hother => by
        rw [hshort]
        exact (hothers other (.inr hother)).1
      rw [hshort] at honly
      exact .short rfl honly (lookup_absent (hall (by rw [hshort]; exact hne) (.inr rfl)))
    · have honly := @lookup_only before after entry fun other hother => by
        rw [hfull]
        exact (hothers other (.inr hother)).2
      rw [hfull] at honly
      exact .full rfl (lookup_absent (hall (by rw [hfull]; exact fun heq => hne heq.symm) (.inl rfl))) honly

/-- Either spelling of a key gives what the value of the entry gives. -/
theorem KeptUnder.or {α : Type} {f : Operand → Option α} {g : CosObject → Option α}
    (hread : ∀ value text, f (readOperand value text) = g value) {value : Option CosObject}
    {short full : Option Operand} (h : KeptUnder value short full) :
    (short.bind f).or (full.bind f) = value.bind g := by
  cases h with
  | absent hvalue hshort hfull => rw [hvalue, hshort, hfull]; rfl
  | short hvalue hshort hfull =>
    rw [hvalue, hshort, hfull, Option.bind_some, hread, Option.bind_none, Option.or_none, Option.bind_some]
  | full hvalue hshort hfull =>
    rw [hvalue, hshort, hfull, Option.bind_none, Option.none_or, Option.bind_some, hread, Option.bind_some]

/-- The filters of the fact: the name, when the filter is one. -/
def recordedFilters (entries : List ImageEntry) : List PdfName :=
  ((imageValue entries "Filter").bind nameInValue).toList

theorem KeptUnder.names {value : Option CosObject} {short full : Option Operand}
    (h : KeptUnder value short full) :
    (short.bind Operand.asName).toList ++ (full.bind Operand.asName).toList
      = (value.bind nameInValue).toList := by
  cases h with
  | absent hvalue hshort hfull => rw [hvalue, hshort, hfull]; rfl
  | short hvalue hshort hfull =>
    rw [hvalue, hshort, hfull, Option.bind_some, asName_readOperand]
    exact List.append_nil _
  | full hvalue hshort hfull =>
    rw [hvalue, hshort, hfull, Option.bind_some, asName_readOperand]
    rfl

section Image

variable {source : ObjectKey} {locationPath : String} {bytes : Bytes} {limits : ResourceLimits}
  {entries : List ImageEntry}

/-- What is read of an image. -/
def imageSummary (entries : List ImageEntry) : ContentTokenizer.InlineImageSummary where
  width := (imageValue entries "Width").bind sizeInValue
  height := (imageValue entries "Height").bind sizeInValue
  colorSpace := (imageValue entries "ColorSpace").bind nameInValue
  bitsPerComponent := (imageValue entries "BitsPerComponent").bind sizeInValue
  filters := recordedFilters entries

/-- An image is read up to the position behind its `EI`. -/
theorem parseInlineImage_eq {pos : Nat} {dictionary data rest : Bytes} {ws : UInt8}
    (hat : At bytes pos (dictionary ++ ws :: (data ++ 69 :: 73 :: rest)))
    (hdictionary : ImageDictionary limits.maxObjectDepth entries dictionary)
    (hdata : ImageData ws data rest) (hdistinct : (entries.map ImageEntry.property).Nodup)
    (hfits : ∀ entry ∈ entries, entry.Fits limits) (hop : 2 ≤ limits.maxContentStreamOperatorNameBytes)
    (hsize : data.length ≤ limits.maxInlineImageBytes) :
    ContentTokenizer.parseInlineImage bytes limits pos
      = .ok (imageSummary entries, pos + dictionary.length + 1 + data.length + 2) := by
  have hlen := hat.length
  rw [List.length_append] at hlen
  have hmore : EndsToken (ws :: (data ++ 69 :: 73 :: rest)) := by
    intro b hb
    cases hb
    unfold isRegularByte
    rw [hdata.space]
    rfl
  obtain ⟨n, hn, hends⟩ := hdictionary.endsIn hat hmore (Nat.le_refl _) hfits hop []
  rw [List.append_nil] at hends
  have hkey : ∀ {short full : String}, (short, full) ∈ summaryKeys → KeptUnder (imageValue entries full)
      ((entries.map ImageEntry.read).reverse.lookup short)
      ((entries.map ImageEntry.read).reverse.lookup full) := fun hmem => keptUnder hmem hdistinct
  unfold ContentTokenizer.parseInlineImage
  rw [hends.runLoop (by omega), ok_bind]
  dsimp only
  rw [hdata.consume hat.skip hsize, ok_bind]
  have hfilters : ["F", "Filter"].filterMap
      (ContentTokenizer.inlineName (entries.map ImageEntry.read).reverse) = recordedFilters entries := by
    have hnames := (hkey (by decide : ("F", "Filter") ∈ summaryKeys)).names
    rw [← inlineName_eq, ← inlineName_eq] at hnames
    unfold recordedFilters
    rw [← hnames, List.filterMap_cons, List.filterMap_cons, List.filterMap_nil]
    cases ContentTokenizer.inlineName (entries.map ImageEntry.read).reverse "F" <;>
      cases ContentTokenizer.inlineName (entries.map ImageEntry.read).reverse "Filter" <;> rfl
  rw [hfilters]
  simp only [inlineU64_eq, inlineName_eq]
  rw [(hkey (by decide)).or size_readOperand, (hkey (by decide)).or size_readOperand,
    (hkey (by decide)).or size_readOperand, (hkey (by decide)).or asName_readOperand]
  rfl

/-- The state after an image: its fact, an image in the open spans, no operands, and the position. -/
def SummaryState.afterImage (s : SummaryState) (fact : OperatorFact) (stop : Nat) : SummaryState :=
  let marked := s.markActiveSpans fun span => { span with hasImage := true }
  { marked with
    pos := stop
    operands := []
    operandBytes := 0
    summary := { marked.summary with
      operatorsSeen := s.summary.operatorsSeen + 1
      facts := s.summary.facts ++ [fact] } }

theorem operatorText_bi : OperatorText "BI" where
  ne := by decide
  regular := by decide
  keyword := by decide
  integer := by decide
  number := by decide
  text := by decide

/-- The filters that an image states. -/
def statedFilters (entries : List ImageEntry) : List PdfName :=
  ((imageValue entries "Filter").map filterNames).getD []

/-- An inline image: its dictionary, with every property once, and its data. The filter is a name or an
array of names. -/
structure InlineImage (limits : ResourceLimits) where
  entries : List ImageEntry
  dictionary : Bytes
  ws : UInt8
  data : Bytes
  spelled : ImageDictionary limits.maxObjectDepth entries dictionary
  starts : EndsToken dictionary
  distinct : (entries.map ImageEntry.property).Nodup
  fits : ∀ entry ∈ entries, entry.Fits limits
  size : data.length ≤ limits.maxInlineImageBytes
  filter : ∀ value, imageValue entries "Filter" = some value →
    (∃ name, value = .name name) ∨ ∃ names : List PdfName, value = .array (names.map .name)

namespace InlineImage

/-- The text from `BI` to `EI`. -/
def text (image : InlineImage limits) : Bytes :=
  utf8 "BI" ++ (image.dictionary ++ image.ws :: (image.data ++ utf8 "EI"))

/-- The filter is not an array with an element. -/
def FilterKept (image : InlineImage limits) : Prop :=
  ∀ names : List PdfName, imageValue image.entries "Filter" = some (.array (names.map .name)) → names = []

theorem filterNames_array (names : List PdfName) : filterNames (.array (names.map .name)) = names := by
  unfold filterNames
  dsimp only
  rw [List.filterMap_map]
  exact List.filterMap_some

/-- All filters are recorded exactly when none is in an array. -/
theorem filterKept_iff (image : InlineImage limits) :
    recordedFilters image.entries = statedFilters image.entries ↔ image.FilterKept := by
  unfold recordedFilters statedFilters FilterKept
  cases hvalue : imageValue image.entries "Filter" with
  | none => simp
  | some value =>
    rcases image.filter value hvalue with ⟨name, rfl⟩ | ⟨names, rfl⟩
    · refine ⟨fun _ names heq => ?_, fun _ => rfl⟩
      cases heq
    · rw [Option.map_some, Option.getD_some, filterNames_array]
      constructor
      · intro heq other hother
        have hsame : names.map CosObject.name = other.map CosObject.name :=
          CosObject.array.inj (Option.some.inj hother)
        rw [← heq] at hsame
        exact List.map_eq_nil_iff.mp hsame.symm
      · intro h
        rw [h names rfl]
        rfl

variable {s : SummaryState} {gap rest : Bytes}

/-- The pass over an inline image. -/
theorem summarizeStep_eq (image : InlineImage limits) (hat : At bytes s.pos (gap ++ (image.text ++ rest)))
    (hgap : TokenGap gap) (hdata : ImageData image.ws image.data rest)
    (hop : 2 ≤ limits.maxContentStreamOperatorNameBytes)
    (hroom : s.summary.operatorsSeen < limits.maxContentStreamOps)
    (hseen : s.summary.operatorsSeen + 1 < u64Size) :
    summarizeStep source locationPath bytes limits s
      = .next (s.afterImage
          (.inlineImage (imageSummary image.entries).width (imageSummary image.entries).height
            (imageSummary image.entries).colorSpace (imageSummary image.entries).bitsPerComponent
            (recordedFilters image.entries)
            (operatorLocation source locationPath (s.summary.operatorsSeen + 1) (s.pos + gap.length)))
          (s.pos + gap.length + image.text.length)) := by
  have htwo : (utf8 "BI").length = 2 ∧ (utf8 "EI").length = 2 := by
    decide
  have hei : utf8 "EI" = [69, 73] := by
    decide
  have hall : At bytes s.pos (gap ++ (utf8 "BI" ++ (image.dictionary
      ++ image.ws :: (image.data ++ 69 :: 73 :: rest)))) := by
    unfold text at hat
    rw [hei] at hat
    simpa using hat
  have hends : EndsToken (image.dictionary ++ image.ws :: (image.data ++ 69 :: 73 :: rest)) :=
    image.starts.append image.spelled.ne _
  have htoken := @At.nextToken_operator bytes _ limits s.pos "BI" gap hall hgap operatorText_bi
    (by omega) hends
  have hparse := parseInlineImage_eq hall.skip.skip image.spelled hdata image.distinct image.fits hop image.size
  have hkind : operatorKind "BI" = .inlineImage := by
    decide
  have hstop : s.pos + gap.length + (utf8 "BI").length + image.dictionary.length + 1 + image.data.length + 2
      = s.pos + gap.length + image.text.length := by
    unfold text
    rw [List.length_append, List.length_append, List.length_cons, List.length_append, htwo.2]
    omega
  rw [hstop] at hparse
  rw [summarizeStep_operator htoken hroom]
  unfold acceptOperator
  dsimp only
  rw [(failIf_eq_ok (u := ())).mpr (Nat.not_le.mpr hseen), ok_bind]
  unfold classifyOperator
  dsimp only
  rw [hkind]
  dsimp only
  rw [hparse]
  rfl

/-- After an inline image, the image is in the summary with all its filters, and the stream goes on behind
its `EI`, exactly when the filter is not an array with an element. -/
theorem inlineImage_iff (image : InlineImage limits) (hat : At bytes s.pos (gap ++ (image.text ++ rest)))
    (hgap : TokenGap gap) (hdata : ImageData image.ws image.data rest)
    (hop : 2 ≤ limits.maxContentStreamOperatorNameBytes)
    (hroom : s.summary.operatorsSeen < limits.maxContentStreamOps)
    (hseen : s.summary.operatorsSeen + 1 < u64Size) :
    summarizeStep source locationPath bytes limits s
        = .next (s.afterImage
            (imageFact image.entries
              (operatorLocation source locationPath (s.summary.operatorsSeen + 1) (s.pos + gap.length)))
            (s.pos + gap.length + image.text.length))
      ↔ image.FilterKept := by
  rw [← filterKept_iff, image.summarizeStep_eq hat hgap hdata hop hroom hseen]
  constructor
  · intro h
    have hstate := Step.next.inj h
    have hfacts := congrArg (fun s : SummaryState => s.summary.facts) hstate
    have hfact := List.append_cancel_left hfacts
    unfold imageFact at hfact
    injection List.singleton_inj.mp hfact
  · intro h
    rw [h]
    rfl

end InlineImage

end Image

/-! ## Two images -/

/-- An image with a width and a filter. -/
def filteredEntries (filter : SpelledOperand) : List ImageEntry :=
  [⟨⟨[87]⟩, .integer 1, [49]⟩, ⟨⟨[70]⟩, filter.value, filter.text⟩]

/-- The text ` /W 1 /F filter ID`. -/
def filteredDictionary (filter : SpelledOperand) : Bytes :=
  [32] ++ ((47 :: [87]) ++ ([32] ++ ([49] ++ ([32] ++ ((47 :: [70]) ++ ([32] ++ (filter.text
    ++ ([32] ++ utf8 "ID"))))))))

theorem space_endsToken (rest : Bytes) : EndsToken ([32] ++ rest) := by
  intro b hb
  cases hb
  rfl

theorem filteredDictionary_spelled {filter : SpelledOperand} (h : Spells 128 (.value filter.value) filter.text) :
    ImageDictionary 128 (filteredEntries filter) (filteredDictionary filter) := by
  have hspace : TokenGap [32] := .ws rfl .nil
  have hone : Spells 128 (.value (.integer 1)) [49] :=
    .integer 128 (.inl rfl) (by decide) (by decide)
  refine .entry hspace (.plain (by decide) (by decide) .nil) hspace (space_endsToken _) hone
    (space_endsToken _) ?_
  exact .entry hspace (.plain (by decide) (by decide) .nil) hspace (space_endsToken _) h
    (space_endsToken _) (.id hspace)

theorem filteredEntries_distinct (filter : SpelledOperand) :
    ((filteredEntries filter).map ImageEntry.property).Nodup := by
  show [fullKey (utf8Lossy [87]), fullKey (utf8Lossy [70])].Nodup
  decide

theorem filteredEntries_filter (filter : SpelledOperand) :
    imageValue (filteredEntries filter) "Filter" = some filter.value := by
  have hwidth : fullKey (utf8Lossy [87]) ≠ "Filter" := by
    decide
  have hfilter : fullKey (utf8Lossy [70]) = "Filter" := by
    decide
  unfold imageValue filteredEntries
  rw [List.find?_cons, List.find?_cons]
  unfold ImageEntry.property ImageEntry.label
  rw [decide_eq_false hwidth, decide_eq_true hfilter]
  rfl

/-- The image with the data `x`. -/
def filteredImage (filter : SpelledOperand) (h : Spells 128 (.value filter.value) filter.text)
    (hfits : OperandFits {} filter.value filter.text)
    (hfilter : (∃ name, filter.value = .name name)
      ∨ ∃ names : List PdfName, filter.value = .array (names.map .name)) : InlineImage {} where
  entries := filteredEntries filter
  dictionary := filteredDictionary filter
  ws := 32
  data := [120, 32]
  spelled := filteredDictionary_spelled h
  starts := space_endsToken _
  distinct := filteredEntries_distinct filter
  fits := by
    intro entry hentry
    rcases List.mem_cons.mp hentry with rfl | hentry
    · exact ⟨by decide, trivial⟩
    · rw [List.mem_singleton.mp hentry]
      exact ⟨show 1 ≤ 127 by decide, hfits⟩
  size := by decide
  filter := by
    intro value hvalue
    rw [filteredEntries_filter] at hvalue
    cases hvalue
    exact hfilter

theorem filteredImage_data : ImageData 32 [120, 32] [] where
  space := rfl
  last := ⟨[32, 120], 32, rfl, rfl⟩
  ends := fun b hb => by cases hb
  first := by
    intro init b post h _ _
    match init with
    | [] => simp at h
    | [_] => simp at h
    | _ :: _ :: _ => simp

/-- The filter `/AHx`. -/
def nameFilter : SpelledOperand :=
  ⟨.name ⟨[65, 72, 120]⟩, 47 :: [65, 72, 120]⟩

/-- The filter `[/AHx]`. -/
def arrayFilter : SpelledOperand :=
  ⟨.array ([⟨[65, 72, 120]⟩].map .name), 91 :: ([] ++ (((47 :: [65, 72, 120]) ++ []) ++ [93]))⟩

theorem filterName_text : NameText [65, 72, 120] [65, 72, 120] :=
  .plain (by decide) (by decide) (.plain (by decide) (by decide) (.plain (by decide) (by decide) .nil))

def namedImage : InlineImage {} :=
  filteredImage nameFilter (.name 128 filterName_text) (show 3 ≤ 127 by decide) (.inl ⟨_, rfl⟩)

def arrayImage : InlineImage {} :=
  filteredImage arrayFilter
    (.array ⟨.nil, by decide⟩ (.lastItem (.name 127 filterName_text) ⟨.nil, by decide⟩)) trivial
    (.inr ⟨_, rfl⟩)

/-- A filter that is a name is recorded. -/
theorem inlineImage_iff_named :
    summarizeStep (.ofNumber 1) "root" namedImage.text {} (SummaryState.initial (.ofNumber 1))
      = .next ((SummaryState.initial (.ofNumber 1)).afterImage
          (imageFact namedImage.entries (operatorLocation (.ofNumber 1) "root" 1 0)) namedImage.text.length) := by
  have hat : At namedImage.text 0 ([] ++ (namedImage.text ++ [])) := by
    rw [List.nil_append, List.append_nil]
    exact At.start _
  have hkept : namedImage.FilterKept := by
    intro names hnames
    have hvalue : imageValue namedImage.entries "Filter" = some nameFilter.value :=
      filteredEntries_filter nameFilter
    rw [hvalue] at hnames
    cases hnames
  have hiff := @InlineImage.inlineImage_iff (.ofNumber 1) "root" namedImage.text {}
    (SummaryState.initial (.ofNumber 1)) [] [] namedImage hat .nil filteredImage_data (by decide) (by decide)
    (by decide)
  have hpos : (SummaryState.initial (.ofNumber 1)).pos + ([] : Bytes).length + namedImage.text.length
      = namedImage.text.length := Nat.zero_add _
  rw [hpos] at hiff
  exact hiff.mpr hkept

/-- The filters of a fact. -/
def OperatorFact.filters : OperatorFact → List PdfName
  | inlineImage _ _ _ _ filters _ => filters
  | _ => []

theorem arrayImage_run : (match summarizeContentStream (.ofNumber 1) "root" arrayImage.text {} with
    | .ok summary => decide (summary.facts.map OperatorFact.filters = [[]])
    | .error _ => false) = true := by
  decide

/-- The filters of an array are not recorded. -/
theorem arrayFilter_dropped : ImageData arrayImage.ws arrayImage.data []
    ∧ statedFilters arrayImage.entries = [⟨utf8 "AHx"⟩]
    ∧ ∃ summary, summarizeContentStream (.ofNumber 1) "root" arrayImage.text {} = .ok summary
      ∧ summary.facts.map OperatorFact.filters = [[]] := by
  refine ⟨filteredImage_data, ?_, ?_⟩
  · have hvalue : imageValue arrayImage.entries "Filter" = some arrayFilter.value :=
      filteredEntries_filter arrayFilter
    unfold statedFilters
    rw [hvalue]
    decide
  · have hrun := arrayImage_run
    split at hrun
    · rename_i summary hsummary
      exact ⟨summary, hsummary, of_decide_eq_true hrun⟩
    · cases hrun

end Pdfv
