import Pdfv.Parser.Document
import Pdfv.Parser.PrintedObjects
/-!
# Object streams

An object stream is a header of `number offset ` pairs and the printed objects, with newlines between
them. The header is always read. Each object is parsed from its offset on, with nothing to stop the
look-ahead of an integer at the next object, so the objects of a stream have to be as far apart as the
elements of an array.
-/

namespace Pdfv

open Loop Fallible

/-! ## The text of an object stream -/

section Layout

variable (realText : F64 → Bytes)

/-- The printed objects, with newlines between them. -/
def storedTexts : List CosObject → Bytes
  | [] => []
  | object :: rest =>
    printedText realText object ++ (if rest.isEmpty then [] else 10 :: storedTexts rest)

/-- What follows an object. -/
def storedTail (rest : List CosObject) : Bytes :=
  if rest.isEmpty then [] else 10 :: storedTexts realText rest

/-- The objects' numbers, each with the offset of its text from the end of the header. -/
def storedOffsets : Nat → List (ObjectKey × CosObject) → List (ObjectKey × Nat)
  | _, [] => []
  | offset, entry :: rest =>
    (entry.1, offset) :: storedOffsets (offset + (printedText realText entry.2).length + 1) rest

/-- One pair of the header. -/
def headerPair (pair : ObjectKey × Nat) : Bytes :=
  decimalBytes pair.1.number ++ 32 :: (decimalBytes pair.2 ++ [32])

/-- The header. -/
def storedHeader (entries : List (ObjectKey × CosObject)) : Bytes :=
  (storedOffsets realText 0 entries).flatMap headerPair

/-- The decoded bytes of an object stream. -/
def objectStreamText (entries : List (ObjectKey × CosObject)) : Bytes :=
  storedHeader realText entries ++ storedTexts realText (entries.map Prod.snd)

/-- Objects that an object stream may hold: within the limits, of generation 0, and none of them the
stream itself. -/
structure Storable (limits : ResourceLimits) (streamKey : ObjectKey)
    (entries : List (ObjectKey × CosObject)) : Prop where
  count : entries.length ≤ limits.maxObjects
  generation : ∀ entry ∈ entries, entry.1.generation = 0
  other : ∀ entry ∈ entries, entry.1 ≠ streamKey
  printable : ∀ entry ∈ entries, Printable realText limits 0 entry.2

/-- The dictionary says how many objects there are and where they start. -/
structure Announces (dictionary : Dictionary) (entries : List (ObjectKey × CosObject)) : Prop where
  count : dictionary.get "N" = some (.integer entries.length)
  first : dictionary.get "First" = some (.integer (storedHeader realText entries).length)

end Layout

variable {realText : F64 → Bytes} {limits : ResourceLimits} {source rest gap : Bytes} {pos : Nat}

/-! ## The header -/

/-- A pair is read up to the space after it. -/
theorem parseObjectStreamPair_text {pair : ObjectKey × Nat} (hgeneration : pair.1.generation = 0)
    (hoffset : pair.2 < u64Size) (hgap : Blank gap)
    (h : At source pos (gap ++ (headerPair pair ++ rest))) :
    ∃ next, parseObjectStreamPair (readerOf source) pos = .ok (pair, next)
      ∧ At source next ([32] ++ rest) := by
  obtain ⟨⟨number, generation, hpos, hlt, hgeneration_lt⟩, offset⟩ := pair
  dsimp only at hgeneration hoffset
  subst hgeneration
  have hat : At source pos
      (gap ++ (decimalBytes number ++ ([32] ++ (decimalBytes offset ++ ([32] ++ rest))))) := by
    simpa [headerPair] using h
  have hspace : ∀ {more : Bytes}, ∀ b, ([32] ++ more).head? = some b → isDigit b = false := by
    intro more b hb
    cases hb
    rfl
  have hnumber := hat.parseUnsigned u32Size hgap (decimalBytes_digits number) (decimalBytes_ne number) hspace
  rw [digitsValue_decimalBytes, if_neg (by omega)] at hnumber
  have hskip := hat.skip.skip.skipRequiredWs (separatorRun rfl) (List.cons_ne_nil _ _)
    (head_digits (decimalBytes_digits offset) (decimalBytes_ne offset))
  have hnil : At source (pos + gap.length + (decimalBytes number).length + 1)
      ([] ++ (decimalBytes offset ++ ([32] ++ rest))) := hat.skip.skip.skip
  have hread := hnil.parseUnsigned u64Size .nil (decimalBytes_digits offset) (decimalBytes_ne offset) hspace
  rw [digitsValue_decimalBytes, if_neg (by omega), List.length_nil, Nat.add_zero] at hread
  refine ⟨_, ?_, hat.skip.skip.skip.skip⟩
  unfold parseObjectStreamPair ByteSource.parseUnsignedU32
  rw [hnumber, ok_bind]
  dsimp only
  rw [hskip, ok_bind, List.length_singleton, hread, ok_bind]
  dsimp only
  rw [dif_pos ⟨hpos, hlt⟩]
  rfl

/-- The header is read, whatever the pairs. -/
theorem parseObjectStreamHeader_text {pairs : List (ObjectKey × Nat)}
    (hpairs : ∀ pair ∈ pairs, pair.1.generation = 0 ∧ pair.2 < u64Size) (hgap : Blank gap)
    (h : At source pos (gap ++ (pairs.flatMap headerPair ++ rest))) :
    parseObjectStreamHeader (readerOf source) pairs.length pos = .ok pairs := by
  induction pairs generalizing gap pos with
  | nil => rfl
  | cons pair pairs ih =>
    obtain ⟨hgeneration, hoffset⟩ := hpairs pair List.mem_cons_self
    rw [List.flatMap_cons, List.append_assoc] at h
    obtain ⟨next, hread, hnext⟩ := parseObjectStreamPair_text hgeneration hoffset hgap h
    have hmore := ih (fun pair hpair => hpairs pair (List.mem_cons_of_mem _ hpair)) space_blank hnext
    rw [List.length_cons, parseObjectStreamHeader, hread, ok_bind]
    dsimp only
    rw [hmore]
    rfl

theorem headerPair_length (pair : ObjectKey × Nat) : 4 ≤ (headerPair pair).length := by
  have hnumber := List.length_pos_iff.mpr (decimalBytes_ne pair.1.number)
  have hoffset := List.length_pos_iff.mpr (decimalBytes_ne pair.2)
  unfold headerPair
  simp only [List.length_append, List.length_cons, List.length_nil]
  omega

theorem storedOffsets_length (offset : Nat) (entries : List (ObjectKey × CosObject)) :
    (storedOffsets realText offset entries).length = entries.length := by
  induction entries generalizing offset with
  | nil => rfl
  | cons entry entries ih => rw [storedOffsets, List.length_cons, ih, List.length_cons]

/-- The check on the header's size admits every header. -/
theorem storedHeader_length (entries : List (ObjectKey × CosObject)) :
    4 * entries.length ≤ (storedHeader realText entries).length := by
  rw [← @storedOffsets_length realText 0 entries]
  unfold storedHeader
  induction storedOffsets realText 0 entries with
  | nil => exact Nat.le_refl 0
  | cons pair pairs ih =>
    have hpair := headerPair_length pair
    rw [List.flatMap_cons, List.length_append, List.length_cons]
    omega

/-! ## The objects -/

theorem storedTexts_cons (object : CosObject) (objects : List CosObject) :
    storedTexts realText (object :: objects)
      = printedText realText object ++ storedTail realText objects := rfl

theorem storedTail_ends (objects : List CosObject) : Ends (storedTail realText objects) := by
  cases objects with
  | nil => exact .nil
  | cons object objects => exact .cons (.inr (.inl rfl))

theorem storedTail_noReference {objects : List CosObject}
    (h : ∀ object ∈ objects, Printable realText limits 0 object) :
    NoReference (storedTail realText objects) := by
  cases objects with
  | nil => exact .inl fun b hb => by cases hb
  | cons object objects =>
    obtain ⟨b, more, htext, hws, -, hletter, -⟩ := printedText_cons (h object List.mem_cons_self)
    refine .inr ⟨10, b, more ++ storedTail realText objects, ?_, rfl, hws, hletter⟩
    show 10 :: (printedText realText object ++ storedTail realText objects) = _
    rw [htext, List.cons_append]

/-- After an integer come the next objects, unless the first of them clashes with it. -/
theorem storedTail_quiet {object : CosObject} {objects : List CosObject} (hinteger : object.isInteger = true)
    (hfits : ∀ next ∈ objects, Printable realText limits 0 next)
    (hclash : objects.head?.any (clashesWith realText object) = false) :
    Quiet (storedTail realText objects) := by
  cases objects with
  | nil => exact quiet_of_noWs fun b hb => by cases hb
  | cons next objects =>
    exact quiet_element rfl hinteger (hfits next List.mem_cons_self) hclash
      (storedTail_noReference fun object hobject => hfits object (List.mem_cons_of_mem _ hobject))

/-- The object at an offset is read when it is apart and does not clash with the next one. -/
theorem parseObject_stored {object : CosObject} {objects : List CosObject}
    (hfit : Printable realText limits 0 object)
    (hfits : ∀ next ∈ objects, Printable realText limits 0 next)
    (h : At source pos (storedTexts realText (object :: objects))) (hapart : apart realText object = true)
    (hclash : objects.head?.any (clashesWith realText object) = false) :
    ∃ next, (readerOf source).parseObject limits 0 pos = .ok (object, next) := by
  have hfuel : 3 * (printedText realText object).length + 1 ≤ (readerOf source).objectFuel := by
    have hlength := h.length
    rw [storedTexts_cons, List.length_append] at hlength
    show _ ≤ 3 * source.length + 6
    omega
  exact ⟨_, @readsBack realText limits object _ _ _ _ _ [] _ hfit (Nat.le_refl 0) hapart .nil h
    (storedTail_ends objects) (fun hinteger => storedTail_quiet hinteger hfits hclash) hfuel⟩

/-- It is not read otherwise. -/
theorem parseObject_stored_error {object : CosObject} {objects : List CosObject}
    (hfit : Printable realText limits 0 object)
    (hfits : ∀ next ∈ objects, Printable realText limits 0 next)
    (h : At source pos (storedTexts realText (object :: objects)))
    (hbad : apart realText object = false ∨ objects.head?.any (clashesWith realText object) = true) :
    ∃ e, (readerOf source).parseObject limits 0 pos = .error e := by
  have hlength := h.length
  rw [storedTexts_cons, List.length_append] at hlength
  have hsize : (readerOf source).objectFuel = 3 * source.length + 6 := rfl
  have hat : At source pos ([] ++ (printedText realText object ++ storedTail realText objects)) := h
  rcases hbad with hbad | hbad
  · exact givesUp object hfit (Nat.le_refl 0) hbad .nil hat (storedTail_ends objects) (by omega)
  · cases objects with
    | nil => cases hbad
    | cons next objects =>
      have hfuel : (readerOf source).objectFuel = (3 * source.length + 5) + 1 := rfl
      unfold ByteSource.parseObject
      rw [hfuel, parseObject_clash (.cons (.inr (.inl rfl))) rfl hfit (hfits next List.mem_cons_self)
        (Nat.le_refl 0) hbad (storedTail_ends objects) .nil hat]
      exact ⟨_, rfl⟩

section Entries

variable {streamKey : ObjectKey} {stream : StreamObject} {first offset : Nat}

/-- An entry gives its object, at its place in the file. -/
theorem parseObjectStreamEntry_ok {entry : ObjectKey × CosObject} {objects : List CosObject}
    (hsize : stream.rawRange.start + source.length < u64Size) (hother : entry.1 ≠ streamKey)
    (hfit : Printable realText limits 0 entry.2)
    (hfits : ∀ next ∈ objects, Printable realText limits 0 next)
    (h : At source (first + offset) (storedTexts realText (entry.2 :: objects)))
    (hapart : apart realText entry.2 = true)
    (hclash : objects.head?.any (clashesWith realText entry.2) = false) :
    parseObjectStreamEntry limits streamKey stream source first (entry.1, offset)
      = .ok ⟨entry.1, stream.rawRange.start + (first + offset), entry.2⟩ := by
  obtain ⟨next, hread⟩ := parseObject_stored hfit hfits h hapart hclash
  have hlength := h.length
  have hpos := hfit.text_pos
  rw [storedTexts_cons, List.length_append] at hlength
  have hoffset : checkedU64 (stream.rawRange.start + (first + offset)) "object stream object offset"
      = .ok (stream.rawRange.start + (first + offset)) := if_pos (by omega)
  unfold parseObjectStreamEntry failIf
  dsimp only
  rw [if_neg (by omega), ok_bind, if_neg (by omega), ok_bind, hread, ok_bind]
  dsimp only
  rw [hoffset, ok_bind, if_neg hother]
  rfl

/-- An entry whose object is not read ends the parse. -/
theorem parseObjectStreamEntry_error {entry : ObjectKey × CosObject} {objects : List CosObject}
    (hfit : Printable realText limits 0 entry.2)
    (hfits : ∀ next ∈ objects, Printable realText limits 0 next)
    (h : At source (first + offset) (storedTexts realText (entry.2 :: objects)))
    (hbad : apart realText entry.2 = false ∨ objects.head?.any (clashesWith realText entry.2) = true) :
    ∃ e, parseObjectStreamEntry limits streamKey stream source first (entry.1, offset) = .error e := by
  obtain ⟨e, hread⟩ := parseObject_stored_error hfit hfits h hbad
  cases hentry : parseObjectStreamEntry limits streamKey stream source first (entry.1, offset) with
  | error e => exact ⟨e, rfl⟩
  | ok object =>
    unfold parseObjectStreamEntry at hentry
    simp only [bind_eq_ok, failIf_eq_ok] at hentry
    obtain ⟨_, _, _, _, ⟨read, next⟩, hok, -⟩ := hentry
    rw [hread] at hok
    cases hok

/-- All entries are read when their objects are apart, and the parse ends with an error otherwise. -/
theorem mapM_parseObjectStreamEntry {entries : List (ObjectKey × CosObject)}
    (hsize : stream.rawRange.start + source.length < u64Size)
    (hother : ∀ entry ∈ entries, entry.1 ≠ streamKey)
    (hfits : ∀ entry ∈ entries, Printable realText limits 0 entry.2)
    (h : entries ≠ [] → At source (first + offset) (storedTexts realText (entries.map Prod.snd))) :
    (∃ objects, (storedOffsets realText offset entries).mapM
        (parseObjectStreamEntry limits streamKey stream source first) = .ok objects
        ∧ objects.map (fun object => (object.key, object.object)) = entries)
      ↔ apartItems realText (entries.map Prod.snd) = true := by
  induction entries generalizing offset with
  | nil => exact ⟨fun _ => rfl, fun _ => ⟨[], rfl, rfl⟩⟩
  | cons entry entries ih =>
    have hat := h (List.cons_ne_nil _ _)
    rw [List.map_cons] at hat
    have hfit := hfits entry List.mem_cons_self
    have hnext : ∀ next ∈ entries.map Prod.snd, Printable realText limits 0 next := by
      intro next hmem
      obtain ⟨entry', hmem', rfl⟩ := List.mem_map.mp hmem
      exact hfits entry' (List.mem_cons_of_mem _ hmem')
    rw [storedOffsets, List.mapM_cons, List.map_cons, apartItems]
    by_cases hgood : apart realText entry.2 = true
        ∧ (entries.map Prod.snd).head?.any (clashesWith realText entry.2) = false
    · obtain ⟨hapart, hclash⟩ := hgood
      have hrest : entries ≠ [] → At source (first + (offset + (printedText realText entry.2).length + 1))
          (storedTexts realText (entries.map Prod.snd)) := by
        intro hne
        rw [storedTexts_cons] at hat
        have htail := hat.skip
        obtain ⟨next, more, rfl⟩ := List.exists_cons_of_ne_nil hne
        have hnewline : At source (first + offset + (printedText realText entry.2).length)
            (10 :: storedTexts realText ((next :: more).map Prod.snd)) := htail
        have hplace : first + (offset + (printedText realText entry.2).length + 1)
            = first + offset + (printedText realText entry.2).length + 1 := by omega
        rw [hplace]
        exact hnewline.next
      have hih := ih (fun entry hmem => hother entry (List.mem_cons_of_mem _ hmem))
        (fun entry hmem => hfits entry (List.mem_cons_of_mem _ hmem)) hrest
      rw [hapart, hclash, Bool.not_false, Bool.and_true, Bool.true_and, ← hih,
        parseObjectStreamEntry_ok hsize (hother entry List.mem_cons_self) hfit hnext hat hapart hclash,
        ok_bind]
      constructor
      · rintro ⟨objects, hread, hobjects⟩
        obtain ⟨more, hmore, hcons⟩ := bind_eq_ok.mp hread
        cases hcons
        exact ⟨more, hmore, List.tail_eq_of_cons_eq hobjects⟩
      · rintro ⟨more, hmore, hobjects⟩
        refine ⟨_, by rw [hmore]; rfl, ?_⟩
        rw [List.map_cons, hobjects]
    · have hbad : apart realText entry.2 = false
          ∨ (entries.map Prod.snd).head?.any (clashesWith realText entry.2) = true := by
        rcases Decidable.not_and_iff_or_not.mp hgood with hbad | hbad
        · exact .inl (Bool.eq_false_iff.mpr hbad)
        · exact .inr (Bool.not_eq_false _ ▸ hbad)
      obtain ⟨e, he⟩ := @parseObjectStreamEntry_error realText limits source streamKey stream first offset
        entry _ hfit hnext hat hbad
      rw [he]
      refine ⟨fun hread => ?_, fun hapart => ?_⟩
      · obtain ⟨objects, hread, -⟩ := hread
        cases hread
      · rcases hbad with hbad | hbad
        · rw [hbad] at hapart
          cases hapart
        · rw [hbad, Bool.not_true, Bool.and_false] at hapart
          cases hapart

/-- The offsets lie inside the text of the objects. -/
theorem storedOffsets_lt {entries : List (ObjectKey × CosObject)}
    (hfits : ∀ entry ∈ entries, Printable realText limits 0 entry.2) :
    ∀ pair ∈ storedOffsets realText offset entries,
      pair.2 < offset + (storedTexts realText (entries.map Prod.snd)).length := by
  induction entries generalizing offset with
  | nil => exact fun pair hpair => absurd hpair List.not_mem_nil
  | cons entry entries ih =>
    have hpos := (hfits entry List.mem_cons_self).text_pos
    have hlater := @ih (offset + (printedText realText entry.2).length + 1) fun entry hmem =>
      hfits entry (List.mem_cons_of_mem _ hmem)
    intro pair hpair
    rw [List.map_cons, storedTexts_cons, List.length_append]
    rw [storedOffsets, List.mem_cons] at hpair
    rcases hpair with rfl | hpair
    · dsimp only
      omega
    · have hlt := hlater pair hpair
      cases entries with
      | nil => cases hpair
      | cons next entries =>
        have htail : storedTail realText ((next :: entries).map Prod.snd)
            = 10 :: storedTexts realText ((next :: entries).map Prod.snd) := rfl
        rw [htail, List.length_cons]
        omega

theorem storedOffsets_generation {entries : List (ObjectKey × CosObject)}
    (hgeneration : ∀ entry ∈ entries, entry.1.generation = 0) :
    ∀ pair ∈ storedOffsets realText offset entries, pair.1.generation = 0 := by
  induction entries generalizing offset with
  | nil => exact fun pair hpair => absurd hpair List.not_mem_nil
  | cons entry entries ih =>
    intro pair hpair
    rw [storedOffsets, List.mem_cons] at hpair
    rcases hpair with rfl | hpair
    · exact hgeneration entry List.mem_cons_self
    · exact ih (fun entry hmem => hgeneration entry (List.mem_cons_of_mem _ hmem)) pair hpair

theorem nonNegativeU64FromDictionary_of_get {dictionary : Dictionary} {key : String} {n : Nat}
    (h : dictionary.get key = some (.integer n)) :
    nonNegativeU64FromDictionary dictionary key = .ok n := by
  have hu64 : u64OfInt n = some n := if_pos (Int.natCast_nonneg n)
  unfold nonNegativeU64FromDictionary integerFromDictionary
  rw [h]
  dsimp only
  rw [hu64]

/-- An object stream expands to exactly its objects if and only if they are apart, as the elements of an
array are. -/
theorem parseObjectStream_iff {entries : List (ObjectKey × CosObject)}
    (hstorable : Storable realText limits streamKey entries)
    (hannounces : Announces realText stream.dictionary entries)
    (hstart : stream.rawRange.start < isizeSize)
    (hlength : (objectStreamText realText entries).length < isizeSize) :
    (∃ objects, parseObjectStream limits streamKey stream (objectStreamText realText entries) = .ok objects
        ∧ objects.map (fun object => (object.key, object.object)) = entries)
      ↔ apartItems realText (entries.map Prod.snd) = true := by
  have hsizes : isizeSize + isizeSize = u64Size := by decide
  have hat : At (objectStreamText realText entries) 0
      (storedHeader realText entries ++ storedTexts realText (entries.map Prod.snd)) := .start _
  have htotal := hat.length
  rw [List.length_append, Nat.zero_add] at htotal
  have hobjects := hat.skip
  rw [Nat.zero_add] at hobjects
  have hroom := @storedHeader_length realText entries
  have hpairs : ∀ pair ∈ storedOffsets realText 0 entries,
      pair.1.generation = 0 ∧ pair.2 < u64Size := by
    intro pair hpair
    have hlt := storedOffsets_lt hstorable.printable pair hpair
    exact ⟨storedOffsets_generation hstorable.generation pair hpair, by omega⟩
  have hheader : parseObjectStreamHeader (readerOf (objectStreamText realText entries)) entries.length 0
      = .ok (storedOffsets realText 0 entries) := by
    have hread := @parseObjectStreamHeader_text _ _ [] 0 _ hpairs .nil hat
    rwa [storedOffsets_length] at hread
  unfold parseObjectStream failIf
  rw [nonNegativeU64FromDictionary_of_get hannounces.count, ok_bind,
    if_neg (by have := hstorable.count; omega), ok_bind,
    nonNegativeU64FromDictionary_of_get hannounces.first, ok_bind, if_neg (by omega), ok_bind,
    if_neg (by omega), ok_bind, hheader, ok_bind]
  exact mapM_parseObjectStreamEntry (by omega) hstorable.other hstorable.printable fun _ => hobjects

end Entries

/-- An object stream as it lies in the file: only its dictionary and its place matter here. -/
def objectStreamOf (dictionary : Dictionary) : StreamObject where
  dictionary := dictionary
  rawRange := ⟨0, 0⟩
  declaredLength := none
  discoveredLength := 0
  filters := []
  decodeParams := []
  rawSource := []
  streamKeywordCrlfCompliant := true
  endstreamKeywordEolCompliant := true

/-- The real 1.5. -/
def oneAndHalf : F64 :=
  ⟨false, 3 * 2 ^ 51, -52, by decide⟩

def oneAndHalfText (_ : F64) : Bytes := utf8 "1.5"

/-- The token is the value. -/
def RealToken.isFinite (value : F64) : RealToken → Bool
  | finite read => read = value
  | _ => false

theorem RealToken.eq_finite {value : F64} {token : RealToken} (h : token.isFinite value = true) :
    token = .finite value := by
  cases token with
  | finite read => exact congrArg _ (of_decide_eq_true h)
  | invalid => cases h
  | infinite => cases h

theorem oneAndHalf_text : RealText (oneAndHalfText oneAndHalf) oneAndHalf where
  shape := ⟨[], oneAndHalfText oneAndHalf, rfl, .inl rfl, by decide⟩
  dot := by decide
  value := RealToken.eq_finite (by decide)

/-- An integer before a real, and an array with a reference. -/
def sampleEntries : List (ObjectKey × CosObject) :=
  [(.ofNumber 1, .integer 7), (.ofNumber 2, .real oneAndHalf),
    (.ofNumber 3, .array [.integer (-5), .reference (.ofNumber 1)])]

theorem sampleEntries_storable : Storable oneAndHalfText {} (.ofNumber 9) sampleEntries where
  count := by decide
  generation := by decide
  other := by decide
  printable := by
    intro entry hentry
    simp only [sampleEntries, List.mem_cons, List.not_mem_nil, or_false] at hentry
    rcases hentry with rfl | rfl | rfl
    · exact .integer (by decide) (by decide) (by decide)
    · exact .real (by decide) oneAndHalf_text
    · refine .array (by decide) (by decide) fun value hvalue => ?_
      simp only [List.mem_cons, List.not_mem_nil, or_false] at hvalue
      rcases hvalue with rfl | rfl
      · exact .integer (by decide) (by decide) (by decide)
      · exact .reference (by decide) _

/-- `/First 12 /N 3`. -/
def sampleDictionary : Dictionary :=
  [(PdfName.fromStatic "First", .integer 12), (PdfName.fromStatic "N", .integer 3)]

theorem sampleDictionary_announces : Announces oneAndHalfText sampleDictionary sampleEntries where
  count := rfl
  first := rfl

theorem parseObjectStream_iff_sample :
    ∃ objects, parseObjectStream {} (.ofNumber 9) (objectStreamOf sampleDictionary)
        (objectStreamText oneAndHalfText sampleEntries) = .ok objects
      ∧ objects.map (fun object => (object.key, object.object)) = sampleEntries :=
  have hannounces : Announces oneAndHalfText (objectStreamOf sampleDictionary).dictionary sampleEntries :=
    sampleDictionary_announces
  (parseObjectStream_iff sampleEntries_storable hannounces (by decide) (by decide)).mpr
    (by decide)

/-- The objects `1` and `65536`, one after the other. -/
def clashingEntries : List (ObjectKey × CosObject) :=
  [(.ofNumber 1, .integer 1), (.ofNumber 2, .integer 65536)]

/-- `/First 8 /N 2`. -/
def clashingDictionary : Dictionary :=
  [(PdfName.fromStatic "First", .integer 8), (PdfName.fromStatic "N", .integer 2)]

theorem clashingEntries_storable : Storable oneAndHalfText {} (.ofNumber 9) clashingEntries where
  count := by decide
  generation := by decide
  other := by decide
  printable := by
    intro entry hentry
    simp only [clashingEntries, List.mem_cons, List.not_mem_nil, or_false] at hentry
    rcases hentry with rfl | rfl
    · exact .integer (by decide) (by decide) (by decide)
    · exact .integer (by decide) (by decide) (by decide)

/-- The object stream `1 0 2 2 1` newline `65536` is well formed, and it is not expanded. -/
theorem parseObjectStream_clashing :
    Storable oneAndHalfText {} (.ofNumber 9) clashingEntries
      ∧ Announces oneAndHalfText clashingDictionary clashingEntries
      ∧ objectStreamText oneAndHalfText clashingEntries = utf8 "1 0 2 2 1\n65536"
      ∧ ¬ ∃ objects, parseObjectStream {} (.ofNumber 9) (objectStreamOf clashingDictionary)
          (objectStreamText oneAndHalfText clashingEntries) = .ok objects
        ∧ objects.map (fun object => (object.key, object.object)) = clashingEntries := by
  refine ⟨clashingEntries_storable, ⟨rfl, rfl⟩, by decide, ?_⟩
  rintro ⟨objects, hread, -⟩
  have herror : (parseObjectStream {} (.ofNumber 9) (objectStreamOf clashingDictionary)
      (objectStreamText oneAndHalfText clashingEntries)).isOk = false := by
    decide +kernel
  rw [hread] at herror
  cases herror

end Pdfv
