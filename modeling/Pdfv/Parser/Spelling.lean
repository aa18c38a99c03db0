import Pdfv.Parser.RevisionScan
/-!
# Spelled objects

Texts that the object parser reads in every context: names of regular characters, the keywords,
references, and from them indirect objects and trailer dictionaries.
-/

namespace Pdfv

open Loop Fallible

/-- A character that stands for itself in a name. -/
def isRegular (b : UInt8) : Bool :=
  !isDelimiter b && !isWs b && b ≠ 35

section Tokens

variable {bytes rest : Bytes} {pos : Nat} {limits : ResourceLimits}

namespace At

theorem parseNameLoop {name read : Bytes} (h : At bytes pos (name ++ rest))
    (hname : ∀ b ∈ name, isRegular b = true)
    (hrest : ∀ b, rest.head? = some b → isDelimiter b = true ∨ isWs b = true)
    (hlimit : read.length + name.length ≤ limits.maxNameBytes) {fuel : Nat}
    (hfuel : name.length < fuel) :
    runLoop ((readerOf bytes).parseNameStep limits) (fun s => .ok s) fuel (read, pos)
      = .ok (read ++ name, pos + name.length) := by
  induction name generalizing pos read fuel with
  | nil =>
    obtain ⟨fuel, rfl⟩ : ∃ n, fuel = n + 1 := ⟨fuel - 1, by rw [List.length_nil] at hfuel; omega⟩
    have hbyte : (readerOf bytes).byte pos = rest.head? := h.byte
    have hstep : (readerOf bytes).parseNameStep limits (read, pos) = .done (.ok (read, pos)) := by
      unfold ByteSource.parseNameStep
      dsimp only
      rw [hbyte]
      cases hhead : rest.head? with
      | none => rfl
      | some b =>
        have hend : (isDelimiter b || isWs b) = true := by
          rw [Bool.or_eq_true]
          exact hrest b hhead
        exact if_pos hend
    rw [runLoop_done hstep, List.append_nil, List.length_nil, Nat.add_zero]
  | cons b name ih =>
    rw [List.length_cons] at hfuel hlimit ⊢
    obtain ⟨fuel, rfl⟩ : ∃ n, fuel = n + 1 := ⟨fuel - 1, by omega⟩
    have hb := hname b List.mem_cons_self
    unfold isRegular at hb
    simp only [Bool.and_eq_true, Bool.not_eq_true', decide_eq_true_eq] at hb
    obtain ⟨⟨hdelimiter, hws⟩, hescape⟩ := hb
    have hbyte : (readerOf bytes).byte pos = some b := h.byte
    have hstep : (readerOf bytes).parseNameStep limits (read, pos)
        = .next (read ++ [b], pos + 1) := by
      unfold ByteSource.parseNameStep ByteSource.checkNameLen
      dsimp only
      rw [hbyte]
      dsimp only
      rw [if_neg (by rw [hdelimiter, hws]; exact Bool.false_ne_true), if_neg hescape,
        if_neg (by rw [List.length_append, List.length_singleton]; omega)]
    have hnext : At bytes (pos + 1) (name ++ rest) := h.next
    rw [runLoop_next hstep, ih hnext (fun c hc => hname c (List.mem_cons_of_mem _ hc))
      (by rw [List.length_append, List.length_singleton]; omega) (by omega), List.append_assoc]
    simp only [List.singleton_append, Except.ok.injEq, Prod.mk.injEq, true_and]
    omega

/-- A name of regular characters, up to white space or a delimiter. -/
theorem parseName {name : Bytes} (h : At bytes pos (47 :: (name ++ rest)))
    (hname : ∀ b ∈ name, isRegular b = true)
    (hrest : ∀ b, rest.head? = some b → isDelimiter b = true ∨ isWs b = true)
    (hlimit : name.length ≤ limits.maxNameBytes) :
    (readerOf bytes).parseName limits pos = .ok (⟨name⟩, pos + 1 + name.length) := by
  have hslash : At bytes pos ([47] ++ (name ++ rest)) := h
  have hlen := h.next.length
  rw [List.length_append] at hlen
  have hloop : runLoop ((readerOf bytes).parseNameStep limits) (fun s => .ok s)
      ((readerOf bytes).len - (pos + 1) + 1) ([], pos + 1) = .ok ([] ++ name, pos + 1 + name.length) := by
    refine h.next.parseNameLoop hname hrest (by rw [List.length_nil]; omega) ?_
    show name.length < bytes.length - (pos + 1) + 1
    omega
  unfold ByteSource.parseName
  rw [hslash.consumeBytes, ok_bind, List.length_singleton, hloop, ok_bind]
  dsimp only
  unfold PdfName.new
  rw [List.nil_append, if_neg (by omega)]
  rfl

/-- A numeral as a number token, up to a space. -/
theorem parseNumberToken (numeral : Numeral) {gap : Bytes} (hgap : Blank gap)
    (h : At bytes pos (gap ++ (numeral.bytes ++ 32 :: rest))) (hvalue : numeral.value < 2 ^ 63) :
    (readerOf bytes).parseNumberToken pos
      = .ok (.integer numeral.value, pos + gap.length + numeral.bytes.length) := by
  obtain ⟨b, digits, hbytes, hb⟩ := numeral.cons
  have htoken : StartsToken (numeral.bytes ++ 32 :: rest) := by
    rw [hbytes]
    exact startsToken_digit hb
  have hstart := skipBlank hgap htoken h
  have hat := h.skip
  have hbyte : (readerOf bytes).byte (pos + gap.length) = some b := by
    rw [hat.byte, hbytes]
    rfl
  have hsign : b ≠ 43 ∧ b ≠ 45 := by
    constructor
    · rintro rfl
      cases hb
    · rintro rfl
      cases hb
  have hrun := hat.skipRun (fun b => b = 46 || isDigit b)
    (fun c hc => by simp [numeral.digits c hc]) (fun c hc => by cases hc; rfl)
  have hdot : numeral.bytes.contains 46 = false := by
    rw [← Bool.not_eq_true, List.contains_iff_mem]
    intro hmem
    have hdigit := numeral.digits 46 hmem
    cases hdigit
  have hinteger : parseI64 numeral.bytes = some (numeral.value : Int) := by
    unfold Numeral.value at hvalue ⊢
    unfold parseI64 splitSign
    rw [hbytes] at hvalue ⊢
    split
    rename_i heq
    split at heq
    · rename_i hcons
      cases hcons
      exact absurd rfl hsign.1
    · rename_i hcons
      cases hcons
      exact absurd rfl hsign.2
    · cases heq
      rw [if_neg (by simp)]
      dsimp only
      rw [if_neg Bool.false_ne_true, if_pos (by omega)]
  unfold ByteSource.parseNumberToken
  dsimp only
  rw [hstart, hbyte]
  simp only [Option.some.injEq, hsign.1, hsign.2, decide_false, Bool.or_self, Bool.false_eq_true,
    if_false]
  rw [hrun, hat.slice, ok_bind, hdot]
  simp only [Bool.false_eq_true, if_false, hinteger]
  rfl

end At

end Tokens

/-! ## Keys -/

/-- The two numerals of an object key. -/
structure KeyText where
  number : Numeral
  generation : Numeral
  number_pos : 0 < number.value
  number_lt : number.value < u32Size
  generation_lt : generation.value < u16Size

namespace KeyText

def key (text : KeyText) : ObjectKey :=
  ⟨text.number.value, text.generation.value, text.number_pos, text.number_lt, text.generation_lt⟩

/-- `number generation `. -/
def bytes (text : KeyText) : Bytes :=
  text.number.bytes ++ 32 :: (text.generation.bytes ++ [32])

end KeyText

section Keys

variable {bytes rest : Bytes} {pos : Nat} {limits : ResourceLimits}

theorem head_space {b : UInt8} (hb : (32 :: rest : Bytes).head? = some b) :
    isWs b = true ∧ isDigit b = false := by
  cases hb
  exact ⟨rfl, rfl⟩

theorem spaceRun : ∀ b ∈ ([32] : Bytes), isWs b = true :=
  List.forall_mem_singleton.mpr rfl

namespace At

/-- The generation and the space around it, after an object number. -/
theorem generation (text : KeyText) (h : At bytes pos ([32] ++ (text.generation.bytes ++ 32 :: rest)))
    (hrest : ∀ b, rest.head? = some b → isWs b = false) :
    (readerOf bytes).skipRequiredWs pos = .ok (pos + 1)
      ∧ (readerOf bytes).parseUnsignedU16 (pos + 1)
        = .ok (some text.generation.value, pos + 1 + text.generation.bytes.length)
      ∧ (readerOf bytes).skipRequiredWs (pos + 1 + text.generation.bytes.length)
        = .ok (pos + 1 + text.generation.bytes.length + 1)
      ∧ At bytes (pos + 1 + text.generation.bytes.length + 1) rest := by
  obtain ⟨g, more, hg, hdigit⟩ := text.generation.cons
  have hnil : At bytes (pos + 1) ([] ++ (text.generation.bytes ++ 32 :: rest)) := h.skip
  have hspace : At bytes (pos + 1 + text.generation.bytes.length) ([32] ++ rest) := hnil.skip.skip
  have hread := hnil.parseUnsigned u16Size .nil text.generation.digits text.generation.ne
    (fun b hb => (head_space hb).2)
  have hlt := text.generation_lt
  unfold Numeral.value at hlt
  rw [if_neg (by omega), List.length_nil, Nat.add_zero] at hread
  refine ⟨?_, hread, ?_, hspace.skip⟩
  · refine h.skipRequiredWs spaceRun (List.cons_ne_nil _ _) fun b hb => ?_
    rw [hg] at hb
    cases hb
    exact isWs_of_isDigit hdigit
  · exact hspace.skipRequiredWs spaceRun (List.cons_ne_nil _ _) hrest

/-- `number generation R`. -/
theorem parseReference (text : KeyText) {gap : Bytes} (hgap : Blank gap)
    (h : At bytes pos (gap ++ (text.bytes ++ 82 :: rest))) :
    (readerOf bytes).parseNumberOrReference pos
      = .ok (.reference text.key, pos + gap.length + text.bytes.length + 1) := by
  have hat : At bytes pos (gap ++ (text.number.bytes ++ 32 :: (text.generation.bytes
      ++ 32 :: (82 :: rest)))) := by
    simpa [KeyText.bytes] using h
  have hlt := text.number_lt
  have hpos := text.number_pos
  have hsize : u32Size < 2 ^ 63 := by
    decide
  have hfirst := hat.parseNumberToken text.number hgap (by omega)
  have hspace : At bytes (pos + gap.length + text.number.bytes.length) ([32]
      ++ (text.generation.bytes ++ 32 :: (82 :: rest))) := hat.skip.skip
  obtain ⟨hws, hgeneration, hws', hletter⟩ := hspace.generation text fun b hb => by
    cases hb
    rfl
  have hletter' : At bytes _ ([82] ++ rest) := hletter
  have htail : (readerOf bytes).parseReferenceTail (text.number.value : Int)
      (pos + gap.length + text.number.bytes.length)
      = .ok (some (text.key, pos + gap.length + text.bytes.length + 1)) := by
    have hnumber : 0 < (text.number.value : Int).toNat ∧ (text.number.value : Int).toNat < u32Size
        ∧ text.generation.value < u16Size := ⟨by omega, by omega, text.generation_lt⟩
    unfold ByteSource.parseReferenceTail
    rw [hws]
    dsimp only
    rw [hgeneration, ok_bind]
    dsimp only
    rw [hws']
    dsimp only
    rw [hletter'.startsWith_self, if_pos rfl, hletter'.consumeBytes, ok_bind, if_pos (by omega),
      dif_pos hnumber]
    have hend : pos + gap.length + text.number.bytes.length + 1 + text.generation.bytes.length + 1
        + [(82 : UInt8)].length = pos + gap.length + text.bytes.length + 1 := by
      unfold KeyText.bytes
      simp only [List.length_append, List.length_cons, List.length_nil]
      omega
    rw [hend]
    rfl
  have hafter : (readerOf bytes).parseReferenceAfter (.integer text.number.value)
      (pos + gap.length + text.number.bytes.length)
      = .ok (some (text.key, pos + gap.length + text.bytes.length + 1)) := htail
  unfold ByteSource.parseNumberOrReference
  rw [hfirst, ok_bind]
  dsimp only
  rw [hafter]
  rfl

/-- `number generation obj`. -/
theorem parseObjectHeader (text : KeyText)
    (h : At bytes pos (text.bytes ++ (utf8 "obj" ++ rest))) :
    parseObjectHeader (readerOf bytes) pos
      = .ok (some (text.key, pos + text.bytes.length + (utf8 "obj").length)) := by
  have hobj : utf8 "obj" = 111 :: [98, 106] := by
    decide
  have hat : At bytes pos ([] ++ (text.number.bytes ++ 32 :: (text.generation.bytes
      ++ 32 :: (utf8 "obj" ++ rest)))) := by
    simpa [KeyText.bytes] using h
  have hlt := text.number_lt
  have hfirst := hat.parseUnsigned u32Size .nil text.number.digits text.number.ne
    (fun b hb => (head_space hb).2)
  unfold Numeral.value at hlt
  rw [if_neg (by omega), List.length_nil, Nat.add_zero] at hfirst
  have hspace : At bytes (pos + text.number.bytes.length) ([32]
      ++ (text.generation.bytes ++ 32 :: (utf8 "obj" ++ rest))) := hat.skip.skip
  obtain ⟨hws, hgeneration, hws', hword⟩ := hspace.generation text fun b hb => by
    rw [hobj] at hb
    cases hb
    rfl
  have hend : pos + text.number.bytes.length + 1 + text.generation.bytes.length + 1
      + (utf8 "obj").length = pos + text.bytes.length + (utf8 "obj").length := by
    unfold KeyText.bytes
    simp only [List.length_append, List.length_cons, List.length_nil]
    omega
  have hkey : 0 < digitsValue text.number.bytes ∧ digitsValue text.number.bytes < u32Size
      ∧ text.generation.value < u16Size := ⟨text.number_pos, hlt, text.generation_lt⟩
  unfold Pdfv.parseObjectHeader ByteSource.parseUnsignedU32
  rw [hfirst, ok_bind]
  dsimp only
  rw [hws, ok_bind, hgeneration, ok_bind]
  dsimp only
  rw [hws', ok_bind, hword.startsWith_self, if_pos rfl, hword.consumeBytes, ok_bind, dif_pos hkey,
    hend]
  rfl

end At

end Keys

/-! ## Objects -/

/-- The keywords that are objects. -/
inductive Keyword where
  | null | yes | no

namespace Keyword

def bytes : Keyword → Bytes
  | null => utf8 "null"
  | yes => utf8 "true"
  | no => utf8 "false"

def object : Keyword → CosObject
  | null => .null
  | yes => .boolean true
  | no => .boolean false

end Keyword

theorem nullMarker_eq : utf8 "null" = 110 :: [117, 108, 108] := by
  decide

theorem trueMarker_eq : utf8 "true" = 116 :: [114, 117, 101] := by
  decide

theorem falseMarker_eq : utf8 "false" = 102 :: [97, 108, 115, 101] := by
  decide

/-- A keyword starts with a letter. -/
theorem Keyword.cons (word : Keyword) :
    ∃ b more, word.bytes = b :: more ∧ isWs b = false ∧ b ≠ 37 ∧ b ≠ 60 ∧ b ≠ 91 := by
  cases word with
  | null => exact ⟨_, _, nullMarker_eq, by decide⟩
  | yes => exact ⟨_, _, trueMarker_eq, by decide⟩
  | no => exact ⟨_, _, falseMarker_eq, by decide⟩

section Objects

variable {source rest : Bytes} {pos : Nat} {limits : ResourceLimits}

/-- An object that is neither a dictionary nor an array is read by `parseScalar`. -/
theorem At.parseObject_scalar {b : UInt8} {gap : Bytes} (hgap : Blank gap)
    (h : At source pos (gap ++ b :: rest)) (hws : isWs b = false) (hpercent : b ≠ 37)
    (hless : b ≠ 60) (hbracket : b ≠ 91) {fuel depth : Nat} (hdepth : depth ≤ limits.maxObjectDepth) :
    (readerOf source).parseObjectWith limits (fuel + 1) depth pos
      = (readerOf source).parseScalar limits b (pos + gap.length) := by
  have hskip := At.skipBlank hgap (startsToken_of_ne hws hpercent) h
  rw [ByteSource.parseObjectWith, if_neg (by omega)]
  dsimp only
  rw [hskip, h.skip.not_startsWith rfl (Ne.symm hless), if_neg Bool.false_ne_true,
    h.skip.not_startsWith rfl (Ne.symm hbracket), if_neg Bool.false_ne_true, h.skip.byte]
  rfl

/-- A reference as an object. -/
theorem At.parseObject_reference (text : KeyText) {gap : Bytes} (hgap : Blank gap)
    (h : At source pos (gap ++ (text.bytes ++ 82 :: rest))) {fuel depth : Nat}
    (hdepth : depth ≤ limits.maxObjectDepth) :
    (readerOf source).parseObjectWith limits (fuel + 1) depth pos
      = .ok (.reference text.key, pos + gap.length + text.bytes.length + 1) := by
  obtain ⟨b, digits, hbytes, hb⟩ := text.number.cons
  obtain ⟨more, hmore⟩ : ∃ more, text.bytes ++ 82 :: rest = b :: more := by
    unfold KeyText.bytes
    rw [hbytes]
    exact ⟨_, rfl⟩
  have hother : ∀ c, isDigit c = false → b ≠ c := by
    rintro c hc rfl
    rw [hb] at hc
    cases hc
  have hnil : At source (pos + gap.length) ([] ++ (text.bytes ++ 82 :: rest)) := h.skip
  have hread := hnil.parseReference text .nil
  rw [List.length_nil, Nat.add_zero] at hread
  rw [hmore] at h
  rw [At.parseObject_scalar hgap h (isWs_of_isDigit hb) (hother 37 rfl) (hother 60 rfl)
    (hother 91 rfl) hdepth]
  unfold ByteSource.parseScalar
  rw [if_neg (hother 47 rfl), if_neg (hother 40 rfl), if_neg (hother 60 rfl),
    decide_eq_false (hother 116 rfl), decide_eq_false (hother 102 rfl),
    decide_eq_false (hother 110 rfl), hb, hread]
  simp

/-- A keyword as an object. -/
theorem At.parseObject_keyword (word : Keyword) {gap : Bytes} (hgap : Blank gap)
    (h : At source pos (gap ++ (word.bytes ++ rest))) {fuel depth : Nat}
    (hdepth : depth ≤ limits.maxObjectDepth) :
    (readerOf source).parseObjectWith limits (fuel + 1) depth pos
      = .ok (word.object, pos + gap.length + word.bytes.length) := by
  obtain ⟨b, more, hbytes, hws, hpercent, hless, hbracket⟩ := word.cons
  have hstart := h.skip.startsWith_self
  have hread := h.skip.consumeBytes
  have hhead : At source pos (gap ++ b :: (more ++ rest)) := by
    rw [hbytes] at h
    exact h
  rw [At.parseObject_scalar hgap hhead hws hpercent hless hbracket hdepth]
  unfold ByteSource.parseScalar
  cases word with
  | null =>
    cases nullMarker_eq.symm.trans hbytes
    simp only [Keyword.bytes] at hstart hread ⊢
    rw [hstart, hread]
    rfl
  | yes =>
    cases trueMarker_eq.symm.trans hbytes
    simp only [Keyword.bytes] at hstart hread ⊢
    rw [hstart, hread]
    rfl
  | no =>
    cases falseMarker_eq.symm.trans hbytes
    simp only [Keyword.bytes] at hstart hread ⊢
    rw [hstart, hread]
    rfl

theorem endobjMarker_eq : endobjMarker = 101 :: [110, 100, 111, 98, 106] := by
  decide

theorem space_blank : Blank [32] :=
  .ws rfl .nil

/-- The text of an indirect object, `number generation obj value endobj`. -/
def indirectObjectBytes (text : KeyText) (value : Bytes) : Bytes :=
  text.bytes ++ (utf8 "obj" ++ ([32] ++ (value ++ ([32] ++ endobjMarker))))

/-- An indirect object is read when its value is, after a space and whatever follows. -/
theorem parseIndirectObject_text (limits : ResourceLimits) (text : KeyText) {value : Bytes}
    {object : CosObject} (hplain : ∀ entries, object ≠ .dictionary entries)
    (hvalue : ∀ {source rest : Bytes} {pos : Nat}, At source pos ([32] ++ (value ++ rest)) →
      (readerOf source).parseObject limits 0 pos
        = .ok (object, pos + [(32 : UInt8)].length + value.length))
    (pre post : Bytes) (log : FactLog) :
    parseIndirectObject (.memory (pre ++ (indirectObjectBytes text value ++ post))) limits pre.length
        log
      = .ok (some (⟨text.key, pre.length, object⟩,
          pre.length + (indirectObjectBytes text value).length, log)) := by
  have hat : At (pre ++ (indirectObjectBytes text value ++ post)) pre.length (text.bytes
      ++ (utf8 "obj" ++ ([32] ++ (value ++ ([32] ++ (endobjMarker ++ post)))))) := by
    have happend := At.append pre (indirectObjectBytes text value ++ post)
    simpa only [indirectObjectBytes, List.append_assoc] using happend
  generalize pre ++ (indirectObjectBytes text value ++ post) = source at hat
  have hread := hvalue hat.skip.skip
  have hend := hat.skip.skip.skip.skip
  have htoken : StartsToken (endobjMarker ++ post) := by
    rw [endobjMarker_eq]
    exact startsToken_of_ne rfl (by decide)
  have hskip := At.skipBlank space_blank htoken hend
  have hvalueRead : parseIndirectValue (.memory source) limits text.key
      (pre.length + text.bytes.length + (utf8 "obj").length) log
      = .ok (object, pre.length + text.bytes.length + (utf8 "obj").length
        + [(32 : UInt8)].length + value.length, log) := by
    unfold parseIndirectValue
    dsimp only
    rw [hread, ok_bind]
    cases object with
    | dictionary entries => exact absurd rfl (hplain entries)
    | _ => rfl
  have hlength : pre.length + text.bytes.length + (utf8 "obj").length + [(32 : UInt8)].length
      + value.length + [(32 : UInt8)].length + endobjMarker.length
      = pre.length + (indirectObjectBytes text value).length := by
    unfold indirectObjectBytes
    simp only [List.length_append]
    omega
  unfold parseIndirectObject
  dsimp only
  rw [hat.parseObjectHeader text, ok_bind]
  dsimp only
  rw [hvalueRead, ok_bind]
  dsimp only
  rw [hskip, hend.skip.startsWith_self, if_pos rfl, hlength]
  rfl

theorem indirectObjectBytes_starts (text : KeyText) (value : Bytes) :
    ∃ b rest, indirectObjectBytes text value = b :: rest ∧ isDigit b = true := by
  obtain ⟨b, digits, hbytes, hb⟩ := text.number.cons
  unfold indirectObjectBytes KeyText.bytes
  rw [hbytes]
  exact ⟨b, _, rfl, hb⟩

/-- The text of an indirect object with a keyword, `number generation obj keyword endobj`. -/
def keywordObjectBytes (text : KeyText) (word : Keyword) : Bytes :=
  text.bytes ++ (utf8 "obj" ++ ([32] ++ (word.bytes ++ ([32] ++ endobjMarker))))

theorem parseIndirectObject_keyword (limits : ResourceLimits) (text : KeyText) (word : Keyword)
    (pre post : Bytes) (log : FactLog) :
    parseIndirectObject (.memory (pre ++ (keywordObjectBytes text word ++ post))) limits pre.length log
      = .ok (some (⟨text.key, pre.length, word.object⟩,
          pre.length + (keywordObjectBytes text word).length, log)) := by
  refine parseIndirectObject_text limits text (fun entries => ?_) (fun hat => ?_) pre post log
  · cases word with
    | null => exact CosObject.noConfusion
    | yes => exact CosObject.noConfusion
    | no => exact CosObject.noConfusion
  · exact hat.parseObject_keyword word space_blank (Nat.zero_le _)

/-- An indirect object with a keyword. -/
def keywordObject (limits : ResourceLimits) (text : KeyText) (word : Keyword) :
    ObjectText limits where
  bytes := keywordObjectBytes text word
  key := text.key
  value := word.object
  plain := by
    intro stream
    cases word with
    | null => exact CosObject.noConfusion
    | yes => exact CosObject.noConfusion
    | no => exact CosObject.noConfusion
  starts := indirectObjectBytes_starts text word.bytes
  reads := parseIndirectObject_keyword limits text word

/-! ## Trailers -/

/-- The text `<</Root number generation R>>`. -/
def rootTrailerBytes (text : KeyText) : Bytes :=
  [60, 60] ++ (47 :: (utf8 "Root" ++ ([32] ++ (text.bytes ++ [82, 62, 62]))))

/-- The dictionary it spells. -/
def rootDictionary (text : KeyText) : Dictionary :=
  [(PdfName.fromStatic "Root", .reference text.key)]

theorem rootDictionary_root (text : KeyText) :
    (rootDictionary text).get "Root" = some (.reference text.key) := by
  unfold rootDictionary Dictionary.get
  rw [OrdList.lookup, Std.ReflOrd.compare_self, if_pos rfl]

theorem rootDictionary_other (text : KeyText) {key : String}
    (h : compare (PdfName.fromStatic key) (PdfName.fromStatic "Root") ≠ .eq) :
    (rootDictionary text).get key = none := by
  unfold rootDictionary Dictionary.get
  rw [OrdList.lookup]
  split
  · rename_i heq
    exact absurd heq h
  · rfl

theorem parseDictionary_root (limits : ResourceLimits) (hdepth : 1 ≤ limits.maxObjectDepth)
    (hname : 4 ≤ limits.maxNameBytes) (hentries : 1 ≤ limits.maxDictEntries) (text : KeyText)
    (pre post : Bytes) :
    (readerOf (pre ++ (rootTrailerBytes text ++ post))).parseDictionary limits 0 pre.length
      = .ok (rootDictionary text, pre.length + (rootTrailerBytes text).length) := by
  have hat : At (pre ++ (rootTrailerBytes text ++ post)) pre.length ([60, 60] ++ (47 :: (utf8 "Root"
      ++ ([32] ++ (text.bytes ++ 82 :: ([62, 62] ++ post)))))) := by
    have happend := At.append pre (rootTrailerBytes text ++ post)
    simpa [rootTrailerBytes] using happend
  generalize pre ++ (rootTrailerBytes text ++ post) = source at hat
  have hslash := hat.skip
  have hrootName : (utf8 "Root").length = 4 := by
    decide
  have hregular : ∀ b ∈ utf8 "Root", isRegular b = true := by
    decide
  have hstay := hslash.skipToken (startsToken_of_ne rfl (by decide))
  have hmore : (readerOf source).startsWith (pre.length + [(60 : UInt8), 60].length) [62, 62]
      = false := hslash.not_startsWith rfl (by decide)
  have hkey : (readerOf source).parseName limits (pre.length + [(60 : UInt8), 60].length)
      = .ok (⟨utf8 "Root"⟩, pre.length + [(60 : UInt8), 60].length + 1 + (utf8 "Root").length) :=
    hslash.parseName hregular (fun b hb => .inr (head_space hb).1) (by omega)
  have hspace := hslash.next.skip
  have hvalue : (readerOf source).parseObjectWith limits (3 * source.length + 4) 1
      (pre.length + [(60 : UInt8), 60].length + 1 + (utf8 "Root").length)
      = .ok (.reference text.key, pre.length + [(60 : UInt8), 60].length + 1 + (utf8 "Root").length
        + [(32 : UInt8)].length + text.bytes.length + 1) :=
    hspace.parseObject_reference text space_blank hdepth
  have hend : At source (pre.length + [(60 : UInt8), 60].length + 1 + (utf8 "Root").length
        + [(32 : UInt8)].length + text.bytes.length + 1) ([62, 62] ++ post) :=
    hspace.skip.skip.next
  have hclose := hend.skipToken (startsToken_of_ne rfl (by decide))
  have hlength : pre.length + [(60 : UInt8), 60].length + 1 + (utf8 "Root").length
        + [(32 : UInt8)].length + text.bytes.length + 1 + [(62 : UInt8), 62].length
      = pre.length + (rootTrailerBytes text).length := by
    unfold rootTrailerBytes
    simp only [List.length_append, List.length_cons, List.length_nil]
    omega
  show (readerOf source).parseDictionaryWith limits (3 * source.length + 6) 0 pre.length = _
  rw [ByteSource.parseDictionaryWith, hat.consumeBytes, ok_bind, ByteSource.parseEntriesWith]
  dsimp only
  rw [hstay, hmore, if_neg Bool.false_ne_true, hkey, ok_bind]
  dsimp only
  have hdeeper : ByteSource.deeper 0 = 1 := by
    decide
  rw [hdeeper, hvalue, ok_bind]
  dsimp only
  rw [if_neg (by rw [List.length_nil]; omega), ByteSource.parseEntriesWith]
  dsimp only
  rw [hclose, hend.startsWith_self, if_pos rfl, hend.consumeBytes, ok_bind, hlength]
  rfl

/-- A trailer dictionary with `/Root` only. -/
def rootTrailer (limits : ResourceLimits) (hdepth : 1 ≤ limits.maxObjectDepth)
    (hname : 4 ≤ limits.maxNameBytes) (hentries : 1 ≤ limits.maxDictEntries) (text : KeyText) :
    TrailerText limits where
  bytes := rootTrailerBytes text
  dictionary := rootDictionary text
  starts := ⟨_, rfl⟩
  reads := parseDictionary_root limits hdepth hname hentries text
  root := text.key
  hasRoot := by
    unfold objectRefFromDictionary
    rw [rootDictionary_root]
  unencrypted := rootDictionary_other text (by decide)
  prev := by
    intro value hvalue
    unfold integerFromDictionary at hvalue
    rw [rootDictionary_other text (by decide)] at hvalue
    cases hvalue
  xrefStm := by
    intro value hvalue
    unfold integerFromDictionary at hvalue
    rw [rootDictionary_other text (by decide)] at hvalue
    cases hvalue

end Objects

end Pdfv
