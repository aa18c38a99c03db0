import Pdfv.Parser.Spelling
/-!
# Canonical syntax

The canonical text of an object: decimal numbers, names with an escape for every byte that is not
regular, strings in hexadecimal form, and single spaces between the elements of an array, between
the entries of a dictionary and between a key and its value. Each kind of token gets one lemma
saying that its reader reads the text back.
-/

namespace Pdfv

open Loop Fallible

/-! ## Tokens -/

/-- The decimal digits of a number. -/
def decimalBytes (n : Nat) : Bytes :=
  (Nat.toDigits 10 n).map fun c => UInt8.ofNat c.toNat

/-- A number with its sign. -/
def integerBytes (value : Int) : Bytes :=
  if value < 0 then 45 :: decimalBytes value.natAbs else decimalBytes value.natAbs

/-- One hexadecimal digit, lower case. -/
def hexDigit (n : Nat) : UInt8 :=
  UInt8.ofNat (if n < 10 then 48 + n else 87 + n)

/-- The two digits of a byte. -/
def hexPair (b : UInt8) : Bytes :=
  [hexDigit (b.toNat / 16), hexDigit (b.toNat % 16)]

/-- A byte that a canonical name writes as itself: printable, no delimiter and no `#`. -/
def isRegularName (b : UInt8) : Bool :=
  33 ≤ b && b ≤ 126 && !isDelimiter b && b ≠ 35

/-- One byte of a name. -/
def nameByteText (b : UInt8) : Bytes :=
  if isRegularName b then [b] else 35 :: hexPair b

def nameText (name : PdfName) : Bytes :=
  47 :: name.bytes.flatMap nameByteText

def stringText (string : PdfString) : Bytes :=
  60 :: (string.bytes.flatMap hexPair ++ [62])

def referenceText (key : ObjectKey) : Bytes :=
  decimalBytes key.number ++ 32 :: (decimalBytes key.generation ++ [32, 82])

/-! ## Objects -/

mutual

/-- The canonical text of an object without reals and streams. -/
def objectText : CosObject → Bytes
  | .null => utf8 "null"
  | .boolean true => utf8 "true"
  | .boolean false => utf8 "false"
  | .integer value => integerBytes value
  | .name name => nameText name
  | .string string => stringText string
  | .reference key => referenceText key
  | .array values => 91 :: (itemsText values ++ [93])
  | .dictionary entries => [60, 60] ++ (entriesText entries ++ [62, 62])
  | .real _ | .stream _ => []

/-- The elements of an array, with single spaces between them. -/
def itemsText : List CosObject → Bytes
  | [] => []
  | value :: rest => objectText value ++ (if rest.isEmpty then [] else 32 :: itemsText rest)

/-- The entries of a dictionary, with single spaces. -/
def entriesText : List (PdfName × CosObject) → Bytes
  | [] => []
  | entry :: rest => entryText entry ++ (if rest.isEmpty then [] else 32 :: entriesText rest)

/-- A key and its value. -/
def entryText : PdfName × CosObject → Bytes
  | (name, value) => nameText name ++ 32 :: objectText value

end

/-- The objects of the canonical syntax that fit the limits at a nesting depth. -/
inductive Fits (limits : ResourceLimits) : Nat → CosObject → Prop where
  | null {depth : Nat} (hdepth : depth ≤ limits.maxObjectDepth) : Fits limits depth .null
  | boolean {depth : Nat} (hdepth : depth ≤ limits.maxObjectDepth) (value : Bool) :
    Fits limits depth (.boolean value)
  | integer {depth : Nat} (hdepth : depth ≤ limits.maxObjectDepth) {value : Int}
    (hmin : -(2 ^ 63) ≤ value) (hmax : value < 2 ^ 63) : Fits limits depth (.integer value)
  | name {depth : Nat} (hdepth : depth ≤ limits.maxObjectDepth) {name : PdfName}
    (hlength : name.bytes.length ≤ limits.maxNameBytes) : Fits limits depth (.name name)
  | string {depth : Nat} (hdepth : depth ≤ limits.maxObjectDepth) {string : PdfString}
    (hlength : string.bytes.length ≤ limits.maxStringBytes) : Fits limits depth (.string string)
  | reference {depth : Nat} (hdepth : depth ≤ limits.maxObjectDepth) (key : ObjectKey) :
    Fits limits depth (.reference key)
  | array {depth : Nat} (hdepth : depth ≤ limits.maxObjectDepth) {values : List CosObject}
    (hlength : values.length ≤ limits.maxArrayLen)
    (hvalues : ∀ value ∈ values, Fits limits (depth + 1) value) : Fits limits depth (.array values)
  | dictionary {depth : Nat} (hdepth : depth ≤ limits.maxObjectDepth) {entries : Dictionary}
    (hlength : entries.length ≤ limits.maxDictEntries) (hsorted : OrdList.Sorted entries)
    (hnames : ∀ entry ∈ entries, entry.1.bytes.length ≤ limits.maxNameBytes)
    (hvalues : ∀ entry ∈ entries, Fits limits (depth + 1) entry.2) :
    Fits limits depth (.dictionary entries)

/-! ## Digits -/

theorem digitByte_digitChar : ∀ d < 10, UInt8.ofNat (Nat.digitChar d).toNat = UInt8.ofNat (48 + d) := by
  decide

theorem isDigit_ofNat : ∀ d < 10, isDigit (UInt8.ofNat (48 + d)) = true := by
  decide

theorem digitValue_ofNat : ∀ d < 10, digitValue (UInt8.ofNat (48 + d)) = d := by
  decide

/-- The digits of a number below ten, and those of a larger one by its last digit. -/
theorem decimalBytes_step (n : Nat) :
    decimalBytes n = (if n < 10 then [] else decimalBytes (n / 10)) ++ [UInt8.ofNat (48 + n % 10)] := by
  unfold decimalBytes
  by_cases h : n < 10
  · rw [Nat.toDigits_of_lt_base h, if_pos h, Nat.mod_eq_of_lt h]
    simp [digitByte_digitChar n h]
  · rw [Nat.toDigits_of_base_le (by omega) (by omega), if_neg h, List.map_append]
    simp [digitByte_digitChar (n % 10) (by omega)]

theorem digitsValue_append (ds : Bytes) (b : UInt8) :
    digitsValue (ds ++ [b]) = digitsValue ds * 10 + digitValue b := by
  unfold digitsValue
  rw [List.foldl_append]
  rfl

theorem digitsValue_decimalBytes (n : Nat) : digitsValue (decimalBytes n) = n := by
  induction n using Nat.strongRecOn with
  | _ n ih =>
    rw [decimalBytes_step, digitsValue_append, digitValue_ofNat (n % 10) (by omega)]
    by_cases h : n < 10
    · rw [if_pos h]
      show 0 * 10 + n % 10 = n
      omega
    · rw [if_neg h, ih (n / 10) (by omega)]
      omega

theorem decimalBytes_digits (n : Nat) : ∀ b ∈ decimalBytes n, isDigit b = true := by
  induction n using Nat.strongRecOn with
  | _ n ih =>
    intro b hb
    rw [decimalBytes_step, List.mem_append, List.mem_singleton] at hb
    rcases hb with hb | rfl
    · by_cases h : n < 10
      · rw [if_pos h] at hb
        cases hb
      · rw [if_neg h] at hb
        exact ih (n / 10) (by omega) b hb
    · exact isDigit_ofNat (n % 10) (by omega)

theorem decimalBytes_ne (n : Nat) : decimalBytes n ≠ [] := by
  rw [decimalBytes_step]
  exact List.append_ne_nil_of_right_ne_nil _ (List.cons_ne_nil _ _)

/-- The digits of a number as a numeral. -/
def decimalNumeral (n : Nat) : Numeral where
  bytes := decimalBytes n
  digits := decimalBytes_digits n
  ne := decimalBytes_ne n

theorem decimalNumeral_value (n : Nat) : (decimalNumeral n).value = n :=
  digitsValue_decimalBytes n

/-! ## Hexadecimal digits -/

theorem decodeHexPair_ofNat : ∀ n < 256,
    decodeHexPair (hexDigit (n / 16)) (hexDigit (n % 16)) = some (UInt8.ofNat n) := by
  decide +kernel

theorem decodeHexPair_hexPair (b : UInt8) :
    decodeHexPair (hexDigit (b.toNat / 16)) (hexDigit (b.toNat % 16)) = some b := by
  rw [decodeHexPair_ofNat b.toNat b.toNat_lt, UInt8.ofNat_toNat]

theorem hexDigit_plain : ∀ n < 16, isWs (hexDigit n) = false ∧ hexDigit n ≠ 62 := by
  decide

theorem decodeHexPairs_text (bytes : Bytes) : ByteSource.decodeHexPairs (bytes.flatMap hexPair) = some bytes := by
  induction bytes with
  | nil => rfl
  | cons b bytes ih =>
    show ByteSource.decodeHexPairs (hexDigit (b.toNat / 16) :: hexDigit (b.toNat % 16) :: bytes.flatMap hexPair)
      = some (b :: bytes)
    rw [ByteSource.decodeHexPairs, decodeHexPair_hexPair, ih]
    rfl

/-- The digits of a hexadecimal string are neither white space nor its end. -/
theorem hexText_plain (bytes : Bytes) :
    ∀ b ∈ bytes.flatMap hexPair, isWs b = false ∧ b ≠ 62 := by
  intro b hb
  rw [List.mem_flatMap] at hb
  obtain ⟨c, -, hc⟩ := hb
  unfold hexPair at hc
  have hlt := c.toNat_lt
  rcases List.mem_cons.mp hc with rfl | hc
  · exact hexDigit_plain _ (by omega)
  · rw [List.mem_singleton] at hc
    rw [hc]
    exact hexDigit_plain _ (by omega)

theorem isRegularName_spec {b : UInt8} (h : isRegularName b = true) :
    isDelimiter b = false ∧ isWs b = false ∧ b ≠ 35 := by
  unfold isRegularName at h
  unfold isWs
  grind

theorem nameBytes_length_le (bytes : Bytes) : bytes.length ≤ (bytes.flatMap nameByteText).length := by
  induction bytes with
  | nil => exact Nat.le_refl 0
  | cons b bytes ih =>
    have hone : 1 ≤ (nameByteText b).length := by
      unfold nameByteText
      split
      · exact Nat.le_refl 1
      · exact Nat.le_add_left 1 2
    rw [List.flatMap_cons, List.length_append, List.length_cons]
    omega

section Readers

variable {bytes rest : Bytes} {pos : Nat} {limits : ResourceLimits}

namespace At

theorem hexNibblesLoop {text nibbles : Bytes} (h : At bytes pos (text ++ 62 :: rest))
    (htext : ∀ b ∈ text, isWs b = false ∧ b ≠ 62) {fuel : Nat} (hfuel : text.length < fuel) :
    runLoop (readerOf bytes).hexNibblesStep id fuel (nibbles, pos)
      = (nibbles ++ text, pos + text.length + 1) := by
  induction text generalizing pos nibbles fuel with
  | nil =>
    obtain ⟨fuel, rfl⟩ : ∃ n, fuel = n + 1 := ⟨fuel - 1, by rw [List.length_nil] at hfuel; omega⟩
    have hbyte : (readerOf bytes).byte pos = some 62 := h.byte
    have hstep : (readerOf bytes).hexNibblesStep (nibbles, pos) = .done (nibbles, pos + 1) := by
      unfold ByteSource.hexNibblesStep
      dsimp only
      rw [hbyte]
      rfl
    rw [runLoop_done hstep, List.append_nil]
    rfl
  | cons b text ih =>
    rw [List.length_cons] at hfuel ⊢
    obtain ⟨fuel, rfl⟩ : ∃ n, fuel = n + 1 := ⟨fuel - 1, by omega⟩
    obtain ⟨hws, hend⟩ := htext b List.mem_cons_self
    have hbyte : (readerOf bytes).byte pos = some b := h.byte
    have hstep : (readerOf bytes).hexNibblesStep (nibbles, pos) = .next (nibbles ++ [b], pos + 1) := by
      unfold ByteSource.hexNibblesStep
      dsimp only
      rw [hbyte]
      dsimp only
      rw [if_neg hend, hws]
      rfl
    have hnext : At bytes (pos + 1) (text ++ 62 :: rest) := h.next
    rw [runLoop_next hstep, ih hnext (fun c hc => htext c (List.mem_cons_of_mem _ hc)) (by omega),
      List.append_assoc]
    simp only [List.singleton_append, Prod.mk.injEq, true_and]
    omega

/-- A string in hexadecimal form. -/
theorem parseHexString {string : PdfString} (h : At bytes pos (stringText string ++ rest))
    (hlimit : string.bytes.length ≤ limits.maxStringBytes) :
    (readerOf bytes).parseHexString limits pos
      = .ok (string, pos + (stringText string).length) := by
  have hopen : At bytes pos ([60] ++ (string.bytes.flatMap hexPair ++ 62 :: rest)) := by
    simpa [stringText] using h
  have hlen := hopen.skip.length
  rw [List.length_append, List.length_singleton] at hlen
  have hloop : runLoop (readerOf bytes).hexNibblesStep id ((readerOf bytes).len - (pos + 1) + 1)
      ([], pos + 1) = ([] ++ string.bytes.flatMap hexPair,
        pos + 1 + (string.bytes.flatMap hexPair).length + 1) := by
    refine hopen.skip.hexNibblesLoop (hexText_plain string.bytes) ?_
    show (string.bytes.flatMap hexPair).length < bytes.length - (pos + 1) + 1
    omega
  unfold ByteSource.parseHexString
  rw [hopen.consumeBytes, ok_bind, List.length_singleton]
  dsimp only
  rw [hloop, List.nil_append, decodeHexPairs_text]
  dsimp only
  unfold PdfString.new
  rw [if_neg (by omega), ok_bind]
  simp only [stringText, List.length_cons, List.length_append, List.length_nil, pure, Except.pure,
    Except.ok.injEq, Prod.mk.injEq, true_and]
  omega

/-! ## Names -/

/-- One pass over the text of one byte of a name. -/
theorem parseNameStep_text {b : UInt8} {read : Bytes} (h : At bytes pos (nameByteText b ++ rest))
    (hlimit : read.length + 1 ≤ limits.maxNameBytes) :
    (readerOf bytes).parseNameStep limits (read, pos)
      = .next (read ++ [b], pos + (nameByteText b).length) := by
  have hcheck : ∀ stop, ByteSource.checkNameLen limits (read ++ [b]) stop
      = .next (read ++ [b], stop) := by
    intro stop
    unfold ByteSource.checkNameLen
    rw [if_neg (by rw [List.length_append, List.length_singleton]; omega)]
  unfold ByteSource.parseNameStep
  dsimp only
  unfold nameByteText at h ⊢
  by_cases hregular : isRegularName b = true
  · rw [if_pos hregular] at h ⊢
    obtain ⟨hdelimiter, hws, hescape⟩ := isRegularName_spec hregular
    have hbyte : (readerOf bytes).byte pos = some b := h.byte
    rw [hbyte]
    dsimp only
    rw [if_neg (by rw [hdelimiter, hws]; exact Bool.false_ne_true), if_neg hescape]
    exact hcheck (pos + 1)
  · rw [if_neg hregular] at h ⊢
    have hescape : At bytes pos (35 :: hexDigit (b.toNat / 16) :: hexDigit (b.toNat % 16) :: rest) := h
    have hbyte : (readerOf bytes).byte pos = some 35 := hescape.byte
    have hhigh : (readerOf bytes).byte (pos + 1) = some (hexDigit (b.toNat / 16)) := hescape.next.byte
    have hlow : (readerOf bytes).byte (pos + 2) = some (hexDigit (b.toNat % 16)) :=
      hescape.next.next.byte
    rw [hbyte, hhigh, hlow]
    dsimp only
    rw [decodeHexPair_hexPair]
    exact hcheck (pos + 3)

theorem parseNameTextLoop {name read : Bytes} (h : At bytes pos (name.flatMap nameByteText ++ rest))
    (hrest : ∀ b, rest.head? = some b → isDelimiter b = true ∨ isWs b = true)
    (hlimit : read.length + name.length ≤ limits.maxNameBytes) {fuel : Nat}
    (hfuel : name.length < fuel) :
    runLoop ((readerOf bytes).parseNameStep limits) (fun s => .ok s) fuel (read, pos)
      = .ok (read ++ name, pos + (name.flatMap nameByteText).length) := by
  induction name generalizing pos read fuel with
  | nil =>
    have hat : At bytes pos ([] ++ rest) := h
    exact hat.parseNameLoop (fun b hb => absurd hb List.not_mem_nil) hrest hlimit hfuel
  | cons b name ih =>
    rw [List.length_cons] at hfuel hlimit
    obtain ⟨fuel, rfl⟩ : ∃ n, fuel = n + 1 := ⟨fuel - 1, by omega⟩
    have hsplit : At bytes pos (nameByteText b ++ (name.flatMap nameByteText ++ rest)) := by
      simpa using h
    have hstep : (readerOf bytes).parseNameStep limits (read, pos)
        = .next (read ++ [b], pos + (nameByteText b).length) :=
      hsplit.parseNameStep_text (by omega)
    rw [runLoop_next hstep, ih hsplit.skip (by rw [List.length_append, List.length_singleton]; omega)
      (by omega), List.append_assoc]
    simp only [List.singleton_append, List.flatMap_cons, List.length_append, Except.ok.injEq,
      Prod.mk.injEq, true_and]
    omega

/-- A name with escapes, up to white space or a delimiter. -/
theorem parseNameText {name : PdfName} (h : At bytes pos (nameText name ++ rest))
    (hrest : ∀ b, rest.head? = some b → isDelimiter b = true ∨ isWs b = true)
    (hlimit : name.bytes.length ≤ limits.maxNameBytes) :
    (readerOf bytes).parseName limits pos = .ok (name, pos + (nameText name).length) := by
  have hslash : At bytes pos ([47] ++ (name.bytes.flatMap nameByteText ++ rest)) := h
  have hlen := hslash.skip.length
  rw [List.length_append, List.length_singleton] at hlen
  have hshort := nameBytes_length_le name.bytes
  have hloop : runLoop ((readerOf bytes).parseNameStep limits) (fun s => .ok s)
      ((readerOf bytes).len - (pos + 1) + 1) ([], pos + 1)
      = .ok ([] ++ name.bytes, pos + 1 + (name.bytes.flatMap nameByteText).length) := by
    refine hslash.skip.parseNameTextLoop hrest (by rw [List.length_nil]; omega) ?_
    show name.bytes.length < bytes.length - (pos + 1) + 1
    omega
  unfold ByteSource.parseName
  rw [hslash.consumeBytes, ok_bind, List.length_singleton, hloop, ok_bind]
  dsimp only
  unfold PdfName.new
  rw [List.nil_append, if_neg (by omega)]
  simp only [nameText, List.length_cons, ok_bind, pure, Except.pure, Except.ok.injEq, Prod.mk.injEq,
    true_and]
  omega

end At

end Readers

end Pdfv
