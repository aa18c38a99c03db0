import Pdfv.Parser.DecryptionInverse
/-!
# Streams that the security handler does not encrypt

A cross-reference stream and a stream under the identity crypt filter are stored as they are.
`decrypt_objects` deciphers them like any other: `exemptStreams_survive_iff` says when they come
through unchanged.
-/

namespace Pdfv

open Fallible

/-- The `Filter` entry names `Crypt` with the parameter `/Name /Identity`. -/
def namesIdentityCrypt (entries : Dictionary) : Bool :=
  match entries.get "Filter" with
  | some (.name _) => isIdentityCryptFilter entries 0
  | some (.array filters) => (List.range filters.length).any (isIdentityCryptFilter entries)
  | _ => false

/-- The stream is a cross-reference stream. -/
def isXrefStream (stream : StreamObject) : Bool :=
  entryIsName stream.dictionary "Type" "XRef"

/-- The standard security handler leaves the stream alone. -/
def isExempt (stream : StreamObject) : Bool :=
  isXrefStream stream || namesIdentityCrypt stream.dictionary

/-- What an exempt stream must be afterwards: a stream with the same raw bytes, and of a
cross-reference stream the dictionary is the same. -/
def Survives (before after : IndirectObject) : Prop :=
  ∀ stream, before.object = .stream stream → isExempt stream = true →
    ∃ stream', after.object = .stream stream' ∧ stream'.rawBytes = stream.rawBytes
      ∧ (isXrefStream stream = true → stream'.dictionary = stream.dictionary)

/-- A string or a stream inside an object. -/
abbrev Secret := PdfString ⊕ StreamObject

mutual

/-- The strings and streams of an object, in the order in which they are deciphered. -/
def secrets : CosObject → List Secret
  | .string string => [.inl string]
  | .array values => secretsOfValues values
  | .dictionary entries => secretsOfEntries entries
  | .stream ⟨entries, range, declared, discovered, filters, params, source, crlf, eol⟩ =>
    .inr ⟨entries, range, declared, discovered, filters, params, source, crlf, eol⟩
      :: secretsOfEntries entries
  | _ => []

/-- `secrets` of the elements of an array. -/
def secretsOfValues : List CosObject → List Secret
  | [] => []
  | value :: values => secrets value ++ secretsOfValues values

/-- `secrets` of the values of a dictionary. -/
def secretsOfEntries : List (PdfName × CosObject) → List Secret
  | [] => []
  | (_, value) :: entries => secrets value ++ secretsOfEntries entries

end

section Conditions

variable (crates : Crates) (limits : ResourceLimits) (dictionary : EncryptionDictionary)
  (fileKey : Bytes)

/-- The cipher takes the stored body of the stream to other bytes; both fit the limits. -/
def Garbled (key : ObjectKey) (stream : StreamObject) : Prop :=
  ¬ KeepsBody dictionary stream
    ∧ ∃ raw plain, stream.rawBytes = .ok raw ∧ raw.length ≤ limits.maxStreamDeclaredBytes
      ∧ decryptBytes crates dictionary.streamMethod
        (objectKey crates fileKey key dictionary.streamMethod) raw = .ok plain
      ∧ plain.length ≤ limits.maxDecryptedStreamBytes ∧ plain ≠ raw

/-- One string or stream, deciphered. -/
def decryptSecret (key : ObjectKey) : Secret → DecryptResult Secret
  | .inl string => (decryptString crates limits dictionary fileKey key string).map .inl
  | .inr stream => (decryptStream crates limits dictionary fileKey key stream).map .inr

/-- Every string and stream of the list, up to the first that is refused, is deciphered to
itself. -/
def Fixed (key : ObjectKey) : List Secret → Prop
  | [] => True
  | secret :: rest =>
    match decryptSecret crates limits dictionary fileKey key secret with
    | .error _ => True
    | .ok plain => plain = secret ∧ Fixed key rest

/-- Deciphering does no harm to an exempt stream: its body is not garbled, and the strings of a
cross-reference stream whose body is not refused are fixed. -/
def Harmless (key : ObjectKey) (stream : StreamObject) : Prop :=
  ¬ Garbled crates limits dictionary fileKey key stream
    ∧ (isXrefStream stream = true →
      (∃ plain, decryptStream crates limits dictionary fileKey key stream = .ok plain) →
      Fixed crates limits dictionary fileKey key (secretsOfEntries stream.dictionary))

end Conditions

section Traversal

variable {crates : Crates} {limits : ResourceLimits} {dictionary : EncryptionDictionary}
  {fileKey : Bytes} {key : ObjectKey}

theorem fixed_append (first second : List Secret) :
    Fixed crates limits dictionary fileKey key (first ++ second)
      ↔ Fixed crates limits dictionary fileKey key first
        ∧ ((∀ secret ∈ first, ∃ plain,
            decryptSecret crates limits dictionary fileKey key secret = .ok plain) →
          Fixed crates limits dictionary fileKey key second) := by
  induction first with
  | nil => simp [Fixed]
  | cons secret rest ih =>
    simp only [List.cons_append, Fixed]
    cases hsecret : decryptSecret crates limits dictionary fileKey key secret with
    | error e => simp [hsecret]
    | ok plain =>
      simp only [ih, and_assoc, List.forall_mem_cons, hsecret]
      simp

variable (crates limits dictionary fileKey key) in
/-- An in-place operation that deciphers the secrets in their order: it fails on the first that is
refused, and leaves the value as it was exactly when the secrets are fixed. -/
structure Deciphers {α : Type} (old : α) (result : Mutated α) (secrets : List Secret) : Prop where
  completes : result.2 = none ↔ ∀ secret ∈ secrets, ∃ plain,
    decryptSecret crates limits dictionary fileKey key secret = .ok plain
  keeps : result.1 = old ↔ Fixed crates limits dictionary fileKey key secrets

/-- An operation on a value and then one on the rest, which is reached when the first does not
fail. -/
def joinMutated {α β γ : Type} (join : α → β → γ) (tail : β) (first : Mutated α)
    (second : Mutated β) : Mutated γ :=
  match first with
  | (value, some e) => (join value tail, some e)
  | (value, none) => (join value second.1, second.2)

/-- What contains nothing enciphered stays. -/
theorem Deciphers.nil {α : Type} (old : α) :
    Deciphers crates limits dictionary fileKey key old (old, none) [] where
  completes := by simp
  keeps := by simp [Fixed]

/-- Wrapping the value in a constructor. -/
theorem Deciphers.map {α β : Type} {wrap : α → β} (hwrap : Function.Injective wrap) {old : α}
    {result : Mutated α} {secrets : List Secret}
    (h : Deciphers crates limits dictionary fileKey key old result secrets) :
    Deciphers crates limits dictionary fileKey key (wrap old) (wrap result.1, result.2) secrets where
  completes := h.completes
  keeps := hwrap.eq_iff.trans h.keeps

theorem Deciphers.append {α β γ : Type} (join : α → β → γ)
    (hjoin : ∀ a a' b b', join a b = join a' b' ↔ a = a' ∧ b = b') {head : α} {tail : β}
    {first : Mutated α} {second : Mutated β} {secrets secrets' : List Secret}
    (hhead : Deciphers crates limits dictionary fileKey key head first secrets)
    (htail : Deciphers crates limits dictionary fileKey key tail second secrets') :
    Deciphers crates limits dictionary fileKey key (join head tail)
      (joinMutated join tail first second) (secrets ++ secrets') := by
  unfold joinMutated
  obtain ⟨value, error⟩ := first
  have hcompletes := hhead.completes
  have hkeeps := hhead.keeps
  dsimp only at hcompletes hkeeps
  cases error with
  | some e =>
    have hfails := (not_congr hcompletes).mp (by simp)
    refine ⟨?_, ?_⟩
    · rw [List.forall_mem_append]
      simp only [reduceCtorEq, false_iff]
      exact fun hall => hfails hall.1
    · rw [fixed_append, ← hkeeps]
      dsimp only
      rw [hjoin]
      exact ⟨fun h => ⟨h.1, fun hall => absurd hall hfails⟩, fun h => ⟨h.1, rfl⟩⟩
  | none =>
    have hopen := hcompletes.mp rfl
    refine ⟨?_, ?_⟩
    · rw [List.forall_mem_append]
      dsimp only
      rw [htail.completes]
      exact ⟨fun h => ⟨hopen, h⟩, fun h => h.2⟩
    · rw [fixed_append, ← hkeeps, ← htail.keeps]
      dsimp only
      rw [hjoin]
      exact and_congr_right fun _ => ⟨fun h _ => h, fun h => h hopen⟩

theorem decryptValues_cons (value : CosObject) (values : List CosObject) :
    decryptValues crates limits dictionary fileKey key (value :: values)
      = joinMutated List.cons values (decryptObject crates limits dictionary fileKey key value)
        (decryptValues crates limits dictionary fileKey key values) := by
  rw [decryptValues]
  obtain ⟨value, _ | e⟩ := decryptObject crates limits dictionary fileKey key value <;> rfl

theorem decryptEntries_cons (name : PdfName) (value : CosObject)
    (entries : List (PdfName × CosObject)) :
    decryptEntries crates limits dictionary fileKey key ((name, value) :: entries)
      = joinMutated (fun value entries => (name, value) :: entries) entries
        (decryptObject crates limits dictionary fileKey key value)
        (decryptEntries crates limits dictionary fileKey key entries) := by
  rw [decryptEntries]
  obtain ⟨value, _ | e⟩ := decryptObject crates limits dictionary fileKey key value <;> rfl

theorem decryptValues_deciphers {values : List CosObject}
    (h : ∀ value ∈ values, Deciphers crates limits dictionary fileKey key value
      (decryptObject crates limits dictionary fileKey key value) (secrets value)) :
    Deciphers crates limits dictionary fileKey key values
      (decryptValues crates limits dictionary fileKey key values) (secretsOfValues values) := by
  induction values with
  | nil =>
    rw [decryptValues, secretsOfValues]
    exact .nil []
  | cons value values ih =>
    have hvalue := h value List.mem_cons_self
    have hrest := ih fun v hv => h v (List.mem_cons_of_mem _ hv)
    rw [decryptValues_cons, secretsOfValues]
    exact hvalue.append List.cons (by simp) hrest

theorem decryptEntries_deciphers {entries : List (PdfName × CosObject)}
    (h : ∀ entry ∈ entries, Deciphers crates limits dictionary fileKey key entry.2
      (decryptObject crates limits dictionary fileKey key entry.2) (secrets entry.2)) :
    Deciphers crates limits dictionary fileKey key entries
      (decryptEntries crates limits dictionary fileKey key entries) (secretsOfEntries entries) := by
  induction entries with
  | nil =>
    rw [decryptEntries, secretsOfEntries]
    exact .nil []
  | cons entry entries ih =>
    obtain ⟨name, value⟩ := entry
    have hvalue := h (name, value) List.mem_cons_self
    have hrest := ih fun e he => h e (List.mem_cons_of_mem _ he)
    rw [decryptEntries_cons, secretsOfEntries]
    exact hvalue.append (fun value entries => (name, value) :: entries) (by simp) hrest

theorem decryptString_deciphers (string : PdfString) :
    Deciphers crates limits dictionary fileKey key (.string string)
      (decryptObject crates limits dictionary fileKey key (.string string))
      (secrets (.string string)) := by
  rw [decryptObject, secrets]
  unfold writeBack
  constructor <;> cases hstring : decryptString crates limits dictionary fileKey key string <;>
    simp [decryptSecret, Fixed, hstring, Except.map]

/-- The dictionary of a stream is walked when its body is not refused; deciphering the body does not
touch it. -/
theorem decryptObject_streamCase (stream : StreamObject) :
    decryptObject crates limits dictionary fileKey key (.stream stream)
      = match decryptStream crates limits dictionary fileKey key stream with
        | .error e => (.stream stream, some e)
        | .ok plain =>
          let (entries, e) := decryptEntries crates limits dictionary fileKey key stream.dictionary
          (.stream { plain with dictionary := entries }, e) := by
  obtain ⟨entries, range, declared, discovered, filters, params, source, crlf, eol⟩ := stream
  cases hstream : decryptStream crates limits dictionary fileKey key
    ⟨entries, range, declared, discovered, filters, params, source, crlf, eol⟩ <;>
    simp only [decryptObject, hstream]

theorem secrets_stream (stream : StreamObject) :
    secrets (.stream stream) = .inr stream :: secretsOfEntries stream.dictionary := by
  obtain ⟨entries, range, declared, discovered, filters, params, source, crlf, eol⟩ := stream
  rw [secrets]

theorem decryptStream_dictionary {stream plain : StreamObject}
    (h : decryptStream crates limits dictionary fileKey key stream = .ok plain) :
    plain.dictionary = stream.dictionary := by
  unfold decryptStream at h
  split_ifs at h
  · cases h
    rfl
  · cases h
    rfl
  · obtain ⟨raw, -, h⟩ := bind_eq_ok.mp h
    split_ifs at h
    obtain ⟨bytes, -, h⟩ := bind_eq_ok.mp h
    split_ifs at h
    cases h
    rfl

theorem decryptStream_deciphers {stream : StreamObject}
    (h : Deciphers crates limits dictionary fileKey key stream.dictionary
      (decryptEntries crates limits dictionary fileKey key stream.dictionary)
      (secretsOfEntries stream.dictionary)) :
    Deciphers crates limits dictionary fileKey key (.stream stream)
      (decryptObject crates limits dictionary fileKey key (.stream stream))
      (secrets (.stream stream)) := by
  rw [decryptObject_streamCase, secrets_stream]
  cases hstream : decryptStream crates limits dictionary fileKey key stream with
  | error e =>
    constructor <;> simp [decryptSecret, Fixed, hstream, Except.map]
  | ok plain =>
    have hdictionary := decryptStream_dictionary hstream
    constructor
    · simp only [h.completes, List.forall_mem_cons, decryptSecret, hstream, Except.map]
      simp
    · simp only [Fixed, decryptSecret, hstream, Except.map, ← h.keeps]
      rw [CosObject.stream.injEq, Sum.inr.injEq]
      constructor
      · intro heq
        have hentries : (decryptEntries crates limits dictionary fileKey key
            stream.dictionary).1 = stream.dictionary := congrArg StreamOf.dictionary heq
        refine ⟨?_, hentries⟩
        rw [hentries, ← hdictionary] at heq
        exact heq
      · rintro ⟨rfl, hentries⟩
        rw [hentries]

/-- An object stays as it was exactly when its strings and streams are fixed. -/
theorem decryptObject_deciphers (object : CosObject) :
    Deciphers crates limits dictionary fileKey key object
      (decryptObject crates limits dictionary fileKey key object) (secrets object) := by
  induction object using CosObject.nestedInduction with
  | hstring string => exact decryptString_deciphers string
  | harray values ih =>
    rw [decryptObject, secrets]
    exact (decryptValues_deciphers ih).map fun _ _ => CosObject.array.inj
  | hdictionary entries ih =>
    rw [decryptObject, secrets]
    exact (decryptEntries_deciphers ih).map fun _ _ => CosObject.dictionary.inj
  | hstream stream ih => exact decryptStream_deciphers (decryptEntries_deciphers ih)
  | _ =>
    simp only [decryptObject, secrets]
    exact .nil _

/-! ## Exempt streams -/

/-- The body comes through exactly when it is not garbled. -/
theorem decryptStream_rawBytes {stream plain : StreamObject}
    (h : decryptStream crates limits dictionary fileKey key stream = .ok plain) :
    plain.rawBytes = stream.rawBytes
      ↔ ¬ Garbled crates limits dictionary fileKey key stream := by
  unfold decryptStream at h
  by_cases hmetadata : (!dictionary.encryptMetadata) = true
      ∧ entryIsName stream.dictionary "Type" "Metadata" = true
  · rw [if_pos hmetadata] at h
    cases h
    exact iff_of_true rfl fun hgarbled => hgarbled.1 (.inl (by simpa using hmetadata))
  by_cases hidentity : dictionary.streamMethod = .identity
  · rw [if_neg hmetadata, if_pos hidentity] at h
    cases h
    exact iff_of_true rfl fun hgarbled => hgarbled.1 (.inr hidentity)
  rw [if_neg hmetadata, if_neg hidentity] at h
  obtain ⟨raw, hraw, h⟩ := bind_eq_ok.mp h
  have hraw' : stream.rawBytes = .ok raw := by
    cases hbytes : stream.rawBytes with
    | error e =>
      rw [hbytes] at hraw
      cases hraw
    | ok bytes =>
      rw [hbytes] at hraw
      cases hraw
      rfl
  split_ifs at h with hdeclared
  obtain ⟨bytes, hbytes, h⟩ := bind_eq_ok.mp h
  split_ifs at h with hdecrypted
  cases h
  have hnew : ∀ stream' : StreamObject, (StreamOf.removeCryptFilters { stream' with
      rawSource := bytes
      rawRange := ⟨0, bytes.length⟩ }).rawBytes = .ok bytes := by
    intro stream'
    unfold StreamOf.rawBytes StreamOf.removeCryptFilters subrange
    simp
  have hkeeps : ¬ KeepsBody dictionary stream := by
    rintro (hm | hi)
    · exact hmetadata (by simpa using hm)
    · exact hidentity hi
  rw [hraw']
  refine (Eq.congr_left (hnew { stream with
    discoveredLength := bytes.length
    declaredLength := some bytes.length })).trans ?_
  constructor
  · rintro heq ⟨-, raw', plain, hraw₂, -, hplain, -, hne⟩
    rw [hraw'] at hraw₂
    cases hraw₂
    rw [hbytes] at hplain
    cases hplain
    cases heq
    exact hne rfl
  · intro hsame
    by_contra hne
    refine hsame ⟨hkeeps, raw, bytes, hraw', by omega, hbytes, by omega, fun heq => hne ?_⟩
    rw [heq]

/-- A body that would be garbled is not refused. -/
theorem Garbled.decrypts {stream : StreamObject}
    (h : Garbled crates limits dictionary fileKey key stream) :
    ∃ plain, decryptStream crates limits dictionary fileKey key stream = .ok plain := by
  obtain ⟨hkeeps, raw, plain, hraw, hdeclared, hplain, hdecrypted, -⟩ := h
  have hmetadata : ¬ ((!dictionary.encryptMetadata) = true
      ∧ entryIsName stream.dictionary "Type" "Metadata" = true) := fun hm =>
    hkeeps (.inl (by simpa using hm))
  have hidentity : ¬ dictionary.streamMethod = .identity := fun hi => hkeeps (.inr hi)
  unfold decryptStream
  rw [if_neg hmetadata, if_neg hidentity, hraw]
  dsimp only [Except.mapError]
  rw [ok_bind, if_neg (by omega), hplain, ok_bind, if_neg (by omega)]
  exact ⟨_, rfl⟩

/-- One object: an exempt stream survives exactly when deciphering does it no harm. -/
theorem decryptIndirectObject_survives_iff (object : IndirectObject) :
    Survives object (decryptIndirectObject crates limits dictionary fileKey object).1
      ↔ (some object.key ≠ dictionary.object → ∀ stream, object.object = .stream stream →
        isExempt stream = true →
        Harmless crates limits dictionary fileKey object.key stream) := by
  unfold decryptIndirectObject
  by_cases hskip : some object.key = dictionary.object
  · rw [if_pos hskip]
    exact iff_of_true (fun stream h _ => ⟨stream, h, rfl, fun _ => rfl⟩) fun hne => absurd hskip hne
  rw [if_neg hskip]
  unfold Survives
  simp only [ne_eq, hskip, not_false_eq_true, true_implies]
  refine forall_congr' fun stream => forall_congr' fun hobject => forall_congr' fun hexempt => ?_
  rw [hobject, decryptObject_streamCase]
  have hentries : (decryptEntries crates limits dictionary fileKey object.key stream.dictionary).1
      = stream.dictionary ↔ _ :=
    (decryptEntries_deciphers fun entry _ => decryptObject_deciphers entry.2).keeps
  unfold Harmless
  cases hstream : decryptStream crates limits dictionary fileKey object.key stream with
  | error e =>
    refine iff_of_true ⟨stream, rfl, rfl, fun _ => rfl⟩ ⟨fun hgarbled => ?_, ?_⟩
    · obtain ⟨plain, hplain⟩ := hgarbled.decrypts
      rw [hstream] at hplain
      cases hplain
    · rintro _ ⟨plain, hplain⟩
      cases hplain
  | ok plain =>
    rw [← decryptStream_rawBytes hstream, ← hentries]
    constructor
    · rintro ⟨stream', hstream', hraw, hdictionary⟩
      cases hstream'
      exact ⟨hraw, fun hxref _ => hdictionary hxref⟩
    · rintro ⟨hraw, hdictionary⟩
      exact ⟨_, rfl, hraw, fun hxref => hdictionary hxref ⟨plain, rfl⟩⟩

theorem Survives.refl (object : IndirectObject) : Survives object object :=
  fun stream h _ => ⟨stream, h, rfl, fun _ => rfl⟩

end Traversal

/-- Deciphering does no harm to the exempt streams that it comes to: those behind an object that fails
are not deciphered, nor is the encryption dictionary. -/
def HarmlessToExempt (crates : Crates) (limits : ResourceLimits) (dictionary : EncryptionDictionary)
    (fileKey : Bytes) (objects : ObjectStore) : Prop :=
  ∀ before entry after, objects.entries = before ++ entry :: after →
    (∀ e ∈ before, (decryptIndirectObject crates limits dictionary fileKey e.2).2 = none) →
    some entry.2.key ≠ dictionary.object → ∀ stream, entry.2.object = .stream stream →
    isExempt stream = true → Harmless crates limits dictionary fileKey entry.2.key stream

/-- Every exempt stream comes through the decryption of a store exactly when deciphering does it no
harm. -/
theorem exemptStreams_survive_iff (crates : Crates) (limits : ResourceLimits)
    (dictionary : EncryptionDictionary) (fileKey : Bytes) (objects : ObjectStore) :
    OrdMap.Rel Survives objects (decryptObjects crates limits dictionary fileKey objects).1
      ↔ HarmlessToExempt crates limits dictionary fileKey objects := by
  unfold decryptObjects HarmlessToExempt
  rw [OrdMap.Rel.mutateValues_iff Survives.refl]
  refine forall₃_congr fun before entry after => forall₂_congr fun _ _ => ?_
  exact decryptIndirectObject_survives_iff entry.2

/-- A file with a cross-reference stream `7 0`, encrypted with RC4. -/
def xrefStreamFile : Bytes :=
  utf8 ("%PDF-1.5\n7 0 obj<</Type/XRef/Size 1/W[1 1 1]/ID[(ab)]/Length 3>>stream\nabc\nendstream" ++
    " endobj\ntrailer<</ID[(ab)]/Encrypt<</Filter/Standard/V 1/R 2/P -4/O<" ++
    "0000000000000000000000000000000000000000000000000000000000000000>/U<" ++
    "D740B1A1B18A75BE9BFFB1A90005FEF7D1D1FF492F97C17FD0F356019BAC9685>>>>>\n%%EOF")

/-- The bytes of the file. -/
def xrefStreamFileBytes : Bytes :=
  [37, 80, 68, 70, 45, 49, 46, 53, 10, 55, 32, 48, 32, 111, 98, 106, 60, 60, 47, 84, 121, 112, 101,
   47, 88, 82, 101, 102, 47, 83, 105, 122, 101, 32, 49, 47, 87, 91, 49, 32, 49, 32, 49, 93, 47, 73,
   68, 91, 40, 97, 98, 41, 93, 47, 76, 101, 110, 103, 116, 104, 32, 51, 62, 62, 115, 116, 114, 101,
   97, 109, 10, 97, 98, 99, 10, 101, 110, 100, 115, 116, 114, 101, 97, 109, 32, 101, 110, 100, 111,
   98, 106, 10, 116, 114, 97, 105, 108, 101, 114, 60, 60, 47, 73, 68, 91, 40, 97, 98, 41, 93, 47,
   69, 110, 99, 114, 121, 112, 116, 60, 60, 47, 70, 105, 108, 116, 101, 114, 47, 83, 116, 97, 110,
   100, 97, 114, 100, 47, 86, 32, 49, 47, 82, 32, 50, 47, 80, 32, 45, 52, 47, 79, 60, 48, 48, 48,
   48, 48, 48, 48, 48, 48, 48, 48, 48, 48, 48, 48, 48, 48, 48, 48, 48, 48, 48, 48, 48, 48, 48, 48,
   48, 48, 48, 48, 48, 48, 48, 48, 48, 48, 48, 48, 48, 48, 48, 48, 48, 48, 48, 48, 48, 48, 48, 48,
   48, 48, 48, 48, 48, 48, 48, 48, 48, 48, 48, 48, 48, 62, 47, 85, 60, 68, 55, 52, 48, 66, 49, 65,
   49, 66, 49, 56, 65, 55, 53, 66, 69, 57, 66, 70, 70, 66, 49, 65, 57, 48, 48, 48, 53, 70, 69, 70,
   55, 68, 49, 68, 49, 70, 70, 52, 57, 50, 70, 57, 55, 67, 49, 55, 70, 68, 48, 70, 51, 53, 54, 48,
   49, 57, 66, 65, 67, 57, 54, 56, 53, 62, 62, 62, 62, 62, 10, 37, 37, 69, 79, 70]

theorem xrefStreamFile_eq : xrefStreamFile = xrefStreamFileBytes := by
  unfold xrefStreamFile
  rw [utf8_append, utf8_append, utf8_append, utf8_eq_flatMap rfl, utf8_eq_flatMap rfl,
    utf8_eq_flatMap rfl, utf8_eq_flatMap rfl]
  decide +kernel

/-- MD5 and RC4 as far as the file needs them: the key stream inverts every bit. -/
def invertingCrates : Crates :=
  { Crates.unused with
    md5 := fun _ => List.replicate 16 0
    rc4 := fun _ bytes => some (bytes.map (255 - ·)) }

/-- The body of the only object of a store, an exempt stream. -/
def onlyExemptBody (objects : ObjectStore) : Option Bytes :=
  match objects.entries with
  | [(_, ⟨_, _, .stream stream⟩)] => if isExempt stream then stream.rawBytes.toOption else none
  | _ => none

theorem onlyExemptBody_rel {objects objects' : ObjectStore} {body : Bytes}
    (h : OrdMap.Rel Survives objects objects') (hbody : onlyExemptBody objects = some body) :
    ∃ key object stream, objects'.entries = [(key, object)] ∧ object.object = .stream stream
      ∧ stream.rawBytes = .ok body := by
  unfold onlyExemptBody at hbody
  split at hbody
  · rename_i key objectKey offset stream heq
    split_ifs at hbody with hexempt
    have hentries : List.Forall₂ (fun e e' => e.1 = e'.1 ∧ Survives e.2 e'.2) objects.entries
        objects'.entries := h
    rw [heq] at hentries
    obtain ⟨entry, rest, ⟨-, hsurvives⟩, hrest, hobjects⟩ := List.forall₂_cons_left_iff.mp hentries
    rw [List.forall₂_nil_left_iff.mp hrest] at hobjects
    obtain ⟨stream', hstream, hraw, -⟩ := hsurvives stream rfl hexempt
    refine ⟨entry.1, entry.2, stream', hobjects, hstream, ?_⟩
    rw [hraw]
    cases hbytes : stream.rawBytes with
    | error e =>
      rw [hbytes] at hbody
      cases hbody
    | ok bytes =>
      rw [hbytes] at hbody
      cases hbody
      rfl
  · cases hbody

/-- The file is accepted with the empty password, and then its cross-reference stream has another
body. -/
theorem xrefStreamFile_run :
    (match Parser.scan ⟨{}, none⟩ xrefStreamFile with
    | .error _ => false
    | .ok (_, s) =>
      match parseEncryptionDictionary s.objects s.trailers {} with
      | .error _ => false
      | .ok dictionary =>
        match authenticate invertingCrates dictionary [] with
        | .ok (some fileKey) =>
          let (objects, error) := decryptObjects invertingCrates {} dictionary fileKey s.objects
          error.isNone && onlyExemptBody s.objects == some (utf8 "abc")
            && onlyExemptBody objects == some [158, 157, 156]
        | _ => false) = true := by
  rw [xrefStreamFile_eq]
  decide +kernel

/-- With the right password, the cross-reference stream of an encrypted file does not come through. -/
theorem xrefStreamFile_garbled : ∃ version s dictionary fileKey,
    Parser.scan ⟨{}, none⟩ xrefStreamFile = .ok (version, s)
      ∧ parseEncryptionDictionary s.objects s.trailers {} = .ok dictionary
      ∧ authenticate invertingCrates dictionary [] = .ok (some fileKey)
      ∧ (decryptObjects invertingCrates {} dictionary fileKey s.objects).2 = none
      ∧ ¬ OrdMap.Rel Survives s.objects
        (decryptObjects invertingCrates {} dictionary fileKey s.objects).1 := by
  have hrun := xrefStreamFile_run
  split at hrun
  · cases hrun
  rename_i version s hscan
  split at hrun
  · cases hrun
  rename_i dictionary hdictionary
  split at hrun
  · rename_i fileKey hkey
    dsimp only at hrun
    rw [Bool.and_eq_true, Bool.and_eq_true, beq_iff_eq, beq_iff_eq, Option.isNone_iff_eq_none] at hrun
    obtain ⟨⟨herror, hbefore⟩, hafter⟩ := hrun
    refine ⟨version, s, dictionary, fileKey, hscan, hdictionary, hkey, herror, fun hrel => ?_⟩
    obtain ⟨key, object, stream, hentries, hstream, hraw⟩ := onlyExemptBody_rel hrel hbefore
    obtain ⟨_, _, value⟩ := object
    cases hstream
    unfold onlyExemptBody at hafter
    rw [hentries] at hafter
    dsimp only at hafter
    split_ifs at hafter
    rw [hraw] at hafter
    cases hafter
  · cases hrun

end Pdfv
