import Pdfv.Parser.RejectedPassword
/-!
# Decryption inverts the standard encryption

What a store looks like after every string and every stream body was enciphered under the key of its
indirect object (`EncryptedStore`), and that `decrypt_objects` turns it back. The ciphers are pairs of
functions of which only `decrypt (encrypt x) = x` is known.
-/

namespace Pdfv

open Fallible

/-- The encrypting halves of the ciphers; RC4 refuses some keys. -/
structure Encryptors where
  rc4 : Bytes → Bytes → Option Bytes
  /-- AES-128-CBC with PKCS#7 padding, under key and IV. -/
  aes128CbcEncryptPkcs7 : Bytes → Bytes → Bytes → Bytes
  /-- AES-256-CBC with PKCS#7 padding, under key and IV. -/
  aes256CbcEncryptPkcs7 : Bytes → Bytes → Bytes → Bytes

/-- Decrypting what was encrypted gives the plaintext back. -/
structure Encryptors.Inverts (encryptors : Encryptors) (crates : Crates) : Prop where
  rc4 : ∀ key plain cipher, encryptors.rc4 key plain = some cipher →
    crates.rc4 key cipher = some plain
  aes128 : ∀ key iv plain, key.length = 16 → iv.length = aesBlockBytes →
    crates.aes128CbcDecryptPkcs7 key iv (encryptors.aes128CbcEncryptPkcs7 key iv plain) = some plain
  aes256 : ∀ key iv plain, key.length = aes256KeyBytes → iv.length = aesBlockBytes →
    crates.aes256CbcDecryptPkcs7 key iv (encryptors.aes256CbcEncryptPkcs7 key iv plain) = some plain

section Encrypted

variable (Side : StreamObject → StreamObject → Prop) (encryptors : Encryptors) (crates : Crates)
  (limits : ResourceLimits) (dictionary : EncryptionDictionary) (fileKey : Bytes)

/-- The bytes `cipher` are `plain`, enciphered under a key the method takes. AES puts the
initialization vector first. -/
def Enciphered (method : CryptMethod) (key plain cipher : Bytes) : Prop :=
  match method with
  | .identity => cipher = plain
  | .rc4 => encryptors.rc4 key plain = some cipher
  | .aesV2 => key.length = 16 ∧ ∃ iv, iv.length = aesBlockBytes
    ∧ cipher = iv ++ encryptors.aes128CbcEncryptPkcs7 key iv plain
  | .aesV3 => key.length = aes256KeyBytes ∧ ∃ iv, iv.length = aesBlockBytes
    ∧ cipher = iv ++ encryptors.aes256CbcEncryptPkcs7 key iv plain

/-- A string enciphered under the string key of its indirect object; the plaintext fits the limits. -/
structure EncryptedString (key : ObjectKey) (plain cipher : PdfString) : Prop where
  enciphered : Enciphered encryptors dictionary.stringMethod
    (objectKey crates fileKey key dictionary.stringMethod) plain.bytes cipher.bytes
  decryptedFits : plain.bytes.length ≤ limits.maxDecryptedStringBytes
  stringFits : plain.bytes.length ≤ limits.maxStringBytes

/-- The stream's body is stored as it is: it is a metadata stream of a document that leaves those
readable, or the stream method is the identity. -/
def KeepsBody (stream : StreamObject) : Prop :=
  (dictionary.encryptMetadata = false ∧ entryIsName stream.dictionary "Type" "Metadata" = true)
    ∨ dictionary.streamMethod = .identity

/-- A stream whose body is enciphered under the stream key of its indirect object. The plaintext
stream has its body in a buffer of its own and knows its length; nothing but the body, the lengths
and the strings of the dictionary differs. `Side` is what else is asked of the two streams. -/
structure EncryptedBody (key : ObjectKey) (plain cipher : StreamObject) : Prop where
  wholeBuffer : plain.rawRange = ⟨0, plain.rawSource.length⟩
  declaredLength : plain.declaredLength = some plain.rawSource.length
  discoveredLength : plain.discoveredLength = plain.rawSource.length
  filters : cipher.filters = plain.filters
  decodeParams : cipher.decodeParams = plain.decodeParams
  crlfCompliant : cipher.streamKeywordCrlfCompliant = plain.streamKeywordCrlfCompliant
  eolCompliant : cipher.endstreamKeywordEolCompliant = plain.endstreamKeywordEolCompliant
  body : ∃ bytes, cipher.rawBytes = .ok bytes
    ∧ Enciphered encryptors dictionary.streamMethod
      (objectKey crates fileKey key dictionary.streamMethod) plain.rawSource bytes
  decryptedFits : plain.rawSource.length ≤ limits.maxDecryptedStreamBytes
  noCryptFilter : ∀ filter ∈ plain.filters, filter.matchesText "Crypt" = false
  side : Side plain cipher

/-- The stored body fits the limit for declared lengths, and each filter has its parameters. -/
structure BodyFits (plain cipher : StreamObject) : Prop where
  storedFits : ∀ bytes, cipher.rawBytes = .ok bytes → bytes.length ≤ limits.maxStreamDeclaredBytes
  paramsPerFilter : plain.decodeParams.length = plain.filters.length

/-- The stream case of `EncryptedObject`, apart from the dictionary. -/
def EncryptedStream (key : ObjectKey) (plain cipher : StreamObject) : Prop :=
  (KeepsBody dictionary plain ∧ cipher = { plain with dictionary := cipher.dictionary })
    ∨ (¬ KeepsBody dictionary plain
      ∧ EncryptedBody Side encryptors crates limits dictionary fileKey key plain cipher)

mutual

/-- The second object is the first with every string and every stream body enciphered. -/
def EncryptedObject (key : ObjectKey) : CosObject → CosObject → Prop
  | .string plain, object => ∃ cipher, object = .string cipher
    ∧ EncryptedString encryptors crates limits dictionary fileKey key plain cipher
  | .array values, object => ∃ ciphers, object = .array ciphers ∧ EncryptedValues key values ciphers
  | .dictionary entries, object =>
    ∃ ciphers, object = .dictionary ciphers ∧ EncryptedEntries key entries ciphers
  | .stream ⟨entries, range, declared, discovered, filters, params, source, crlf, eol⟩, object =>
    ∃ cipher, object = .stream cipher ∧ EncryptedEntries key entries cipher.dictionary
      ∧ EncryptedStream Side encryptors crates limits dictionary fileKey key
        ⟨entries, range, declared, discovered, filters, params, source, crlf, eol⟩ cipher
  | plain, object => object = plain

/-- `EncryptedObject` on the elements of an array. -/
def EncryptedValues (key : ObjectKey) : List CosObject → List CosObject → Prop
  | [], ciphers => ciphers = []
  | value :: values, ciphers => ∃ cipher rest, ciphers = cipher :: rest
    ∧ EncryptedObject key value cipher ∧ EncryptedValues key values rest

/-- `EncryptedObject` on the values of a dictionary. -/
def EncryptedEntries (key : ObjectKey) :
    List (PdfName × CosObject) → List (PdfName × CosObject) → Prop
  | [], ciphers => ciphers = []
  | (name, value) :: entries, ciphers => ∃ cipher rest, ciphers = (name, cipher) :: rest
    ∧ EncryptedObject key value cipher ∧ EncryptedEntries key entries rest

end

/-- The second indirect object is the first, enciphered unless it is the encryption dictionary. -/
def EncryptedIndirect (plain cipher : IndirectObject) : Prop :=
  if some plain.key = dictionary.object then cipher = plain
  else cipher.key = plain.key ∧ cipher.offset = plain.offset
    ∧ EncryptedObject Side encryptors crates limits dictionary fileKey plain.key plain.object
      cipher.object

/-- The second store is the first with every object enciphered. -/
def EncryptedStore (plain cipher : ObjectStore) : Prop :=
  OrdMap.Rel (EncryptedIndirect Side encryptors crates limits dictionary fileKey) plain cipher

end Encrypted

section Decrypted

variable {encryptors : Encryptors} {crates : Crates} {limits : ResourceLimits}
  {dictionary : EncryptionDictionary} {fileKey : Bytes} {key : ObjectKey}

theorem subrange_prefix (iv rest : Bytes) : subrange (iv ++ rest) 0 iv.length = some iv := by
  unfold subrange
  rw [if_pos ⟨Nat.zero_le _, by rw [List.length_append]; omega⟩]
  simp

theorem decryptBytes_enciphered (h : encryptors.Inverts crates) {method : CryptMethod}
    {secret plain cipher : Bytes} (hcipher : Enciphered encryptors method secret plain cipher) :
    decryptBytes crates method secret cipher = .ok plain := by
  cases method with
  | identity =>
    rw [hcipher]
    rfl
  | rc4 =>
    show rc4Crypt crates secret cipher = .ok plain
    unfold rc4Crypt
    rw [h.rc4 secret plain cipher hcipher]
    rfl
  | aesV2 =>
    obtain ⟨hkey, iv, hiv, rfl⟩ := hcipher
    have hhead : subrange (iv ++ encryptors.aes128CbcEncryptPkcs7 secret iv plain) 0 16 = some iv := by
      have hlen : iv.length = 16 := hiv
      rw [← hlen, subrange_prefix]
    have htail : (iv ++ encryptors.aes128CbcEncryptPkcs7 secret iv plain).drop 16
        = encryptors.aes128CbcEncryptPkcs7 secret iv plain := List.drop_left' hiv
    show decryptAesV2 crates secret _ = .ok plain
    unfold decryptAesV2
    rw [hhead]
    dsimp only [orElseError]
    rw [ok_bind, htail, if_neg (not_not_intro hkey), h.aes128 secret iv plain hkey hiv]
  | aesV3 =>
    obtain ⟨hkey, iv, hiv, rfl⟩ := hcipher
    have hhead : subrange (iv ++ encryptors.aes256CbcEncryptPkcs7 secret iv plain) 0 aesBlockBytes
        = some iv := by
      rw [← hiv, subrange_prefix]
    have htail : (iv ++ encryptors.aes256CbcEncryptPkcs7 secret iv plain).drop aesBlockBytes
        = encryptors.aes256CbcEncryptPkcs7 secret iv plain := List.drop_left' hiv
    show decryptAesV3 crates secret _ = .ok plain
    unfold decryptAesV3
    rw [hhead]
    dsimp only [orElseError]
    rw [ok_bind, htail, if_neg (not_not_intro hkey), h.aes256 secret iv plain hkey hiv]

theorem decryptString_encrypted (h : encryptors.Inverts crates) {plain cipher : PdfString}
    (hcipher : EncryptedString encryptors crates limits dictionary fileKey key plain cipher) :
    decryptString crates limits dictionary fileKey key cipher = .ok plain := by
  have hbytes := decryptBytes_enciphered h hcipher.enciphered
  unfold decryptString
  by_cases hmethod : dictionary.stringMethod = .identity
  · rw [hmethod] at hbytes
    rw [if_pos hmethod]
    obtain ⟨bytes⟩ := cipher
    obtain ⟨bytes'⟩ := plain
    cases hbytes
    rfl
  · have hfits := hcipher.decryptedFits
    have hstring := hcipher.stringFits
    rw [if_neg hmethod, hbytes, ok_bind, if_neg (by omega)]
    unfold PdfString.new
    rw [if_neg (by omega)]
    rfl

theorem zipIdx_filter_noCrypt (filters : List PdfName) (n : Nat)
    (h : ∀ filter ∈ filters, filter.matchesText "Crypt" = false) :
    (filters.zipIdx n).filter (fun f => !f.1.matchesText "Crypt") = filters.zipIdx n := by
  rw [List.filter_eq_self]
  intro f hf
  rw [h f.1 (List.fst_mem_of_mem_zipIdx hf)]
  rfl

/-- Without a Crypt filter, and with one parameter record for each filter, nothing is removed. -/
theorem removeCryptFilters_self {stream : StreamObject}
    (hcrypt : ∀ filter ∈ stream.filters, filter.matchesText "Crypt" = false)
    (hparams : stream.decodeParams.length = stream.filters.length) :
    StreamOf.removeCryptFilters stream = stream := by
  have hkept := zipIdx_filter_noCrypt stream.filters 0 hcrypt
  have hfilters : stream.filters.zipIdx.map Prod.fst = stream.filters := List.zipIdx_map_fst 0 _
  have hdecode : stream.filters.zipIdx.map (fun f => (stream.decodeParams[f.2]?).getD {})
      = stream.decodeParams := by
    refine List.ext_getElem ?_ fun i hi hi' => ?_
    · rw [List.length_map, List.length_zipIdx, hparams]
    · simp [hi']
  obtain ⟨entries, range, declared, discovered, filters, params, source, crlf, eol⟩ := stream
  unfold StreamOf.removeCryptFilters
  dsimp only at hkept hfilters hdecode ⊢
  rw [hkept, hfilters, hdecode]

/-- Names are not enciphered, so the type of a stream can be read off either dictionary. -/
theorem entryIsName_encrypted {entries ciphers : Dictionary}
    (h : EncryptedEntries (BodyFits limits) encryptors crates limits dictionary fileKey key entries
      ciphers)
    (name value : String) : entryIsName ciphers name value = entryIsName entries name value := by
  induction entries generalizing ciphers with
  | nil =>
    rw [EncryptedEntries] at h
    rw [h]
  | cons entry entries ih =>
    obtain ⟨head, object⟩ := entry
    rw [EncryptedEntries] at h
    obtain ⟨cipher, rest, rfl, hobject, hrest⟩ := h
    have htail := ih hrest
    unfold entryIsName Dictionary.get at htail ⊢
    rw [OrdList.lookup_cons, OrdList.lookup_cons]
    by_cases hname : compare (PdfName.fromStatic name) head = .eq
    · rw [if_pos hname, if_pos hname]
      cases object with
      | stream stream =>
        rw [EncryptedObject] at hobject
        obtain ⟨cipher, rfl, -⟩ := hobject
        rfl
      | string string =>
        rw [EncryptedObject] at hobject
        obtain ⟨cipher, rfl, -⟩ := hobject
        rfl
      | array values =>
        rw [EncryptedObject] at hobject
        obtain ⟨cipher, rfl, -⟩ := hobject
        rfl
      | dictionary entries =>
        rw [EncryptedObject] at hobject
        obtain ⟨cipher, rfl, -⟩ := hobject
        rfl
      | _ =>
        simp only [EncryptedObject] at hobject
        rw [hobject]
    · rw [if_neg hname, if_neg hname]
      exact htail

/-- The body of a stream comes back; its dictionary is still to be walked. -/
theorem decryptStream_encrypted (h : encryptors.Inverts crates) {plain cipher : StreamObject}
    (hentries : EncryptedEntries (BodyFits limits) encryptors crates limits dictionary fileKey key
      plain.dictionary cipher.dictionary)
    (hcipher : EncryptedStream (BodyFits limits) encryptors crates limits dictionary fileKey key
      plain cipher) :
    decryptStream crates limits dictionary fileKey key cipher
      = .ok { plain with dictionary := cipher.dictionary } := by
  have htype := entryIsName_encrypted hentries "Type" "Metadata"
  unfold decryptStream
  rw [htype]
  rcases hcipher with ⟨hkeeps, hsame⟩ | ⟨hchanges, hbody⟩
  · rcases hkeeps with ⟨hmetadata, hname⟩ | hidentity
    · rw [if_pos (by rw [hmetadata, hname]; exact ⟨rfl, rfl⟩), ← hsame]
    · rw [if_pos hidentity, ite_self, ← hsame]
  · have hexempt : ¬ ((!dictionary.encryptMetadata) = true
        ∧ entryIsName plain.dictionary "Type" "Metadata" = true) := by
      rintro ⟨hmetadata, hname⟩
      rw [Bool.not_eq_true'] at hmetadata
      exact hchanges (.inl ⟨hmetadata, hname⟩)
    have hmethod : ¬ dictionary.streamMethod = .identity := fun hm => hchanges (.inr hm)
    obtain ⟨bytes, hraw, henciphered⟩ := hbody.body
    have hdeclared := hbody.side.storedFits bytes hraw
    have hfits := hbody.decryptedFits
    rw [if_neg hexempt, if_neg hmethod, hraw]
    dsimp only [Except.mapError]
    rw [ok_bind, if_neg (by omega), decryptBytes_enciphered h henciphered, ok_bind,
      if_neg (by omega)]
    have hself : StreamOf.removeCryptFilters { plain with dictionary := cipher.dictionary }
        = { plain with dictionary := cipher.dictionary } :=
      removeCryptFilters_self hbody.noCryptFilter hbody.side.paramsPerFilter
    have hrebuilt : ({ cipher with
          rawSource := plain.rawSource
          rawRange := ⟨0, plain.rawSource.length⟩
          discoveredLength := plain.rawSource.length
          declaredLength := some plain.rawSource.length } : StreamObject)
        = { plain with dictionary := cipher.dictionary } := by
      rw [hbody.filters, hbody.decodeParams, hbody.crlfCompliant, hbody.eolCompliant,
        ← hbody.wholeBuffer, ← hbody.declaredLength, hbody.discoveredLength]
    rw [hrebuilt, hself]
    rfl

theorem decryptValues_encrypted {values ciphers : List CosObject}
    (hback : ∀ value ∈ values, ∀ {cipher},
      EncryptedObject (BodyFits limits) encryptors crates limits dictionary fileKey key value
        cipher →
      decryptObject crates limits dictionary fileKey key cipher = (value, none))
    (h : EncryptedValues (BodyFits limits) encryptors crates limits dictionary fileKey key values
      ciphers) :
    decryptValues crates limits dictionary fileKey key ciphers = (values, none) := by
  induction values generalizing ciphers with
  | nil =>
    rw [EncryptedValues] at h
    rw [h, decryptValues]
  | cons value values ih =>
    rw [EncryptedValues] at h
    obtain ⟨cipher, rest, rfl, hvalue, hrest⟩ := h
    have htail := ih (fun v hv => hback v (List.mem_cons_of_mem _ hv)) hrest
    rw [decryptValues, hback value List.mem_cons_self hvalue, htail]

theorem decryptEntries_encrypted {entries ciphers : Dictionary}
    (hback : ∀ entry ∈ entries, ∀ {cipher},
      EncryptedObject (BodyFits limits) encryptors crates limits dictionary fileKey key entry.2
        cipher →
      decryptObject crates limits dictionary fileKey key cipher = (entry.2, none))
    (h : EncryptedEntries (BodyFits limits) encryptors crates limits dictionary fileKey key entries
      ciphers) :
    decryptEntries crates limits dictionary fileKey key ciphers = (entries, none) := by
  induction entries generalizing ciphers with
  | nil =>
    rw [EncryptedEntries] at h
    rw [h, decryptEntries]
  | cons entry entries ih =>
    obtain ⟨name, value⟩ := entry
    rw [EncryptedEntries] at h
    obtain ⟨cipher, rest, rfl, hvalue, hrest⟩ := h
    have htail := ih (fun e he => hback e (List.mem_cons_of_mem _ he)) hrest
    have hhead := hback (name, value) List.mem_cons_self hvalue
    rw [decryptEntries, hhead, htail]

theorem decryptObject_encryptedAtom {plain cipher : CosObject} (hatom : Atom plain)
    (hcipher : EncryptedObject (BodyFits limits) encryptors crates limits dictionary fileKey key
      plain cipher) :
    decryptObject crates limits dictionary fileKey key cipher = (plain, none) := by
  have hsame : cipher = plain := by
    cases hatom <;> simpa [EncryptedObject] using hcipher
  rw [hsame, decryptObject_atom hatom]

/-- **Every object comes back.** By induction over the plaintext: each string and each body is
visited once, under the key of the indirect object. -/
theorem decryptObject_encrypted (h : encryptors.Inverts crates) (plain : CosObject)
    {cipher : CosObject}
    (hcipher : EncryptedObject (BodyFits limits) encryptors crates limits dictionary fileKey key
      plain cipher) :
    decryptObject crates limits dictionary fileKey key cipher = (plain, none) := by
  induction plain using CosObject.nestedInduction generalizing cipher with
  | hstring plain =>
    rw [EncryptedObject] at hcipher
    obtain ⟨cipher, rfl, hstring⟩ := hcipher
    rw [decryptObject, decryptString_encrypted h hstring]
    rfl
  | harray values ih =>
    rw [EncryptedObject] at hcipher
    obtain ⟨ciphers, rfl, hvalues⟩ := hcipher
    rw [decryptObject, decryptValues_encrypted ih hvalues]
  | hdictionary entries ih =>
    rw [EncryptedObject] at hcipher
    obtain ⟨ciphers, rfl, hentries⟩ := hcipher
    rw [decryptObject, decryptEntries_encrypted ih hentries]
  | hstream plain ih =>
    obtain ⟨entries, range, declared, discovered, filters, params, source, crlf, eol⟩ := plain
    rw [EncryptedObject] at hcipher
    obtain ⟨cipher, rfl, hentries, hstream⟩ := hcipher
    have hbody := decryptStream_encrypted h hentries hstream
    obtain ⟨entries', range', declared', discovered', filters', params', source', crlf', eol'⟩ :=
      cipher
    rw [decryptObject, hbody]
    dsimp only at hentries ⊢
    rw [decryptEntries_encrypted ih hentries]
  | hnull => exact decryptObject_encryptedAtom .null hcipher
  | hboolean b => exact decryptObject_encryptedAtom (.boolean b) hcipher
  | hinteger i => exact decryptObject_encryptedAtom (.integer i) hcipher
  | hreal r => exact decryptObject_encryptedAtom (.real r) hcipher
  | hname n => exact decryptObject_encryptedAtom (.name n) hcipher
  | hreference k => exact decryptObject_encryptedAtom (.reference k) hcipher

theorem decryptIndirectObject_encrypted (h : encryptors.Inverts crates)
    {plain cipher : IndirectObject}
    (hcipher : EncryptedIndirect (BodyFits limits) encryptors crates limits dictionary fileKey plain
      cipher) :
    decryptIndirectObject crates limits dictionary fileKey cipher = (plain, none) := by
  unfold EncryptedIndirect at hcipher
  unfold decryptIndirectObject
  by_cases hself : some plain.key = dictionary.object
  · rw [if_pos hself] at hcipher
    rw [hcipher, if_pos hself]
  · rw [if_neg hself] at hcipher
    obtain ⟨hkey, hoffset, hobject⟩ := hcipher
    obtain ⟨key, offset, object⟩ := plain
    obtain ⟨key', offset', object'⟩ := cipher
    dsimp only at hkey hoffset hobject hself ⊢
    subst hkey hoffset
    rw [if_neg hself, decryptObject_encrypted h object hobject]

/-- **Decryption restores the store that was encrypted.** -/
theorem decryptObjects_encrypted (h : encryptors.Inverts crates) {plain cipher : ObjectStore}
    (hcipher : EncryptedStore (BodyFits limits) encryptors crates limits dictionary fileKey plain
      cipher) :
    decryptObjects crates limits dictionary fileKey cipher = (plain, none) :=
  OrdMap.Rel.mutateValues_eq hcipher fun _ _ hobject => decryptIndirectObject_encrypted h hobject

end Decrypted

/-! ## One enciphered stream -/

/-- A document under AESV2. -/
def aesSource : Bytes :=
  utf8 ("%PDF-1.7\ntrailer<</ID[()]/Encrypt<</Filter/Standard/V 4/R 4/Length 128/P -4/O()/U()" ++
    "/CF<</StdCF<</CFM/AESV2>>>>/StmF/StdCF/StrF/StdCF>>>>\n%%EOF")

/-- Its trailer. -/
def aesTrailers : List Trailer :=
  match Parser.scan ⟨{}, none⟩ aesSource with
  | .ok (_, s) => s.trailers
  | .error _ => []

/-- Its encryption dictionary. -/
def aesDictionary : EncryptionDictionary where
  object := none
  version := 4
  revision := .r4
  keyLengthBytes := 16
  ownerKey := []
  userKey := []
  ownerEncryptionKey := []
  userEncryptionKey := []
  perms := []
  permissions := -4
  documentId := []
  encryptMetadata := true
  streamMethod := .aesV2
  stringMethod := .aesV2

/-- Limits with a small bound on declared stream lengths. -/
def smallStreams : ResourceLimits := { maxStreamDeclaredBytes := 16 }

theorem aesDictionary_accepted :
    (parseEncryptionDictionary OrdMap.empty aesTrailers {}).toOption = some aesDictionary
      ∧ (parseEncryptionDictionary OrdMap.empty aesTrailers smallStreams).toOption
        = some aesDictionary := by
  decide +kernel

/-- The file key `00 01 .. 0f`. -/
def aesFileKey : Bytes :=
  (List.range 16).map UInt8.ofNat

/-- The MD5 digest of the file key, the object number 4, the generation 0 and the AES salt. -/
def aesObjectKey : Bytes :=
  [239, 180, 55, 179, 149, 184, 22, 100, 178, 166, 181, 197, 70, 157, 142, 208]

/-- The AES-128-CBC encryption of the padded byte `A` under `aesObjectKey` and a zero vector. -/
def aesBlock : Bytes :=
  [45, 229, 165, 191, 14, 132, 22, 236, 184, 186, 50, 85, 130, 191, 178, 169]

/-- An involution that takes the byte `A` to `aesBlock`. -/
def swapBlock (bytes : Bytes) : Bytes :=
  if bytes = [65] then aesBlock else if bytes = aesBlock then [65] else bytes

theorem swapBlock_swapBlock (bytes : Bytes) : swapBlock (swapBlock bytes) = bytes := by
  unfold swapBlock
  by_cases hplain : bytes = [65]
  · rw [if_pos hplain, if_neg (by decide), if_pos rfl, hplain]
  · rw [if_neg hplain]
    by_cases hblock : bytes = aesBlock
    · rw [if_pos hblock, if_pos rfl, hblock]
    · rw [if_neg hblock, if_neg hplain, if_neg hblock]

/-- MD5 and AES-128 as far as the stream below needs them. -/
def aesCrates : Crates :=
  { Crates.unused with
    md5 := fun _ => aesObjectKey
    aes128CbcDecryptPkcs7 := fun _ _ cipher => some (swapBlock cipher)
    aes256CbcDecryptPkcs7 := fun _ _ cipher => some cipher }

/-- The encrypting halves of `aesCrates`. -/
def aesEncryptors : Encryptors where
  rc4 _ _ := none
  aes128CbcEncryptPkcs7 _ _ plain := swapBlock plain
  aes256CbcEncryptPkcs7 _ _ plain := plain

theorem aesEncryptors_inverts : aesEncryptors.Inverts aesCrates where
  rc4 := fun _ _ _ h => by cases h
  aes128 := fun _ _ plain _ _ => congrArg some (swapBlock_swapBlock plain)
  aes256 := fun _ _ _ _ _ => rfl

/-- A stream with the body `A` and the given parameters for its one filter. -/
def plainStream (params : List DecodeParams) : StreamObject where
  dictionary := []
  rawRange := ⟨0, 1⟩
  declaredLength := some 1
  discoveredLength := 1
  filters := [PdfName.fromStatic "FlateDecode"]
  decodeParams := params
  rawSource := [65]
  streamKeywordCrlfCompliant := false
  endstreamKeywordEolCompliant := true

/-- The stream as it is stored: the zero vector and one block. -/
def sealedStream (params : List DecodeParams) : StreamObject :=
  { plainStream params with
    rawRange := ⟨0, 32⟩
    declaredLength := some 32
    discoveredLength := 32
    rawSource := List.replicate 16 0 ++ aesBlock }

/-- The key `4 0`. -/
def streamKey : ObjectKey :=
  .ofNumber 4

/-- A store with one stream. -/
def streamStore (stream : StreamObject) : ObjectStore :=
  ObjectStore.insertObject OrdMap.empty ⟨streamKey, 0, .stream stream⟩

theorem sealedStream_encrypted {Side : StreamObject → StreamObject → Prop} {limits : ResourceLimits}
    (params : List DecodeParams) (hfits : 1 ≤ limits.maxDecryptedStreamBytes)
    (hside : Side (plainStream params) (sealedStream params)) :
    EncryptedStore Side aesEncryptors aesCrates limits aesDictionary aesFileKey
      (streamStore (plainStream params)) (streamStore (sealedStream params)) := by
  have hfilter : ∀ filter ∈ [PdfName.fromStatic "FlateDecode"],
      filter.matchesText "Crypt" = false := by decide
  refine List.Forall₂.cons ⟨rfl, ?_⟩ .nil
  have hself : some streamKey ≠ aesDictionary.object := fun h => by cases h
  unfold EncryptedIndirect
  rw [if_neg hself]
  refine ⟨rfl, rfl, ?_⟩
  show EncryptedObject Side aesEncryptors aesCrates limits aesDictionary aesFileKey streamKey
    (.stream (plainStream params)) (.stream (sealedStream params))
  unfold plainStream
  rw [EncryptedObject]
  refine ⟨_, rfl, ?_, .inr ⟨?_, ?_⟩⟩
  · rw [EncryptedEntries]
    rfl
  · rintro (⟨hmetadata, -⟩ | hidentity)
    · cases hmetadata
    · cases hidentity
  · exact {
      wholeBuffer := rfl
      declaredLength := rfl
      discoveredLength := rfl
      filters := rfl
      decodeParams := rfl
      crlfCompliant := rfl
      eolCompliant := rfl
      body := ⟨List.replicate 16 0 ++ aesBlock, rfl, by decide, List.replicate 16 0, by decide, rfl⟩
      decryptedFits := hfits
      noCryptFilter := hfilter
      side := hside }

/-- What decryption leaves of the stored stream when the limits allow it. -/
theorem decryptObjects_sealedStream (params : List DecodeParams) :
    decryptObjects aesCrates {} aesDictionary aesFileKey (streamStore (sealedStream params))
      = (streamStore (plainStream [params.headD {}]), none) := by
  cases params <;> rfl

/-- That the plaintexts fit the limits is not enough: the stored body must fit as well, and a filter
without parameters gets some. -/
theorem decryptObjects_counterexample :
    (¬ ∀ (encryptors : Encryptors) (crates : Crates) (limits : ResourceLimits)
        (dictionary : EncryptionDictionary) (fileKey : Bytes) (plain cipher : ObjectStore),
      encryptors.Inverts crates →
      (∃ objects trailers,
        (parseEncryptionDictionary objects trailers limits).toOption = some dictionary) →
      EncryptedStore (fun stream _ => stream.rawSource.length ≤ limits.maxStreamDeclaredBytes
          ∧ stream.decodeParams.length = stream.filters.length)
        encryptors crates limits dictionary fileKey plain cipher →
      decryptObjects crates limits dictionary fileKey cipher = (plain, none))
    ∧ ¬ ∀ (encryptors : Encryptors) (crates : Crates) (limits : ResourceLimits)
        (dictionary : EncryptionDictionary) (fileKey : Bytes) (plain cipher : ObjectStore),
      encryptors.Inverts crates →
      (∃ objects trailers,
        (parseEncryptionDictionary objects trailers limits).toOption = some dictionary) →
      EncryptedStore (fun stream stored => stream.rawSource.length ≤ limits.maxStreamDeclaredBytes
          ∧ stored.rawSource.length ≤ limits.maxStreamDeclaredBytes)
        encryptors crates limits dictionary fileKey plain cipher →
      decryptObjects crates limits dictionary fileKey cipher = (plain, none) := by
  constructor
  · intro hall
    have hrun := hall aesEncryptors aesCrates smallStreams aesDictionary aesFileKey _ _
      aesEncryptors_inverts ⟨_, _, aesDictionary_accepted.2⟩
      (sealedStream_encrypted [{}] (by decide) ⟨by decide, rfl⟩)
    have herror : (decryptObjects aesCrates smallStreams aesDictionary aesFileKey
        (streamStore (sealedStream [{}]))).2 = some (.limitExceeded "max_stream_declared_bytes") :=
      rfl
    rw [hrun] at herror
    cases herror
  · intro hall
    have hrun := hall aesEncryptors aesCrates {} aesDictionary aesFileKey _ _
      aesEncryptors_inverts ⟨_, _, aesDictionary_accepted.1⟩
      (sealedStream_encrypted [] (by decide) ⟨by decide, by decide⟩)
    rw [decryptObjects_sealedStream] at hrun
    cases hrun

theorem decryptObjects_encrypted_aes :
    decryptObjects aesCrates {} aesDictionary aesFileKey (streamStore (sealedStream [{}]))
      = (streamStore (plainStream [{}]), none) := by
  refine decryptObjects_encrypted aesEncryptors_inverts (sealedStream_encrypted [{}] (by decide) ?_)
  refine ⟨fun bytes hbytes => ?_, rfl⟩
  cases hbytes
  decide

end Pdfv
