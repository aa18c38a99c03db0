import Pdfv.Parser.Filters
/-!
# The Standard security handler

Reading the encryption dictionary, authenticating a password (revisions 2 to 6) and decrypting the
object store in place. An in-place operation returns the value it leaves behind together with its
error, so that what a failed decryption has already changed stays visible.
-/

namespace Pdfv

open Loop Fallible

/-- `PASSWORD_PADDING`. -/
def passwordPadding : Bytes :=
  [0x28, 0xbf, 0x4e, 0x5e, 0x4e, 0x75, 0x8a, 0x41, 0x64, 0x00, 0x4e, 0x56, 0xff, 0xfa, 0x01, 0x08,
    0x2e, 0x2e, 0x00, 0xb6, 0xd0, 0x68, 0x3e, 0x80, 0x2f, 0x0c, 0xa9, 0xfe, 0x64, 0x53, 0x69, 0x7a]

def aesSalt : Bytes := utf8 "sAlT"
def aes256KeyBytes : Nat := 32
def aesBlockBytes : Nat := 16
def revision56PasswordBytes : Nat := 127
def revision56HashBytes : Nat := 32
def revision56EntryBytes : Nat := 48
def revision56SaltBytes : Nat := 8
def revision6HashMaxRounds : Nat := 288
def permsBytes : Nat := 16

/-- `SecurityRevision`. -/
inductive SecurityRevision where
  | r2 | r3 | r4 | r5 | r6
deriving DecidableEq, Repr

/-- `CryptMethod`. -/
inductive CryptMethod where
  | identity | rc4 | aesV2 | aesV3
deriving DecidableEq, Repr

/-- `CryptMethod::algorithm`. -/
def CryptMethod.algorithm : CryptMethod → String
  | .identity => "identity"
  | .rc4 => "rc4"
  | .aesV2 => "aesv2"
  | .aesV3 => "aesv3"

/-- `EncryptionDictionary`. -/
structure EncryptionDictionary where
  object : Option ObjectKey
  version : Nat
  revision : SecurityRevision
  keyLengthBytes : Nat
  ownerKey : Bytes
  userKey : Bytes
  ownerEncryptionKey : Bytes
  userEncryptionKey : Bytes
  perms : Bytes
  permissions : Int
  documentId : Bytes
  encryptMetadata : Bool
  streamMethod : CryptMethod
  stringMethod : CryptMethod
deriving DecidableEq

/-- `EncryptionSummary`. -/
structure EncryptionSummary where
  handler : Option Identifier
  version : Option Nat
  revision : Option Nat
  algorithm : Option Identifier

/-- `EncryptionSummary::into_fact`. -/
def EncryptionSummary.intoFact (summary : EncryptionSummary) (decrypted : Bool) : ParseFact :=
  .encryption true summary.handler summary.version summary.revision summary.algorithm decrypted

/-- `EncryptionSummary::detected`. -/
def EncryptionSummary.detected : EncryptionSummary :=
  ⟨some ⟨"Standard"⟩, none, none, none⟩

/-- `DecryptionError`. -/
inductive DecryptionError where
  | incorrectPassword (summary : EncryptionSummary)
  | unsupported (message : String) (version revision : Option Nat) (algorithm : Option Identifier)
  | malformed (message : String)
  | limitExceeded (limit : String)

namespace DecryptionError

/-- `is_encrypted_status`. -/
def isEncryptedStatus : DecryptionError → Bool
  | incorrectPassword _ => true
  | unsupported .. => true
  | _ => false

/-- `safe_message`. -/
def safeMessage : DecryptionError → String
  | incorrectPassword _ => "incorrect password"
  | unsupported message _ _ _ => message
  | malformed message => message
  | limitExceeded limit => s!"resource limit exceeded: {limit}"

/-- `into_fact`. -/
def intoFact (error : DecryptionError) (fallback : ParseFact) : ParseFact :=
  match error with
  | incorrectPassword summary => summary.intoFact false
  | unsupported _ version revision algorithm =>
    .encryption true (some ⟨"Standard"⟩) version revision algorithm false
  | _ => fallback

/-- `into_parse_error`. -/
def intoParseError : DecryptionError → ParseError
  | limitExceeded limit => .limitExceeded limit
  | malformed message => .malformed ⟨message⟩
  | error => .malformed ⟨error.safeMessage⟩

end DecryptionError

abbrev DecryptResult (α : Type) := Except DecryptionError α

/-- `parse_to_decryption`. -/
def parseToDecryption : ParseError → DecryptionError
  | .limitExceeded limit => .limitExceeded limit
  | _ => .malformed "decryption produced invalid object"

/-- An `Option` with its error. -/
def orElseError {ε α : Type} (value : Option α) (error : ε) : Except ε α :=
  match value with
  | some value => .ok value
  | none => .error error

namespace SecurityRevision

/-- `SecurityRevision::from_i64`. -/
def fromI64 (value : Int) : DecryptResult SecurityRevision :=
  if value = 2 then .ok r2
  else if value = 3 then .ok r3
  else if value = 4 then .ok r4
  else if value = 5 then .ok r5
  else if value = 6 then .ok r6
  else if value > 0 then
    .error (.unsupported s!"unsupported encryption revision {value}" none
      (if value < u8Size then some value.toNat else none) none)
  else .error (.malformed "invalid security revision")

/-- `SecurityRevision::value`. -/
def value : SecurityRevision → Nat
  | r2 => 2
  | r3 => 3
  | r4 => 4
  | r5 => 5
  | r6 => 6

/-- `repeats_hash`. -/
def repeatsHash : SecurityRevision → Bool
  | r3 => true
  | r4 => true
  | _ => false

/-- `uses_aes_256`. -/
def usesAes256 : SecurityRevision → Bool
  | r5 => true
  | r6 => true
  | _ => false

end SecurityRevision

/-- `EncryptionDictionary::summary`. -/
def EncryptionDictionary.summary (dictionary : EncryptionDictionary) : EncryptionSummary :=
  ⟨some ⟨"Standard"⟩, some dictionary.version, some dictionary.revision.value,
    some ⟨dictionary.stringMethod.algorithm⟩⟩

/-! ## Reading the encryption dictionary -/

/-- The entry of the last trailer that has it, `trailers.iter().rev().find_map(..)`. -/
def lastTrailerEntry (trailers : List Trailer) (key : String) : Option CosObject :=
  trailers.reverse.findSome? fun trailer => trailer.dictionary.get key

/-- `encryption_reference`. -/
def encryptionReference (trailers : List Trailer) : Option CosObject :=
  lastTrailerEntry trailers "Encrypt"

/-- `encryption_dictionary`. -/
def encryptionDictionary (objects : ObjectStore) (trailers : List Trailer) :
    Option (Option ObjectKey × Dictionary) :=
  match encryptionReference trailers with
  | some (.dictionary dictionary) => some (none, dictionary)
  | some (.reference key) => do
    let object ← objects.get? key
    let dictionary ← object.object.asDictionary
    return (some key, dictionary)
  | _ => none

/-- `required_integer`. -/
def requiredInteger (dictionary : Dictionary) (key : String) : DecryptResult Int :=
  orElseError (integerFromDictionary dictionary key) (.malformed "missing integer encryption key")

/-- `required_name`. -/
def requiredName (dictionary : Dictionary) (key : String) : DecryptResult PdfName :=
  match dictionary.get key with
  | some (.name name) => .ok name
  | _ => .error (.malformed "missing name encryption key")

/-- `optional_name`. -/
def optionalName (dictionary : Dictionary) (key : String) : Option PdfName :=
  match dictionary.get key with
  | some (.name name) => some name
  | _ => none

/-- `required_string`, as bytes. -/
def requiredString (dictionary : Dictionary) (key : String) : DecryptResult Bytes :=
  match dictionary.get key with
  | some (.string string) => .ok string.bytes
  | _ => .error (.malformed "missing string encryption key")

/-- `optional_string_bytes`. -/
def optionalStringBytes (dictionary : Dictionary) (key : String) : DecryptResult Bytes :=
  match dictionary.get key with
  | some (.string string) => .ok string.bytes
  | none => .ok []
  | _ => .error (.malformed "invalid string encryption key")

/-- `key_length_bytes`. -/
def keyLengthBytes (revision : SecurityRevision) (bits : Int) : DecryptResult Nat :=
  if revision.usesAes256 then
    if bits ≠ 256 then .error (.malformed "revision 5 or 6 key length must be 256 bits")
    else .ok aes256KeyBytes
  else if revision = .r2 then
    if bits ≠ 40 then .error (.malformed "revision 2 key length must be 40 bits") else .ok 5
  else if ¬(40 ≤ bits ∧ bits ≤ 128) ∨ bits % 8 ≠ 0 then .error (.malformed "invalid key length")
  else .ok (bits / 8).toNat

/-- `validate_password_entries`. -/
def validatePasswordEntries (revision : SecurityRevision) (ownerKey userKey : Bytes) :
    DecryptResult Unit :=
  if !revision.usesAes256 then .ok ()
  else if ownerKey.length ≠ revision56EntryBytes then .error (.malformed "invalid owner key length")
  else if userKey.length ≠ revision56EntryBytes then .error (.malformed "invalid user key length")
  else .ok ()

/-- `validate_aes_256_entries`. -/
def validateAes256Entries (revision : SecurityRevision) (version keyLength : Nat)
    (ownerEncryptionKey userEncryptionKey perms : Bytes) : DecryptResult Unit :=
  if !revision.usesAes256 then .ok ()
  else if version ≠ 5 then
    .error (.unsupported s!"unsupported encryption version {version}" (some version)
      (some revision.value) (some ⟨"aesv3"⟩))
  else if keyLength ≠ aes256KeyBytes then .error (.malformed "invalid AES-256 key length")
  else if ownerEncryptionKey.length ≠ aes256KeyBytes then
    .error (.malformed "invalid owner encryption key length")
  else if userEncryptionKey.length ≠ aes256KeyBytes then
    .error (.malformed "invalid user encryption key length")
  else if perms.length ≠ permsBytes then .error (.malformed "invalid permissions length")
  else .ok ()

/-- `named_crypt_filter`: the filter name goes through a lossy text on its way to the lookup. -/
def namedCryptFilter (dictionary : Dictionary) (filterName : PdfName) : DecryptResult Dictionary :=
  match dictionary.get "CF" with
  | some (.dictionary filters) =>
    match Dictionary.get filters (utf8Lossy filterName.bytes) with
    | some (.dictionary filter) => .ok filter
    | _ => .error (.malformed "missing named crypt filter")
  | _ => .error (.malformed "missing crypt filter dictionary")

/-- `crypt_method`. -/
def cryptMethod (dictionary : Dictionary) (filterName : PdfName) : DecryptResult CryptMethod :=
  if filterName.matchesText "Identity" then .ok .identity
  else do
    let filter ← namedCryptFilter dictionary filterName
    let cfm := (optionalName filter "CFM").getD (PdfName.fromStatic "None")
    if cfm.matchesText "None" then return .identity
    else if cfm.matchesText "V2" then return .rc4
    else if cfm.matchesText "AESV2" then return .aesV2
    else if cfm.matchesText "AESV3" then return .aesV3
    else
      let text := utf8Lossy cfm.bytes
      .error (.unsupported s!"unsupported crypt filter method {text}" (some 4) (some 4)
        (Identifier.new text))

/-- The `StmF` or `StrF` entry, `Identity` by default. -/
def defaultFilter (dictionary : Dictionary) (key : String) : PdfName :=
  (optionalName dictionary key).getD (PdfName.fromStatic "Identity")

/-- `crypt_methods`: the stream method and the string method. -/
def cryptMethods (dictionary : Dictionary) (version : Nat) :
    DecryptResult (CryptMethod × CryptMethod) :=
  if version ≠ 4 ∧ version ≠ 5 then .ok (.rc4, .rc4)
  else do
    let streamMethod ← cryptMethod dictionary (defaultFilter dictionary "StmF")
    let stringMethod ← cryptMethod dictionary (defaultFilter dictionary "StrF")
    return (streamMethod, stringMethod)

/-- `validate_aes_256_methods`. -/
def validateAes256Methods (revision : SecurityRevision) (streamMethod stringMethod : CryptMethod) :
    DecryptResult Unit :=
  if !revision.usesAes256 then .ok ()
  else if (streamMethod = .identity ∨ streamMethod = .aesV3) ∧
      (stringMethod = .identity ∨ stringMethod = .aesV3) then .ok ()
  else
    .error (.unsupported "unsupported AES-256 crypt filter method" (some 5) (some revision.value)
      (some ⟨"aesv3"⟩))

/-- One filter of `validate_aes_256_crypt_filter_shape`. -/
def validateAes256Filter (revision : SecurityRevision) (dictionary : Dictionary)
    (filterName : PdfName) : DecryptResult Unit :=
  if filterName.matchesText "Identity" then .ok ()
  else if !filterName.matchesText "StdCF" then
    let text := utf8Lossy filterName.bytes
    .error (.unsupported s!"unsupported AES-256 crypt filter {text}" (some 5)
      (some revision.value) (some ⟨"aesv3"⟩))
  else do
    let filter ← namedCryptFilter dictionary filterName
    let cfm := (optionalName filter "CFM").getD (PdfName.fromStatic "None")
    if !cfm.matchesText "AESV3" then
      .error (.unsupported "unsupported AES-256 crypt filter method" (some 5)
        (some revision.value) (Identifier.new (utf8Lossy cfm.bytes)))
    else if integerFromDictionary filter "Length" ≠ some 32 then
      .error (.malformed "invalid AES-256 crypt filter length")
    else
      match optionalName filter "AuthEvent" with
      | some authEvent =>
        if authEvent.matchesText "DocOpen" then return ()
        else .error (.malformed "invalid AES-256 crypt filter auth event")
      | none => .error (.malformed "invalid AES-256 crypt filter auth event")

/-- `validate_aes_256_crypt_filter_shape`. -/
def validateAes256CryptFilterShape (revision : SecurityRevision) (dictionary : Dictionary) :
    DecryptResult Unit :=
  if !revision.usesAes256 then .ok ()
  else do
    validateAes256Filter revision dictionary (defaultFilter dictionary "StmF")
    validateAes256Filter revision dictionary (defaultFilter dictionary "StrF")

/-- `document_id`. -/
def documentId (trailers : List Trailer) : DecryptResult Bytes :=
  match lastTrailerEntry trailers "ID" with
  | some (.array values) =>
    match values.head? with
    | some (.string id) => .ok id.bytes
    | _ => .error (.malformed "missing first document ID")
  | _ => .error (.malformed "missing document ID")

/-- The `V` entry of `parse_encryption_dictionary`. -/
def parseVersion (dictionary : Dictionary) (revision : SecurityRevision) : DecryptResult Nat := do
  let version ← requiredInteger dictionary "V"
  if ¬(0 ≤ version ∧ version < u8Size) then
    .error (.unsupported s!"unsupported encryption version {version}" none (some revision.value)
      none)
  else if version ≠ 1 ∧ version ≠ 2 ∧ version ≠ 4 ∧ version ≠ 5 then
    .error (.unsupported s!"unsupported encryption version {version}" (some version.toNat)
      (some revision.value) none)
  else return version.toNat

/-- `parse_encryption_dictionary`. -/
def parseEncryptionDictionary (objects : ObjectStore) (trailers : List Trailer)
    (limits : ResourceLimits) : DecryptResult EncryptionDictionary := do
  let (object, dictionary) ← orElseError (encryptionDictionary objects trailers)
    (.malformed "missing encryption dictionary")
  failIf (dictionary.length > limits.maxEncryptionDictEntries)
    (.limitExceeded "max_encryption_dict_entries")
  let filter ← requiredName dictionary "Filter"
  let filterText := utf8Lossy filter.bytes
  failIf (!filter.matchesText "Standard")
    (.unsupported s!"unsupported security handler {filterText}" none none none)
  let revisionNumber ← requiredInteger dictionary "R"
  let revision ← SecurityRevision.fromI64 revisionNumber
  let version ← parseVersion dictionary revision
  let keyLength ← keyLengthBytes revision ((integerFromDictionary dictionary "Length").getD 40)
  let ownerKey ← requiredString dictionary "O"
  let userKey ← requiredString dictionary "U"
  validatePasswordEntries revision ownerKey userKey
  let ownerEncryptionKey ← optionalStringBytes dictionary "OE"
  let userEncryptionKey ← optionalStringBytes dictionary "UE"
  let perms ← optionalStringBytes dictionary "Perms"
  validateAes256Entries revision version keyLength ownerEncryptionKey userEncryptionKey perms
  let permissions ← requiredInteger dictionary "P"
  failIf (¬(-(2 ^ 31 : Int) ≤ permissions ∧ permissions < 2 ^ 31))
    (.malformed "invalid permissions bits")
  let id ← documentId trailers
  let encryptMetadata := match dictionary.get "EncryptMetadata" with
    | some (.boolean value) => value
    | _ => true
  validateAes256CryptFilterShape revision dictionary
  let (streamMethod, stringMethod) ← cryptMethods dictionary version
  validateAes256Methods revision streamMethod stringMethod
  return {
    object, version, revision, keyLengthBytes := keyLength, ownerKey, userKey, ownerEncryptionKey,
    userEncryptionKey, perms, permissions, documentId := id, encryptMetadata, streamMethod,
    stringMethod }

/-- `encryption_summary`. -/
def encryptionSummary (objects : ObjectStore) (trailers : List Trailer) : EncryptionSummary :=
  match parseEncryptionDictionary objects trailers {} with
  | .ok dictionary => dictionary.summary
  | .error _ => .detected

/-- `encryption_fact`. -/
def encryptionFact (objects : ObjectStore) (trailers : List Trailer) : ParseFact :=
  (encryptionSummary objects trailers).intoFact false

/-- `EncryptionClassification`. -/
inductive EncryptionClassification where
  | supported | unsupported
deriving DecidableEq, Repr

/-- `classify_encryption`. -/
def classifyEncryption (objects : ObjectStore) (trailers : List Trailer)
    (limits : ResourceLimits) : DecryptResult EncryptionClassification :=
  match parseEncryptionDictionary objects trailers limits with
  | .ok _ => .ok .supported
  | .error error => if error.isEncryptedStatus then .ok .unsupported else .error error

/-! ## Passwords, revisions 2 to 4 -/

variable (crates : Crates)

/-- `padded_password`. -/
def paddedPassword (password : Bytes) : Bytes :=
  password.take 32 ++ passwordPadding.drop (min password.length 32)

/-- `xor_key`. -/
def xorKey (key : Bytes) (round : UInt8) : Bytes :=
  key.map (· ^^^ round)

/-- `hash_prefix`. -/
def hashPrefix (bytes : Bytes) (len : Nat) : DecryptResult Bytes :=
  orElseError (subrange bytes 0 len) (.malformed "hash prefix out of bounds")

/-- `slice_range`. -/
def sliceRange (bytes : Bytes) (offset len : Nat) (message : String) : DecryptResult Bytes :=
  orElseError (subrange bytes offset (offset + len)) (.malformed message)

/-- Little-endian bytes of a number. -/
def leBytes : Nat → Nat → Bytes
  | 0, _ => []
  | count + 1, value => UInt8.ofNat value :: leBytes count (value / 256)

/-- `i32::to_le_bytes`. -/
def i32LeBytes (value : Int) : Bytes :=
  leBytes 4 (value % (2 ^ 32 : Int)).toNat

/-- `rc4_crypt`. -/
def rc4Crypt (key bytes : Bytes) : DecryptResult Bytes :=
  orElseError (crates.rc4 key bytes) (.malformed "invalid rc4 key")

/-- The fifty rounds of `digest = Md5::digest(hash_prefix(&digest, len)?)`. -/
def repeatHash (len : Nat) : Nat → Bytes → DecryptResult Bytes
  | 0, digest => .ok digest
  | rounds + 1, digest => do
    let head ← hashPrefix digest len
    repeatHash len rounds (crates.md5 head)

/-- A digest hashed again fifty times by the revisions that do so, cut to the key length. -/
def finishKey (dictionary : EncryptionDictionary) (digest : Bytes) : DecryptResult Bytes := do
  let digest ← if dictionary.revision.repeatsHash then
      repeatHash crates dictionary.keyLengthBytes 50 digest
    else pure digest
  return digest.take dictionary.keyLengthBytes

/-- `owner_password_key`. -/
def ownerPasswordKey (dictionary : EncryptionDictionary) (password : Bytes) :
    DecryptResult Bytes :=
  finishKey crates dictionary (crates.md5 (paddedPassword password))

/-- Keyed RC4 rounds in the given order of round numbers. -/
def rc4Rounds (key : Bytes) : List UInt8 → Bytes → DecryptResult Bytes
  | [], current => .ok current
  | round :: rounds, current => do
    let current ← rc4Crypt crates (xorKey key round) current
    rc4Rounds key rounds current

/-- The round numbers `0..=19`. -/
def roundNumbers : List UInt8 :=
  (List.range 20).map UInt8.ofNat

/-- `decrypt_owner_key`. -/
def decryptOwnerKey (dictionary : EncryptionDictionary) (ownerKey : Bytes) : DecryptResult Bytes :=
  match dictionary.revision with
  | .r2 => rc4Crypt crates ownerKey dictionary.ownerKey
  | .r3 | .r4 => rc4Rounds crates ownerKey roundNumbers.reverse dictionary.ownerKey
  | .r5 | .r6 => .error (.malformed "invalid revision for legacy owner password authentication")

/-- `derive_file_key`. -/
def deriveFileKey (dictionary : EncryptionDictionary) (password : Bytes) : DecryptResult Bytes :=
  let seed := paddedPassword password ++ dictionary.ownerKey ++ i32LeBytes dictionary.permissions
    ++ dictionary.documentId
    ++ (if dictionary.revision = .r4 ∧ !dictionary.encryptMetadata then [0xff, 0xff, 0xff, 0xff]
      else [])
  finishKey crates dictionary (crates.md5 seed)

/-- `user_password_value`. -/
def userPasswordValue (dictionary : EncryptionDictionary) (fileKey : Bytes) :
    DecryptResult Bytes :=
  match dictionary.revision with
  | .r2 => rc4Crypt crates fileKey passwordPadding
  | .r3 | .r4 => do
    let current ← rc4Rounds crates fileKey roundNumbers
      (crates.md5 (passwordPadding ++ dictionary.documentId))
    return current ++ List.replicate 16 0
  | .r5 | .r6 => .error (.malformed "invalid revision for legacy user password value")

/-- `authenticate_user_password`. -/
def authenticateUserPassword (dictionary : EncryptionDictionary) (password : Bytes) :
    DecryptResult (Option Bytes) := do
  let fileKey ← deriveFileKey crates dictionary password
  let candidate ← userPasswordValue crates dictionary fileKey
  let authenticated ← match dictionary.revision with
    | .r2 => pure (decide (candidate = dictionary.userKey))
    | .r3 | .r4 => do
      let expected ← orElseError (subrange dictionary.userKey 0 16) (.malformed "user key too short")
      let actual ← orElseError (subrange candidate 0 16) (.malformed "user key candidate too short")
      pure (decide (actual = expected))
    | .r5 | .r6 =>
      .error (.malformed "invalid revision for legacy user password authentication")
  return if authenticated then some fileKey else none

/-- `authenticate_owner_password`. -/
def authenticateOwnerPassword (dictionary : EncryptionDictionary) (password : Bytes) :
    DecryptResult (Option Bytes) := do
  let ownerKey ← ownerPasswordKey crates dictionary password
  let paddedUserPassword ← decryptOwnerKey crates dictionary ownerKey
  authenticateUserPassword crates dictionary paddedUserPassword

/-! ## Passwords, revisions 5 and 6 -/

/-- `encrypt_aes_128_cbc_no_padding`. -/
def encryptAes128CbcNoPadding (key iv plaintext : Bytes) : DecryptResult Bytes :=
  if key.length ≠ 16 ∨ iv.length ≠ aesBlockBytes then
    .error (.malformed "invalid AES-128 key or IV")
  else orElseError (crates.aes128CbcEncrypt key iv plaintext)
    (.malformed "invalid AES-128 plaintext")

/-- `decrypt_aes_256_cbc_no_padding`. -/
def decryptAes256CbcNoPadding (key ciphertext : Bytes) : DecryptResult Bytes :=
  if key.length ≠ aes256KeyBytes then .error (.malformed "invalid AES-256 key or IV")
  else orElseError (crates.aes256CbcDecrypt key (List.replicate aesBlockBytes 0) ciphertext)
    (.malformed "invalid AES-256 ciphertext")

/-- `decrypt_aes_256_block`. -/
def decryptAes256Block (key ciphertext : Bytes) : DecryptResult Bytes :=
  if ciphertext.length ≠ permsBytes then .error (.malformed "invalid permissions length")
  else if key.length ≠ aes256KeyBytes then .error (.malformed "invalid AES-256 permissions key")
  else .ok (crates.aes256DecryptBlock key ciphertext)

/-- `revision_5_6_password`. -/
def revision56Password (password : Bytes) : Bytes :=
  password.take revision56PasswordBytes

/-- The hash that a selector picks in one round of `revision_6_hash_loop`. -/
def selectHash (selector : Nat) (bytes : Bytes) : Bytes :=
  if selector = 0 then crates.sha256 bytes
  else if selector = 1 then crates.sha384 bytes
  else crates.sha512 bytes

/-- The ciphertext `E` of one round of `revision_6_hash_loop`. -/
def revision6Ciphertext (password : Bytes) (ownerContext : Option Bytes) (digest : Bytes) :
    DecryptResult Bytes := do
  let k1 := password ++ digest ++ ownerContext.getD []
  let repeated := (List.replicate 64 k1).flatten
  let key ← hashPrefix digest 16
  let iv ← sliceRange digest 16 16 "revision 6 hash IV missing"
  encryptAes128CbcNoPadding crates key iv repeated

/-- The digest and the last ciphertext byte of one round of `revision_6_hash_loop`. The selector
is the sum of the first sixteen ciphertext bytes modulo three. -/
def revision6Round (password : Bytes) (ownerContext : Option Bytes) (digest : Bytes) :
    DecryptResult (Bytes × UInt8) := do
  let encrypted ← revision6Ciphertext crates password ownerContext digest
  let head ← orElseError (subrange encrypted 0 16) (.malformed "revision 6 selector missing")
  let selector := (head.foldl (fun sum byte => sum + byte.toNat) 0) % 3
  let digest := selectHash crates selector encrypted
  let last ← orElseError encrypted.getLast? (.malformed "revision 6 hash block missing")
  return (digest, last)

/-- One pass of the loop of `revision_6_hash_loop`. -/
def revision6HashStep (password : Bytes) (ownerContext : Option Bytes) (s : Nat × Bytes) :
    Step (Nat × Bytes) (DecryptResult Bytes) :=
  let (round, digest) := s
  if round ≥ revision6HashMaxRounds then
    .done (.error (.malformed "revision 6 hash exceeded iteration bound"))
  else
    match revision6Round crates password ownerContext digest with
    | .error e => .done (.error e)
    | .ok (digest, last) =>
      if round ≥ 63 ∧ last.toNat ≤ round - 32 then .done (.ok digest)
      else .next (round + 1, digest)

/-- `revision_6_hash_loop`. -/
def revision6HashLoop (password : Bytes) (ownerContext : Option Bytes) (digest : Bytes) :
    DecryptResult Bytes :=
  runLoop (revision6HashStep crates password ownerContext) (fun s => .ok s.2)
    (revision6HashMaxRounds + 1) (0, digest)

/-- `revision_5_6_hash`. -/
def revision56Hash (revision : SecurityRevision) (password salt : Bytes)
    (ownerContext : Option Bytes) : DecryptResult Bytes := do
  let digest := crates.sha256 (password ++ salt ++ ownerContext.getD [])
  let digest ← if revision = .r6 then revision6HashLoop crates password ownerContext digest
    else pure digest
  return digest.take aes256KeyBytes

/-- `tampered_perms`. -/
def tamperedPerms (dictionary : EncryptionDictionary) : DecryptionError :=
  .unsupported "invalid encryption permissions" (some dictionary.version)
    (some dictionary.revision.value) (some ⟨"aesv3"⟩)

/-- `validate_perms`. -/
def validatePerms (dictionary : EncryptionDictionary) (fileKey : Bytes) : DecryptResult Unit := do
  let plaintext ← decryptAes256Block crates fileKey dictionary.perms
  let permissions ← orElseError (subrange plaintext 0 4) (.malformed "permissions prefix missing")
  failIf (permissions ≠ i32LeBytes dictionary.permissions) (tamperedPerms dictionary)
  let stableSuffix ← orElseError (subrange plaintext 4 12) (.malformed "permissions suffix missing")
  let metadataMarker : UInt8 := if dictionary.encryptMetadata then 84 else 70
  failIf (stableSuffix ≠ [0xff, 0xff, 0xff, 0xff, metadataMarker, 97, 100, 98])
    (tamperedPerms dictionary)

/-- The shape shared by `authenticate_aes_256_owner_password` and its user counterpart: `entry` is
`/O` or `/U`, `encryptionKey` is `/OE` or `/UE`, and the owner check hashes `/U` as context. -/
def authenticateAes256With (dictionary : EncryptionDictionary) (password entry encryptionKey : Bytes)
    (context : Option Bytes) (validationSaltMissing keySaltMissing : String) :
    DecryptResult (Option Bytes) := do
  let password := revision56Password password
  let validationSalt ← sliceRange entry revision56HashBytes revision56SaltBytes
    validationSaltMissing
  let expected ← hashPrefix entry revision56HashBytes
  let candidate ← revision56Hash crates dictionary.revision password validationSalt context
  if candidate ≠ expected then return none
  else
    let keySalt ← sliceRange entry (revision56HashBytes + revision56SaltBytes)
      revision56SaltBytes keySaltMissing
    let key ← revision56Hash crates dictionary.revision password keySalt context
    let fileKey ← decryptAes256CbcNoPadding crates key encryptionKey
    validatePerms crates dictionary fileKey
    return some fileKey

/-- `authenticate_aes_256_owner_password`. -/
def authenticateAes256OwnerPassword (dictionary : EncryptionDictionary) (password : Bytes) :
    DecryptResult (Option Bytes) :=
  authenticateAes256With crates dictionary password dictionary.ownerKey
    dictionary.ownerEncryptionKey (some dictionary.userKey) "owner validation salt missing"
    "owner key salt missing"

/-- `authenticate_aes_256_user_password`. -/
def authenticateAes256UserPassword (dictionary : EncryptionDictionary) (password : Bytes) :
    DecryptResult (Option Bytes) :=
  authenticateAes256With crates dictionary password dictionary.userKey
    dictionary.userEncryptionKey none "user validation salt missing" "user key salt missing"

/-- `authenticate`: the owner password first, then the user password. -/
def authenticate (dictionary : EncryptionDictionary) (password : Bytes) :
    DecryptResult (Option Bytes) := do
  let (owner, user) := if dictionary.revision.usesAes256 then
      (authenticateAes256OwnerPassword, authenticateAes256UserPassword)
    else (authenticateOwnerPassword, authenticateUserPassword)
  match ← owner crates dictionary password with
  | some fileKey => return some fileKey
  | none => user crates dictionary password

/-! ## Decrypting objects in place -/

/-- `object_key`. -/
def objectKey (fileKey : Bytes) (key : ObjectKey) (method : CryptMethod) : Bytes :=
  if method = .aesV3 then fileKey
  else
    let seed := fileKey ++ leBytes 3 key.number ++ leBytes 2 key.generation
      ++ (if method = .aesV2 then aesSalt else [])
    (crates.md5 seed).take (min (fileKey.length + 5) 16)

/-- `decrypt_aes_v2`. -/
def decryptAesV2 (key bytes : Bytes) : DecryptResult Bytes := do
  let iv ← orElseError (subrange bytes 0 16) (.malformed "AESV2 stream missing IV")
  let ciphertext := bytes.drop 16
  if key.length ≠ 16 then .error (.malformed "invalid AESV2 key or IV")
  else
    orElseError (crates.aes128CbcDecryptPkcs7 key iv ciphertext)
      (.malformed "invalid AESV2 padding")

/-- `decrypt_aes_v3`. -/
def decryptAesV3 (key bytes : Bytes) : DecryptResult Bytes := do
  let iv ← orElseError (subrange bytes 0 aesBlockBytes) (.malformed "AESV3 stream missing IV")
  let ciphertext := bytes.drop aesBlockBytes
  if key.length ≠ aes256KeyBytes then .error (.malformed "invalid AESV3 key or IV")
  else
    orElseError (crates.aes256CbcDecryptPkcs7 key iv ciphertext)
      (.malformed "invalid AESV3 padding")

/-- `decrypt_bytes`. -/
def decryptBytes (method : CryptMethod) (key bytes : Bytes) : DecryptResult Bytes :=
  match method with
  | .identity => .ok bytes
  | .rc4 => rc4Crypt crates key bytes
  | .aesV2 => decryptAesV2 crates key bytes
  | .aesV3 => decryptAesV3 crates key bytes

/-- What an in-place operation leaves behind, and its error. -/
abbrev Mutated (α : Type) := α × Option DecryptionError

/-- An operation that writes its result only when it succeeds. -/
def writeBack {α : Type} (old : α) (result : DecryptResult α) : Mutated α :=
  match result with
  | .ok value => (value, none)
  | .error e => (old, some e)

variable (limits : ResourceLimits) (dictionary : EncryptionDictionary) (fileKey : Bytes)

/-- The string case of `decrypt_object`. -/
def decryptString (key : ObjectKey) (string : PdfString) : DecryptResult PdfString :=
  if dictionary.stringMethod = .identity then .ok string
  else do
    let decrypted ← decryptBytes crates dictionary.stringMethod
      (objectKey crates fileKey key dictionary.stringMethod) string.bytes
    if decrypted.length > limits.maxDecryptedStringBytes then
      .error (.limitExceeded "max_decrypted_string_bytes")
    else (PdfString.new decrypted limits).mapError parseToDecryption

/-- `decrypt_stream`. -/
def decryptStream (key : ObjectKey) (stream : StreamObject) : DecryptResult StreamObject :=
  if !dictionary.encryptMetadata ∧ entryIsName stream.dictionary "Type" "Metadata" then .ok stream
  else if dictionary.streamMethod = .identity then .ok stream
  else do
    let raw ← stream.rawBytes.mapError parseToDecryption
    if raw.length > limits.maxStreamDeclaredBytes then
      .error (.limitExceeded "max_stream_declared_bytes")
    else
      let decrypted ← decryptBytes crates dictionary.streamMethod
        (objectKey crates fileKey key dictionary.streamMethod) raw
      if decrypted.length > limits.maxDecryptedStreamBytes then
        .error (.limitExceeded "max_decrypted_stream_bytes")
      else return StreamOf.removeCryptFilters { stream with
        rawSource := decrypted
        rawRange := ⟨0, decrypted.length⟩
        discoveredLength := decrypted.length
        declaredLength := some decrypted.length }

mutual

/-- `decrypt_object`. -/
def decryptObject (key : ObjectKey) : CosObject → Mutated CosObject
  | .string string =>
    let (string, e) := writeBack string (decryptString crates limits dictionary fileKey key string)
    (.string string, e)
  | .array values =>
    let (values, e) := decryptValues key values
    (.array values, e)
  | .dictionary entries =>
    let (entries, e) := decryptEntries key entries
    (.dictionary entries, e)
  | .stream ⟨entries, range, declared, discovered, filters, params, source, crlf, eol⟩ =>
    match decryptStream crates limits dictionary fileKey key
        ⟨entries, range, declared, discovered, filters, params, source, crlf, eol⟩ with
    | .error e =>
      (.stream ⟨entries, range, declared, discovered, filters, params, source, crlf, eol⟩, some e)
    | .ok stream =>
      let (entries, e) := decryptEntries key entries
      (.stream { stream with dictionary := entries }, e)
  | object => (object, none)

/-- `decrypt_object` on the elements of an array. -/
def decryptValues (key : ObjectKey) : List CosObject → Mutated (List CosObject)
  | [] => ([], none)
  | value :: values =>
    match decryptObject key value with
    | (value, some e) => (value :: values, some e)
    | (value, none) =>
      let (values, e) := decryptValues key values
      (value :: values, e)

/-- `decrypt_object` on the values of a dictionary. -/
def decryptEntries (key : ObjectKey) :
    List (PdfName × CosObject) → Mutated (List (PdfName × CosObject))
  | [] => ([], none)
  | (name, value) :: entries =>
    match decryptObject key value with
    | (value, some e) => ((name, value) :: entries, some e)
    | (value, none) =>
      let (entries, e) := decryptEntries key entries
      ((name, value) :: entries, e)

end

/-- One object of `decrypt_objects`; the encryption dictionary itself is skipped. -/
def decryptIndirectObject (object : IndirectObject) : Mutated IndirectObject :=
  if some object.key = dictionary.object then (object, none)
  else
    let (value, e) := decryptObject crates limits dictionary fileKey object.key object.object
    ({ object with object := value }, e)

/-- `decrypt_objects`. -/
def decryptObjects (objects : ObjectStore) : Mutated ObjectStore :=
  objects.mutateValues (decryptIndirectObject crates limits dictionary fileKey)

omit dictionary fileKey in
/-- `decrypt_document`. -/
def decryptDocument (objects : ObjectStore) (trailers : List Trailer) (password : Bytes) :
    ObjectStore × DecryptResult EncryptionSummary :=
  match parseEncryptionDictionary objects trailers limits with
  | .error e => (objects, .error e)
  | .ok encryption =>
    match authenticate crates encryption password with
    | .error e => (objects, .error e)
    | .ok none => (objects, .error (.incorrectPassword encryption.summary))
    | .ok (some fileKey) =>
      match decryptObjects crates limits encryption fileKey objects with
      | (objects, some e) => (objects, .error e)
      | (objects, none) => (objects, .ok encryption.summary)

end Pdfv
