import Pdfv.Parser.DecryptionInverse
/-!
# Passwords of AES-256 documents

Revisions 5 and 6: `/U` and `/O` hold the hash of a password with two salts, `/UE` and `/OE` the file
key wrapped under a second hash of the password, and `/Perms` the permissions under the file key. What
a writer puts there is `PasswordSeal` and `SealedPermissions`. Either password opens the document to
the same plaintext (`decryptDocument_aes256`); only its first 127 bytes count.
-/

namespace Pdfv

open Fallible

/-! ## The writer -/

/-- The encrypting halves of AES-256 without padding. -/
structure KeyWrappers where
  /-- AES-256-CBC under key and IV. -/
  aes256CbcEncrypt : Bytes → Bytes → Bytes → Bytes
  /-- One AES-256 block. -/
  aes256EncryptBlock : Bytes → Bytes → Bytes

/-- Decrypting what was encrypted gives the plaintext back. -/
structure KeyWrappers.Inverts (wrappers : KeyWrappers) (crates : Crates) : Prop where
  cbc : ∀ key iv plain, key.length = aes256KeyBytes → iv.length = aesBlockBytes →
    plain.length = aes256KeyBytes →
    crates.aes256CbcDecrypt key iv (wrappers.aes256CbcEncrypt key iv plain) = some plain
  block : ∀ key plain, key.length = aes256KeyBytes → plain.length = aesBlockBytes →
    crates.aes256DecryptBlock key (wrappers.aes256EncryptBlock key plain) = plain
  blockLength : ∀ key plain, key.length = aes256KeyBytes → plain.length = aesBlockBytes →
    (wrappers.aes256EncryptBlock key plain).length = aesBlockBytes

/-- The entries for one password: `entry` is `/U` or `/O` and `encryptionKey` is `/UE` or `/OE`. The
hashes for `/O` cover `/U` as their context. -/
structure PasswordSeal (crates : Crates) (wrappers : KeyWrappers) (revision : SecurityRevision)
    (fileKey password : Bytes) (context : Option Bytes) (entry encryptionKey : Bytes) where
  validationSalt : Bytes
  keySalt : Bytes
  hash : Bytes
  key : Bytes
  validationSalt_length : validationSalt.length = revision56SaltBytes
  keySalt_length : keySalt.length = revision56SaltBytes
  hash_eq : revision56Hash crates revision (revision56Password password) validationSalt context
    = .ok hash
  hash_length : hash.length = revision56HashBytes
  key_eq : revision56Hash crates revision (revision56Password password) keySalt context = .ok key
  key_length : key.length = aes256KeyBytes
  entry_eq : entry = hash ++ (validationSalt ++ keySalt)
  encryptionKey_eq :
    encryptionKey = wrappers.aes256CbcEncrypt key (List.replicate aesBlockBytes 0) fileKey

/-- What `/Perms` encrypts: the permissions, four bytes `ff`, the metadata flag, `adb` and four bytes
of any value. -/
def permsPlain (dictionary : EncryptionDictionary) (filler : Bytes) : Bytes :=
  i32LeBytes dictionary.permissions
    ++ ([0xff, 0xff, 0xff, 0xff, if dictionary.encryptMetadata then 84 else 70, 97, 100, 98]
      ++ filler)

/-- `/Perms` under the file key. -/
structure SealedPermissions (wrappers : KeyWrappers) (dictionary : EncryptionDictionary)
    (fileKey : Bytes) : Prop where
  keyLength : fileKey.length = aes256KeyBytes
  perms : ∃ filler : Bytes, filler.length = 4
    ∧ dictionary.perms = wrappers.aes256EncryptBlock fileKey (permsPlain dictionary filler)

/-! ## One password -/

section OnePassword

variable {crates : Crates} {wrappers : KeyWrappers} {dictionary : EncryptionDictionary}
  {fileKey : Bytes}

theorem subrange_middle (front middle rest : Bytes) :
    subrange (front ++ (middle ++ rest)) front.length (front.length + middle.length)
      = some middle := by
  unfold subrange
  rw [if_pos ⟨by omega, by rw [List.length_append, List.length_append]; omega⟩,
    List.drop_left, Nat.add_sub_cancel_left, List.take_left]

theorem length_leBytes (count value : Nat) : (leBytes count value).length = count := by
  induction count generalizing value with
  | zero => rfl
  | succ count ih => rw [leBytes, List.length_cons, ih]

theorem length_permsPlain {filler : Bytes} (h : filler.length = 4) :
    (permsPlain dictionary filler).length = aesBlockBytes := by
  have hpermissions : (i32LeBytes dictionary.permissions).length = 4 := length_leBytes 4 _
  unfold permsPlain
  rw [List.length_append, List.length_append, hpermissions, h]
  rfl

/-- The permissions are found as they were sealed. -/
theorem validatePerms_sealed (hwrap : wrappers.Inverts crates)
    (h : SealedPermissions wrappers dictionary fileKey) :
    validatePerms crates dictionary fileKey = .ok () := by
  obtain ⟨hkey, filler, hfiller, hperms⟩ := h
  have hlength := @length_permsPlain dictionary filler hfiller
  have hsealed : (wrappers.aes256EncryptBlock fileKey (permsPlain dictionary filler)).length
      = permsBytes := hwrap.blockLength _ _ hkey hlength
  have hblock : decryptAes256Block crates fileKey dictionary.perms
      = .ok (permsPlain dictionary filler) := by
    unfold decryptAes256Block
    rw [hperms, if_neg (not_not.mpr hsealed), if_neg (not_not.mpr hkey),
      hwrap.block _ _ hkey hlength]
  have hpermissions : subrange (permsPlain dictionary filler) 0 4
      = some (i32LeBytes dictionary.permissions) := by
    have h := subrange_middle [] (i32LeBytes dictionary.permissions)
      ([0xff, 0xff, 0xff, 0xff, if dictionary.encryptMetadata then 84 else 70, 97, 100, 98] ++ filler)
    rwa [List.length_nil, Nat.zero_add, i32LeBytes, length_leBytes] at h
  have hsuffix : subrange (permsPlain dictionary filler) 4 12
      = some [0xff, 0xff, 0xff, 0xff, if dictionary.encryptMetadata then 84 else 70, 97, 100, 98] := by
    have h := subrange_middle (i32LeBytes dictionary.permissions)
      [0xff, 0xff, 0xff, 0xff, if dictionary.encryptMetadata then 84 else 70, 97, 100, 98] filler
    rwa [i32LeBytes, length_leBytes] at h
  unfold validatePerms
  rw [hblock, ok_bind, hpermissions, hsuffix]
  simp only [orElseError, ok_bind]
  rw [failIf_of_not (not_not.mpr rfl), ok_bind]
  exact failIf_of_not (not_not.mpr rfl) _

variable {password entry encryptionKey : Bytes} {context : Option Bytes}
  (s : PasswordSeal crates wrappers dictionary.revision fileKey password context entry encryptionKey)
  (validationSaltMissing keySaltMissing : String)

include s

theorem PasswordSeal.parts :
    sliceRange entry revision56HashBytes revision56SaltBytes validationSaltMissing
        = .ok s.validationSalt
      ∧ hashPrefix entry revision56HashBytes = .ok s.hash
      ∧ sliceRange entry (revision56HashBytes + revision56SaltBytes) revision56SaltBytes
        keySaltMissing = .ok s.keySalt := by
  have hvalidation := subrange_middle s.hash s.validationSalt s.keySalt
  have hhash := subrange_middle [] s.hash (s.validationSalt ++ s.keySalt)
  have hkey := subrange_middle (s.hash ++ s.validationSalt) s.keySalt []
  rw [s.hash_length, s.validationSalt_length] at hvalidation
  rw [List.nil_append, List.length_nil, Nat.zero_add, s.hash_length] at hhash
  rw [List.append_nil, List.append_assoc, List.length_append, s.hash_length,
    s.validationSalt_length, s.keySalt_length] at hkey
  rw [← s.entry_eq] at hvalidation hhash hkey
  unfold sliceRange hashPrefix
  rw [hvalidation, hhash, hkey]
  exact ⟨rfl, rfl, rfl⟩

/-- The password of the entries, and any other with the same first 127 bytes, gives the file key. -/
theorem authenticateAes256With_sealed (hwrap : wrappers.Inverts crates)
    (hperms : SealedPermissions wrappers dictionary fileKey) {other : Bytes}
    (hother : revision56Password other = revision56Password password) :
    authenticateAes256With crates dictionary other entry encryptionKey context
      validationSaltMissing keySaltMissing = .ok (some fileKey) := by
  obtain ⟨hvalidation, hhash, hkey⟩ := s.parts validationSaltMissing keySaltMissing
  have hunwrapped : decryptAes256CbcNoPadding crates s.key encryptionKey = .ok fileKey := by
    have hcbc := hwrap.cbc s.key (List.replicate aesBlockBytes 0) fileKey s.key_length
      List.length_replicate hperms.keyLength
    rw [← s.encryptionKey_eq] at hcbc
    unfold decryptAes256CbcNoPadding
    rw [if_neg (not_not.mpr s.key_length), hcbc]
    rfl
  unfold authenticateAes256With
  rw [hother]
  dsimp only
  rw [hvalidation, ok_bind, hhash, ok_bind, s.hash_eq, ok_bind, if_neg (not_not.mpr rfl), hkey,
    ok_bind, s.key_eq, ok_bind, hunwrapped, ok_bind, validatePerms_sealed hwrap hperms]
  rfl

/-- A password with another hash is refused. -/
theorem authenticateAes256With_refused {other candidate : Bytes}
    (hcandidate : revision56Hash crates dictionary.revision (revision56Password other)
      s.validationSalt context = .ok candidate) (hne : candidate ≠ s.hash) :
    authenticateAes256With crates dictionary other entry encryptionKey context
      validationSaltMissing keySaltMissing = .ok none := by
  obtain ⟨hvalidation, hhash, -⟩ := s.parts validationSaltMissing keySaltMissing
  unfold authenticateAes256With
  dsimp only
  rw [hvalidation, ok_bind, hhash, ok_bind, hcandidate, ok_bind, if_pos hne]
  rfl

end OnePassword

/-! ## Both passwords -/

/-- `/U`, `/UE`, `/O`, `/OE` and `/Perms` for a user and an owner password. -/
structure SealedPasswords (crates : Crates) (wrappers : KeyWrappers)
    (dictionary : EncryptionDictionary) (fileKey owner user : Bytes) where
  userSeal : PasswordSeal crates wrappers dictionary.revision fileKey user none dictionary.userKey
    dictionary.userEncryptionKey
  ownerSeal : PasswordSeal crates wrappers dictionary.revision fileKey owner
    (some dictionary.userKey) dictionary.ownerKey dictionary.ownerEncryptionKey
  permissions : SealedPermissions wrappers dictionary fileKey

section BothPasswords

variable {crates : Crates} {wrappers : KeyWrappers} {dictionary : EncryptionDictionary}
  {fileKey owner user : Bytes}

/-- The hash of a password for the owner check differs from the one in `/O`. -/
def SealedPasswords.FailsOwner (s : SealedPasswords crates wrappers dictionary fileKey owner user)
    (password : Bytes) : Prop :=
  ∃ candidate, revision56Hash crates dictionary.revision (revision56Password password)
    s.ownerSeal.validationSalt (some dictionary.userKey) = .ok candidate
      ∧ candidate ≠ s.ownerSeal.hash

/-- The hash of a password for the user check differs from the one in `/U`. -/
def SealedPasswords.FailsUser (s : SealedPasswords crates wrappers dictionary fileKey owner user)
    (password : Bytes) : Prop :=
  ∃ candidate, revision56Hash crates dictionary.revision (revision56Password password)
    s.userSeal.validationSalt none = .ok candidate ∧ candidate ≠ s.userSeal.hash

variable (s : SealedPasswords crates wrappers dictionary fileKey owner user)
  (haes : dictionary.revision.usesAes256 = true)

theorem authenticate_aes256 (haes : dictionary.revision.usesAes256 = true) (password : Bytes) :
    authenticate crates dictionary password
      = (authenticateAes256OwnerPassword crates dictionary password >>= fun found =>
        found.elim (authenticateAes256UserPassword crates dictionary password)
          fun fileKey => .ok (some fileKey)) := by
  unfold authenticate
  rw [haes, if_pos rfl]
  dsimp only
  cases authenticateAes256OwnerPassword crates dictionary password with
  | error e => rfl
  | ok found => cases found <;> rfl

include s haes

theorem SealedPasswords.unlocksOwner (hwrap : wrappers.Inverts crates) {password : Bytes}
    (hpassword : revision56Password password = revision56Password owner) :
    authenticate crates dictionary password = .ok (some fileKey) := by
  have howner : authenticateAes256OwnerPassword crates dictionary password = .ok (some fileKey) :=
    authenticateAes256With_sealed s.ownerSeal _ _ hwrap s.permissions hpassword
  rw [authenticate_aes256 haes, howner, ok_bind]
  rfl

theorem SealedPasswords.notOwner {password : Bytes} (hfails : s.FailsOwner password) :
    authenticate crates dictionary password
      = authenticateAes256UserPassword crates dictionary password := by
  obtain ⟨candidate, hcandidate, hne⟩ := hfails
  have howner : authenticateAes256OwnerPassword crates dictionary password = .ok none :=
    authenticateAes256With_refused s.ownerSeal _ _ hcandidate hne
  rw [authenticate_aes256 haes, howner, ok_bind]
  rfl

theorem SealedPasswords.unlocksUser (hwrap : wrappers.Inverts crates) {password : Bytes}
    (hpassword : revision56Password password = revision56Password user)
    (hfails : s.FailsOwner password) :
    authenticate crates dictionary password = .ok (some fileKey) :=
  (s.notOwner haes hfails).trans
    (authenticateAes256With_sealed s.userSeal _ _ hwrap s.permissions hpassword)

theorem SealedPasswords.neither {password : Bytes} (howner : s.FailsOwner password)
    (huser : s.FailsUser password) : authenticate crates dictionary password = .ok none := by
  obtain ⟨candidate, hcandidate, hne⟩ := huser
  exact (s.notOwner haes howner).trans
    (authenticateAes256With_refused s.userSeal _ _ hcandidate hne)

omit s haes

theorem decryptDocument_unlocked {encryptors : Encryptors} (hinverts : encryptors.Inverts crates)
    {limits : ResourceLimits} {trailers : List Trailer} {plain cipher : ObjectStore}
    (hparse : parseEncryptionDictionary cipher trailers limits = .ok dictionary)
    (hstore : EncryptedStore (BodyFits limits) encryptors crates limits dictionary fileKey plain
      cipher) {password : Bytes}
    (hunlocks : authenticate crates dictionary password = .ok (some fileKey)) :
    decryptDocument crates limits cipher trailers password = (plain, .ok dictionary.summary) := by
  have hobjects : decryptObjects crates limits dictionary fileKey cipher = (plain, none) :=
    OrdMap.Rel.mutateValues_eq hstore fun _ _ hobject =>
      decryptIndirectObject_encrypted hinverts hobject
  unfold decryptDocument
  rw [hparse]
  dsimp only
  rw [hunlocks]
  dsimp only
  rw [hobjects]

/-- An AES-256 document opens to the same plaintext with its owner password and with its user
password, up to their first 127 bytes; a password that neither entry was made for is reported as
incorrect and leaves every object as it is. -/
theorem decryptDocument_aes256 {encryptors : Encryptors} (hinverts : encryptors.Inverts crates)
    (hwrap : wrappers.Inverts crates)
    (s : SealedPasswords crates wrappers dictionary fileKey owner user)
    (haes : dictionary.revision.usesAes256 = true) {limits : ResourceLimits}
    {trailers : List Trailer} {plain cipher : ObjectStore}
    (hparse : parseEncryptionDictionary cipher trailers limits = .ok dictionary)
    (hstore : EncryptedStore (BodyFits limits) encryptors crates limits dictionary fileKey plain
      cipher) (password : Bytes) :
    (revision56Password password = revision56Password owner →
      decryptDocument crates limits cipher trailers password = (plain, .ok dictionary.summary)) ∧
    (revision56Password password = revision56Password user → s.FailsOwner password →
      decryptDocument crates limits cipher trailers password = (plain, .ok dictionary.summary)) ∧
    (s.FailsOwner password → s.FailsUser password →
      decryptDocument crates limits cipher trailers password
        = (cipher, .error (.incorrectPassword dictionary.summary))) := by
  refine ⟨fun howner => ?_, fun huser hfails => ?_, fun howner huser => ?_⟩
  · exact decryptDocument_unlocked hinverts hparse hstore (s.unlocksOwner haes hwrap howner)
  · exact decryptDocument_unlocked hinverts hparse hstore (s.unlocksUser haes hwrap huser hfails)
  · unfold decryptDocument
    rw [hparse]
    dsimp only
    rw [s.neither haes howner huser]

end BothPasswords

/-! ## A document of revision 5 -/

/-- SHA-256 of the password `u` and the validation salt of `/U`. -/
def sealUserHash : Bytes :=
  [62, 198, 101, 70, 123, 157, 34, 100, 86, 37, 39, 13, 245, 239, 246, 197, 49, 227, 12, 199,
    243, 163, 47, 40, 33, 96, 159, 195, 116, 232, 246, 183]

/-- SHA-256 of the password `u` and the key salt of `/U`. -/
def sealUserKey : Bytes :=
  [220, 152, 119, 228, 18, 80, 17, 90, 67, 254, 226, 72, 52, 193, 20, 248, 206, 184, 22, 194, 82,
    197, 29, 34, 33, 148, 51, 186, 67, 249, 179, 19]

/-- SHA-256 of the password `o`, the validation salt of `/O` and `/U`. -/
def sealOwnerHash : Bytes :=
  [246, 80, 200, 139, 29, 80, 123, 139, 157, 93, 147, 154, 179, 121, 98, 62, 226, 214, 217, 19,
    68, 152, 16, 78, 35, 203, 170, 146, 223, 252, 11, 33]

/-- SHA-256 of the password `o`, the key salt of `/O` and `/U`. -/
def sealOwnerKey : Bytes :=
  [19, 41, 2, 217, 152, 136, 249, 19, 243, 188, 174, 26, 45, 106, 117, 93, 0, 124, 254, 158, 21,
    116, 133, 135, 176, 6, 221, 20, 153, 186, 143, 250]

/-- The salts of `/U` and of `/O`. -/
def sealSalt (b : UInt8) : Bytes :=
  List.replicate 8 b

def sealUserEntry : Bytes :=
  sealUserHash ++ (sealSalt 1 ++ sealSalt 2)

def sealOwnerEntry : Bytes :=
  sealOwnerHash ++ (sealSalt 3 ++ sealSalt 4)

/-- The file key `00 01 .. 1f`. -/
def sealFileKey : Bytes :=
  (List.range 32).map UInt8.ofNat

/-- The file key under `sealUserKey`. -/
def sealUserWrapped : Bytes :=
  [11, 171, 95, 65, 175, 86, 134, 20, 162, 115, 251, 155, 183, 164, 53, 110, 133, 48, 50, 33, 61,
    133, 173, 82, 178, 180, 73, 211, 132, 148, 115, 89]

/-- The file key under `sealOwnerKey`. -/
def sealOwnerWrapped : Bytes :=
  [21, 181, 125, 48, 222, 72, 83, 253, 132, 44, 8, 112, 160, 42, 132, 75, 53, 68, 115, 121, 8,
    103, 97, 176, 66, 227, 81, 27, 239, 138, 14, 5]

/-- The permissions under the file key. -/
def sealPermsBlock : Bytes :=
  [144, 150, 228, 117, 25, 236, 3, 18, 39, 118, 85, 174, 212, 65, 82, 32]

/-- The padded byte `A` under the file key and a zero vector. -/
def sealStringBlock : Bytes :=
  [72, 255, 57, 254, 76, 72, 183, 86, 208, 160, 212, 46, 69, 29, 57, 68]

/-- The digests of SHA-256 for the inputs that occur: the user password as owner password and the
password `x` among them. -/
def sealDigests : List (Bytes × Bytes) :=
  [(117 :: sealSalt 1, sealUserHash), (117 :: sealSalt 2, sealUserKey),
    (111 :: sealSalt 3 ++ sealUserEntry, sealOwnerHash),
    (111 :: sealSalt 4 ++ sealUserEntry, sealOwnerKey),
    (117 :: sealSalt 3 ++ sealUserEntry,
      [105, 77, 19, 103, 142, 220, 245, 3, 75, 34, 118, 150, 133, 3, 28, 4, 159, 239, 217, 140,
        71, 110, 151, 5, 130, 66, 233, 153, 172, 155, 218, 69]),
    (120 :: sealSalt 3 ++ sealUserEntry,
      [198, 73, 100, 93, 178, 129, 212, 113, 159, 232, 156, 194, 107, 59, 228, 1, 143, 155, 141,
        241, 56, 89, 104, 215, 206, 136, 31, 241, 159, 244, 201, 162]),
    (120 :: sealSalt 1,
      [61, 0, 92, 9, 214, 106, 16, 100, 107, 54, 106, 8, 230, 15, 44, 61, 162, 108, 240, 119,
        136, 6, 22, 235, 94, 100, 229, 185, 129, 16, 101, 224])]

/-- What `/Perms` encrypts. -/
def sealPermsPlain : Bytes :=
  [252, 255, 255, 255, 255, 255, 255, 255, 84, 97, 100, 98, 0, 0, 0, 0]

/-- Exchanges two byte strings. -/
def swapBytes (a b bytes : Bytes) : Bytes :=
  if bytes = a then b else if bytes = b then a else bytes

theorem swapBytes_swapBytes (a b bytes : Bytes) : swapBytes a b (swapBytes a b bytes) = bytes := by
  unfold swapBytes
  grind

/-- The file key wrapped under a key. -/
def sealWrap (key : Bytes) : Bytes → Bytes :=
  swapBytes sealFileKey (if key = sealUserKey then sealUserWrapped else sealOwnerWrapped)

/-- SHA-256 and AES-256 on the inputs that occur. -/
def sealCrates : Crates :=
  { Crates.unused with
    sha256 := fun bytes => (sealDigests.lookup bytes).getD []
    aes128CbcDecryptPkcs7 := fun _ _ cipher => some cipher
    aes256CbcDecryptPkcs7 := fun _ _ cipher => some (swapBytes [65] sealStringBlock cipher)
    aes256CbcDecrypt := fun key _ cipher => some (sealWrap key cipher)
    aes256DecryptBlock := fun _ block => swapBytes sealPermsPlain sealPermsBlock block }

def sealWrappers : KeyWrappers where
  aes256CbcEncrypt key _ plain := sealWrap key plain
  aes256EncryptBlock _ block := swapBytes sealPermsPlain sealPermsBlock block

theorem sealWrappers_inverts : sealWrappers.Inverts sealCrates where
  cbc _ _ plain _ _ _ := congrArg some (swapBytes_swapBytes _ _ plain)
  block _ plain _ _ := swapBytes_swapBytes _ _ plain
  blockLength _ plain _ hlength := by
    show (swapBytes sealPermsPlain sealPermsBlock plain).length = aesBlockBytes
    unfold swapBytes
    split
    · rfl
    · split
      · rfl
      · exact hlength

def sealEncryptors : Encryptors where
  rc4 _ _ := none
  aes128CbcEncryptPkcs7 _ _ plain := plain
  aes256CbcEncryptPkcs7 _ _ plain := swapBytes [65] sealStringBlock plain

theorem sealEncryptors_inverts : sealEncryptors.Inverts sealCrates where
  rc4 _ _ _ h := by cases h
  aes128 _ _ _ _ _ := rfl
  aes256 _ _ plain _ _ := congrArg some (swapBytes_swapBytes _ _ plain)

/-- The trailer of the document. -/
def sealTrailer : Trailer where
  dictionary :=
    [(PdfName.fromStatic "Encrypt", .dictionary
      [(PdfName.fromStatic "CF", .dictionary
          [(PdfName.fromStatic "StdCF", .dictionary
            [(PdfName.fromStatic "AuthEvent", .name (PdfName.fromStatic "DocOpen")),
              (PdfName.fromStatic "CFM", .name (PdfName.fromStatic "AESV3")),
              (PdfName.fromStatic "Length", .integer 32)])]),
        (PdfName.fromStatic "Filter", .name (PdfName.fromStatic "Standard")),
        (PdfName.fromStatic "Length", .integer 256),
        (PdfName.fromStatic "O", .string ⟨sealOwnerEntry⟩),
        (PdfName.fromStatic "OE", .string ⟨sealOwnerWrapped⟩),
        (PdfName.fromStatic "P", .integer (-4)),
        (PdfName.fromStatic "Perms", .string ⟨sealPermsBlock⟩),
        (PdfName.fromStatic "R", .integer 5),
        (PdfName.fromStatic "StmF", .name (PdfName.fromStatic "StdCF")),
        (PdfName.fromStatic "StrF", .name (PdfName.fromStatic "StdCF")),
        (PdfName.fromStatic "U", .string ⟨sealUserEntry⟩),
        (PdfName.fromStatic "UE", .string ⟨sealUserWrapped⟩),
        (PdfName.fromStatic "V", .integer 5)]),
      (PdfName.fromStatic "ID", .array [.string ⟨[]⟩])]
  offset := 0

/-- Its encryption dictionary. -/
def sealDictionary : EncryptionDictionary where
  object := none
  version := 5
  revision := .r5
  keyLengthBytes := 32
  ownerKey := sealOwnerEntry
  userKey := sealUserEntry
  ownerEncryptionKey := sealOwnerWrapped
  userEncryptionKey := sealUserWrapped
  perms := sealPermsBlock
  permissions := -4
  documentId := []
  encryptMetadata := true
  streamMethod := .aesV3
  stringMethod := .aesV3

/-- A store with one string. -/
def sealStore (bytes : Bytes) : ObjectStore :=
  ObjectStore.insertObject OrdMap.empty ⟨streamKey, 0, .string ⟨bytes⟩⟩

def sealSealed : SealedPasswords sealCrates sealWrappers sealDictionary sealFileKey [111] [117] where
  userSeal := ⟨sealSalt 1, sealSalt 2, sealUserHash, sealUserKey, rfl, rfl, rfl, rfl, rfl, rfl, rfl,
    rfl⟩
  ownerSeal := ⟨sealSalt 3, sealSalt 4, sealOwnerHash, sealOwnerKey, rfl, rfl, rfl, rfl, rfl, rfl,
    rfl, rfl⟩
  permissions := ⟨rfl, [0, 0, 0, 0], rfl, rfl⟩

theorem sealStore_encrypted :
    EncryptedStore (BodyFits {}) sealEncryptors sealCrates {} sealDictionary sealFileKey
      (sealStore [65]) (sealStore (List.replicate 16 0 ++ sealStringBlock)) := by
  refine List.Forall₂.cons ⟨rfl, ?_⟩ .nil
  have hself : some streamKey ≠ sealDictionary.object := fun h => by cases h
  unfold EncryptedIndirect
  rw [if_neg hself]
  refine ⟨rfl, rfl, ?_⟩
  show EncryptedObject (BodyFits {}) sealEncryptors sealCrates {} sealDictionary sealFileKey streamKey
    (.string ⟨[65]⟩) (.string ⟨List.replicate 16 0 ++ sealStringBlock⟩)
  rw [EncryptedObject]
  refine ⟨_, rfl, ⟨?_, by decide, by decide⟩⟩
  exact ⟨rfl, List.replicate 16 0, rfl, rfl⟩

/-- The owner password, the user password and another one. -/
theorem decryptDocument_aes256_three :
    decryptDocument sealCrates {} (sealStore (List.replicate 16 0 ++ sealStringBlock)) [sealTrailer]
        [111] = (sealStore [65], .ok sealDictionary.summary) ∧
      decryptDocument sealCrates {} (sealStore (List.replicate 16 0 ++ sealStringBlock)) [sealTrailer]
        [117] = (sealStore [65], .ok sealDictionary.summary) ∧
      decryptDocument sealCrates {} (sealStore (List.replicate 16 0 ++ sealStringBlock)) [sealTrailer]
        [120] = (sealStore (List.replicate 16 0 ++ sealStringBlock),
          .error (.incorrectPassword sealDictionary.summary)) := by
  have hparse : parseEncryptionDictionary (sealStore (List.replicate 16 0 ++ sealStringBlock))
      [sealTrailer] {} = .ok sealDictionary := by
    rfl
  have hopens := decryptDocument_aes256 sealEncryptors_inverts sealWrappers_inverts sealSealed rfl
    hparse sealStore_encrypted
  refine ⟨(hopens [111]).1 rfl, (hopens [117]).2.1 rfl ⟨_, rfl, by decide⟩,
    (hopens [120]).2.2 ⟨_, rfl, by decide⟩ ⟨_, rfl, by decide⟩⟩

end Pdfv
