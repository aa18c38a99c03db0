import Pdfv.Parser.Encryption
/-!
# Owner and user passwords of revisions 2 to 4

`/O` holds the padded user password under the key of the owner password, and `/U` is computed from the
file key of the user password. The rounds that decrypt `/O` undo those that made it, in the opposite
order, and a padded password is its own padding, so the owner password gives the file key of the user
password.
-/

namespace Pdfv

open Fallible

/-! ## Padding -/

theorem length_paddedPassword (password : Bytes) : (paddedPassword password).length = 32 := by
  have hpadding : passwordPadding.length = 32 := rfl
  unfold paddedPassword
  rw [List.length_append, List.length_take, List.length_drop, hpadding]
  omega

/-- Only the first 32 bytes of a password count. -/
theorem paddedPassword_take (password : Bytes) :
    paddedPassword (password.take 32) = paddedPassword password := by
  unfold paddedPassword
  rw [List.take_take, Nat.min_self, List.length_take]
  congr 2
  omega

/-- A text of 32 bytes is its own padding. -/
theorem paddedPassword_of_length {password : Bytes} (h : password.length = 32) :
    paddedPassword password = password := by
  have hpadding : passwordPadding.drop 32 = [] := rfl
  unfold paddedPassword
  rw [h, Nat.min_self, hpadding, List.append_nil, List.take_of_length_le (by omega)]

theorem paddedPassword_padded (password : Bytes) :
    paddedPassword (paddedPassword password) = paddedPassword password :=
  paddedPassword_of_length (length_paddedPassword password)

/-! ## Keys -/

/-- RC4 under a key of 1 to 256 bytes is an involution. -/
structure Rc4Involution (crates : Crates) : Prop where
  accepts : ∀ key bytes, 1 ≤ key.length → key.length ≤ 256 →
    ∃ out, crates.rc4 key bytes = some out
  involutive : ∀ key bytes out, crates.rc4 key bytes = some out → crates.rc4 key out = some bytes

/-- The revisions with MD5 and RC4 passwords. -/
def SecurityRevision.isLegacy : SecurityRevision → Bool
  | .r2 | .r3 | .r4 => true
  | .r5 | .r6 => false

theorem SecurityRevision.legacy_cases {revision : SecurityRevision}
    (h : revision.isLegacy = true) : revision = .r2 ∨ revision = .r3 ∨ revision = .r4 := by
  cases revision with
  | r2 => exact .inl rfl
  | r3 => exact .inr (.inl rfl)
  | r4 => exact .inr (.inr rfl)
  | r5 => cases h
  | r6 => cases h

theorem SecurityRevision.usesAes256_legacy {revision : SecurityRevision}
    (h : revision.isLegacy = true) : revision.usesAes256 = false := by
  rcases legacy_cases h with rfl | rfl | rfl <;> rfl

section Keys

variable {crates : Crates} {dictionary : EncryptionDictionary}

theorem keyLengthBytes_bounds {revision : SecurityRevision} {bits : Int} {count : Nat}
    (hlegacy : revision.isLegacy = true) (h : keyLengthBytes revision bits = .ok count) :
    5 ≤ count ∧ count ≤ 16 := by
  have hbits : ∀ count, (if ¬(40 ≤ bits ∧ bits ≤ 128) ∨ bits % 8 ≠ 0 then
      (.error (.malformed "invalid key length") : DecryptResult Nat) else .ok (bits / 8).toNat)
      = .ok count → 5 ≤ count ∧ count ≤ 16 := by
    intro count hcount
    split at hcount
    · cases hcount
    · cases hcount
      omega
  rcases SecurityRevision.legacy_cases hlegacy with rfl | rfl | rfl
  · have h : (if bits ≠ 40 then (.error (.malformed "revision 2 key length must be 40 bits")
        : DecryptResult Nat) else .ok 5) = .ok count := h
    split at h
    · cases h
    · cases h
      omega
  · exact hbits count h
  · exact hbits count h

theorem subrange_zero {bytes : Bytes} {count : Nat} (h : count ≤ bytes.length) :
    subrange bytes 0 count = some (bytes.take count) := by
  unfold subrange
  rw [if_pos ⟨Nat.zero_le _, h⟩]
  rfl

theorem repeatHash_ok (hmd5 : ∀ bytes, (crates.md5 bytes).length = 16) {count : Nat}
    (hcount : count ≤ 16) (rounds : Nat) {digest : Bytes} (hdigest : digest.length = 16) :
    ∃ out, repeatHash crates count rounds digest = .ok out ∧ out.length = 16 := by
  induction rounds generalizing digest with
  | zero => exact ⟨digest, rfl, hdigest⟩
  | succ rounds ih =>
    have hhead : hashPrefix digest count = .ok (digest.take count) := by
      unfold hashPrefix
      rw [subrange_zero (by omega)]
      rfl
    unfold repeatHash
    rw [hhead, ok_bind]
    exact ih (hmd5 _)

/-- A key of the length of the dictionary comes out of every digest. -/
theorem finishKey_ok (hmd5 : ∀ bytes, (crates.md5 bytes).length = 16)
    (hcount : dictionary.keyLengthBytes ≤ 16) (bytes : Bytes) :
    ∃ key, finishKey crates dictionary (crates.md5 bytes) = .ok key
      ∧ key.length = dictionary.keyLengthBytes := by
  have htake : ∀ out : Bytes, out.length = 16 →
      (out.take dictionary.keyLengthBytes).length = dictionary.keyLengthBytes := by
    intro out hout
    rw [List.length_take]
    omega
  unfold finishKey
  by_cases hrepeats : dictionary.revision.repeatsHash = true
  · obtain ⟨out, hout, hlength⟩ := repeatHash_ok hmd5 hcount 50 (hmd5 bytes)
    rw [if_pos hrepeats, hout]
    exact ⟨_, rfl, htake out hlength⟩
  · rw [if_neg hrepeats]
    exact ⟨_, rfl, htake _ (hmd5 bytes)⟩

/-! ## Rounds -/

theorem rc4Crypt_ok {key bytes out : Bytes} :
    rc4Crypt crates key bytes = .ok out ↔ crates.rc4 key bytes = some out := by
  unfold rc4Crypt orElseError
  cases crates.rc4 key bytes with
  | none => exact iff_of_false nofun nofun
  | some value => simp

theorem rc4Rounds_append (key : Bytes) (rounds rounds' : List UInt8) (bytes : Bytes) :
    rc4Rounds crates key (rounds ++ rounds') bytes
      = rc4Rounds crates key rounds bytes >>= rc4Rounds crates key rounds' := by
  induction rounds generalizing bytes with
  | nil => rfl
  | cons round rounds ih =>
    rw [List.cons_append, rc4Rounds, rc4Rounds]
    cases rc4Crypt crates (xorKey key round) bytes with
    | error e => rfl
    | ok out =>
      rw [ok_bind, ok_bind]
      exact ih out

/-- The rounds in the opposite order undo the rounds. -/
theorem rc4Rounds_reverse (hrc4 : Rc4Involution crates) {key : Bytes} {rounds : List UInt8}
    {bytes out : Bytes} (h : rc4Rounds crates key rounds bytes = .ok out) :
    rc4Rounds crates key rounds.reverse out = .ok bytes := by
  induction rounds generalizing bytes with
  | nil =>
    cases h
    rfl
  | cons round rounds ih =>
    obtain ⟨current, hround, hrounds⟩ := bind_eq_ok.mp h
    have hback : rc4Crypt crates (xorKey key round) current = .ok bytes :=
      rc4Crypt_ok.mpr (hrc4.involutive _ _ _ (rc4Crypt_ok.mp hround))
    rw [List.reverse_cons, rc4Rounds_append, ih hrounds, ok_bind, rc4Rounds, hback]
    rfl

theorem rc4Rounds_ok (hrc4 : Rc4Involution crates) {key : Bytes} (hpos : 1 ≤ key.length)
    (hle : key.length ≤ 256) (rounds : List UInt8) (bytes : Bytes) :
    ∃ out, rc4Rounds crates key rounds bytes = .ok out := by
  induction rounds generalizing bytes with
  | nil => exact ⟨bytes, rfl⟩
  | cons round rounds ih =>
    have hlength : (xorKey key round).length = key.length := List.length_map _
    obtain ⟨out, hout⟩ := hrc4.accepts (xorKey key round) bytes (by omega) (by omega)
    obtain ⟨last, hlast⟩ := ih out
    refine ⟨last, ?_⟩
    rw [rc4Rounds, rc4Crypt_ok.mpr hout, ok_bind]
    exact hlast

/-! ## Authentication -/

/-- `/O` as it is made from an owner and a user password: the padded user password encrypted under the
key of the owner password, once or with the round numbers `0..=19`. -/
def ownerEntry (crates : Crates) (dictionary : EncryptionDictionary) (owner user : Bytes) :
    DecryptResult Bytes := do
  let ownerKey ← ownerPasswordKey crates dictionary owner
  match dictionary.revision with
  | .r2 => rc4Crypt crates ownerKey (paddedPassword user)
  | _ => rc4Rounds crates ownerKey roundNumbers (paddedPassword user)

theorem deriveFileKey_padded {password padded : Bytes}
    (h : paddedPassword padded = paddedPassword password) :
    deriveFileKey crates dictionary padded = deriveFileKey crates dictionary password := by
  unfold deriveFileKey
  rw [h]

theorem authenticateUserPassword_padded {password padded : Bytes}
    (h : paddedPassword padded = paddedPassword password) :
    authenticateUserPassword crates dictionary padded
      = authenticateUserPassword crates dictionary password := by
  unfold authenticateUserPassword
  rw [deriveFileKey_padded h]

theorem authenticate_padded (hlegacy : dictionary.revision.isLegacy = true) {password padded : Bytes}
    (h : paddedPassword padded = paddedPassword password) :
    authenticate crates dictionary padded = authenticate crates dictionary password := by
  unfold authenticate
  rw [dictionary.revision.usesAes256_legacy hlegacy]
  simp only [Bool.false_eq_true, if_false]
  unfold authenticateOwnerPassword ownerPasswordKey
  rw [h, authenticateUserPassword_padded h]

/-- `/O` is decrypted to the padded user password. -/
theorem decryptOwnerKey_ownerEntry (hrc4 : Rc4Involution crates)
    (hlegacy : dictionary.revision.isLegacy = true) {owner user ownerKey : Bytes}
    (hkey : ownerPasswordKey crates dictionary owner = .ok ownerKey)
    (hentry : ownerEntry crates dictionary owner user = .ok dictionary.ownerKey) :
    decryptOwnerKey crates dictionary ownerKey = .ok (paddedPassword user) := by
  unfold ownerEntry at hentry
  rw [hkey, ok_bind] at hentry
  unfold decryptOwnerKey
  rcases SecurityRevision.legacy_cases hlegacy with hrevision | hrevision | hrevision
  · rw [hrevision] at hentry ⊢
    exact rc4Crypt_ok.mpr (hrc4.involutive _ _ _ (rc4Crypt_ok.mp hentry))
  · rw [hrevision] at hentry ⊢
    exact rc4Rounds_reverse hrc4 hentry
  · rw [hrevision] at hentry ⊢
    exact rc4Rounds_reverse hrc4 hentry

/-- A value that `/U` is compared with has the sixteen bytes that revisions 3 and 4 compare. -/
theorem length_userPasswordValue {fileKey value : Bytes} (hrevision : dictionary.revision ≠ .r2)
    (h : userPasswordValue crates dictionary fileKey = .ok value) : 16 ≤ value.length := by
  unfold userPasswordValue at h
  split at h
  · exact absurd ‹_› hrevision
  · obtain ⟨current, -, hvalue⟩ := bind_eq_ok.mp h
    cases hvalue
    rw [List.length_append, List.length_replicate]
    omega
  · obtain ⟨current, -, hvalue⟩ := bind_eq_ok.mp h
    cases hvalue
    rw [List.length_append, List.length_replicate]
    omega
  · cases h
  · cases h

/-- The comparison of revisions 3 and 4. -/
theorem orElseError_subrange {value : Bytes} (h : 16 ≤ value.length) (e : DecryptionError) :
    orElseError (subrange value 0 16) e = .ok (value.take 16) := by
  rw [subrange_zero h]
  rfl

/-- The comparison of a value with `/U`. -/
def matchesUserKey (dictionary : EncryptionDictionary) (value : Bytes) : Bool :=
  if dictionary.revision = .r2 then value = dictionary.userKey
  else value.take 16 = dictionary.userKey.take 16

/-- The outcome of the user check, once the file key and the value for it are there. -/
theorem authenticateUserPassword_eq (hlegacy : dictionary.revision.isLegacy = true)
    {password fileKey value : Bytes} (hkey : deriveFileKey crates dictionary password = .ok fileKey)
    (hvalue : userPasswordValue crates dictionary fileKey = .ok value)
    (huser : dictionary.revision ≠ .r2 → 16 ≤ dictionary.userKey.length) :
    authenticateUserPassword crates dictionary password
      = .ok (if matchesUserKey dictionary value then some fileKey else none) := by
  have hlength := fun hrevision => length_userPasswordValue hrevision hvalue
  unfold authenticateUserPassword matchesUserKey
  rw [hkey, ok_bind, hvalue, ok_bind]
  rcases SecurityRevision.legacy_cases hlegacy with hrevision | hrevision | hrevision
  · rw [hrevision]
    rfl
  · rw [hrevision] at huser hlength ⊢
    dsimp only
    rw [orElseError_subrange (huser nofun), ok_bind, orElseError_subrange (hlength nofun), ok_bind]
    rfl
  · rw [hrevision] at huser hlength ⊢
    dsimp only
    rw [orElseError_subrange (huser nofun), ok_bind, orElseError_subrange (hlength nofun), ok_bind]
    rfl

/-- With a key length that the parser accepts no step of the checks fails. -/
theorem authenticateUserPassword_total (hmd5 : ∀ bytes, (crates.md5 bytes).length = 16)
    (hrc4 : Rc4Involution crates) (hlegacy : dictionary.revision.isLegacy = true)
    (hlow : 5 ≤ dictionary.keyLengthBytes) (hhigh : dictionary.keyLengthBytes ≤ 16)
    (huser : dictionary.revision ≠ .r2 → 16 ≤ dictionary.userKey.length) (password : Bytes) :
    ∃ result, authenticateUserPassword crates dictionary password = .ok result := by
  obtain ⟨fileKey, hkey, hlength⟩ : ∃ fileKey, deriveFileKey crates dictionary password = .ok fileKey
      ∧ fileKey.length = dictionary.keyLengthBytes := finishKey_ok hmd5 hhigh _
  obtain ⟨value, hvalue⟩ : ∃ value, userPasswordValue crates dictionary fileKey = .ok value := by
    obtain ⟨once, honce⟩ := hrc4.accepts fileKey passwordPadding (by omega) (by omega)
    obtain ⟨last, hlast⟩ := @rc4Rounds_ok crates hrc4 fileKey (by omega) (by omega) roundNumbers
      (crates.md5 (passwordPadding ++ dictionary.documentId))
    unfold userPasswordValue
    rcases SecurityRevision.legacy_cases hlegacy with hrevision | hrevision | hrevision
    · rw [hrevision]
      exact ⟨once, rc4Crypt_ok.mpr honce⟩
    · rw [hrevision]
      dsimp only
      rw [hlast]
      exact ⟨_, rfl⟩
    · rw [hrevision]
      dsimp only
      rw [hlast]
      exact ⟨_, rfl⟩
  exact ⟨_, authenticateUserPassword_eq hlegacy hkey hvalue huser⟩

theorem authenticateOwnerPassword_total (hmd5 : ∀ bytes, (crates.md5 bytes).length = 16)
    (hrc4 : Rc4Involution crates) (hlegacy : dictionary.revision.isLegacy = true)
    (hlow : 5 ≤ dictionary.keyLengthBytes) (hhigh : dictionary.keyLengthBytes ≤ 16)
    (huser : dictionary.revision ≠ .r2 → 16 ≤ dictionary.userKey.length) (password : Bytes) :
    ∃ result, authenticateOwnerPassword crates dictionary password = .ok result := by
  obtain ⟨ownerKey, hkey, hlength⟩ : ∃ ownerKey,
      ownerPasswordKey crates dictionary password = .ok ownerKey
        ∧ ownerKey.length = dictionary.keyLengthBytes := finishKey_ok hmd5 hhigh _
  obtain ⟨padded, hpadded⟩ : ∃ padded, decryptOwnerKey crates dictionary ownerKey = .ok padded := by
    obtain ⟨once, honce⟩ := hrc4.accepts ownerKey dictionary.ownerKey (by omega) (by omega)
    unfold decryptOwnerKey
    rcases SecurityRevision.legacy_cases hlegacy with hrevision | hrevision | hrevision
    · rw [hrevision]
      exact ⟨once, rc4Crypt_ok.mpr honce⟩
    · rw [hrevision]
      exact rc4Rounds_ok hrc4 (by omega) (by omega) _ _
    · rw [hrevision]
      exact rc4Rounds_ok hrc4 (by omega) (by omega) _ _
  unfold authenticateOwnerPassword
  rw [hkey, ok_bind, hpadded, ok_bind]
  exact authenticateUserPassword_total hmd5 hrc4 hlegacy hlow hhigh huser padded

/-- The owner check is made first, and what it finds is the answer. -/
theorem authenticate_owner (hlegacy : dictionary.revision.isLegacy = true) {password key : Bytes}
    (h : authenticateOwnerPassword crates dictionary password = .ok (some key)) :
    authenticate crates dictionary password = .ok (some key) := by
  unfold authenticate
  rw [dictionary.revision.usesAes256_legacy hlegacy]
  show (authenticateOwnerPassword crates dictionary password >>= _) = _
  rw [h]
  rfl

theorem authenticate_user (hlegacy : dictionary.revision.isLegacy = true) {password : Bytes}
    (h : authenticateOwnerPassword crates dictionary password = .ok none) :
    authenticate crates dictionary password = authenticateUserPassword crates dictionary password := by
  unfold authenticate
  rw [dictionary.revision.usesAes256_legacy hlegacy]
  show (authenticateOwnerPassword crates dictionary password >>= _) = _
  rw [h]
  rfl

/-- The owner password gives the file key of the user password, the user password gives it whenever
the owner check with it fails, and only the first 32 bytes of a password count. -/
theorem authenticate_unlocks (hmd5 : ∀ bytes, (crates.md5 bytes).length = 16)
    (hrc4 : Rc4Involution crates) (hlegacy : dictionary.revision.isLegacy = true) {bits : Int}
    (hlength : keyLengthBytes dictionary.revision bits = .ok dictionary.keyLengthBytes)
    {owner user : Bytes} (howner : ownerEntry crates dictionary owner user = .ok dictionary.ownerKey)
    (huser : (deriveFileKey crates dictionary user >>= userPasswordValue crates dictionary)
      = .ok dictionary.userKey) :
    ∃ fileKey, deriveFileKey crates dictionary user = .ok fileKey ∧
      authenticate crates dictionary owner = .ok (some fileKey) ∧
      ((∀ key, authenticateOwnerPassword crates dictionary user ≠ .ok (some key)) →
        authenticate crates dictionary user = .ok (some fileKey)) ∧
      ∀ password, authenticate crates dictionary (password.take 32)
        = authenticate crates dictionary password := by
  obtain ⟨hlow, hhigh⟩ := keyLengthBytes_bounds hlegacy hlength
  obtain ⟨fileKey, hfile, hvalue⟩ := bind_eq_ok.mp huser
  have hentry : dictionary.revision ≠ .r2 → 16 ≤ dictionary.userKey.length := fun hrevision =>
    length_userPasswordValue hrevision hvalue
  have hunlocks : authenticateUserPassword crates dictionary user = .ok (some fileKey) := by
    have hmatches : matchesUserKey dictionary dictionary.userKey = true := by
      unfold matchesUserKey
      split <;> exact decide_eq_true rfl
    rw [authenticateUserPassword_eq hlegacy hfile hvalue hentry, if_pos hmatches]
  refine ⟨fileKey, hfile, ?_, fun hfails => ?_, fun password => ?_⟩
  · obtain ⟨ownerKey, hkey, -⟩ := bind_eq_ok.mp howner
    have hattempt : authenticateOwnerPassword crates dictionary owner = .ok (some fileKey) := by
      unfold authenticateOwnerPassword
      rw [hkey, ok_bind, decryptOwnerKey_ownerEntry hrc4 hlegacy hkey howner, ok_bind,
        authenticateUserPassword_padded (paddedPassword_padded user)]
      exact hunlocks
    exact authenticate_owner hlegacy hattempt
  · obtain ⟨result, hresult⟩ := authenticateOwnerPassword_total hmd5 hrc4 hlegacy hlow hhigh hentry
      user
    cases result with
    | some key => exact absurd hresult (hfails key)
    | none =>
      rw [authenticate_user hlegacy hresult]
      exact hunlocks
  · exact authenticate_padded hlegacy (paddedPassword_take password)

end Keys

/-! ## A dictionary of revision 2 -/

/-- `/O` for the owner password `o` and the user password `u`. -/
def sampleOwnerEntry : Bytes :=
  [110, 184, 243, 124, 100, 67, 176, 153, 158, 106, 89, 163, 82, 42, 17, 59, 250, 111, 76, 7, 186,
    190, 182, 187, 86, 125, 129, 14, 114, 120, 116, 135]

/-- What the check with `u` as owner password decrypts `/O` to. -/
def sampleMisread : Bytes :=
  [108, 74, 223, 64, 220, 76, 28, 60, 243, 6, 114, 143, 143, 168, 65, 130, 230, 87, 99, 168, 5,
    14, 62, 104, 150, 208, 115, 69, 33, 26, 165, 231]

/-- The digests of MD5 for the inputs that occur. -/
def sampleDigests : List (Bytes × Bytes) :=
  [(paddedPassword [111], [146, 34, 163, 221, 89, 20, 5, 48, 75, 101, 145, 135, 174, 166, 9, 152]),
    (paddedPassword [117], [134, 223, 179, 48, 32, 63, 132, 140, 90, 27, 251, 196, 173, 162, 127,
      22]),
    (paddedPassword [117] ++ sampleOwnerEntry ++ [252, 255, 255, 255, 1],
      [208, 23, 113, 216, 49, 123, 31, 6, 155, 217, 153, 168, 101, 193, 17, 172]),
    (sampleMisread ++ sampleOwnerEntry ++ [252, 255, 255, 255, 1],
      [24, 109, 217, 96, 214, 250, 55, 250, 98, 146, 123, 96, 170, 235, 45, 251])]

/-- The keystreams of RC4 for the keys that occur. -/
def sampleKeystreams : List (Bytes × Bytes) :=
  [([146, 34, 163, 221, 89],
      [27, 7, 189, 34, 42, 54, 58, 216, 250, 106, 23, 245, 173, 208, 16, 51, 212, 65, 76, 177,
        106, 214, 136, 59, 121, 113, 40, 240, 22, 43, 29, 253]),
    ([208, 23, 113, 216, 49],
      [123, 201, 194, 10, 91, 20, 243, 150, 48, 99, 212, 217, 206, 0, 124, 85, 214, 70, 42, 210,
        38, 189, 26, 102, 47, 105, 142, 184, 21, 183, 130, 46]),
    ([134, 223, 179, 48, 32],
      [2, 242, 44, 60, 184, 15, 172, 165, 109, 108, 43, 44, 221, 130, 80, 185, 28, 56, 47, 175,
        191, 176, 136, 211, 192, 173, 242, 75, 83, 98, 209, 96]),
    ([24, 109, 217, 96, 214],
      [247, 69, 254, 19, 211, 55, 116, 94, 105, 68, 18, 37, 82, 171, 191, 12, 189, 68, 174, 123,
        0, 95, 160, 130, 11, 150, 243, 136, 235, 152, 219, 212])]

/-- Each byte with the byte of the keystream at its place. -/
def xorKeystream (keystream bytes : Bytes) : Bytes :=
  bytes.mapIdx fun i b => b ^^^ (keystream[i]?).getD 0

/-- MD5 and RC4 on the inputs that occur. -/
def sampleCrates : Crates :=
  { Crates.unused with
    md5 := fun bytes => (((sampleDigests.lookup bytes).getD []) ++ List.replicate 16 0).take 16
    rc4 := fun key bytes => some (xorKeystream ((sampleKeystreams.lookup key).getD []) bytes) }

theorem xorKeystream_xorKeystream (keystream bytes : Bytes) :
    xorKeystream keystream (xorKeystream keystream bytes) = bytes := by
  unfold xorKeystream
  rw [List.mapIdx_mapIdx]
  refine List.ext_getElem (by rw [List.length_mapIdx]) fun i h _ => ?_
  rw [List.getElem_mapIdx]
  show bytes[i] ^^^ _ ^^^ _ = bytes[i]
  rw [UInt8.xor_assoc, UInt8.xor_self, UInt8.xor_zero]

theorem sampleCrates_rc4 : Rc4Involution sampleCrates where
  accepts _ _ _ _ := ⟨_, rfl⟩
  involutive key bytes out h := by
    cases h
    exact congrArg some (xorKeystream_xorKeystream _ bytes)

def sampleEncryption : EncryptionDictionary where
  object := none
  version := 1
  revision := .r2
  keyLengthBytes := 5
  ownerKey := sampleOwnerEntry
  userKey := [83, 118, 140, 84, 21, 97, 121, 215, 84, 99, 154, 143, 49, 250, 125, 93, 248, 104,
    42, 100, 246, 213, 36, 230, 0, 101, 39, 70, 113, 228, 235, 84]
  ownerEncryptionKey := []
  userEncryptionKey := []
  perms := []
  permissions := -4
  documentId := [1]
  encryptMetadata := true
  streamMethod := .rc4
  stringMethod := .rc4

theorem authenticate_unlocks_both :
    authenticate sampleCrates sampleEncryption [111] = .ok (some [208, 23, 113, 216, 49]) ∧
    authenticate sampleCrates sampleEncryption [117] = .ok (some [208, 23, 113, 216, 49]) := by
  have hmd5 : ∀ bytes, (sampleCrates.md5 bytes).length = 16 := by
    intro bytes
    show ((_ ++ List.replicate 16 (0 : UInt8)).take 16).length = 16
    rw [List.length_take, List.length_append, List.length_replicate]
    omega
  have hattempt : authenticateOwnerPassword sampleCrates sampleEncryption [117] = .ok none := by
    rfl
  have hlegacy : sampleEncryption.revision.isLegacy = true := rfl
  have hlength : keyLengthBytes sampleEncryption.revision 40 = .ok sampleEncryption.keyLengthBytes :=
    rfl
  have hownerEntry : ownerEntry sampleCrates sampleEncryption [111] [117]
      = .ok sampleEncryption.ownerKey := by
    rfl
  have huserEntry : (deriveFileKey sampleCrates sampleEncryption [117]
      >>= userPasswordValue sampleCrates sampleEncryption) = .ok sampleEncryption.userKey := by
    rfl
  obtain ⟨fileKey, hfile, howner, huser, -⟩ :=
    authenticate_unlocks hmd5 sampleCrates_rc4 hlegacy hlength hownerEntry huserEntry
  have hkey : deriveFileKey sampleCrates sampleEncryption [117]
      = .ok [208, 23, 113, 216, 49] := by
    rfl
  rw [hfile] at hkey
  cases hkey
  refine ⟨howner, huser fun key hsome => ?_⟩
  rw [hattempt] at hsome
  cases hsome

end Pdfv
