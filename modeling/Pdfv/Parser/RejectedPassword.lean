import Pdfv.Parser.EncryptionDetection
/-!
# A rejected password changes nothing

Whether a password is accepted is decided before the first object is touched. The errors that leave
the document encrypted (`isEncryptedStatus`) come from reading the encryption dictionary and from
authentication only: decrypting strings and streams ends in a malformed value or in a limit
(`decryptObject_status`).
-/

namespace Pdfv

open Fallible

variable {limits : ResourceLimits} {crates : Crates}

/-! ## The errors of the decryption walk -/

section Walk

variable {dictionary : EncryptionDictionary} {fileKey : Bytes} {key : ObjectKey}
  {e : DecryptionError}

theorem orElseError_eq_error {ε α : Type} {value : Option α} {error e : ε}
    (h : orElseError value error = .error e) : e = error := by
  cases value with
  | none =>
    cases h
    rfl
  | some value => cases h

theorem parseToDecryption_status (error : ParseError) :
    (parseToDecryption error).isEncryptedStatus = false := by
  cases error <;> rfl

theorem mapError_status {α : Type} {x : Except ParseError α}
    (h : x.mapError parseToDecryption = .error e) : e.isEncryptedStatus = false := by
  cases x with
  | error error =>
    cases h
    exact parseToDecryption_status error
  | ok a => cases h

/-- A chain of steps whose errors never leave the document encrypted has no such error either. -/
theorem bind_status {α β : Type} {x : DecryptResult α} {f : α → DecryptResult β}
    (hx : ∀ e, x = .error e → e.isEncryptedStatus = false)
    (hf : ∀ a e, f a = .error e → e.isEncryptedStatus = false) (h : x >>= f = .error e) :
    e.isEncryptedStatus = false := by
  cases x with
  | error error =>
    cases h
    exact hx e rfl
  | ok a => exact hf a e h

theorem orElseError_status {α : Type} {value : Option α} {message : String}
    (h : orElseError value (DecryptionError.malformed message) = .error e) :
    e.isEncryptedStatus = false := by
  rw [orElseError_eq_error h]
  rfl

theorem decryptBytes_status {method : CryptMethod} {secret bytes : Bytes}
    (h : decryptBytes crates method secret bytes = .error e) : e.isEncryptedStatus = false := by
  cases method with
  | identity => cases h
  | rc4 => exact orElseError_status h
  | aesV2 =>
    refine bind_status (fun _ => orElseError_status) (fun iv error h => ?_) h
    dsimp only at h
    split at h
    · cases h
      rfl
    · exact orElseError_status h
  | aesV3 =>
    refine bind_status (fun _ => orElseError_status) (fun iv error h => ?_) h
    dsimp only at h
    split at h
    · cases h
      rfl
    · exact orElseError_status h

theorem decryptString_status {string : PdfString}
    (h : decryptString crates limits dictionary fileKey key string = .error e) :
    e.isEncryptedStatus = false := by
  unfold decryptString at h
  split at h
  · cases h
  · refine bind_status (fun _ => decryptBytes_status) (fun decrypted error h => ?_) h
    split at h
    · cases h
      rfl
    · exact mapError_status h

theorem decryptStream_status {stream : StreamObject}
    (h : decryptStream crates limits dictionary fileKey key stream = .error e) :
    e.isEncryptedStatus = false := by
  unfold decryptStream at h
  split at h
  · cases h
  · split at h
    · cases h
    · refine bind_status (fun _ => mapError_status) (fun raw error h => ?_) h
      split at h
      · cases h
        rfl
      · refine bind_status (fun _ => decryptBytes_status) (fun decrypted error h => ?_) h
        split at h
        · cases h
          rfl
        · cases h

/-- Null, booleans, numbers, names and references: the values that hold no ciphertext. -/
inductive Atom : CosObject → Prop where
  | null : Atom .null
  | boolean (b : Bool) : Atom (.boolean b)
  | integer (i : Int) : Atom (.integer i)
  | real (r : F64) : Atom (.real r)
  | name (n : PdfName) : Atom (.name n)
  | reference (k : ObjectKey) : Atom (.reference k)

theorem decryptObject_atom {object : CosObject} (h : Atom object) :
    decryptObject crates limits dictionary fileKey key object = (object, none) := by
  cases h <;> simp [decryptObject]

theorem decryptObject_atom_error {object : CosObject} (h : Atom object) :
    (decryptObject crates limits dictionary fileKey key object).2 ≠ some e := by
  rw [decryptObject_atom h]
  exact fun herror => by cases herror

/-- An error of the walk over an array is one of its elements' errors. -/
theorem decryptValues_error {values : List CosObject}
    (h : (decryptValues crates limits dictionary fileKey key values).2 = some e) :
    ∃ value ∈ values, (decryptObject crates limits dictionary fileKey key value).2 = some e := by
  induction values with
  | nil =>
    rw [decryptValues] at h
    cases h
  | cons value values ih =>
    rw [decryptValues] at h
    split at h
    · rename_i value' error hvalue
      refine ⟨value, List.mem_cons_self, ?_⟩
      rw [hvalue]
      exact h
    · obtain ⟨inner, hinner, he⟩ := ih h
      exact ⟨inner, List.mem_cons_of_mem _ hinner, he⟩

/-- An error of the walk over a dictionary is one of its values' errors. -/
theorem decryptEntries_error {entries : Dictionary}
    (h : (decryptEntries crates limits dictionary fileKey key entries).2 = some e) :
    ∃ entry ∈ entries, (decryptObject crates limits dictionary fileKey key entry.2).2 = some e := by
  induction entries with
  | nil =>
    rw [decryptEntries] at h
    cases h
  | cons entry entries ih =>
    obtain ⟨name, value⟩ := entry
    rw [decryptEntries] at h
    split at h
    · rename_i value' error hvalue
      refine ⟨(name, value), List.mem_cons_self, ?_⟩
      rw [hvalue]
      exact h
    · obtain ⟨inner, hinner, he⟩ := ih h
      exact ⟨inner, List.mem_cons_of_mem _ hinner, he⟩

/-- No value is left encrypted for want of a password. -/
theorem decryptObject_status (object : CosObject) {e : DecryptionError}
    (h : (decryptObject crates limits dictionary fileKey key object).2 = some e) :
    e.isEncryptedStatus = false := by
  induction object using CosObject.nestedInduction generalizing e with
  | hstring string =>
    rw [decryptObject] at h
    cases hresult : decryptString crates limits dictionary fileKey key string with
    | ok decrypted =>
      rw [hresult] at h
      cases h
    | error error =>
      rw [hresult] at h
      cases h
      exact decryptString_status hresult
  | harray values ih =>
    rw [decryptObject] at h
    obtain ⟨value, hvalue, he⟩ := decryptValues_error h
    exact ih value hvalue he
  | hdictionary entries ih =>
    rw [decryptObject] at h
    obtain ⟨entry, hentry, he⟩ := decryptEntries_error h
    exact ih entry hentry he
  | hstream stream ih =>
    obtain ⟨entries, range, declared, discovered, filters, params, source, crlf, eol⟩ := stream
    rw [decryptObject] at h
    split at h
    · rename_i error hresult
      cases h
      exact decryptStream_status hresult
    · obtain ⟨entry, hentry, he⟩ := decryptEntries_error h
      exact ih entry hentry he
  | hnull => exact (decryptObject_atom_error .null h).elim
  | hboolean b => exact (decryptObject_atom_error (.boolean b) h).elim
  | hinteger i => exact (decryptObject_atom_error (.integer i) h).elim
  | hreal r => exact (decryptObject_atom_error (.real r) h).elim
  | hname n => exact (decryptObject_atom_error (.name n) h).elim
  | hreference k => exact (decryptObject_atom_error (.reference k) h).elim

theorem decryptObjects_status {objects : ObjectStore}
    (h : (decryptObjects crates limits dictionary fileKey objects).2 = some e) :
    e.isEncryptedStatus = false := by
  obtain ⟨entry, -, he⟩ := OrdList.mutateValues_error h
  unfold decryptIndirectObject at he
  split at he
  · cases he
  · exact decryptObject_status _ he

end Walk

/-! ## The document -/

/-- `decrypt_document` has not touched the store when it returns an encrypted-status error. -/
theorem decryptDocument_status {objects : ObjectStore} {trailers : List Trailer} {password : Bytes}
    {e : DecryptionError}
    (h : (decryptDocument crates limits objects trailers password).2 = .error e)
    (hstatus : e.isEncryptedStatus = true) :
    (decryptDocument crates limits objects trailers password).1 = objects := by
  unfold decryptDocument at h ⊢
  split at h
  · rfl
  · rename_i encryption hencryption
    split at h
    · rfl
    · rfl
    · rename_i fileKey hkey
      split at h
      · rename_i store error hwalk
        cases h
        have herror : (decryptObjects crates limits encryption fileKey objects).2 = some e := by
          rw [hwalk]
        have hnot := decryptObjects_status herror
        rw [hnot] at hstatus
        cases hstatus
      · cases h

/-- The second document differs from the first by one more warning and by what its encryption fact
says. -/
structure ParsedDocument.DiffersInEncryption (plain rejected : ParsedDocument)
    (warning : ValidationWarning) : Prop where
  objects : rejected.objects = plain.objects
  trailers : rejected.trailers = plain.trailers
  catalog : rejected.catalog = plain.catalog
  version : rejected.version = plain.version
  warnings : ∃ before after, plain.warnings = before ++ after
    ∧ rejected.warnings = before ++ warning :: after
  parseFacts : List.Forall₂ (fun f f' : ParseFact => f = f' ∨ f.IsEncrypted ∧ f'.IsEncrypted)
    plain.parseFacts rejected.parseFacts

/-- The run with the password takes the path that leaves the document encrypted, with this error. -/
def Parser.RejectsWith (parser : Parser) (crates : Crates) (source secret : Bytes)
    (e : DecryptionError) : Prop :=
  ∃ version s, parser.scan source = .ok (version, s)
    ∧ (encryptionReference s.trailers).isSome = true
    ∧ (decryptDocument crates parser.limits s.objects s.trailers secret).2 = .error e
    ∧ e.isEncryptedStatus = true

/-- Pushing two encryption facts, one of them after one more warning that is not about the cap. -/
theorem pushFact_differs {log : FactLog} {fact fact' : ParseFact} {message : BoundedText}
    (hfact : fact.IsEncrypted) (hfact' : fact'.IsEncrypted) :
    (∃ before after, (log.pushFact limits fact).warnings = before ++ after
      ∧ ({ log with warnings := log.warnings ++ [ValidationWarning.general message] }
          |>.pushFact limits fact').warnings = before ++ ValidationWarning.general message :: after)
    ∧ List.Forall₂ (fun f f' : ParseFact => f = f' ∨ f.IsEncrypted ∧ f'.IsEncrypted)
      (log.pushFact limits fact).parseFacts
      ({ log with warnings := log.warnings ++ [ValidationWarning.general message] }
        |>.pushFact limits fact').parseFacts := by
  have hsame : List.Forall₂ (fun f f' : ParseFact => f = f' ∨ f.IsEncrypted ∧ f'.IsEncrypted)
      log.parseFacts log.parseFacts := List.forall₂_same.mpr fun f _ => .inl rfl
  have hcap : FactLog.capReached
      { log with warnings := log.warnings ++ [ValidationWarning.general message] }
        = log.capReached := by
    simp [FactLog.capReached]
  unfold FactLog.pushFact
  rw [hcap]
  by_cases hfull : log.parseFacts.length ≥ limits.maxParseFacts
  · rw [if_pos hfull, if_pos hfull]
    by_cases hreached : log.capReached = true
    · rw [if_pos hreached, if_pos hreached]
      exact ⟨⟨log.warnings, [], (List.append_nil _).symm, rfl⟩, hsame⟩
    · rw [if_neg hreached, if_neg hreached]
      refine ⟨⟨log.warnings, [.parseFactCapReached limits.maxParseFacts], rfl, ?_⟩, hsame⟩
      rw [List.append_assoc]
      rfl
  · rw [if_neg hfull, if_neg hfull]
    refine ⟨⟨log.warnings, [], (List.append_nil _).symm, rfl⟩, ?_⟩
    exact List.rel_append hsame (.cons (.inr ⟨hfact, hfact'⟩) .nil)

theorem intoFact_encrypted (summary : EncryptionSummary) (decrypted : Bool) :
    (summary.intoFact decrypted).IsEncrypted := rfl

theorem errorFact_encrypted {e : DecryptionError} {fallback : ParseFact}
    (h : e.isEncryptedStatus = true) : (e.intoFact fallback).IsEncrypted := by
  cases e with
  | incorrectPassword summary => exact intoFact_encrypted summary false
  | unsupported message version revision algorithm => rfl
  | malformed message => cases h
  | limitExceeded limit => cases h

/-- A parse that ends at the encryption check. -/
theorem parseWithOptions_finished {parser : Parser} {source : Bytes} {password : Option Bytes}
    {version : PdfVersion} {s : ScanState} {objects : ObjectStore} {log : FactLog}
    (hlen : ¬ source.length > parser.limits.maxFileBytes)
    (hscan : parser.scan source = .ok (version, s))
    (hgate : encryptionGate parser.limits crates password s = .ok (.finished objects log)) :
    parser.parseWithOptions crates source password
      = .ok ⟨version, catalogOf s.trailers, objects, s.trailers, log.parseFacts, log.warnings⟩ := by
  unfold Parser.parseWithOptions
  rw [if_neg hlen]
  unfold parseDocument
  have hdocument : scanDocument (SourceStorage.fromSource source
      parser.limits.memorySourceThresholdBytes) parser.limits = .ok (version, s) := hscan
  rw [hdocument, ok_bind]
  dsimp only
  rw [hgate, ok_bind]
  rfl

/-- **A password that is rejected with an encrypted-status error leaves everything but the encryption
fact and one warning as it is without a password, and no such error comes from a store that was
already touched.** -/
theorem rejectedPassword_unchanged (parser : Parser) (crates : Crates) :
    (∀ source secret doc e, parser.parseWithOptions crates source (some secret) = .ok doc →
      parser.RejectsWith crates source secret e →
      ∃ plain, parser.parseWithOptions crates source none = .ok plain
        ∧ plain.DiffersInEncryption doc (.general ⟨e.safeMessage⟩))
    ∧ ∀ (limits : ResourceLimits) (objects : ObjectStore) (trailers : List Trailer)
        (secret : Bytes) (e : DecryptionError),
      (decryptDocument crates limits objects trailers secret).2 = .error e →
      e.isEncryptedStatus = true →
      (decryptDocument crates limits objects trailers secret).1 = objects := by
  refine ⟨fun source secret doc e h hreject => ?_, fun limits objects trailers secret e =>
    decryptDocument_status⟩
  obtain ⟨version, s, hscan, href, herror, hstatus⟩ := hreject
  have hlen : ¬ source.length > parser.limits.maxFileBytes := by
    intro hlong
    unfold Parser.parseWithOptions at h
    rw [if_pos hlong] at h
    cases h
  have hobjects := decryptDocument_status herror hstatus
  obtain ⟨version', s', gate, hscan', hgate, -⟩ := parseWithOptions_cases h
  rw [hscan] at hscan'
  cases hscan'
  -- both runs classify the encryption alike
  cases hclass : classifyEncryption s.objects s.trailers parser.limits with
  | error error =>
    unfold encryptionGate at hgate
    rw [if_pos href, hclass] at hgate
    cases hgate
  | ok classification =>
    have hplain : encryptionGate parser.limits crates none s = .ok (.finished s.objects
        (s.log.pushFact parser.limits (encryptionFact s.objects s.trailers))) := by
      unfold encryptionGate
      rw [if_pos href, hclass]
    have hrejected : encryptionGate parser.limits crates (some secret) s
        = .ok (.finished s.objects ({ s.log with
          warnings := s.log.warnings ++ [ValidationWarning.general ⟨e.safeMessage⟩] }
          |>.pushFact parser.limits (e.intoFact (encryptionFact s.objects s.trailers)))) := by
      unfold encryptionGate
      rw [if_pos href, hclass]
      dsimp only
      rw [← Prod.eta (decryptDocument crates parser.limits s.objects s.trailers secret), hobjects,
        herror]
      dsimp only
      rw [if_pos hstatus]
    refine ⟨_, parseWithOptions_finished hlen hscan hplain, ?_⟩
    rw [parseWithOptions_finished hlen hscan hrejected] at h
    cases h
    have hfact := intoFact_encrypted (encryptionSummary s.objects s.trailers) false
    have hfact' : (e.intoFact (encryptionFact s.objects s.trailers)).IsEncrypted :=
      errorFact_encrypted hstatus
    obtain ⟨hwarnings, hfacts⟩ := pushFact_differs hfact hfact'
    exact ⟨rfl, rfl, rfl, rfl, hwarnings, hfacts⟩

/-- A document under a security handler that is not supported. -/
def foreignHandlerSource : Bytes :=
  utf8 "%PDF-1.7\n1 0 obj(secret)endobj\ntrailer<</Encrypt<</Filter/Foreign>>>>\n%%EOF"

/-- The runs on `foreignHandlerSource`: the password is rejected. -/
theorem foreignHandler_run :
    (match Parser.parseWithOptions ⟨{}, none⟩ Crates.unused foreignHandlerSource (some []),
        Parser.scan ⟨{}, none⟩ foreignHandlerSource with
      | .ok _, .ok (_, s) => (encryptionReference s.trailers).isSome
        && match (decryptDocument Crates.unused {} s.objects s.trailers []).2 with
          | .error e => e.isEncryptedStatus
          | .ok _ => false
      | _, _ => false) = true := by
  decide +kernel

theorem rejectedPassword_unchanged_foreignHandler :
    ∃ doc e plain, Parser.parseWithOptions ⟨{}, none⟩ Crates.unused foreignHandlerSource (some [])
        = .ok doc
      ∧ Parser.parse ⟨{}, none⟩ Crates.unused foreignHandlerSource = .ok plain
      ∧ plain.DiffersInEncryption doc (.general ⟨DecryptionError.safeMessage e⟩) := by
  have hrun := foreignHandler_run
  cases hparse : Parser.parseWithOptions ⟨{}, none⟩ Crates.unused foreignHandlerSource (some []) with
  | error error =>
    rw [hparse] at hrun
    cases hrun
  | ok doc =>
    cases hscan : Parser.scan ⟨{}, none⟩ foreignHandlerSource with
    | error error =>
      rw [hparse, hscan] at hrun
      cases hrun
    | ok scanned =>
      obtain ⟨version, s⟩ := scanned
      rw [hparse, hscan] at hrun
      obtain ⟨href, hdecrypt⟩ := Bool.and_eq_true_iff.mp hrun
      cases herror : (decryptDocument Crates.unused {} s.objects s.trailers []).2 with
      | ok summary =>
        rw [herror] at hdecrypt
        cases hdecrypt
      | error e =>
        rw [herror] at hdecrypt
        obtain ⟨plain, hplain, hdiffers⟩ :=
          (rejectedPassword_unchanged ⟨{}, none⟩ Crates.unused).1 foreignHandlerSource [] doc e hparse
            ⟨version, s, hscan, href, herror, hdecrypt⟩
        exact ⟨doc, e, plain, rfl, hplain, hdiffers⟩

end Pdfv
