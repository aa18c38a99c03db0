import Pdfv.Report.Reports
/-!
# Metadata repair

`repairMetadataPath` on what the calls into the file system and the validator return for one input,
and its outcome as a value that does not have the input path in it (`repairMetadataPath_eq`).
-/

namespace Pdfv

open Fallible

/-! ## Paths -/

namespace PathBuf

/-- The parts between the separators, without the empty ones and those that are a dot. -/
def parts (path : PathBuf) : List Bytes :=
  (path.bytes.splitOn 47).filter fun part => part ≠ [] ∧ part ≠ [46]

/-- `Path::file_name`: the last part, when it is not the parent directory. -/
def fileName (path : PathBuf) : Option Bytes :=
  match path.parts.getLast? with
  | some part => if part = [46, 46] then none else some part
  | none => none

/-- `Path::join` of a name that is no absolute path. -/
def join (path : PathBuf) (name : Bytes) : PathBuf :=
  if path.bytes.getLast? = some 47 ∨ path.bytes = [] then ⟨path.bytes ++ name⟩
  else ⟨path.bytes ++ 47 :: name⟩

end PathBuf

/-- `OsStr::to_str`. -/
def toStr (bytes : Bytes) : Option String :=
  if utf8 (utf8Lossy bytes) = bytes then some (utf8Lossy bytes) else none

/-! ## Repairing one input -/

/-- What the calls for one input return, in the order they are made. -/
structure RepairCalls where
  metadata : Except IoError Nat
  canonicalize : Except IoError PathBuf
  outputExists : Bool
  openInput : Except IoError Unit
  openedLength : Except IoError Nat
  newTempFile : Except IoError Unit
  copy : Except IoError Unit
  reopen : Except IoError Unit
  validateReader : Except PdfvError ReportBody
  persist : Except IoError Unit
  elapsed : Nat

/-- `MetadataRepairer`, without the validator. -/
structure MetadataRepairer where
  outputDir : PathBuf
  namePrefix : String
  maxFileBytes : Nat

/-- `map_err(|source| PdfvError::Io { path, source })`. -/
def ioResult {α : Type} (path : Option PathBuf) (result : Except IoError α) :
    Except PdfvError α :=
  result.mapError (.io path)

@[simp] theorem ioResult_ok {α : Type} (path : Option PathBuf) (a : α) :
    ioResult path (.ok a) = .ok a := rfl

/-- `input_summary_for_path`. -/
def inputSummaryForPath (calls : RepairCalls) (path : PathBuf) : Except PdfvError InputSummary := do
  let length ← ioResult (some path) calls.metadata
  return ⟨.file, some path, some length⟩

/-- `name.contains("..")`. -/
def hasDoubleDot : Bytes → Bool
  | 46 :: 46 :: _ => true
  | _ :: rest => hasDoubleDot rest
  | [] => false

/-- `validate_output_filename`. -/
def validateOutputFilename (name : String) : Except PdfvError Unit :=
  let bytes := utf8 name
  if bytes ≠ [] ∧ bytes.length ≤ 255 ∧ hasDoubleDot bytes = false
      ∧ (bytes.all fun byte => byte ≠ 0 && byte ≠ 47 && byte ≠ 92) then .ok ()
  else .error (.repair (.invalidField "output" ⟨"output filename is invalid"⟩))

/-- `repair_output_path`. -/
def repairOutputPath (path outputDir : PathBuf) (namePrefix : String) :
    Except PdfvError PathBuf := do
  let fileName ← match path.fileName.bind toStr with
    | some name => .ok name
    | none =>
      .error (.repair (.invalidField "paths" ⟨"input path must have a UTF-8 file name"⟩))
  validateOutputFilename fileName
  let outputName := namePrefix ++ fileName
  validateOutputFilename outputName
  return outputDir.join (utf8 outputName)

/-- `copy_repair_candidate`; the parent of the output path is the output directory. -/
def copyRepairCandidate (calls : RepairCalls) (input outputParent : PathBuf)
    (maxFileBytes : Nat) : Except PdfvError Unit := do
  ioResult (some input) calls.openInput
  let length ← ioResult (some input) calls.openedLength
  failIf (length > maxFileBytes) (.parse (.limitExceeded "maxFileBytes"))
  ioResult (some outputParent) calls.newTempFile
  ioResult (some input) calls.copy

/-- `report_has_encryption`. -/
def ReportBody.hasEncryption (report : ReportBody) : Bool :=
  report.parseFacts.any fun
    | .encryption encrypted _ _ _ _ _ => encrypted
    | _ => false

/-- `repair_refusal_for_validation`. -/
def repairRefusalForValidation (validation : ReportBody) : Option RepairRefusal :=
  let selectedProfiles := if validation.flavours.isEmpty then validation.profileReports.length
    else validation.flavours.length
  if validation.status = .parseFailed then
    some (.parseFailed ((validation.warnings.head?.map ValidationWarning.messageText).getD
      ⟨"parse failed"⟩))
  else if validation.status = .encrypted ∨ validation.hasEncryption then some .encrypted
  else if selectedProfiles ≠ 1 then some (.ambiguousFlavour (saturateU64 selectedProfiles))
  else if validation.status ≠ .valid then
    some (.unsupportedValidationStatus validation.status)
  else none

/-- `refused_repair_report`. -/
def refusedRepairReport (source : InputSummary) (refusal : RepairRefusal) : RepairReport where
  engineVersion := engineVersion
  source := source
  outputPath := none
  status := .refused
  actions := []
  refusal := some refusal
  warnings := []
  taskDurations := []

/-- A diagnostic of at most 512 bytes, or the text that stands in for it. -/
def diagnostic (text fallback : String) : BoundedText :=
  match BoundedText.new text 512 with
  | .ok text => text
  | .error _ => ⟨fallback⟩

/-- The report of a repair that failed. Library and command line build it with texts of their own
for a reason that is too long. -/
def failedReport (fallback : String) (source : InputSummary) (outputPath : Option PathBuf)
    (reason : String) : RepairReport where
  engineVersion := engineVersion
  source := source
  outputPath := outputPath
  status := .failed
  actions := []
  refusal := none
  warnings := [.general (diagnostic reason fallback)]
  taskDurations := []

/-- `failed_repair_report` of the library. -/
def failedRepairReport : InputSummary → Option PathBuf → String → RepairReport :=
  failedReport "metadata repair failed"

/-- The report of a repair that had nothing to change. -/
def unchangedReport (source : InputSummary) (outputPath : PathBuf) (task : Identifier)
    (elapsed : Nat) : RepairReport where
  engineVersion := engineVersion
  source := source
  outputPath := some outputPath
  status := .noAction
  actions := [.copiedUnchanged]
  refusal := none
  warnings := []
  taskDurations := [.fromDuration task elapsed]

/-- The refusal for an output that is there already. -/
def outputExistsRefusal : RepairRefusal :=
  .invalidOutputPath ⟨"output path already exists"⟩

/-- `repair_metadata_path`. -/
def MetadataRepairer.repairPath (repairer : MetadataRepairer) (calls : RepairCalls)
    (path : PathBuf) : Except PdfvError RepairReport := do
  let source ← inputSummaryForPath calls path
  let outputPath ← repairOutputPath path repairer.outputDir repairer.namePrefix
  let inputCanonical ← ioResult (some path) calls.canonicalize
  if inputCanonical = outputPath then
    return refusedRepairReport source .outputWouldModifyInput
  if calls.outputExists then
    return refusedRepairReport source outputExistsRefusal
  match copyRepairCandidate calls path repairer.outputDir repairer.maxFileBytes with
  | .error (.parse (.limitExceeded limit)) =>
    return refusedRepairReport source (.parseFailed ⟨s!"resource limit exceeded: {limit}"⟩)
  | .error error => return failedRepairReport source none error.display
  | .ok () =>
    ioResult (some path) calls.reopen
    let validation ← calls.validateReader
    match repairRefusalForValidation validation with
    | some refusal => return refusedRepairReport source refusal
    | none =>
      match calls.persist with
      | .ok () =>
        return unchangedReport source outputPath (← newIdentifier "repairMetadata") calls.elapsed
      | .error error =>
        if error.kind = .alreadyExists then return refusedRepairReport source outputExistsRefusal
        else return failedRepairReport source none error.text

/-! ## Outcomes -/

/-- How the repair of an input ends. -/
inductive RepairOutcome where
  /-- An error that does not name the input. -/
  | error (error : PdfvError)
  /-- An I/O error on the input. -/
  | inputError (source : IoError)
  | refused (bytes : Nat) (refusal : RepairRefusal)
  /-- The input could not be copied. -/
  | copyError (bytes : Nat) (source : IoError)
  | failed (bytes : Nat) (reason : String)
  | unchanged (bytes : Nat) (task : Identifier) (elapsed : Nat)
deriving DecidableEq, Repr

namespace RepairOutcome

/-- What an outcome is for an input and an output path. -/
def result (path outputPath : PathBuf) : RepairOutcome → Except PdfvError RepairReport
  | error e => .error e
  | inputError source => .error (.io (some path) source)
  | refused bytes refusal => .ok (refusedRepairReport ⟨.file, some path, some bytes⟩ refusal)
  | copyError bytes source =>
    .ok (failedRepairReport ⟨.file, some path, some bytes⟩ none
      (PdfvError.io (some path) source).display)
  | failed bytes reason =>
    .ok (failedRepairReport ⟨.file, some path, some bytes⟩ none reason)
  | unchanged bytes task elapsed =>
    .ok (unchangedReport ⟨.file, some path, some bytes⟩ outputPath task elapsed)

end RepairOutcome

/-- The outcome once the candidate is copied. -/
def RepairCalls.candidateOutcome (calls : RepairCalls) (bytes : Nat) : RepairOutcome :=
  match calls.reopen, calls.validateReader with
  | .error source, _ => .inputError source
  | .ok (), .error e => .error e
  | .ok (), .ok validation =>
    match repairRefusalForValidation validation with
    | some refusal => .refused bytes refusal
    | none =>
      match calls.persist, newIdentifier "repairMetadata" with
      | .ok (), .ok task => .unchanged bytes task calls.elapsed
      | .ok (), .error e => .error e
      | .error error, _ =>
        if error.kind = .alreadyExists then .refused bytes outputExistsRefusal
        else .failed bytes error.text

/-- The outcome once the paths are checked. -/
def RepairCalls.copyOutcome (calls : RepairCalls) (repairer : MetadataRepairer) (bytes : Nat) :
    RepairOutcome :=
  match calls.openInput, calls.openedLength with
  | .error source, _ => .copyError bytes source
  | .ok (), .error source => .copyError bytes source
  | .ok (), .ok length =>
    if length > repairer.maxFileBytes then
      .refused bytes (.parseFailed ⟨s!"resource limit exceeded: maxFileBytes"⟩)
    else
      match calls.newTempFile, calls.copy with
      | .error source, _ =>
        .failed bytes (PdfvError.io (some repairer.outputDir) source).display
      | .ok (), .error source => .copyError bytes source
      | .ok (), .ok () => calls.candidateOutcome bytes

/-- The outcome of a repair. -/
def MetadataRepairer.outcome (repairer : MetadataRepairer) (calls : RepairCalls)
    (path : PathBuf) : RepairOutcome :=
  match calls.metadata, repairOutputPath path repairer.outputDir repairer.namePrefix,
      calls.canonicalize with
  | .error source, _, _ => .inputError source
  | .ok _, .error e, _ => .error e
  | .ok _, .ok _, .error source => .inputError source
  | .ok bytes, .ok outputPath, .ok inputCanonical =>
    if inputCanonical = outputPath then .refused bytes .outputWouldModifyInput
    else if calls.outputExists then .refused bytes outputExistsRefusal
    else calls.copyOutcome repairer bytes

/-! ## The repair and its outcome -/

namespace RepairCalls

/-- The part of `repairPath` from the reopened candidate on. -/
def candidateResult (calls : RepairCalls) (path outputPath : PathBuf) (source : InputSummary) :
    Except PdfvError RepairReport := do
  ioResult (some path) calls.reopen
  let validation ← calls.validateReader
  match repairRefusalForValidation validation with
  | some refusal => return refusedRepairReport source refusal
  | none =>
    match calls.persist with
    | .ok () =>
      return unchangedReport source outputPath (← newIdentifier "repairMetadata") calls.elapsed
    | .error error =>
      if error.kind = .alreadyExists then return refusedRepairReport source outputExistsRefusal
      else return failedRepairReport source none error.text

/-- The part of `repairPath` from the copy of the input on. -/
def copyResult (calls : RepairCalls) (repairer : MetadataRepairer) (path outputPath : PathBuf)
    (source : InputSummary) : Except PdfvError RepairReport :=
  match copyRepairCandidate calls path repairer.outputDir repairer.maxFileBytes with
  | .error (.parse (.limitExceeded limit)) =>
    .ok (refusedRepairReport source (.parseFailed ⟨s!"resource limit exceeded: {limit}"⟩))
  | .error error => .ok (failedRepairReport source none error.display)
  | .ok () => calls.candidateResult path outputPath source

theorem candidateResult_eq (calls : RepairCalls) (path outputPath : PathBuf) (bytes : Nat) :
    calls.candidateResult path outputPath ⟨.file, some path, some bytes⟩
      = (calls.candidateOutcome bytes).result path outputPath := by
  unfold candidateResult candidateOutcome
  cases calls.reopen with
  | error source => rfl
  | ok u =>
    show (calls.validateReader >>= _) = _
    cases calls.validateReader with
    | error e => rfl
    | ok validation =>
      rw [ok_bind]
      dsimp only
      split
      · rfl
      · cases calls.persist with
        | ok u =>
          dsimp only
          cases newIdentifier "repairMetadata" with
          | ok task => rfl
          | error e => rfl
        | error error =>
          by_cases hkind : error.kind = .alreadyExists
          · simp only [if_pos hkind]
            rfl
          · simp only [if_neg hkind]
            rfl

theorem copyResult_eq (calls : RepairCalls) (repairer : MetadataRepairer)
    (path outputPath : PathBuf) (bytes : Nat) :
    calls.copyResult repairer path outputPath ⟨.file, some path, some bytes⟩
      = (calls.copyOutcome repairer bytes).result path outputPath := by
  unfold copyResult copyOutcome copyRepairCandidate
  cases calls.openInput with
  | error source => rfl
  | ok u =>
    cases calls.openedLength with
    | error source => rfl
    | ok length =>
      by_cases hlarge : length > repairer.maxFileBytes
      · simp only [ioResult_ok, ok_bind, failIf, if_pos hlarge]
        rfl
      · simp only [ioResult_ok, ok_bind, failIf, if_neg hlarge]
        cases calls.newTempFile with
        | error source => rfl
        | ok u =>
          cases calls.copy with
          | error source => rfl
          | ok u => exact calls.candidateResult_eq path outputPath bytes

end RepairCalls

/-- A repair gives what its outcome is for the input path. -/
theorem MetadataRepairer.repairPath_eq (repairer : MetadataRepairer) (calls : RepairCalls)
    (path : PathBuf) : ∃ outputPath,
      repairer.repairPath calls path = (repairer.outcome calls path).result path outputPath := by
  have hcopy : ∀ outputPath bytes,
      calls.copyResult repairer path outputPath ⟨.file, some path, some bytes⟩ = _ :=
    calls.copyResult_eq repairer path
  unfold repairPath outcome inputSummaryForPath
  cases calls.metadata with
  | error source => exact ⟨path, rfl⟩
  | ok bytes =>
    cases repairOutputPath path repairer.outputDir repairer.namePrefix with
    | error e => exact ⟨path, rfl⟩
    | ok outputPath =>
      cases calls.canonicalize with
      | error source => exact ⟨path, rfl⟩
      | ok inputCanonical =>
        refine ⟨outputPath, ?_⟩
        dsimp only
        show (if inputCanonical = outputPath then _ else _) = _
        by_cases hsame : inputCanonical = outputPath
        · rw [if_pos hsame, if_pos hsame]
          rfl
        · rw [if_neg hsame, if_neg hsame]
          show (if calls.outputExists = true then _ else _) = _
          by_cases hexists : calls.outputExists = true
          · rw [if_pos hexists, if_pos hexists]
            rfl
          · rw [if_neg hexists, if_neg hexists]
            rw [← hcopy outputPath bytes]
            rfl

end Pdfv
