import Pdfv.Validation.Features
/-!
# Reports

The reports of a run and of a metadata repair, for one input and for a batch, with the counters of
the batch.
-/

namespace Pdfv

/-- `ENGINE_VERSION`. -/
def engineVersion : String := "0.1.1"

/-- Input kind. -/
inductive InputKind where
  | file
  | memory
deriving DecidableEq, Repr

/-- Input summary included in reports. -/
structure InputSummary where
  kind : InputKind
  path : Option PathBuf
  bytes : Option Nat
deriving DecidableEq, Repr

/-- `InputName`: nothing for an input in memory. -/
structure InputName where
  path : Option PathBuf

/-- `InputName::summary`. -/
def InputName.summary (name : InputName) (kind : InputKind) (bytes : Option Nat) : InputSummary :=
  ⟨kind, name.path, bytes⟩

/-- Overall validation status. -/
inductive ValidationStatus where
  | valid
  | invalid
  | encrypted
  | incomplete
  | parseFailed
deriving DecidableEq, Repr

/-- Task duration entry. -/
structure TaskDuration where
  task : Identifier
  millis : Nat
deriving DecidableEq, Repr

/-- `TaskDuration::from_duration`; the duration is in milliseconds. -/
def TaskDuration.fromDuration (task : Identifier) (duration : Nat) : TaskDuration :=
  ⟨task, saturateU64 duration⟩

/-- What a validation report states besides its input. -/
structure ReportBody where
  engineVersion : String
  status : ValidationStatus
  flavours : List ValidationFlavour
  profileReports : List ProfileReport
  parseFacts : List ParseFact
  warnings : List ValidationWarning
  featureReport : Option FeatureReport
  policyReport : Option PolicyReport
  taskDurations : List TaskDuration

/-- Validation report for one input. -/
structure ValidationReport extends ReportBody where
  source : InputSummary

/-- `ValidationWarning::message_text`. -/
def ValidationWarning.messageText : ValidationWarning → BoundedText
  | parseFactCapReached cap => ⟨s!"parse fact cap reached: {cap}"⟩
  | incompatibleProfile profileId reason =>
    ⟨s!"incompatible profile {profileId.text}: {reason.text}"⟩
  | autoDetection message => ⟨s!"auto detection: {message.text}"⟩
  | general message => message

/-! ## Batches -/

/-- CLI-oriented exit category represented in batch summaries. -/
inductive ExitCategory where
  | success
  | validationFailed
  | processingFailed
  | internalError
deriving DecidableEq, Repr

/-- Batch summary counters. -/
structure BatchSummary where
  totalFiles : Nat
  valid : Nat := 0
  invalid : Nat := 0
  parseFailures : Nat := 0
  encrypted : Nat := 0
  incomplete : Nat := 0
  internalErrors : Nat
  elapsedMillis : Nat
  worstExitCategory : ExitCategory := .success
deriving DecidableEq, Repr

namespace BatchSummary

/-- One report of `apply_items`. -/
def applyItem (summary : BatchSummary) (report : ValidationReport) : BatchSummary :=
  match report.status with
  | .valid => { summary with valid := saturateU64 (summary.valid + 1) }
  | .invalid => { summary with invalid := saturateU64 (summary.invalid + 1) }
  | .parseFailed => { summary with parseFailures := saturateU64 (summary.parseFailures + 1) }
  | .encrypted => { summary with encrypted := saturateU64 (summary.encrypted + 1) }
  | .incomplete => { summary with incomplete := saturateU64 (summary.incomplete + 1) }

/-- `BatchSummary::finish`. -/
def finish (summary : BatchSummary) : BatchSummary :=
  { summary with
    worstExitCategory :=
      if 0 < summary.parseFailures ∨ 0 < summary.encrypted ∨ 0 < summary.incomplete
          ∨ 0 < summary.internalErrors then .processingFailed
      else if 0 < summary.invalid then .validationFailed
      else .success }

/-- `BatchSummary::from_items`. -/
def fromItems (items : List ValidationReport) (elapsed : Nat) : BatchSummary :=
  (items.foldl applyItem
    { totalFiles := saturateU64 items.length
      internalErrors := 0
      elapsedMillis := saturateU64 elapsed }).finish

/-- `BatchSummary::from_items_with_internal_errors`. -/
def fromItemsWithInternalErrors (items : List ValidationReport) (elapsed internalErrors : Nat) :
    BatchSummary :=
  (items.foldl applyItem
    { totalFiles := saturateU64 (saturateU64 items.length + internalErrors)
      internalErrors
      elapsedMillis := saturateU64 elapsed }).finish

end BatchSummary

/-- Batch validation report. -/
structure BatchReport where
  items : List ValidationReport
  summary : BatchSummary
  warnings : List ValidationWarning

/-- `BatchReport::from_items`. -/
def BatchReport.fromItems (items : List ValidationReport) (warnings : List ValidationWarning)
    (elapsed : Nat) : BatchReport :=
  ⟨items, .fromItems items elapsed, warnings⟩

/-- `BatchReport::from_items_with_internal_errors`. -/
def BatchReport.fromItemsWithInternalErrors (items : List ValidationReport)
    (warnings : List ValidationWarning) (elapsed internalErrors : Nat) : BatchReport :=
  ⟨items, .fromItemsWithInternalErrors items elapsed internalErrors, warnings⟩

/-! ## Repairs -/

/-- Metadata repair status. -/
inductive RepairStatus where
  | succeeded
  | noAction
  | refused
  | failed
deriving DecidableEq, Repr

/-- Metadata repair action. -/
inductive RepairAction where
  | copiedUnchanged
  | metadataRewritten (description : BoundedText)
deriving DecidableEq, Repr

/-- Explicit reason metadata repair was refused. -/
inductive RepairRefusal where
  | parseFailed (reason : BoundedText)
  | encrypted
  | ambiguousFlavour (selected : Nat)
  | unsupportedValidationStatus (status : ValidationStatus)
  | outputWouldModifyInput
  | invalidOutputPath (reason : BoundedText)
deriving DecidableEq, Repr

/-- Metadata repair report for one input. -/
structure RepairReport where
  engineVersion : String
  source : InputSummary
  outputPath : Option PathBuf
  status : RepairStatus
  actions : List RepairAction
  refusal : Option RepairRefusal
  warnings : List ValidationWarning
  taskDurations : List TaskDuration
deriving DecidableEq, Repr

/-- Batch metadata repair summary counters. -/
structure RepairBatchSummary where
  totalFiles : Nat
  succeeded : Nat := 0
  noAction : Nat := 0
  refused : Nat := 0
  failed : Nat := 0
  elapsedMillis : Nat
  worstExitCategory : ExitCategory := .success
deriving DecidableEq, Repr

namespace RepairBatchSummary

/-- One item of `from_items`. -/
def applyItem (summary : RepairBatchSummary) (item : RepairReport) : RepairBatchSummary :=
  match item.status with
  | .succeeded => { summary with succeeded := saturateU64 (summary.succeeded + 1) }
  | .noAction => { summary with noAction := saturateU64 (summary.noAction + 1) }
  | .refused => { summary with refused := saturateU64 (summary.refused + 1) }
  | .failed => { summary with failed := saturateU64 (summary.failed + 1) }

/-- `RepairBatchSummary::from_items`. -/
def fromItems (items : List RepairReport) (elapsed : Nat) : RepairBatchSummary :=
  let summary := items.foldl applyItem
    { totalFiles := saturateU64 items.length
      elapsedMillis := saturateU64 elapsed }
  { summary with
    worstExitCategory :=
      if 0 < summary.failed then .internalError
      else if 0 < summary.refused then .processingFailed
      else .success }

end RepairBatchSummary

/-- Batch metadata repair report. -/
structure RepairBatchReport where
  items : List RepairReport
  summary : RepairBatchSummary
  warnings : List ValidationWarning
deriving DecidableEq, Repr

/-- `RepairBatchReport::from_items`. -/
def RepairBatchReport.fromItems (items : List RepairReport) (warnings : List ValidationWarning)
    (elapsed : Nat) : RepairBatchReport :=
  ⟨items, .fromItems items elapsed, warnings⟩

end Pdfv
