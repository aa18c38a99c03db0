import Pdfv.Report.Reports
import Pdfv.Xmp.Claims
import Pdfv.Parser.Document
/-!
# The validation facade

`Validator.validateReader`: the source is parsed, the profiles are selected, each of them is run over
the document, features are extracted, the policy is decided, and a report says what came out. The times
a run takes are a parameter.
-/

namespace Pdfv

open Fallible

/-- `ValidationOptions`, without the flag on parse warnings that no run reads. -/
structure ValidationOptions where
  flavour : FlavourSelection
  resourceLimits : ResourceLimits
  password : Option Bytes
  maxFailedAssertionsPerRule : Nat
  recordPassedAssertions : Bool
  featureSelection : FeatureSelection
  policy : Option PolicySet

/-- What a run calls besides the functions of the facade. -/
structure ValidationServices where
  model : ModelServices
  xml : XmlCrate
  schema : PropertySchema

/-- The milliseconds since the start of a run and of its last two tasks. -/
structure TaskClock where
  started : Nat
  featureExtraction : Nat
  policy : Nat

/-- `Validator`. -/
structure Validator where
  options : ValidationOptions
  profiles : ProfileRepository

/-- A document with the facts and warnings of its metadata. -/
def ParsedDocument.withMetadata (document : ParsedDocument) (facts : List ParseFact)
    (warnings : List ValidationWarning) : ParsedDocument :=
  { document with
    parseFacts := document.parseFacts ++ facts
    warnings := document.warnings ++ warnings }

/-! ## Reports -/

/-- `parse_failed_report`. -/
def parseFailedReport (source : InputSummary) (error : ParseError) (elapsed : Nat) :
    Except PdfvError ValidationReport := do
  let message ← BoundedText.new error.display 512
  return {
    source
    engineVersion
    status := .parseFailed
    flavours := []
    profileReports := []
    parseFacts := []
    warnings := [.general message]
    featureReport := none
    policyReport := none
    taskDurations := [.fromDuration ⟨"parse"⟩ elapsed] }

/-- `base_report`. -/
def baseReport (source : InputSummary) (status : ValidationStatus)
    (profileReports : List ProfileReport) (parsed : ParsedDocument) (elapsed : Nat) :
    ValidationReport where
  source
  engineVersion
  status
  flavours := []
  profileReports
  parseFacts := parsed.parseFacts
  warnings := parsed.warnings
  featureReport := none
  policyReport := none
  taskDurations := [.fromDuration ⟨"validate"⟩ elapsed]

/-- The status that the profile reports give. -/
def profilesStatus (reports : List ProfileReport) : ValidationStatus :=
  if reports.any fun report => !report.unsupportedRules.isEmpty then .incomplete
  else if reports.all ProfileReport.isCompliant then .valid
  else .invalid

/-- The status after the policy. -/
def policyStatus (status : ValidationStatus) : Option PolicyReport → ValidationStatus
  | some report => if !report.isCompliant && status = .valid then .invalid else status
  | none => status

namespace Validator

variable (validator : Validator) (services : ValidationServices)

/-! ## The stages of a run -/

/-- The profiles of a run, and the document with what was found in its metadata. -/
def selectProfiles (document : ParsedDocument) :
    Except PdfvError (List ValidationProfile × ParsedDocument) :=
  let limits := validator.options.resourceLimits
  match validator.options.flavour with
  | .auto default => do
    let detected ← FlavourDetector.detect validator.profiles services.model.crates services.xml
      document default limits
    return (detected.profiles, document.withMetadata detected.parseFacts detected.warnings)
  | .explicit flavour => do
    let xmp ← parseDocumentXmp services.model.crates services.xml document limits false
    let profiles ← validator.profiles (.explicit flavour)
    return (profiles, document.withMetadata xmp.parseFacts xmp.warnings)
  | .customProfile profilePath => do
    let xmp ← parseDocumentXmp services.model.crates services.xml document limits false
    let profiles ← validator.profiles (.customProfile profilePath)
    return (profiles, document.withMetadata xmp.parseFacts xmp.warnings)

/-- The runs of the profiles over the document. -/
def runProfiles (document : ModelDocument) (profiles : List ValidationProfile) :
    Except PdfvError (List ProfileReport) :=
  profiles.mapM (validateProfile services.model document validator.options.resourceLimits
    validator.options.maxFailedAssertionsPerRule validator.options.recordPassedAssertions)

/-- The features, when they are selected or a policy needs them. -/
def runFeatures (document : ModelDocument) : Except PdfvError (Option FeatureReport) :=
  if validator.options.featureSelection.isEnabled || validator.options.policy.isSome then do
    let features ← extractFeatures services.model services.schema document
      validator.options.resourceLimits
      (featureSelectionForTasks validator.options.featureSelection validator.options.policy)
    return some features
  else .ok none

/-- The decision of the policy. -/
def runPolicy : Option FeatureReport → Except PdfvError (Option PolicyReport)
  | some features =>
    match validator.options.policy with
    | some policy => do
      policy.validate
      let report ← evaluatePolicy policy features
      return some report
    | none => .ok none
  | none =>
    match validator.options.policy with
    | some _ => .error (.policy (.evaluation ⟨"policy evaluation requires feature report"⟩))
    | none => .ok none

/-- The durations in the report of a run that was not cut short. -/
def taskDurations (clock : TaskClock) (features : Option FeatureReport) : List TaskDuration :=
  .fromDuration ⟨"validate"⟩ clock.started
    :: (if features.isSome then [.fromDuration ⟨"featureExtraction"⟩ clock.featureExtraction] else [])
    ++ (if validator.options.policy.isSome then [.fromDuration ⟨"policy"⟩ clock.policy] else [])

/-- The report of a run that was not cut short. -/
def finishReport (source : InputSummary) (document : ParsedDocument) (profiles : List ValidationProfile)
    (profileReports : List ProfileReport) (featureReport : Option FeatureReport)
    (policyReport : Option PolicyReport) (clock : TaskClock) : ValidationReport where
  source
  engineVersion
  status := policyStatus (profilesStatus profileReports) policyReport
  flavours := profiles.map ValidationProfile.flavour
  profileReports
  parseFacts := document.parseFacts
  warnings := document.warnings
  featureReport
  policyReport
  taskDurations := validator.taskDurations clock featureReport

/-- The run on a parsed document that is not encrypted. -/
def validateDocument (document : ParsedDocument) (source : InputSummary) (clock : TaskClock) :
    Except PdfvError ValidationReport := do
  let (profiles, document) ← validator.selectProfiles services document
  if profiles.isEmpty then
    return baseReport source .incomplete [] document clock.started
  else
    let profileReports ← validator.runProfiles services document.model profiles
    let featureReport ← validator.runFeatures services document.model
    let policyReport ← validator.runPolicy featureReport
    return validator.finishReport source document profiles profileReports featureReport policyReport
      clock

/-- `Validator::validate_reader_with_kind`, on a source given by its bytes. -/
def validateReader (source : Bytes) (name : InputName) (kind : InputKind) (clock : TaskClock) :
    Except PdfvError ValidationReport :=
  let limits := validator.options.resourceLimits
  let summary := name.summary kind (some source.length)
  match Parser.parseWithOptions ⟨limits, none⟩ services.model.crates source
    validator.options.password with
  | .error error => parseFailedReport summary error clock.started
  | .ok document =>
    if document.isEncrypted then do
      let xmp ← parseDocumentXmp services.model.crates services.xml document limits false
      return baseReport summary .encrypted []
        (document.withMetadata xmp.parseFacts xmp.warnings) clock.started
    else validator.validateDocument services document summary clock

end Validator

end Pdfv
