import Pdfv.Repair.Metadata
import Mathlib.Data.List.Forall2
/-!
# Path redaction

The reports that the command line hands to the report writer, for a validation and for a metadata
repair of several inputs. `redactedReports_iff` compares two runs whose inputs have other paths and
the same outcomes.
-/

namespace Pdfv

open Fallible

/-! ## Validating several inputs -/

/-- What the calls for one input return: the opened file, and what is read from it. -/
structure ValidateCalls where
  openFile : Except IoError Unit
  validateReader : Except PdfvError (Option Nat × ReportBody)

/-- `Validator::validate_path`; the name of the input is only in the summary of the source. -/
def validatePath (calls : ValidateCalls) (path : PathBuf) : Except PdfvError ValidationReport := do
  ioResult (some path) calls.openFile
  let (bytes, body) ← calls.validateReader
  return { body with source := InputName.summary ⟨some path⟩ .file bytes }

/-- An input of `pdfv validate`; there are no calls to speak of where the worker panics. -/
structure ValidateJob where
  path : PathBuf
  calls : Option ValidateCalls

/-- What the worker makes of an input; the displayed text of an error with a context is the
context. -/
def ValidateJob.result (job : ValidateJob) : Except String ValidationReport :=
  match job.calls with
  | some calls =>
    (validatePath calls job.path).mapError fun _ => s!"failed to validate {job.path.display}"
  | none => .error s!"validation worker panicked while processing {job.path.display}"

/-- `ValidationBatch`. -/
structure ValidationBatch where
  reports : List ValidationReport := []
  warnings : List ValidationWarning := []
  internalErrors : Nat := 0

/-- One result of `validate_paths`. -/
def ValidationBatch.push (batch : ValidationBatch) :
    Except String ValidationReport → ValidationBatch
  | .ok report => { batch with reports := batch.reports ++ [report] }
  | .error message =>
    { batch with
      internalErrors := saturateU64 (batch.internalErrors + 1)
      warnings := batch.warnings ++ [.general (diagnostic message "internal validation error")] }

/-- `validate_paths`. -/
def validatePaths (jobs : List ValidateJob) : ValidationBatch :=
  (jobs.map ValidateJob.result).foldl ValidationBatch.push {}

/-- `redact_report_paths`. -/
def redactReportPaths (reports : List ValidationReport) : List ValidationReport :=
  reports.map fun report => { report with source := { report.source with path := none } }

/-- The settings of `pdfv validate` that the report depends on. -/
structure ValidateSettings where
  redactPaths : Bool
  configRedactPaths : Bool
  recursive : Bool

/-- A report as it is handed to the report writer. -/
inductive HandedReport (α β : Type) where
  | single (report : α)
  | batch (report : β)

/-- `run_validate` and `write_reports`, up to the report writer. -/
def handedReports (settings : ValidateSettings) (elapsed : Nat) (jobs : List ValidateJob) :
    HandedReport ValidationReport BatchReport :=
  let batch := validatePaths jobs
  let reports := if settings.redactPaths || settings.configRedactPaths then
    redactReportPaths batch.reports else batch.reports
  match reports with
  | [report] =>
    if batch.internalErrors = 0 ∧ settings.recursive = false then .single report
    else .batch (.fromItemsWithInternalErrors [report] batch.warnings elapsed batch.internalErrors)
  | reports =>
    .batch (.fromItemsWithInternalErrors reports batch.warnings elapsed batch.internalErrors)

/-! ## Repairing several inputs -/

/-- An input of `pdfv repair-metadata`. -/
structure RepairJob where
  path : PathBuf
  calls : Option RepairCalls

/-- `failed_repair_report` of the command line. -/
def failedRepairPath (path : PathBuf) (reason : String) : RepairReport :=
  failedReport "bounded diagnostic unavailable" ⟨.file, some path, none⟩ none reason

/-- What the worker makes of an input. -/
def RepairJob.report (repairer : MetadataRepairer) (job : RepairJob) : RepairReport :=
  match job.calls with
  | some calls =>
    match repairer.repairPath calls job.path with
    | .ok report => report
    | .error error => failedRepairPath job.path error.display
  | none =>
    failedRepairPath job.path s!"repair worker panicked while processing {job.path.display}"

/-- `repair_paths`. -/
def repairPaths (repairer : MetadataRepairer) (jobs : List RepairJob) : List RepairReport :=
  jobs.map (RepairJob.report repairer)

/-- One report of `redact_repair_paths`. -/
def RepairReport.redact (report : RepairReport) : RepairReport :=
  { report with source := { report.source with path := none }, outputPath := none }

/-- `run_repair_metadata` and `write_repair_reports`, up to the report writer. -/
def handedRepairReports (redactPaths : Bool) (repairer : MetadataRepairer) (elapsed : Nat)
    (jobs : List RepairJob) : HandedReport RepairReport RepairBatchReport :=
  let reports := repairPaths repairer jobs
  let reports := if redactPaths then reports.map RepairReport.redact else reports
  match reports with
  | [report] => .single report
  | reports => .batch (.fromItems reports [] elapsed)

/-! ## Outcomes -/

/-- How the validation of an input ends, without its path. -/
inductive ValidateOutcome where
  | panicked
  | failed
  | report (bytes : Option Nat) (body : ReportBody)

/-- The outcome of an input. -/
def ValidateJob.outcome (job : ValidateJob) : ValidateOutcome :=
  match job.calls with
  | none => .panicked
  | some ⟨.error _, _⟩ => .failed
  | some ⟨.ok (), .error _⟩ => .failed
  | some ⟨.ok (), .ok (bytes, body)⟩ => .report bytes body

/-- The outcome of an input; nothing when the worker panics. -/
def RepairJob.outcome (repairer : MetadataRepairer) (job : RepairJob) : Option RepairOutcome :=
  job.calls.map fun calls => repairer.outcome calls job.path

/-- Two paths leave the same trace in a diagnostic: they are displayed alike, or the text is too
long for both. -/
def ShownAlike (text : String → String) (path path' : PathBuf) : Prop :=
  path.display = path'.display
    ∨ (512 < (utf8 (text path.display)).length ∧ 512 < (utf8 (text path'.display)).length)

/-- The warning about an input that fails. -/
def failedText (path : String) : String :=
  s!"failed to validate {path}"

/-- The warning about an input whose validation panics. -/
def panickedText (path : String) : String :=
  s!"validation worker panicked while processing {path}"

/-- The warning about an input whose repair panics. -/
def repairPanickedText (path : String) : String :=
  s!"repair worker panicked while processing {path}"

/-- The displayed text of an I/O error on an input. -/
def inputErrorText (source : IoError) (path : String) : String :=
  s!"I/O error at {path}: {source.text}"

/-- The outcome shows no difference between two paths. -/
def ValidateOutcome.Hides (path path' : PathBuf) : ValidateOutcome → Prop
  | panicked => ShownAlike panickedText path path'
  | failed => ShownAlike failedText path path'
  | report _ _ => True

/-- The outcome shows no difference between two paths. -/
def RepairOutcome.Hides (path path' : PathBuf) : Option RepairOutcome → Prop
  | none => ShownAlike repairPanickedText path path'
  | some (inputError source) => ShownAlike (inputErrorText source) path path'
  | some (copyError _ source) => ShownAlike (inputErrorText source) path path'
  | some _ => True

/-! ## Diagnostics -/

theorem diagnostic_of_le {text : String} (h : (utf8 text).length ≤ 512) (fallback : String) :
    diagnostic text fallback = ⟨text⟩ := by
  unfold diagnostic BoundedText.new
  rw [if_neg (by omega)]

theorem diagnostic_of_lt {text : String} (h : 512 < (utf8 text).length) (fallback : String) :
    diagnostic text fallback = ⟨fallback⟩ := by
  unfold diagnostic BoundedText.new
  rw [if_pos h]

/-- Two diagnostics that are not what stands in for one that is too long. -/
theorem diagnostic_eq_iff {text text' fallback : String} (h : text ≠ fallback)
    (h' : text' ≠ fallback) : diagnostic text fallback = diagnostic text' fallback ↔
      text = text' ∨ (512 < (utf8 text).length ∧ 512 < (utf8 text').length) := by
  by_cases hlong : 512 < (utf8 text).length
  · rw [diagnostic_of_lt hlong]
    by_cases hlong' : 512 < (utf8 text').length
    · rw [diagnostic_of_lt hlong']
      exact ⟨fun _ => .inr ⟨hlong, hlong'⟩, fun _ => rfl⟩
    · rw [diagnostic_of_le (by omega)]
      constructor
      · intro heq
        exact absurd (congrArg BoundedText.text heq).symm h'
      · rintro (rfl | ⟨-, hlt⟩)
        · exact absurd hlong hlong'
        · exact absurd hlt hlong'
  · rw [diagnostic_of_le (by omega)]
    by_cases hlong' : 512 < (utf8 text').length
    · rw [diagnostic_of_lt hlong']
      constructor
      · intro heq
        exact absurd (congrArg BoundedText.text heq) h
      · rintro (rfl | ⟨hlt, -⟩)
        · exact absurd hlong' hlong
        · exact absurd hlt hlong
    · rw [diagnostic_of_le (by omega)]
      constructor
      · intro heq
        exact .inl (congrArg BoundedText.text heq)
      · rintro (rfl | ⟨hlt, -⟩)
        · rfl
        · exact absurd hlt hlong

/-- A text with the path in it, which no fallback begins like. -/
theorem diagnostic_shown_iff {text : String → String} {fallback : String}
    (hinj : ∀ a b, text a = text b ↔ a = b) (hne : ∀ a, text a ≠ fallback)
    (path path' : PathBuf) :
    diagnostic (text path.display) fallback = diagnostic (text path'.display) fallback
      ↔ ShownAlike text path path' := by
  rw [diagnostic_eq_iff (hne _) (hne _), hinj]
  rfl

theorem failedText_inj (a b : String) : failedText a = failedText b ↔ a = b :=
  String.append_right_inj "failed to validate "

theorem panickedText_inj (a b : String) : panickedText a = panickedText b ↔ a = b :=
  String.append_right_inj "validation worker panicked while processing "

theorem repairPanickedText_inj (a b : String) :
    repairPanickedText a = repairPanickedText b ↔ a = b :=
  String.append_right_inj "repair worker panicked while processing "

theorem inputErrorText_inj (source : IoError) (a b : String) :
    inputErrorText source a = inputErrorText source b ↔ a = b := by
  show "I/O error at " ++ a ++ ": " ++ source.text = "I/O error at " ++ b ++ ": " ++ source.text ↔ _
  rw [String.append_left_inj, String.append_left_inj, String.append_right_inj]

/-- A text that begins with a character is not one that begins with another. -/
theorem append_ne_of_head_ne {pre b : String} (hpre : pre.toList ≠ [])
    (h : pre.toList.head? ≠ b.toList.head?) (a : String) : pre ++ a ≠ b := by
  intro heq
  apply h
  rw [← heq, String.toList_append, List.head?_append_of_ne_nil _ hpre]

theorem failedText_ne (a : String) : failedText a ≠ "internal validation error" :=
  append_ne_of_head_ne (by decide) (by decide) a

theorem panickedText_ne (a : String) : panickedText a ≠ "internal validation error" :=
  append_ne_of_head_ne (by decide) (by decide) a

theorem repairPanickedText_ne (a : String) :
    repairPanickedText a ≠ "bounded diagnostic unavailable" :=
  append_ne_of_head_ne (by decide) (by decide) a

theorem inputErrorText_ne {fallback : String}
    (h : "I/O error at ".toList.head? ≠ fallback.toList.head?) (source : IoError) (a : String) : inputErrorText source a ≠ fallback := by
  show "I/O error at " ++ a ++ ": " ++ source.text ≠ fallback
  rw [String.append_assoc, String.append_assoc]
  exact append_ne_of_head_ne (by decide) h _

/-! ## Lists of results -/

/-- When the same elements give nothing, what two lists give is equal exactly when it is element by
element. -/
theorem filterMap_eq_iff_forall₂ {α β : Type} {f : α → Option β} {l l' : List α}
    (h : List.Forall₂ (fun a b => (f a).isSome = (f b).isSome) l l') :
    l.filterMap f = l'.filterMap f ↔ List.Forall₂ (fun a b => f a = f b) l l' := by
  induction h with
  | nil => exact ⟨fun _ => .nil, fun _ => rfl⟩
  | @cons a b rest rest' hsome _ ih =>
    rw [List.forall₂_cons, ← ih]
    cases ha : f a with
    | none =>
      have hb : f b = none := by
        rw [ha] at hsome
        exact Option.not_isSome_iff_eq_none.mp (by rw [← hsome]; exact Bool.false_ne_true)
      rw [List.filterMap_cons_none ha, List.filterMap_cons_none hb, hb]
      exact ⟨fun hrest => ⟨rfl, hrest⟩, fun hrest => hrest.2⟩
    | some x =>
      have hb : (f b).isSome := by
        rw [← hsome, ha]
        rfl
      obtain ⟨y, hb⟩ := Option.isSome_iff_exists.mp hb
      rw [List.filterMap_cons_some ha, List.filterMap_cons_some hb, hb, List.cons_eq_cons,
        Option.some.injEq]

/-- Two lists with equal images, element by element. -/
theorem map_eq_iff_forall₂ {α β : Type} {f : α → β} {l l' : List α} :
    l.map f = l'.map f ↔ List.Forall₂ (fun a b => f a = f b) l l' := by
  rw [← List.forall₂_eq_eq_eq, List.forall₂_map_left_iff, List.forall₂_map_right_iff]

/-- Relations that agree on the elements of two lists agree on the lists. -/
theorem forall₂_iff_of_forall₂ {α β : Type} {R S : α → β → Prop} {l : List α} {l' : List β}
    (h : List.Forall₂ (fun a b => R a b ↔ S a b) l l') :
    List.Forall₂ R l l' ↔ List.Forall₂ S l l' := by
  induction h with
  | nil => exact ⟨fun _ => .nil, fun _ => .nil⟩
  | cons hab _ ih => rw [List.forall₂_cons, List.forall₂_cons, hab, ih]

/-! ## Validations -/

/-- The redacted report of an outcome. -/
def ValidateOutcome.redacted : ValidateOutcome → Option ValidationReport
  | report bytes body => some { body with source := ⟨.file, none, bytes⟩ }
  | _ => none

/-- The warning about an outcome. -/
def ValidateOutcome.warning (path : PathBuf) : ValidateOutcome → Option ValidationWarning
  | panicked => some (.general (diagnostic (panickedText path.display) "internal validation error"))
  | failed => some (.general (diagnostic (failedText path.display) "internal validation error"))
  | report _ _ => none

theorem ValidateOutcome.warning_isSome (path path' : PathBuf) (outcome : ValidateOutcome) :
    (outcome.warning path).isSome = (outcome.warning path').isSome := by
  cases outcome <;> rfl

theorem ValidateOutcome.warning_eq_iff (path path' : PathBuf) (outcome : ValidateOutcome) :
    outcome.warning path = outcome.warning path' ↔ outcome.Hides path path' := by
  cases outcome with
  | panicked =>
    unfold warning Hides
    rw [Option.some.injEq, ValidationWarning.general.injEq]
    exact diagnostic_shown_iff panickedText_inj panickedText_ne path path'
  | failed =>
    unfold warning Hides
    rw [Option.some.injEq, ValidationWarning.general.injEq]
    exact diagnostic_shown_iff failedText_inj failedText_ne path path'
  | report bytes body => exact ⟨fun _ => trivial, fun _ => rfl⟩

/-- What the worker makes of an input with an outcome. -/
def ValidateOutcome.result (path : PathBuf) : ValidateOutcome → Except String ValidationReport
  | panicked => .error (panickedText path.display)
  | failed => .error (failedText path.display)
  | report bytes body => .ok { body with source := ⟨.file, some path, bytes⟩ }

theorem ValidateJob.result_eq (job : ValidateJob) : job.result = job.outcome.result job.path := by
  obtain ⟨path, calls⟩ := job
  cases calls with
  | none => rfl
  | some calls =>
    obtain ⟨openFile, validateReader⟩ := calls
    cases openFile with
    | error source => rfl
    | ok u =>
      cases validateReader with
      | error e => rfl
      | ok read => rfl

/-- The batch without the paths of its reports. -/
def ValidationBatch.redact (batch : ValidationBatch) : ValidationBatch :=
  { batch with reports := redactReportPaths batch.reports }

/-- The redacted report of an input. -/
def ValidateJob.redacted (job : ValidateJob) : Option ValidationReport :=
  job.outcome.redacted

/-- The warning about an input. -/
def ValidateJob.warning (job : ValidateJob) : Option ValidationWarning :=
  job.outcome.warning job.path

/-- The batch of some inputs, in terms of their outcomes. -/
def redactedBatch (jobs : List ValidateJob) : ValidationBatch where
  reports := jobs.filterMap ValidateJob.redacted
  warnings := jobs.filterMap ValidateJob.warning
  internalErrors := saturateU64 (jobs.filterMap ValidateJob.warning).length

theorem ValidateJob.redacted_of (job : ValidateJob) {outcome : ValidateOutcome}
    (h : job.outcome = outcome) : job.redacted = outcome.redacted :=
  congrArg ValidateOutcome.redacted h

theorem ValidateJob.warning_of (job : ValidateJob) {outcome : ValidateOutcome}
    (h : job.outcome = outcome) : job.warning = outcome.warning job.path :=
  congrArg (ValidateOutcome.warning job.path) h

/-- One more input that fails. -/
theorem redactedBatch_snoc_failed {jobs : List ValidateJob} {job : ValidateJob}
    {warning : ValidationWarning} (hreport : job.redacted = none)
    (hwarning : job.warning = some warning) :
    redactedBatch (jobs ++ [job])
      = { redactedBatch jobs with
          internalErrors := saturateU64 ((redactedBatch jobs).internalErrors + 1)
          warnings := (redactedBatch jobs).warnings ++ [warning] } := by
  unfold redactedBatch
  rw [List.filterMap_append, List.filterMap_append, List.filterMap_cons_none hreport,
    List.filterMap_cons_some hwarning, List.filterMap_nil, List.filterMap_nil, List.append_nil,
    List.length_append, List.length_singleton, saturateU64_add]

/-- One more input with a report. -/
theorem redactedBatch_snoc_report {jobs : List ValidateJob} {job : ValidateJob}
    {report : ValidationReport} (hreport : job.redacted = some report)
    (hwarning : job.warning = none) :
    redactedBatch (jobs ++ [job])
      = { redactedBatch jobs with reports := (redactedBatch jobs).reports ++ [report] } := by
  unfold redactedBatch
  rw [List.filterMap_append, List.filterMap_append, List.filterMap_cons_some hreport,
    List.filterMap_cons_none hwarning, List.filterMap_nil, List.filterMap_nil, List.append_nil]

/-- One more result. -/
theorem ValidationBatch.redact_push_error {batch batch' : ValidationBatch}
    (h : batch.redact = batch') (message : String) :
    (batch.push (.error message)).redact
      = { batch' with
          internalErrors := saturateU64 (batch'.internalErrors + 1)
          warnings := batch'.warnings
            ++ [.general (diagnostic message "internal validation error")] } := by
  rw [← h]
  rfl

/-- One more result. -/
theorem ValidationBatch.redact_push_ok {batch batch' : ValidationBatch}
    (h : batch.redact = batch') (report : ValidationReport) :
    (batch.push (.ok report)).redact
      = { batch' with reports := batch'.reports ++ redactReportPaths [report] } := by
  rw [← h]
  unfold push redact redactReportPaths
  dsimp only
  rw [List.map_append]

theorem validatePaths_redact (jobs : List ValidateJob) :
    (validatePaths jobs).redact = redactedBatch jobs := by
  induction jobs using List.reverseRecOn with
  | nil => rfl
  | append_singleton jobs job ih =>
    have hpush : validatePaths (jobs ++ [job]) = (validatePaths jobs).push job.result := by
      unfold validatePaths
      rw [List.map_append, List.foldl_append]
      rfl
    rw [hpush, job.result_eq]
    cases houtcome : job.outcome with
    | panicked =>
      rw [redactedBatch_snoc_failed (job.redacted_of houtcome) (job.warning_of houtcome)]
      exact ValidationBatch.redact_push_error ih _
    | failed =>
      rw [redactedBatch_snoc_failed (job.redacted_of houtcome) (job.warning_of houtcome)]
      exact ValidationBatch.redact_push_error ih _
    | report bytes body =>
      rw [redactedBatch_snoc_report (job.redacted_of houtcome) (job.warning_of houtcome)]
      exact ValidationBatch.redact_push_ok ih _

/-- What is handed on of a batch whose paths are redacted. -/
def ValidationBatch.hand (recursive : Bool) (elapsed : Nat) (batch : ValidationBatch) :
    HandedReport ValidationReport BatchReport :=
  match batch.reports with
  | [report] =>
    if batch.internalErrors = 0 ∧ recursive = false then .single report
    else .batch (.fromItemsWithInternalErrors [report] batch.warnings elapsed batch.internalErrors)
  | reports =>
    .batch (.fromItemsWithInternalErrors reports batch.warnings elapsed batch.internalErrors)

theorem handedReports_eq {settings : ValidateSettings}
    (hredact : (settings.redactPaths || settings.configRedactPaths) = true) (elapsed : Nat)
    (jobs : List ValidateJob) :
    handedReports settings elapsed jobs
      = (redactedBatch jobs).hand settings.recursive elapsed := by
  unfold handedReports
  dsimp only
  rw [if_pos hredact, ← validatePaths_redact]
  rfl

/-- What is handed on has the warnings in it, when there are any. -/
theorem ValidationBatch.hand_warnings_inj {recursive : Bool} {elapsed : Nat}
    {batch batch' : ValidationBatch} (hreports : batch.reports = batch'.reports)
    (h : batch.internalErrors = 0 → batch.warnings = [])
    (h' : batch'.internalErrors = 0 → batch'.warnings = [])
    (heq : batch.hand recursive elapsed = batch'.hand recursive elapsed) :
    batch.warnings = batch'.warnings := by
  unfold hand at heq
  rw [← hreports] at heq
  split at heq
  · split_ifs at heq with hsingle hsingle'
    · rw [h hsingle.1, h' hsingle'.1]
    · exact congrArg BatchReport.warnings (HandedReport.batch.inj heq)
  · exact congrArg BatchReport.warnings (HandedReport.batch.inj heq)

theorem redactedBatch_noWarnings {jobs : List ValidateJob}
    (h : (redactedBatch jobs).internalErrors = 0) : (redactedBatch jobs).warnings = [] := by
  apply List.eq_nil_of_length_eq_zero
  have hlength : saturateU64 (redactedBatch jobs).warnings.length = 0 := h
  unfold saturateU64 u64Size at hlength
  omega

/-- Inputs with the same outcomes give the same batch up to the warnings. -/
theorem redactedBatch_congr {jobs jobs' : List ValidateJob}
    (h : jobs.map ValidateJob.outcome = jobs'.map ValidateJob.outcome) :
    (redactedBatch jobs).reports = (redactedBatch jobs').reports := by
  have hmap : ∀ jobs : List ValidateJob, (redactedBatch jobs).reports
      = (jobs.map ValidateJob.outcome).filterMap ValidateOutcome.redacted := by
    intro jobs
    rw [List.filterMap_map]
    rfl
  rw [hmap, hmap, h]

/-- The redacted reports of two validations with the same outcomes are equal exactly when every
outcome hides the difference between the two paths. -/
theorem handedReports_eq_iff {settings : ValidateSettings}
    (hredact : (settings.redactPaths || settings.configRedactPaths) = true) (elapsed : Nat)
    {jobs jobs' : List ValidateJob}
    (h : jobs.map ValidateJob.outcome = jobs'.map ValidateJob.outcome) :
    handedReports settings elapsed jobs = handedReports settings elapsed jobs'
      ↔ List.Forall₂ (fun job job' => job.outcome.Hides job.path job'.path) jobs jobs' := by
  have hall := map_eq_iff_forall₂.mp h
  have hreports := redactedBatch_congr h
  have hwarnings : (redactedBatch jobs).warnings = (redactedBatch jobs').warnings
      ↔ List.Forall₂ (fun job job' => job.outcome.Hides job.path job'.path) jobs jobs' := by
    have hsome : List.Forall₂ (fun job job' : ValidateJob =>
        job.warning.isSome = job'.warning.isSome) jobs jobs' := by
      apply hall.imp
      intro job job' heq
      rw [job.warning_of heq]
      exact job'.outcome.warning_isSome job.path job'.path
    refine (filterMap_eq_iff_forall₂ hsome).trans (forall₂_iff_of_forall₂ (hall.imp ?_))
    intro job job' heq
    rw [← job.outcome.warning_eq_iff, job'.warning_of heq.symm]
    rfl
  rw [← hwarnings, handedReports_eq hredact, handedReports_eq hredact]
  constructor
  · exact ValidationBatch.hand_warnings_inj hreports redactedBatch_noWarnings
      redactedBatch_noWarnings
  · intro heq
    have hbatch : redactedBatch jobs = redactedBatch jobs' := by
      unfold redactedBatch
      rw [ValidationBatch.mk.injEq]
      refine ⟨hreports, heq, congrArg (fun warnings => saturateU64 warnings.length) heq⟩
    rw [hbatch]

/-! ## Repairs -/

/-- The redacted report of an outcome. -/
def RepairOutcome.redacted (path : PathBuf) : Option RepairOutcome → RepairReport
  | none => (failedRepairPath path (repairPanickedText path.display)).redact
  | some outcome =>
    match outcome.result path path with
    | .ok report => report.redact
    | .error e => (failedRepairPath path e.display).redact

/-- The redacted report of an input. -/
def RepairJob.redacted (repairer : MetadataRepairer) (job : RepairJob) : RepairReport :=
  RepairOutcome.redacted job.path (job.outcome repairer)

theorem RepairJob.report_redact (repairer : MetadataRepairer) (job : RepairJob) :
    (job.report repairer).redact = job.redacted repairer := by
  obtain ⟨path, calls⟩ := job
  cases calls with
  | none => rfl
  | some calls =>
    obtain ⟨outputPath, hresult⟩ := repairer.repairPath_eq calls path
    unfold report redacted outcome
    dsimp only [Option.map]
    rw [hresult]
    -- The output path is in the report of an unchanged copy alone, and redacted there.
    cases repairer.outcome calls path <;> rfl

/-- Two reports of failed repairs of paths that are redacted. -/
theorem failedReport_redact_eq_iff {text : String → String} {fallback : String}
    (hinj : ∀ a b, text a = text b ↔ a = b) (hne : ∀ a, text a ≠ fallback)
    (path path' : PathBuf) (bytes : Option Nat) :
    (failedReport fallback ⟨.file, some path, bytes⟩ none (text path.display)).redact
        = (failedReport fallback ⟨.file, some path', bytes⟩ none (text path'.display)).redact
      ↔ ShownAlike text path path' := by
  rw [← diagnostic_shown_iff hinj hne]
  unfold failedReport RepairReport.redact
  constructor
  · intro h
    have hwarnings := congrArg RepairReport.warnings h
    exact ValidationWarning.general.inj (List.cons_eq_cons.mp hwarnings).1
  · intro h
    rw [h]

theorem RepairOutcome.redacted_eq_iff (path path' : PathBuf) (outcome : Option RepairOutcome) :
    redacted path outcome = redacted path' outcome ↔ Hides path path' outcome := by
  cases outcome with
  | none =>
    exact failedReport_redact_eq_iff repairPanickedText_inj repairPanickedText_ne path path' none
  | some outcome =>
    cases outcome with
    | error e => exact ⟨fun _ => trivial, fun _ => rfl⟩
    | inputError source =>
      exact failedReport_redact_eq_iff (inputErrorText_inj source)
        (inputErrorText_ne (by decide) source) path path' none
    | refused bytes refusal => exact ⟨fun _ => trivial, fun _ => rfl⟩
    | copyError bytes source =>
      exact failedReport_redact_eq_iff (inputErrorText_inj source)
        (inputErrorText_ne (by decide) source) path path' (some bytes)
    | failed bytes reason => exact ⟨fun _ => trivial, fun _ => rfl⟩
    | unchanged bytes task elapsed => exact ⟨fun _ => trivial, fun _ => rfl⟩

/-- What is handed on of the reports of a repair. -/
def handRepairs (elapsed : Nat) : List RepairReport → HandedReport RepairReport RepairBatchReport
  | [report] => .single report
  | reports => .batch (.fromItems reports [] elapsed)

theorem handRepairs_inj (elapsed : Nat) {reports reports' : List RepairReport}
    (h : handRepairs elapsed reports = handRepairs elapsed reports') : reports = reports' := by
  unfold handRepairs at h
  split at h
  · split at h
    · rw [HandedReport.single.inj h]
    · cases h
  · split at h
    · cases h
    · exact congrArg RepairBatchReport.items (HandedReport.batch.inj h)

theorem handedRepairReports_eq (repairer : MetadataRepairer) (elapsed : Nat)
    (jobs : List RepairJob) : handedRepairReports true repairer elapsed jobs
      = handRepairs elapsed (jobs.map (RepairJob.redacted repairer)) := by
  have hreports : (repairPaths repairer jobs).map RepairReport.redact
      = jobs.map (RepairJob.redacted repairer) := by
    unfold repairPaths
    rw [List.map_map]
    apply List.map_congr_left
    intro job _
    exact job.report_redact repairer
  rw [← hreports]
  rfl

/-- The redacted reports of two repairs with the same outcomes are equal exactly when every
outcome hides the difference between the two paths. -/
theorem handedRepairReports_eq_iff (repairer : MetadataRepairer) (elapsed : Nat)
    {jobs jobs' : List RepairJob}
    (h : jobs.map (RepairJob.outcome repairer) = jobs'.map (RepairJob.outcome repairer)) :
    handedRepairReports true repairer elapsed jobs = handedRepairReports true repairer elapsed jobs'
      ↔ List.Forall₂ (fun job job' =>
          RepairOutcome.Hides job.path job'.path (job.outcome repairer)) jobs jobs' := by
  have hall := map_eq_iff_forall₂.mp h
  have hpaths : jobs.map (RepairJob.redacted repairer) = jobs'.map (RepairJob.redacted repairer)
      ↔ List.Forall₂ (fun job job' =>
          RepairOutcome.Hides job.path job'.path (job.outcome repairer)) jobs jobs' := by
    refine map_eq_iff_forall₂.trans (forall₂_iff_of_forall₂ (hall.imp ?_))
    intro job job' heq
    rw [← RepairOutcome.redacted_eq_iff]
    unfold RepairJob.redacted
    rw [heq]
  rw [← hpaths, handedRepairReports_eq, handedRepairReports_eq]
  constructor
  · exact handRepairs_inj elapsed
  · intro heq
    rw [heq]

/-- Two runs with redaction on, over inputs with the same outcomes, hand the same report to the
report writer exactly when every outcome hides the difference between the two paths. -/
theorem redactedReports_iff {settings : ValidateSettings}
    (hredact : (settings.redactPaths || settings.configRedactPaths) = true) (elapsed : Nat)
    (repairer : MetadataRepairer) :
    (∀ jobs jobs' : List ValidateJob,
      jobs.map ValidateJob.outcome = jobs'.map ValidateJob.outcome →
        (handedReports settings elapsed jobs = handedReports settings elapsed jobs'
          ↔ List.Forall₂ (fun job job' => job.outcome.Hides job.path job'.path) jobs jobs'))
    ∧ ∀ jobs jobs' : List RepairJob,
      jobs.map (RepairJob.outcome repairer) = jobs'.map (RepairJob.outcome repairer) →
        (handedRepairReports true repairer elapsed jobs
            = handedRepairReports true repairer elapsed jobs'
          ↔ List.Forall₂ (fun job job' =>
              RepairOutcome.Hides job.path job'.path (job.outcome repairer)) jobs jobs') := by
  constructor
  · intro jobs jobs' h
    exact handedReports_eq_iff hredact elapsed h
  · intro jobs jobs' h
    exact handedRepairReports_eq_iff repairer elapsed h

/-! ## Two tests -/

/-- The settings of `--redact-paths`. -/
def redactSettings : ValidateSettings :=
  ⟨true, false, false⟩

/-- A repair engine. -/
def testRepairer : MetadataRepairer :=
  ⟨⟨utf8 "/out"⟩, "", 1024⟩

/-- An input that is not there. -/
def missingInput (path : String) : ValidateJob where
  path := ⟨utf8 path⟩
  calls := some ⟨.error ⟨.other, "No such file or directory (os error 2)"⟩,
    .error (.parse (.limitExceeded "maxFileBytes"))⟩

/-- An input that is encrypted. -/
def encryptedInput (path : String) : ValidateJob where
  path := ⟨utf8 path⟩
  calls := some ⟨.ok (), .ok (some 64, ⟨engineVersion, .encrypted, [], [], [], [], none, none, []⟩)⟩

/-- An input whose repair would overwrite it. -/
def ownOutput (path : String) : RepairJob where
  path := ⟨utf8 path⟩
  calls := some
    { metadata := .ok 64
      canonicalize := .ok ⟨utf8 path⟩
      outputExists := true
      openInput := .ok ()
      openedLength := .ok 64
      newTempFile := .ok ()
      copy := .ok ()
      reopen := .ok ()
      validateReader := .error (.parse (.limitExceeded "maxFileBytes"))
      persist := .ok ()
      elapsed := 0 }

theorem ownOutput_outcome :
    [ownOutput "/out/a.pdf"].map (RepairJob.outcome testRepairer)
        = [some (.refused 64 .outputWouldModifyInput)]
      ∧ [ownOutput "/out/b.pdf"].map (RepairJob.outcome testRepairer)
        = [some (.refused 64 .outputWouldModifyInput)] := by
  decide +kernel

theorem redactedReports_encrypted :
    handedReports redactSettings 7 [encryptedInput "a.pdf", missingInput "c.pdf"]
        = handedReports redactSettings 7 [encryptedInput "b.pdf", missingInput "c.pdf"]
      ∧ handedRepairReports true testRepairer 7 [ownOutput "/out/a.pdf"]
        = handedRepairReports true testRepairer 7 [ownOutput "/out/b.pdf"] := by
  have hredact : (redactSettings.redactPaths || redactSettings.configRedactPaths) = true := rfl
  obtain ⟨hvalidate, hrepair⟩ := redactedReports_iff hredact 7 testRepairer
  obtain ⟨ha, hb⟩ := ownOutput_outcome
  constructor
  · apply (hvalidate _ _ rfl).mpr
    exact .cons trivial (.cons (.inl rfl) .nil)
  · apply (hrepair _ _ (ha.trans hb.symm)).mpr
    refine .cons ?_ .nil
    rw [(List.cons_eq_cons.mp ha).1]
    trivial

/-- The warnings of a batch that is handed on. -/
def HandedReport.batchWarnings {α : Type} : HandedReport α BatchReport → List ValidationWarning
  | single _ => []
  | batch report => report.warnings

theorem missingInput_warnings :
    (handedReports redactSettings 7 [missingInput "a.pdf"]).batchWarnings
      ≠ (handedReports redactSettings 7 [missingInput "b.pdf"]).batchWarnings := by
  decide +kernel

/-- The name of an input that is not there is in the report. -/
theorem redactedReports_missing_counterexample :
    [missingInput "a.pdf"].map ValidateJob.outcome = [missingInput "b.pdf"].map ValidateJob.outcome
      ∧ handedReports redactSettings 7 [missingInput "a.pdf"]
        ≠ handedReports redactSettings 7 [missingInput "b.pdf"] := by
  refine ⟨rfl, ?_⟩
  intro h
  exact missingInput_warnings (congrArg HandedReport.batchWarnings h)

end Pdfv
