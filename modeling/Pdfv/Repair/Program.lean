import Pdfv.Basic.Interleaving
import Pdfv.Repair.Metadata
/-!
# A repair as a program

`repair_metadata_path` as the program of its calls, so that other calls can come between two of its
own. With fixed replies it is `repairPath` (`repairProgram_answer`).
-/

namespace Pdfv

open Fallible Interleaving

/-- A named temporary file. -/
structure TempFile where
  name : PathBuf
  file : Nat
deriving DecidableEq, Repr

/-! ## The calls of a repair -/

/-- A call of `repair_metadata_path`; `remove` is the drop of the temporary file. -/
inductive RepairCall where
  | metadata (path : PathBuf)
  | canonicalize (path : PathBuf)
  | outputExists (output : PathBuf)
  | openInput (path : PathBuf)
  | openedLength (file : Nat)
  | newTempFile (dir : PathBuf)
  | copy (file : Nat) (temp : TempFile)
  | reopen (temp : TempFile)
  | validateReader (path : PathBuf) (temp : TempFile)
  | persist (temp : TempFile) (output : PathBuf)
  | remove (temp : TempFile)
  | elapsed

/-- What a call returns. -/
def RepairCall.Reply : RepairCall → Type
  | metadata _ => Except IoError Nat
  | canonicalize _ => Except IoError PathBuf
  | outputExists _ => Bool
  | openInput _ => Except IoError Nat
  | openedLength _ => Except IoError Nat
  | newTempFile _ => Except IoError TempFile
  | copy _ _ => Except IoError Unit
  | reopen _ => Except IoError Unit
  | validateReader _ _ => Except PdfvError ReportBody
  | persist _ _ => Except IoError Unit
  | remove _ => Unit
  | elapsed => Nat

/-- A repair, or what is left of it. -/
abbrev RepairProgram := Program RepairCall RepairCall.Reply (Except PdfvError RepairReport)

/-- The temporary file goes away at the end of its scope. -/
def dropTemp (temp : TempFile) (result : Except PdfvError RepairReport) : RepairProgram :=
  .ask (.remove temp) fun _ => .ret result

/-- `repair_metadata_path` after a failed `persist_repair_candidate`. -/
def persistFailure (source : InputSummary) (error : IoError) : RepairReport :=
  if error.kind = .alreadyExists then refusedRepairReport source outputExistsRefusal
  else failedRepairReport source none error.text

/-- `repair_metadata_path` from the copied candidate on. -/
def candidateProgram (path outputPath : PathBuf) (source : InputSummary) (temp : TempFile) :
    RepairProgram :=
  .ask (.reopen temp) fun
    | .error e => dropTemp temp (.error (.io (some path) e))
    | .ok () => .ask (.validateReader path temp) fun
      | .error e => dropTemp temp (.error e)
      | .ok validation =>
        match repairRefusalForValidation validation with
        | some refusal => dropTemp temp (.ok (refusedRepairReport source refusal))
        | none => .ask (.persist temp outputPath) fun
          | .ok () => .ask .elapsed fun elapsed => .ret (do
              return unchangedReport source outputPath (← newIdentifier "repairMetadata") elapsed)
          | .error e => dropTemp temp (.ok (persistFailure source e))

/-- `repair_metadata_path` from `copy_repair_candidate` on. -/
def copyProgram (repairer : MetadataRepairer) (path outputPath : PathBuf) (source : InputSummary) :
    RepairProgram :=
  .ask (.openInput path) fun
    | .error e => .ret (.ok (failedRepairReport source none (PdfvError.io (some path) e).display))
    | .ok file => .ask (.openedLength file) fun
      | .error e => .ret (.ok (failedRepairReport source none (PdfvError.io (some path) e).display))
      | .ok length =>
        if length > repairer.maxFileBytes then
          .ret (.ok (refusedRepairReport source
            (.parseFailed ⟨s!"resource limit exceeded: maxFileBytes"⟩)))
        else .ask (.newTempFile repairer.outputDir) fun
          | .error e => .ret (.ok (failedRepairReport source none
              (PdfvError.io (some repairer.outputDir) e).display))
          | .ok temp => .ask (.copy file temp) fun
            | .error e => dropTemp temp (.ok (failedRepairReport source none
                (PdfvError.io (some path) e).display))
            | .ok () => candidateProgram path outputPath source temp

/-- `repair_metadata_path`. -/
def repairProgram (repairer : MetadataRepairer) (path : PathBuf) : RepairProgram :=
  .ask (.metadata path) fun
    | .error e => .ret (.error (.io (some path) e))
    | .ok bytes =>
      match repairOutputPath path repairer.outputDir repairer.namePrefix with
      | .error e => .ret (.error e)
      | .ok outputPath => .ask (.canonicalize path) fun
        | .error e => .ret (.error (.io (some path) e))
        | .ok inputCanonical =>
          if inputCanonical = outputPath then
            .ret (.ok (refusedRepairReport ⟨.file, some path, some bytes⟩ .outputWouldModifyInput))
          else .ask (.outputExists outputPath) fun (present : Bool) =>
            if present then
              .ret (.ok (refusedRepairReport ⟨.file, some path, some bytes⟩ outputExistsRefusal))
            else copyProgram repairer path outputPath ⟨.file, some path, some bytes⟩

/-- The replies of fixed calls; the files get any number and the temporary file any name. -/
def RepairCalls.reply (calls : RepairCalls) (file : Nat) (temp : TempFile) :
    (call : RepairCall) → call.Reply
  | .metadata _ => calls.metadata
  | .canonicalize _ => calls.canonicalize
  | .outputExists _ => calls.outputExists
  | .openInput _ => calls.openInput.map fun _ => file
  | .openedLength _ => calls.openedLength
  | .newTempFile _ => calls.newTempFile.map fun _ => temp
  | .copy _ _ => calls.copy
  | .reopen _ => calls.reopen
  | .validateReader _ _ => calls.validateReader
  | .persist _ _ => calls.persist
  | .remove _ => ()
  | .elapsed => calls.elapsed

section Answer

variable (calls : RepairCalls) (file : Nat) (temp : TempFile) (path : PathBuf)

theorem candidateProgram_answer (outputPath : PathBuf) (source : InputSummary) :
    (candidateProgram path outputPath source temp).answer (calls.reply file temp)
      = calls.candidateResult path outputPath source := by
  unfold candidateProgram RepairCalls.candidateResult
  simp only [Program.answer, RepairCalls.reply]
  cases calls.reopen with
  | error e => rfl
  | ok u =>
    simp only [Program.answer, RepairCalls.reply, ioResult_ok, ok_bind]
    cases calls.validateReader with
    | error e => rfl
    | ok validation =>
      simp only [ok_bind]
      cases repairRefusalForValidation validation with
      | some refusal => rfl
      | none =>
        simp only [Program.answer, RepairCalls.reply]
        cases calls.persist with
        | ok u => rfl
        | error e =>
          simp only [dropTemp, Program.answer, persistFailure]
          by_cases hkind : e.kind = .alreadyExists
          · rw [if_pos hkind, if_pos hkind]
            rfl
          · rw [if_neg hkind, if_neg hkind]
            rfl

theorem copyProgram_answer (repairer : MetadataRepairer) (outputPath : PathBuf)
    (source : InputSummary) :
    (copyProgram repairer path outputPath source).answer (calls.reply file temp)
      = calls.copyResult repairer path outputPath source := by
  unfold copyProgram RepairCalls.copyResult copyRepairCandidate
  simp only [Program.answer, RepairCalls.reply]
  cases calls.openInput with
  | error e => rfl
  | ok u =>
    simp only [Program.answer, RepairCalls.reply, Except.map, ioResult_ok, ok_bind]
    cases calls.openedLength with
    | error e => rfl
    | ok length =>
      simp only [ioResult_ok, ok_bind]
      by_cases hlarge : length > repairer.maxFileBytes
      · rw [if_pos hlarge, failIf_of hlarge]
        rfl
      · rw [if_neg hlarge, failIf_of_not hlarge]
        simp only [Program.answer, RepairCalls.reply, ok_bind]
        cases calls.newTempFile with
        | error e => rfl
        | ok u =>
          simp only [Program.answer, RepairCalls.reply, Except.map, ioResult_ok, ok_bind]
          cases calls.copy with
          | error e => rfl
          | ok u => exact candidateProgram_answer calls file temp path outputPath source

/-- With fixed replies the program is `repair_metadata_path` on what its calls return. -/
theorem repairProgram_answer (repairer : MetadataRepairer) :
    (repairProgram repairer path).answer (calls.reply file temp) = repairer.repairPath calls path := by
  unfold repairProgram MetadataRepairer.repairPath inputSummaryForPath
  simp only [Program.answer, RepairCalls.reply]
  cases calls.metadata with
  | error e => rfl
  | ok bytes =>
    simp only [ioResult_ok, ok_bind]
    cases repairOutputPath path repairer.outputDir repairer.namePrefix with
    | error e => rfl
    | ok outputPath =>
      simp only [Program.answer, RepairCalls.reply]
      cases calls.canonicalize with
      | error e => rfl
      | ok inputCanonical =>
        simp only [ioResult_ok, ok_bind]
        by_cases hsame : inputCanonical = outputPath
        · rw [if_pos hsame]
          show _ = (if inputCanonical = outputPath then _ else _)
          rw [if_pos hsame]
          rfl
        · rw [if_neg hsame]
          show _ = (if inputCanonical = outputPath then _ else _)
          rw [if_neg hsame]
          show Program.answer _ (if calls.outputExists = true then _ else _) = _
          by_cases hexists : calls.outputExists = true
          · rw [if_pos hexists, if_pos hexists]
            rfl
          · rw [if_neg hexists, if_neg hexists]
            exact copyProgram_answer calls file temp path repairer outputPath _

end Answer

end Pdfv
