import Pdfv.Repair.Program
/-!
# Concurrent repairs

Repairs run side by side, on a file system that other processes change as well, and a call does to the
file system what the operating system says it does. In every interleaving no repair takes a name from
a file it did not create, what it reports as written is at the output path and is what the validator
accepted, and two repairs never report the same output (`repairs_interleaved`).
-/

namespace Pdfv

open Fallible Interleaving

/-! ## The file system -/

/-- Names, the files they lead to, and what the files hold. A file may lose all its names while it is
open. -/
structure FileSystem (ι : Type) where
  names : PathBuf → Option Nat
  data : Nat → Bytes
  /-- `fs::canonicalize`, on paths that lead to something. -/
  canonical : PathBuf → PathBuf
  /-- The repair that created a file. -/
  maker : Nat → Option ι

/-- An entry of the directory itself. -/
def PathBuf.Inside (dir path : PathBuf) : Prop :=
  ∃ name : Bytes, (name ≠ [] ∧ name ≠ [46] ∧ name ≠ [46, 46] ∧ 47 ∉ name) ∧ path = dir.join name

theorem PathBuf.fileName_ne_dot {path : PathBuf} {name : Bytes} (h : path.fileName = some name) :
    name ≠ [] ∧ name ≠ [46] := by
  unfold PathBuf.fileName at h
  cases hlast : path.parts.getLast? with
  | none => simp [hlast] at h
  | some part =>
    simp only [hlast] at h
    split at h
    · cases h
    · cases h
      have hmem := List.mem_of_getLast? hlast
      unfold PathBuf.parts at hmem
      simpa using (List.mem_filter.mp hmem).2

theorem validateOutputFilename_ok {name : String} {u : Unit} (h : validateOutputFilename name = .ok u) :
    utf8 name ≠ [] ∧ utf8 name ≠ [46, 46] ∧ 47 ∉ utf8 name := by
  unfold validateOutputFilename at h
  dsimp only at h
  split at h
  · rename_i hvalid
    refine ⟨hvalid.1, fun heq => ?_, fun hmem => ?_⟩
    · have := hvalid.2.2.1
      rw [heq] at this
      cases this
    · simpa using List.all_eq_true.mp hvalid.2.2.2 47 hmem
  · cases h

theorem toStr_bytes {bytes : Bytes} {name : String} (h : toStr bytes = some name) :
    utf8 name = bytes := by
  unfold toStr at h
  split at h
  · cases h
    assumption
  · cases h

/-- The output is an entry of the output directory. -/
theorem repairOutputPath_inside {path outputDir output : PathBuf} {namePrefix : String}
    (h : repairOutputPath path outputDir namePrefix = .ok output) : outputDir.Inside output := by
  unfold repairOutputPath at h
  cases hopt : path.fileName.bind toStr with
  | none =>
    rw [hopt] at h
    cases h
  | some fileName =>
    rw [hopt] at h
    dsimp only [ok_bind] at h
    obtain ⟨_, -, h⟩ := bind_eq_ok.mp h
    obtain ⟨_, hvalid, h⟩ := bind_eq_ok.mp h
    rw [pure_eq_ok] at h
    subst h
    obtain ⟨bytes, hbytes, hstr⟩ := Option.bind_eq_some_iff.mp hopt
    obtain ⟨hne, hdots, hslash⟩ := validateOutputFilename_ok hvalid
    refine ⟨_, ⟨hne, fun hdot => ?_, hdots, hslash⟩, rfl⟩
    rw [utf8_append, toStr_bytes hstr] at hdot
    obtain ⟨hfile, hfile'⟩ := PathBuf.fileName_ne_dot hbytes
    rcases List.append_eq_singleton_iff.mp hdot with ⟨-, heq⟩ | ⟨-, heq⟩
    · exact hfile' heq
    · exact hfile heq

namespace FileSystem

variable {ι : Type} (s : FileSystem ι)

/-- The path leads to a file that no repair created. -/
def InputAt (path : PathBuf) (file : Nat) : Prop :=
  s.maker file = none ∧ s.names (s.canonical path) = some file

/-- A new empty file under a name. -/
def create (i : ι) (temp : TempFile) : FileSystem ι :=
  { s with
    names := Function.update s.names temp.name (some temp.file)
    data := Function.update s.data temp.file []
    maker := Function.update s.maker temp.file (some i) }

def write (file : Nat) (content : Bytes) : FileSystem ι :=
  { s with data := Function.update s.data file content }

def link (name : PathBuf) (file : Nat) : FileSystem ι :=
  { s with names := Function.update s.names name (some file) }

def unlink (name : PathBuf) : FileSystem ι :=
  { s with names := Function.update s.names name none }

variable {s} {name other : PathBuf} {file : Nat} {i : ι} {temp : TempFile}

@[simp] theorem create_names_self : (s.create i temp).names temp.name = some temp.file :=
  Function.update_self _ _ _

theorem create_names_of_ne (h : name ≠ temp.name) : (s.create i temp).names name = s.names name :=
  Function.update_of_ne h _ _

@[simp] theorem create_maker_self : (s.create i temp).maker temp.file = some i :=
  Function.update_self _ _ _

theorem create_maker_of_ne (h : file ≠ temp.file) :
    (s.create i temp).maker file = s.maker file :=
  Function.update_of_ne h _ _

@[simp] theorem link_names_self : (s.link name file).names name = some file :=
  Function.update_self _ _ _

theorem link_names_of_ne (h : other ≠ name) : (s.link name file).names other = s.names other :=
  Function.update_of_ne h _ _

@[simp] theorem unlink_names_self : (s.unlink name).names name = none :=
  Function.update_self _ _ _

theorem unlink_names_of_ne (h : other ≠ name) : (s.unlink name).names other = s.names other :=
  Function.update_of_ne h _ _

end FileSystem

/-! ## What the calls do -/

/-- A repair that runs, and the file at its input path with what it holds if nobody else changes it. -/
structure RunningRepair where
  repairer : MetadataRepairer
  path : PathBuf
  input : Option (Nat × Bytes)

def RunningRepair.program (job : RunningRepair) : RepairProgram := repairProgram job.repairer job.path

section Steps

variable {ι : Type}

/-- A call of repair `i`: what it may reply and do. A call that is not listed with a condition on its
reply can fail at any time. -/
def Handled (validates : PathBuf → Bytes → Except PdfvError ReportBody → Prop) (job : RunningRepair)
    (i : ι) : (call : RepairCall) → FileSystem ι → call.Reply → FileSystem ι → Prop
  | .openInput path, s, reply, s' => s' = s ∧ ∀ file, reply = .ok file →
    s.names (s.canonical path) = some file
  | .newTempFile _, s, .error _, s' => s' = s
  | .newTempFile dir, s, .ok temp, s' => s' = s.create i temp ∧ dir.Inside temp.name
    ∧ s.names temp.name = none ∧ s.maker temp.file = none ∧ ∀ name, s.names name ≠ some temp.file
  -- a file that changes while it is read can give any content, and a copy can stop half way
  | .copy file temp, s, reply, s' => ∃ content, s' = s.write temp.file content ∧
    ∀ bytes, reply = .ok () → job.input = some (file, bytes) → content = s.data file
  | .validateReader path temp, s, reply, s' => s' = s ∧ validates path (s.data temp.file) reply
  | .persist _ _, s, .error _, s' => s' = s
  -- the link is made for a name that is free, and the old name may survive it
  | .persist temp output, s, .ok _, s' => s.names output = none ∧
    ∃ file, s.names temp.name = some file ∧
      (s' = s.link output file ∨ s' = (s.link output file).unlink temp.name)
  | .remove temp, s, _, s' => s' = s ∨ s' = s.unlink temp.name
  | .metadata _, s, _, s' => s' = s
  | .canonicalize _, s, _, s' => s' = s
  | .outputExists _, s, _, s' => s' = s
  | .openedLength _, s, _, s' => s' = s
  | .reopen _, s, _, s' => s' = s
  | .elapsed, s, _, s' => s' = s

/-- The input is where it was, with what it held. -/
def RunningRepair.HasInput (job : RunningRepair) (s : FileSystem ι) : Prop :=
  ∀ file bytes, job.input = some (file, bytes) → s.InputAt job.path file ∧ s.data file = bytes

/-- What repair `i` does at most: only its own files lose names or change, only its own files get
names, and these are in the output directory. -/
structure RepairGuarantee (i : ι) (outputDir : PathBuf) (s s' : FileSystem ι) : Prop where
  keeps : ∀ name file, s.names name = some file → s.maker file ≠ some i → s'.names name = some file
  adds : ∀ name file, s'.names name = some file → s.names name ≠ some file →
    s'.maker file = some i ∧ outputDir.Inside name
  data : ∀ file, s'.maker file ≠ some i → s'.data file = s.data file
  maker : ∀ file, s'.maker file = s.maker file
    ∨ s'.maker file = some i ∧ s.maker file = none ∧ ∀ name, s.names name ≠ some file
  canonical : s'.canonical = s.canonical

/-- What repair `i` needs of the steps of others: its files keep their names and their content, and
the input that is said to stay stays. -/
structure RepairRely (i : ι) (job : RunningRepair) (s s' : FileSystem ι) : Prop where
  maker : ∀ file, s'.maker file = some i ↔ s.maker file = some i
  names : ∀ name file, s.maker file = some i →
    (s'.names name = some file ↔ s.names name = some file)
  data : ∀ file, s.maker file = some i → s'.data file = s.data file
  input : job.HasInput s → job.HasInput s'

/-- The contract of a repair. -/
def repairContract (i : ι) (job : RunningRepair) : Contract (FileSystem ι) where
  rely := RepairRely i job
  guarantee := RepairGuarantee i job.repairer.outputDir

namespace RepairGuarantee

variable {i : ι} {outputDir : PathBuf} {s s' : FileSystem ι}

theorem refl : RepairGuarantee i outputDir s s where
  keeps := fun _ _ h _ => h
  adds := fun _ _ h hne => absurd h hne
  data := fun _ _ => rfl
  maker := fun _ => .inl rfl
  canonical := rfl

/-- An input is none of the files that a repair changes. -/
theorem hasInput (h : RepairGuarantee i outputDir s s') {job : RunningRepair} (hin : job.HasInput s) :
    job.HasInput s' := by
  intro file bytes heq
  obtain ⟨⟨hmaker, hname⟩, hdata⟩ := hin file bytes heq
  have hmaker' : s'.maker file = none := by
    rcases h.maker file with heq | ⟨-, -, hfree⟩
    · rw [heq, hmaker]
    · exact absurd hname (hfree _)
  have hnot : s.maker file ≠ some i := by rw [hmaker]; exact nofun
  have hnot' : s'.maker file ≠ some i := by rw [hmaker']; exact nofun
  refine ⟨⟨hmaker', ?_⟩, (h.data file hnot').trans hdata⟩
  rw [h.canonical]
  exact h.keeps _ _ hname hnot

/-- What one repair guarantees is what another relies on. -/
theorem rely (h : RepairGuarantee i outputDir s s') {j : ι} (hij : i ≠ j) (job : RunningRepair) :
    RepairRely j job s s' where
  maker := by
    intro file
    rcases h.maker file with heq | ⟨hmine, hnone, -⟩
    · rw [heq]
    · rw [hmine, hnone]
      exact ⟨fun heq => absurd (Option.some.inj heq) hij, nofun⟩
  names := by
    intro name file hmaker
    have hnot : s.maker file ≠ some i := by
      rw [hmaker]
      exact fun heq => hij (Option.some.inj heq).symm
    refine ⟨fun hname => ?_, fun hname => h.keeps _ _ hname hnot⟩
    by_contra hne
    obtain ⟨hmine, -⟩ := h.adds name file hname hne
    rcases h.maker file with heq | ⟨-, hnone, -⟩
    · exact hnot (heq ▸ hmine)
    · rw [hnone] at hmaker
      cases hmaker
  data := by
    intro file hmaker
    refine h.data file fun hmine => ?_
    rcases h.maker file with heq | ⟨-, hnone, -⟩
    · rw [heq, hmaker] at hmine
      exact hij (Option.some.inj hmine).symm
    · rw [hnone] at hmaker
      cases hmaker
  input := h.hasInput

theorem trans {s₁ : FileSystem ι} (h : RepairGuarantee i outputDir s s₁)
    (h' : RepairGuarantee i outputDir s₁ s') : RepairGuarantee i outputDir s s' where
  keeps := by
    intro name file hname hnot
    have hname₁ := h.keeps name file hname hnot
    refine h'.keeps name file hname₁ ?_
    rcases h.maker file with heq | ⟨-, -, hfree⟩
    · rw [heq]
      exact hnot
    · exact absurd hname (hfree name)
  adds := by
    intro name file hname' hne
    by_cases hname₁ : s₁.names name = some file
    · obtain ⟨hmine, hinside⟩ := h.adds name file hname₁ hne
      refine ⟨?_, hinside⟩
      rcases h'.maker file with heq | ⟨hmine', -, -⟩
      · rw [heq, hmine]
      · exact hmine'
    · exact h'.adds name file hname' hname₁
  data := by
    intro file hnot
    have hnot₁ : s₁.maker file ≠ some i := by
      intro hmine
      rcases h'.maker file with heq | ⟨hmine', -, -⟩
      · exact hnot (heq.trans hmine)
      · exact hnot hmine'
    exact (h'.data file hnot).trans (h.data file hnot₁)
  maker := by
    intro file
    rcases h'.maker file with heq' | ⟨hmine', hnone, hfree₁⟩
    · rw [heq']
      exact h.maker file
    · rcases h.maker file with heq | ⟨hmine, -, -⟩
      · refine .inr ⟨hmine', heq ▸ hnone, fun name hname => ?_⟩
        refine hfree₁ name (h.keeps name file hname ?_)
        rw [← heq, hnone]
        exact nofun
      · rw [hnone] at hmine
        cases hmine
  canonical := h'.canonical.trans h.canonical

theorem create {temp : TempFile} (hinside : outputDir.Inside temp.name)
    (hname : s.names temp.name = none) (hmaker : s.maker temp.file = none)
    (hfree : ∀ name, s.names name ≠ some temp.file) :
    RepairGuarantee i outputDir s (s.create i temp) where
  keeps := by
    intro name file heq _
    have hne : name ≠ temp.name := by
      rintro rfl
      rw [hname] at heq
      cases heq
    rw [FileSystem.create_names_of_ne hne, heq]
  adds := by
    intro name file heq hne
    by_cases hsame : name = temp.name
    · subst hsame
      rw [FileSystem.create_names_self] at heq
      cases heq
      exact ⟨FileSystem.create_maker_self, hinside⟩
    · rw [FileSystem.create_names_of_ne hsame] at heq
      exact absurd heq hne
  data := by
    intro file hnot
    refine Function.update_of_ne ?_ _ _
    rintro rfl
    exact hnot FileSystem.create_maker_self
  maker := by
    intro file
    by_cases hsame : file = temp.file
    · subst hsame
      exact .inr ⟨FileSystem.create_maker_self, hmaker, hfree⟩
    · exact .inl (FileSystem.create_maker_of_ne hsame)
  canonical := rfl

theorem write {file : Nat} (hmine : s.maker file = some i) (content : Bytes) :
    RepairGuarantee i outputDir s (s.write file content) where
  keeps := fun _ _ h _ => h
  adds := fun _ _ h hne => absurd h hne
  data := by
    intro other hnot
    refine Function.update_of_ne ?_ _ _
    rintro rfl
    exact hnot hmine
  maker := fun _ => .inl rfl
  canonical := rfl

theorem link {output : PathBuf} {file : Nat} (hinside : outputDir.Inside output)
    (hname : s.names output = none) (hmine : s.maker file = some i) :
    RepairGuarantee i outputDir s (s.link output file) where
  keeps := by
    intro name other heq _
    have hne : name ≠ output := by
      rintro rfl
      rw [hname] at heq
      cases heq
    rw [FileSystem.link_names_of_ne hne, heq]
  adds := by
    intro name other heq hne
    by_cases hsame : name = output
    · subst hsame
      rw [FileSystem.link_names_self] at heq
      cases heq
      exact ⟨hmine, hinside⟩
    · rw [FileSystem.link_names_of_ne hsame] at heq
      exact absurd heq hne
  data := fun _ _ => rfl
  maker := fun _ => .inl rfl
  canonical := rfl

theorem unlink {name : PathBuf} (hmine : ∀ file, s.names name = some file → s.maker file = some i) :
    RepairGuarantee i outputDir s (s.unlink name) where
  keeps := by
    intro other file heq hnot
    have hne : other ≠ name := by
      rintro rfl
      exact hnot (hmine file heq)
    rw [FileSystem.unlink_names_of_ne hne, heq]
  adds := by
    intro other file heq hne
    by_cases hsame : other = name
    · subst hsame
      rw [FileSystem.unlink_names_self] at heq
      cases heq
    · rw [FileSystem.unlink_names_of_ne hsame] at heq
      exact absurd heq hne
  data := fun _ _ => rfl
  maker := fun _ => .inl rfl
  canonical := rfl

end RepairGuarantee

/-! ## Where a repair stands -/

/-- Nothing on the file system comes from the repair. -/
def NoFiles (i : ι) (s : FileSystem ι) : Prop :=
  ∀ file, s.maker file ≠ some i

/-- The temporary file is the repair's only file, with no name but its own. -/
structure OnlyTemp (i : ι) (temp : TempFile) (s : FileSystem ι) : Prop where
  maker : ∀ file, s.maker file = some i ↔ file = temp.file
  names : ∀ name, s.names name = some temp.file → name = temp.name

/-- The temporary file is there. -/
structure HasTemp (i : ι) (temp : TempFile) (s : FileSystem ι) : Prop extends OnlyTemp i temp s where
  named : s.names temp.name = some temp.file

/-- What the input held. -/
def RunningRepair.CopyOf (job : RunningRepair) (content : Bytes) : Prop :=
  ∀ input bytes, job.input = some (input, bytes) → content = bytes

/-- The output is the repair's file; it holds what the input held, and the validator accepted that. -/
def RunningRepair.Written (job : RunningRepair)
    (validates : PathBuf → Bytes → Except PdfvError ReportBody → Prop) (i : ι) (s : FileSystem ι)
    (output : PathBuf) : Prop :=
  ∃ file validation, s.maker file = some i ∧ s.names output = some file ∧ job.CopyOf (s.data file)
    ∧ validates job.path (s.data file) (.ok validation) ∧ repairRefusalForValidation validation = none

/-- Between `persist` and its reply being looked at. -/
def AfterPersist (validates : PathBuf → Bytes → Except PdfvError ReportBody → Prop) (i : ι)
    (job : RunningRepair) (temp : TempFile) (output : PathBuf) :
    Except IoError Unit → FileSystem ι → Prop
  | .ok _, s => job.Written validates i s output
  | .error _, s => HasTemp i temp s

/-- Between the creation of the temporary file and its reply being looked at. -/
def AfterCreate (i : ι) : Except IoError TempFile → FileSystem ι → Prop
  | .ok temp, s => HasTemp i temp s
  | .error _, s => NoFiles i s

/-- The file opened is the input. -/
def RunningRepair.Opens (job : RunningRepair) (file : Nat) : Prop :=
  ∀ input bytes, job.input = some (input, bytes) → input = file

/-- The repair left at most one name behind, that of its temporary file. -/
def Unwritten (i : ι) (s : FileSystem ι) : Prop :=
  ∃ temporary, ∀ name file, s.maker file = some i → s.names name = some file → name = temporary

/-- The result reports an output. -/
def Reported (result : Except PdfvError RepairReport) : Prop :=
  ∃ report, result = .ok report ∧ report.status = .noAction

/-- A finished repair. -/
structure RepairDone (job : RunningRepair)
    (validates : PathBuf → Bytes → Except PdfvError ReportBody → Prop) (i : ι)
    (result : Except PdfvError RepairReport) (s : FileSystem ι) : Prop where
  input : job.HasInput s
  written : ∀ report, result = .ok report → report.status = .noAction →
    ∃ output, repairOutputPath job.path job.repairer.outputDir job.repairer.namePrefix = .ok output
      ∧ report.outputPath = some output ∧ job.Written validates i s output
  unwritten : ¬ Reported result → Unwritten i s

section Stable

variable {i : ι} {job : RunningRepair}

theorem hasInput_stable : (repairContract i job).Stable job.HasInput :=
  fun _ _ h hrely => hrely.input h

theorem noFiles_stable : (repairContract i job).Stable (NoFiles i) :=
  fun _ _ h hrely file hmine => h file ((hrely.maker file).mp hmine)

theorem OnlyTemp.rely {temp : TempFile} {s s' : FileSystem ι} (h : OnlyTemp i temp s)
    (hrely : RepairRely i job s s') : OnlyTemp i temp s' where
  maker := fun file => (hrely.maker file).trans (h.maker file)
  names := fun name hname =>
    h.names name ((hrely.names name temp.file ((h.maker temp.file).mpr rfl)).mp hname)

theorem onlyTemp_stable (temp : TempFile) : (repairContract i job).Stable (OnlyTemp i temp) :=
  fun _ _ h hrely => h.rely hrely

theorem hasTemp_stable (temp : TempFile) : (repairContract i job).Stable (HasTemp i temp) :=
  fun _ _ h hrely =>
    ⟨h.toOnlyTemp.rely hrely, (hrely.names _ _ ((h.maker temp.file).mpr rfl)).mpr h.named⟩

theorem hasTemp_data_stable (temp : TempFile) (assertion : Bytes → Prop) :
    (repairContract i job).Stable fun s => HasTemp i temp s ∧ assertion (s.data temp.file) := by
  intro s s' h hrely
  refine ⟨hasTemp_stable temp s s' h.1 hrely, ?_⟩
  rw [hrely.data temp.file ((h.1.maker temp.file).mpr rfl)]
  exact h.2

theorem written_stable {validates : PathBuf → Bytes → Except PdfvError ReportBody → Prop}
    {output : PathBuf} :
    (repairContract i job).Stable fun s => job.Written validates i s output := by
  rintro s s' ⟨file, validation, hmine, hname, hcopy, hvalid, hnone⟩ hrely
  refine ⟨file, validation, (hrely.maker file).mpr hmine, (hrely.names _ _ hmine).mpr hname, ?_, ?_,
    hnone⟩
  · rw [hrely.data file hmine]
    exact hcopy
  · rw [hrely.data file hmine]
    exact hvalid

end Stable

/-! ## A repair meets its contract -/

section Contracts

variable {validates : PathBuf → Bytes → Except PdfvError ReportBody → Prop} {i : ι} {job : RunningRepair}

/-- What is left of a repair meets the contract of the repair. -/
abbrev MeetsRepair (validates : PathBuf → Bytes → Except PdfvError ReportBody → Prop) (i : ι)
    (job : RunningRepair) : (FileSystem ι → Prop) → RepairProgram → Prop :=
  Meets (Handled validates job i) (repairContract i job) (RepairDone job validates i)

theorem OnlyTemp.unwritten {temp : TempFile} {s : FileSystem ι} (h : OnlyTemp i temp s) :
    Unwritten i s := by
  refine ⟨temp.name, fun name file hmine hname => ?_⟩
  rw [(h.maker file).mp hmine] at hname
  exact h.names name hname

theorem NoFiles.unwritten {s : FileSystem ι} (h : NoFiles i s) : Unwritten i s :=
  ⟨⟨[]⟩, fun _ file hmine => absurd hmine (h file)⟩

/-- A repair that reports no output is done where it left at most a temporary file. -/
theorem RepairDone.of_unwritten {result : Except PdfvError RepairReport} {s : FileSystem ι}
    (hresult : ¬ Reported result) (hin : job.HasInput s) (h : Unwritten i s) :
    RepairDone job validates i result s where
  input := hin
  written := fun report hok hstatus => absurd ⟨report, hok, hstatus⟩ hresult
  unwritten := fun _ => h

theorem not_reported_error (e : PdfvError) : ¬ Reported (.error e) := by
  rintro ⟨report, hok, -⟩
  cases hok

theorem not_reported_refused (source : InputSummary) (refusal : RepairRefusal) :
    ¬ Reported (.ok (refusedRepairReport source refusal)) := by
  rintro ⟨report, hok, hstatus⟩
  cases hok
  cases hstatus

theorem not_reported_failed (source : InputSummary) (output : Option PathBuf) (reason : String) :
    ¬ Reported (.ok (failedRepairReport source output reason)) := by
  rintro ⟨report, hok, hstatus⟩
  cases hok
  cases hstatus

theorem not_reported_persistFailure (source : InputSummary) (error : IoError) :
    ¬ Reported (.ok (persistFailure source error)) := by
  unfold persistFailure
  split
  · exact not_reported_refused source _
  · exact not_reported_failed source none _

/-- Nothing created, nothing reported. -/
theorem ret_meets {result : Except PdfvError RepairReport} (hresult : ¬ Reported result) :
    MeetsRepair validates i job (fun s => job.HasInput s ∧ NoFiles i s) (.ret result) :=
  .ret (hasInput_stable.and noFiles_stable) fun _ hs => .of_unwritten hresult hs.1 hs.2.unwritten

theorem dropTemp_meets {temp : TempFile} {result : Except PdfvError RepairReport}
    (hresult : ¬ Reported result) :
    MeetsRepair validates i job (fun s => job.HasInput s ∧ HasTemp i temp s)
      (dropTemp temp result) := by
  refine .ask (fun _ s => job.HasInput s ∧ OnlyTemp i temp s)
    (hasInput_stable.and (hasTemp_stable temp)) ?_ fun _ =>
      .ret (hasInput_stable.and (onlyTemp_stable temp)) fun _ hs =>
        .of_unwritten hresult hs.1 hs.2.unwritten
  rintro s reply s' ⟨hin, htemp⟩ (rfl | rfl)
  · exact ⟨.refl, hin, htemp.toOnlyTemp⟩
  · have hguarantee : RepairGuarantee i job.repairer.outputDir s (s.unlink temp.name) := by
      refine .unlink fun file hname => ?_
      rw [htemp.named] at hname
      cases hname
      exact (htemp.maker _).mpr rfl
    refine ⟨hguarantee, hguarantee.hasInput hin, htemp.maker, fun name hname => ?_⟩
    by_cases hsame : name = temp.name
    · exact hsame
    · rw [FileSystem.unlink_names_of_ne hsame] at hname
      exact htemp.names name hname

theorem newIdentifier_repairMetadata :
    newIdentifier "repairMetadata" = .ok ⟨"repairMetadata"⟩ := by
  decide

/-- The report of a repair whose candidate is persisted. -/
theorem persisted_meets {output : PathBuf} (source : InputSummary)
    (houtput : repairOutputPath job.path job.repairer.outputDir job.repairer.namePrefix = .ok output) :
    MeetsRepair validates i job (fun s => job.HasInput s ∧ job.Written validates i s output)
      (.ask .elapsed fun elapsed => .ret (do
        return unchangedReport source output (← newIdentifier "repairMetadata") elapsed)) := by
  refine .look (hasInput_stable.and written_stable) (fun _ _ _ h => h) (fun _ => .refl)
    fun elapsed => .ret (hasInput_stable.and written_stable) fun s hs => ?_
  rw [newIdentifier_repairMetadata]
  refine ⟨hs.1, ?_, fun hnot => absurd ⟨_, rfl, rfl⟩ hnot⟩
  rintro report hok -
  cases hok
  exact ⟨output, houtput, rfl, hs.2⟩

/-- A candidate whose content the validator accepted gets the output name or none. -/
theorem persist_step {temp : TempFile} {output : PathBuf} {validation : ReportBody}
    (hinside : job.repairer.outputDir.Inside output)
    (hnone : repairRefusalForValidation validation = none) {s s' : FileSystem ι}
    (hin : job.HasInput s) (htemp : HasTemp i temp s) (hcopy : job.CopyOf (s.data temp.file))
    (hvalid : validates job.path (s.data temp.file) (.ok validation))
    (h : Handled validates job i (.persist temp output) s (.ok ()) s') :
    RepairGuarantee i job.repairer.outputDir s s' ∧ job.HasInput s'
      ∧ job.Written validates i s' output := by
  obtain ⟨hfree, file, hfile, hs'⟩ := h
  rw [htemp.named] at hfile
  cases hfile
  have hmine : s.maker temp.file = some i := (htemp.maker _).mpr rfl
  have hlink : RepairGuarantee i job.repairer.outputDir s (s.link output temp.file) :=
    .link hinside hfree hmine
  have hne : temp.name ≠ output := by
    rintro heq
    rw [← heq, htemp.named] at hfree
    cases hfree
  rcases hs' with rfl | rfl
  · exact ⟨hlink, hlink.hasInput hin, temp.file, validation, hmine, FileSystem.link_names_self, hcopy,
      hvalid, hnone⟩
  · have hunlink : RepairGuarantee i job.repairer.outputDir (s.link output temp.file)
        ((s.link output temp.file).unlink temp.name) := by
      refine .unlink fun file hname => ?_
      rw [FileSystem.link_names_of_ne hne, htemp.named] at hname
      cases hname
      exact hmine
    have hboth := hlink.trans hunlink
    refine ⟨hboth, hboth.hasInput hin, temp.file, validation, hmine, ?_, hcopy, hvalid, hnone⟩
    rw [FileSystem.unlink_names_of_ne hne.symm, FileSystem.link_names_self]

theorem candidateProgram_meets {temp : TempFile} {output : PathBuf} (source : InputSummary)
    (houtput : repairOutputPath job.path job.repairer.outputDir job.repairer.namePrefix = .ok output) :
    MeetsRepair validates i job
      (fun s => job.HasInput s ∧ HasTemp i temp s ∧ job.CopyOf (s.data temp.file))
      (candidateProgram job.path output source temp) := by
  have hstable : (repairContract i job).Stable fun s =>
      job.HasInput s ∧ HasTemp i temp s ∧ job.CopyOf (s.data temp.file) :=
    hasInput_stable.and (hasTemp_data_stable temp job.CopyOf)
  have hdrop : ∀ {result}, ¬ Reported result → MeetsRepair validates i job
      (fun s => job.HasInput s ∧ HasTemp i temp s ∧ job.CopyOf (s.data temp.file))
      (dropTemp temp result) :=
    fun hresult => (dropTemp_meets hresult).weaken hstable fun _ hs => ⟨hs.1, hs.2.1⟩
  refine .look hstable (fun _ _ _ h => h) (fun _ => .refl) fun reopened => ?_
  cases reopened with
  | error e => exact hdrop (not_reported_error _)
  | ok u =>
    let checked (reply : Except PdfvError ReportBody) (content : Bytes) : Prop :=
      job.CopyOf content ∧ validates job.path content reply
    have hchecked : ∀ reply, (repairContract i job).Stable fun s =>
        job.HasInput s ∧ HasTemp i temp s ∧ checked reply (s.data temp.file) :=
      fun reply => hasInput_stable.and (hasTemp_data_stable temp (checked reply))
    refine .ask (fun reply s => job.HasInput s ∧ HasTemp i temp s ∧ checked reply (s.data temp.file))
      hstable ?_ fun reply => ?_
    · rintro s reply s' ⟨hin, htemp, hcopy⟩ ⟨rfl, hvalid⟩
      exact ⟨.refl, hin, htemp, hcopy, hvalid⟩
    · have hdrop' : ∀ {result}, ¬ Reported result → MeetsRepair validates i job
          (fun s => job.HasInput s ∧ HasTemp i temp s ∧ checked reply (s.data temp.file))
          (dropTemp temp result) :=
        fun hresult => (dropTemp_meets hresult).weaken (hchecked reply) fun _ hs => ⟨hs.1, hs.2.1⟩
      cases reply with
      | error e => exact hdrop' (not_reported_error _)
      | ok validation =>
        dsimp only
        cases hrefusal : repairRefusalForValidation validation with
        | some refusal => exact hdrop' (not_reported_refused _ _)
        | none =>
          refine .ask (fun reply s => job.HasInput s ∧ AfterPersist validates i job temp output reply s)
            (hchecked _) ?_ fun persisted => ?_
          · rintro s (e | u) s' ⟨hin, htemp, hcopy, hvalid⟩ h
            · cases h
              exact ⟨.refl, hin, htemp⟩
            · exact persist_step (repairOutputPath_inside houtput) hrefusal hin htemp hcopy hvalid h
          · cases persisted with
            | error e => exact dropTemp_meets (not_reported_persistFailure _ _)
            | ok u => exact persisted_meets source houtput

theorem create_step {dir : PathBuf} (hdir : dir = job.repairer.outputDir) {s s' : FileSystem ι}
    {reply : Except IoError TempFile} (hin : job.HasInput s) (hnone : NoFiles i s)
    (h : Handled validates job i (.newTempFile dir) s reply s') :
    RepairGuarantee i job.repairer.outputDir s s' ∧ job.HasInput s' ∧ AfterCreate i reply s' := by
  subst hdir
  cases reply with
  | error e =>
    cases h
    exact ⟨.refl, hin, hnone⟩
  | ok temp =>
    obtain ⟨rfl, hinside, hname, hmaker, hfree⟩ := h
    have hguarantee := RepairGuarantee.create (i := i) hinside hname hmaker hfree
    refine ⟨hguarantee, hguarantee.hasInput hin, ⟨fun file => ?_, fun name hname' => ?_⟩,
      FileSystem.create_names_self⟩
    · by_cases hsame : file = temp.file
      · subst hsame
        exact iff_of_true FileSystem.create_maker_self rfl
      · rw [FileSystem.create_maker_of_ne hsame]
        exact iff_of_false (hnone file) hsame
    · by_contra hne
      rw [FileSystem.create_names_of_ne hne] at hname'
      exact hfree name hname'

theorem copy_step {file : Nat} {temp : TempFile} {s s' : FileSystem ι} {reply : Except IoError Unit}
    (hin : job.HasInput s) (htemp : HasTemp i temp s) (hopens : job.Opens file)
    (h : Handled validates job i (.copy file temp) s reply s') :
    RepairGuarantee i job.repairer.outputDir s s' ∧ job.HasInput s' ∧ HasTemp i temp s'
      ∧ (reply = .ok () → job.CopyOf (s'.data temp.file)) := by
  obtain ⟨content, rfl, hcontent⟩ := h
  have hguarantee : RepairGuarantee i job.repairer.outputDir s (s.write temp.file content) :=
    .write ((htemp.maker _).mpr rfl) content
  refine ⟨hguarantee, hguarantee.hasInput hin, ⟨⟨htemp.maker, htemp.names⟩, htemp.named⟩, ?_⟩
  intro hok input bytes heq
  have hsame := hopens input bytes heq
  subst hsame
  have hdata : (s.write temp.file content).data temp.file = content := Function.update_self _ _ _
  rw [hdata, hcontent bytes hok heq]
  exact (hin input bytes heq).2

theorem copyProgram_meets {output : PathBuf} (source : InputSummary)
    (houtput : repairOutputPath job.path job.repairer.outputDir job.repairer.namePrefix = .ok output) :
    MeetsRepair validates i job (fun s => job.HasInput s ∧ NoFiles i s)
      (copyProgram job.repairer job.path output source) := by
  refine .ask (fun reply s => job.HasInput s ∧ NoFiles i s ∧ ∀ file, reply = .ok file → job.Opens file)
    (hasInput_stable.and noFiles_stable) ?_ fun opened => ?_
  · rintro s reply s' ⟨hin, hnone⟩ ⟨rfl, hopen⟩
    refine ⟨.refl, hin, hnone, fun file hok input bytes heq => ?_⟩
    have hname := (hin input bytes heq).1.2
    rw [hopen file hok] at hname
    exact (Option.some.inj hname).symm
  · have hstable : (repairContract i job).Stable fun s =>
        job.HasInput s ∧ NoFiles i s ∧ ∀ file, opened = .ok file → job.Opens file :=
      hasInput_stable.and (noFiles_stable.and (Contract.stable_const _ _))
    have hret : ∀ {result}, ¬ Reported result → MeetsRepair validates i job (fun s =>
        job.HasInput s ∧ NoFiles i s ∧ ∀ file, opened = .ok file → job.Opens file) (.ret result) :=
      fun hresult => (ret_meets hresult).weaken hstable fun _ hs => ⟨hs.1, hs.2.1⟩
    cases opened with
    | error e => exact hret (not_reported_failed _ _ _)
    | ok file =>
      refine .look hstable (fun _ _ _ h => h) (fun _ => .refl) fun opened => ?_
      cases opened with
      | error e => exact hret (not_reported_failed _ _ _)
      | ok length =>
        dsimp only
        by_cases hlarge : length > job.repairer.maxFileBytes
        · rw [if_pos hlarge]
          exact hret (not_reported_refused _ _)
        · rw [if_neg hlarge]
          refine .ask (fun reply s => job.HasInput s ∧ AfterCreate i reply s ∧ job.Opens file) hstable
            ?_ fun created => ?_
          · rintro s reply s' ⟨hin, hnone, hopens⟩ h
            obtain ⟨hguarantee, hin', hafter⟩ := create_step rfl hin hnone h
            exact ⟨hguarantee, hin', hafter, hopens file rfl⟩
          · cases created with
            | error e =>
              exact (ret_meets (not_reported_failed _ _ _)).weaken (hasInput_stable.and
                (noFiles_stable.and (Contract.stable_const _ _))) fun _ hs => ⟨hs.1, hs.2.1⟩
            | ok temp =>
              have htemp : (repairContract i job).Stable fun s =>
                  job.HasInput s ∧ HasTemp i temp s ∧ job.Opens file :=
                hasInput_stable.and ((hasTemp_stable temp).and (Contract.stable_const _ _))
              refine .ask (fun reply s => job.HasInput s ∧ HasTemp i temp s
                ∧ (reply = .ok () → job.CopyOf (s.data temp.file))) htemp ?_ fun copied => ?_
              · rintro s reply s' ⟨hin, htemp, hopens⟩ h
                exact copy_step hin htemp hopens h
              · have hcopied : (repairContract i job).Stable fun s => job.HasInput s
                    ∧ HasTemp i temp s ∧ (copied = .ok () → job.CopyOf (s.data temp.file)) :=
                  hasInput_stable.and
                    (hasTemp_data_stable temp fun content => copied = .ok () → job.CopyOf content)
                cases copied with
                | error e =>
                  exact (dropTemp_meets (not_reported_failed _ _ _)).weaken hcopied
                    fun _ hs => ⟨hs.1, hs.2.1⟩
                | ok u =>
                  exact (candidateProgram_meets source houtput).weaken hcopied
                    fun _ hs => ⟨hs.1, hs.2.1, hs.2.2 rfl⟩

/-- A repair meets its contract from where nothing comes from it. -/
theorem program_meets :
    MeetsRepair validates i job (fun s => job.HasInput s ∧ NoFiles i s) job.program := by
  have hstable : (repairContract i job).Stable fun s => job.HasInput s ∧ NoFiles i s :=
    hasInput_stable.and noFiles_stable
  refine .look hstable (fun _ _ _ h => h) (fun _ => .refl) fun bytes => ?_
  cases bytes with
  | error e => exact ret_meets (not_reported_error _)
  | ok bytes =>
    dsimp only
    cases houtput : repairOutputPath job.path job.repairer.outputDir job.repairer.namePrefix with
    | error e => exact ret_meets (not_reported_error _)
    | ok output =>
      refine .look hstable (fun _ _ _ h => h) (fun _ => .refl) fun canonical => ?_
      cases canonical with
      | error e => exact ret_meets (not_reported_error _)
      | ok canonical =>
        dsimp only
        by_cases hsame : canonical = output
        · rw [if_pos hsame]
          exact ret_meets (not_reported_refused _ _)
        · rw [if_neg hsame]
          refine .look hstable (fun _ _ _ h => h) (fun _ => .refl) fun present => ?_
          cases present with
          | true => exact ret_meets (not_reported_refused _ _)
          | false => exact copyProgram_meets _ houtput

/-- A repair that nobody disturbs can write its output. -/
theorem program_does {s : FileSystem ι} {output : PathBuf} {file : Nat} {validation : ReportBody}
    (temp : TempFile) (bytes elapsed : Nat)
    (houtput : repairOutputPath job.path job.repairer.outputDir job.repairer.namePrefix = .ok output)
    (hinput : s.names (s.canonical job.path) = some file) (hne : s.canonical job.path ≠ output)
    (hsize : (s.data file).length ≤ job.repairer.maxFileBytes)
    (hinside : job.repairer.outputDir.Inside temp.name)
    (hname : s.names temp.name = none) (hmaker : s.maker temp.file = none)
    (hfree : ∀ name, s.names name ≠ some temp.file) (hout : s.names output = none)
    (hother : output ≠ temp.name)
    (hvalid : validates job.path (s.data file) (.ok validation))
    (hnone : repairRefusalForValidation validation = none) :
    Does (Handled validates job i) s job.program
      ((((s.create i temp).write temp.file (s.data file)).link output temp.file).unlink temp.name)
      (.ret (.ok (unchangedReport ⟨.file, some job.path, some bytes⟩ output ⟨"repairMetadata"⟩
        elapsed))) := by
  refine .call (.ok bytes) rfl ?_
  dsimp only
  rw [houtput]
  refine .call (.ok (s.canonical job.path)) rfl ?_
  dsimp only
  rw [if_neg hne]
  refine .call false rfl ?_
  refine .call (.ok file) ⟨rfl, fun _ h => by cases h; exact hinput⟩ ?_
  refine .call (.ok (s.data file).length) rfl ?_
  dsimp only
  rw [if_neg (Nat.not_lt.mpr hsize)]
  refine .call (.ok temp) ⟨rfl, hinside, hname, hmaker, hfree⟩ ?_
  have hfile : (s.create i temp).data file = s.data file := by
    refine Function.update_of_ne ?_ _ _
    rintro rfl
    exact hfree _ hinput
  refine .call (.ok ()) ⟨s.data file, rfl, fun _ _ _ => hfile.symm⟩ ?_
  have hcopy : ((s.create i temp).write temp.file (s.data file)).data temp.file = s.data file :=
    Function.update_self _ _ _
  refine .call (.ok ()) rfl ?_
  refine .call (.ok validation) ⟨rfl, hcopy.symm ▸ hvalid⟩ ?_
  dsimp only
  rw [hnone]
  refine .call (.ok ()) ⟨(FileSystem.create_names_of_ne (i := i) hother).trans hout, temp.file,
    FileSystem.create_names_self (i := i), .inr rfl⟩ ?_
  refine .call elapsed rfl ?_
  rw [newIdentifier_repairMetadata]
  exact .refl _ _

end Contracts

/-! ## Every interleaving -/

section Runs

variable [DecidableEq ι] {jobs : ι → RunningRepair}
  {validates : PathBuf → Bytes → Except PdfvError ReportBody → Prop}
  {outside : FileSystem ι → FileSystem ι → Prop}

/-- The outside leaves the files of the repairs and the inputs that are said to stay as they are. -/
def LeavesRepairs (jobs : ι → RunningRepair) (outside : FileSystem ι → FileSystem ι → Prop) : Prop :=
  ∀ s s', outside s s' → ∀ i, RepairRely i (jobs i) s s'

/-- Any number of repairs, each run to some point, in any order. -/
abbrev RepairRun (jobs : ι → RunningRepair)
    (validates : PathBuf → Bytes → Except PdfvError ReportBody → Prop)
    (outside : FileSystem ι → FileSystem ι → Prop) (start : FileSystem ι) :
    Config RepairCall RepairCall.Reply (FileSystem ι) (Except PdfvError RepairReport) ι → Prop :=
  Run (fun i => Handled validates (jobs i) i) outside ⟨start, fun i => (jobs i).program⟩

omit [DecidableEq ι] in
theorem repairs_compatible (houtside : LeavesRepairs jobs outside) :
    Compatible outside fun i => repairContract i (jobs i) where
  others := fun _ j hij _ _ h => h.rely hij (jobs j)
  outside := fun j s s' h => houtside s s' h j

theorem repairs_onTrack (houtside : LeavesRepairs jobs outside) {start : FileSystem ι}
    (hnone : ∀ i, NoFiles i start) (hinputs : ∀ i, (jobs i).HasInput start)
    {c : Config RepairCall RepairCall.Reply (FileSystem ι) (Except PdfvError RepairReport) ι}
    (hrun : RepairRun jobs validates outside start c) :
    OnTrack (fun i => Handled validates (jobs i) i) (fun i => repairContract i (jobs i))
      (fun i => RepairDone (jobs i) validates i) c :=
  hrun.onTrack (repairs_compatible houtside) fun i => ⟨_, program_meets, hinputs i, hnone i⟩

/-- In every interleaving of repairs with each other and with the outside: a repair's next call takes
no name from a file that is not its own, changes no such file and adds names in its output directory
only; a finished repair has done what it reports; and no two report the same output. -/
theorem repairs_interleaved (houtside : LeavesRepairs jobs outside) {start : FileSystem ι}
    (hnone : ∀ i, NoFiles i start) (hinputs : ∀ i, (jobs i).HasInput start)
    {c : Config RepairCall RepairCall.Reply (FileSystem ι) (Except PdfvError RepairReport) ι}
    (hrun : RepairRun jobs validates outside start c) :
    (∀ i c', JobStep (fun i => Handled validates (jobs i) i) i c c' →
      RepairGuarantee i (jobs i).repairer.outputDir c.shared c'.shared)
    ∧ (∀ i result, c.programs i = .ret result → RepairDone (jobs i) validates i result c.shared)
    ∧ ∀ i j report report', i ≠ j → c.programs i = .ret (.ok report) →
      c.programs j = .ret (.ok report') → report.status = .noAction → report'.status = .noAction →
      report.outputPath ≠ report'.outputPath := by
  have hon := repairs_onTrack houtside hnone hinputs hrun
  refine ⟨fun i c' hstep => (hstep.meets (repairs_compatible houtside) hon).1,
    fun i result hret => hon.ends hret, ?_⟩
  intro i j report report' hij hi hj hstatus hstatus' hsame
  obtain ⟨output, -, hpath, file, _, hmine, hname, -⟩ := (hon.ends hi).written report rfl hstatus
  obtain ⟨output', -, hpath', file', _, hmine', hname', -⟩ :=
    (hon.ends hj).written report' rfl hstatus'
  rw [hpath, hpath'] at hsame
  cases hsame
  rw [hname] at hname'
  cases hname'
  rw [hmine] at hmine'
  exact hij (Option.some.inj hmine')

end Runs

end Steps

/-- Two inputs of one name. -/
def sameNameRepairs (second : Bool) : RunningRepair where
  repairer := ⟨⟨[47, 111]⟩, "", 10⟩
  path := if second then ⟨[47, 98, 47, 120]⟩ else ⟨[47, 97, 47, 120]⟩
  input := some (if second then (1, [38]) else (0, [37]))

/-- The two inputs and nothing else. -/
def sameNameStart : FileSystem Bool where
  names := fun name =>
    if name = ⟨[47, 97, 47, 120]⟩ then some 0 else if name = ⟨[47, 98, 47, 120]⟩ then some 1 else none
  data := fun file => if file = 0 then [37] else [38]
  canonical := id
  maker := fun _ => none

def oneProfileBody : ReportBody where
  engineVersion := ""
  status := .valid
  flavours := []
  profileReports := [⟨⟨⟨"p"⟩, ⟨"p"⟩, none⟩, true, 0, 0, 0, [], [], []⟩]
  parseFacts := []
  warnings := []
  featureReport := none
  policyReport := none
  taskDurations := []

def acceptsOneProfile (_ : PathBuf) (_ : Bytes) (reply : Except PdfvError ReportBody) : Prop :=
  reply = .ok oneProfileBody

theorem repairs_interleaved_sameName :
    ∃ c report, RepairRun sameNameRepairs acceptsOneProfile (fun s s' => s' = s)
        sameNameStart c
      ∧ c.programs false = .ret (.ok report) ∧ report.status = .noAction
      ∧ c.programs true = .ret (.ok (refusedRepairReport
          ⟨.file, some ⟨[47, 98, 47, 120]⟩, some 1⟩ outputExistsRefusal))
      ∧ RepairDone (sameNameRepairs false) acceptsOneProfile false
          (.ok report) c.shared := by
  have houtput : ∀ second, repairOutputPath (sameNameRepairs second).path ⟨[47, 111]⟩ ""
      = .ok ⟨[47, 111, 47, 120]⟩ := by
    decide
  have hfree : ∀ name, sameNameStart.names name ≠ some 2 := by
    intro name hname
    unfold sameNameStart at hname
    dsimp only at hname
    split at hname
    · cases hname
    · split at hname <;> cases hname
  obtain ⟨s, hfirst⟩ : ∃ s, Does (Handled acceptsOneProfile (sameNameRepairs false) false)
      sameNameStart (sameNameRepairs false).program s _ :=
    ⟨_, program_does ⟨⟨[47, 111, 47, 116]⟩, 2⟩ 1 0 (houtput false) rfl (by decide) (by decide)
      ⟨[116], by decide, rfl⟩ rfl rfl hfree rfl (by decide) rfl rfl⟩
  have hsecond : Does (Handled acceptsOneProfile (sameNameRepairs true) true)
      s (sameNameRepairs true).program s (.ret (.ok (refusedRepairReport
        ⟨.file, some ⟨[47, 98, 47, 120]⟩, some 1⟩ outputExistsRefusal))) := by
    refine .call (.ok 1) rfl ?_
    dsimp only
    rw [show repairOutputPath (sameNameRepairs true).path (sameNameRepairs true).repairer.outputDir
      (sameNameRepairs true).repairer.namePrefix = _ from houtput true]
    refine .call (.ok ⟨[47, 98, 47, 120]⟩) rfl ?_
    dsimp only
    rw [if_neg (by decide)]
    exact .call true rfl (.refl _ _)
  have hrun : RepairRun sameNameRepairs acceptsOneProfile (fun s s' => s' = s) sameNameStart _ :=
    hfirst.run
  have hrun' : RepairRun sameNameRepairs acceptsOneProfile (fun s s' => s' = s) sameNameStart _ :=
    hrun.trans (Does.run hsecond)
  refine ⟨_, _, hrun', rfl, rfl, rfl, ?_⟩
  refine (repairs_interleaved ?_ ?_ ?_ hrun').2.1 false _ rfl
  · rintro s s' rfl i
    exact ⟨fun _ => .rfl, fun _ _ _ => .rfl, fun _ _ => rfl, id⟩
  · intro i file
    exact nofun
  · intro i file bytes heq
    cases i <;> cases heq <;> exact ⟨⟨rfl, rfl⟩, rfl⟩


end Pdfv
