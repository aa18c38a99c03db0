import Pdfv.Validation.Accounting
/-!
# Report writers

The numbers the XML and the text writer state for a profile report, and when they are the numbers of
the run (`writers_countChecks_iff`).
-/

namespace Pdfv

/-! ## The numbers -/

/-- The numbers of the `<details>` element. -/
structure XmlDetails where
  passedRules : Nat
  failedRules : Nat
  passedChecks : Nat
  failedChecks : Nat
  unsupportedRules : Nat
deriving DecidableEq, Repr

/-- The numbers `write_xml_validation_report` computes. -/
def xmlDetails (profile : ProfileReport) : XmlDetails :=
  let failedChecks := saturateU64 profile.failedAssertions.length
  { passedRules := profile.rulesExecuted - profile.failedRules
    failedRules := profile.failedRules
    passedChecks := profile.checksExecuted - failedChecks
    failedChecks
    unsupportedRules := saturateU64 profile.unsupportedRules.length }

/-- The `<details>` line of `write_xml_validation_report`. -/
def XmlDetails.line (details : XmlDetails) : String :=
  s!"        <details passedRules=\"{details.passedRules}\" "
    ++ s!"failedRules=\"{details.failedRules}\" passedChecks=\"{details.passedChecks}\" "
    ++ s!"failedChecks=\"{details.failedChecks}\" "
    ++ s!"unsupportedRules=\"{details.unsupportedRules}\"></details>\n"

/-- `CheckCounts`. -/
structure CheckCounts where
  passed : Nat
  failed : Nat
  unsupported : Nat
deriving DecidableEq, Repr

/-- `check_counts`: the sums over the profile reports of a validation report. -/
def checkCounts (profileReports : List ProfileReport) : CheckCounts :=
  profileReports.foldl (fun counts profile =>
    { passed := saturateU64 (counts.passed + (profile.checksExecuted - profile.failedRules))
      failed := saturateU64 (counts.failed + profile.failedRules)
      unsupported := saturateU64 (counts.unsupported + saturateU64 profile.unsupportedRules.length) })
    ⟨0, 0, 0⟩

/-- The line on checks of `write_text_report`. -/
def CheckCounts.line (counts : CheckCounts) : String :=
  s!"checks: {counts.passed} passed, {counts.failed} failed, {counts.unsupported} unsupported\n"

/-! ## Retained failures -/

theorem Check.isFailed_of_failsRule {c : Check} {id : Identifier} (h : c.failsRule id = true) :
    c.isFailed = true :=
  (Bool.and_eq_true_iff.mp h).1

/-- When no rule fails more often than the cap, every failure is kept. -/
theorem keptChecks_isFailed (recordPassed : Bool) {cap : Nat} {checks : List Check}
    (h : ∀ id, (checks.countP fun c => c.failsRule id) ≤ cap) :
    (keptChecks cap recordPassed checks).countP Check.isFailed = checks.countP Check.isFailed := by
  induction checks using List.reverseRecOn with
  | nil => rfl
  | append_singleton checks c ih =>
    have hbefore : ∀ id, (checks.countP fun c => c.failsRule id) ≤ cap := by
      intro id
      have hall := h id
      rw [countP_snoc] at hall
      omega
    rw [keptChecks_snoc, List.countP_append, ih hbefore, countP_snoc]
    congr 1
    by_cases hc : c.isFailed = true
    · have hown := h c.rule.id
      rw [countP_snoc, if_pos (by simp [Check.failsRule, hc])] at hown
      have hkeep : keepsCheck cap recordPassed checks c = true := by
        unfold keepsCheck
        rw [of_decide_eq_true hc]
        apply decide_eq_true
        omega
      rw [if_pos hkeep, if_pos hc, List.countP_singleton, if_pos hc]
    · rw [if_neg hc]
      split
      · rw [List.countP_singleton, if_neg hc]
      · rfl

/-- Every failure is kept exactly when no rule fails more often than the cap. -/
theorem keptChecks_isFailed_iff (cap : Nat) (recordPassed : Bool) (checks : List Check) :
    (keptChecks cap recordPassed checks).countP Check.isFailed = checks.countP Check.isFailed
      ↔ ∀ id, (checks.countP fun c => c.failsRule id) ≤ cap := by
  constructor
  · intro h id
    have hsub := (keptAfter_sublist cap recordPassed [] checks).filter Check.isFailed
    have hfailed : (keptChecks cap recordPassed checks).filter Check.isFailed
        = checks.filter Check.isFailed := by
      apply hsub.eq_of_length
      rw [← List.countP_eq_length_filter, ← List.countP_eq_length_filter]
      exact h
    have hboth : ∀ l : List Check, (l.filter Check.isFailed).filter (fun c => c.failsRule id)
        = l.filter fun c => c.failsRule id := by
      intro l
      rw [List.filter_filter]
      apply List.filter_congr
      intro c _
      by_cases hc : c.failsRule id = true
      · rw [hc, Check.isFailed_of_failsRule hc, Bool.and_true]
      · rw [Bool.not_eq_true] at hc
        rw [hc, Bool.false_and]
    have htake := keptChecks_failsRule cap recordPassed id checks
    rw [← hboth, hfailed, hboth] at htake
    rw [List.countP_eq_length_filter, htake, List.length_take]
    exact Nat.min_le_left _ _
  · exact keptChecks_isFailed recordPassed

/-- The retained failures of a run. -/
theorem Accounted.failedAssertions_length {services : ModelServices} {start state : ProfileState}
    {checks : List Check} (h : Accounted services start checks state) :
    state.finish.failedAssertions.length
      = (keptChecks start.maxFailedAssertionsPerRule start.recordPassedAssertions checks).countP
        Check.isFailed := by
  show state.failedAssertions.length = _
  rw [h.assertions.failed, List.countP_eq_length_filter]
  refine (filter_numberedFrom ?_ 1).length_eq.symm
  intro c hc ordinal
  have hsupported := keptAfter_supported _ _ [] checks c hc
  show decide (c.status = .failed) = c.isFailed
  unfold Check.isUnsupported Check.isPassed Check.isFailed at hsupported
  unfold Check.status Check.isPassed Check.isFailed
  cases hc : c.outcome <;> simp [hc] at hsupported ⊢

/-! ## The numbers of the run -/

/-- The XML report and the text report state the numbers of the evaluations that failed and that
passed. -/
structure CountChecks (checks : List Check) (report : ProfileReport) : Prop where
  xmlFailed : (xmlDetails report).failedChecks = checks.countP Check.isFailed
  xmlPassed : (xmlDetails report).passedChecks = checks.countP Check.isPassed
  textFailed : (checkCounts [report]).failed = checks.countP Check.isFailed
  textPassed : (checkCounts [report]).passed = checks.countP Check.isPassed

/-- The writers state the true numbers exactly when no evaluation ended unsupported and no rule id
failed more often than the failure cap. -/
theorem writers_countChecks_iff (services : ModelServices) (document : ModelDocument)
    (limits : ResourceLimits) (cap : FailureCap) (recordPassed : Bool) (profile : ValidationProfile)
    (report : ProfileReport)
    (h : validateProfile services document limits cap.value recordPassed profile = .ok report) :
    ∃ checks, profileChecks services (profileGraph services document limits profile)
        profile.rules = .ok checks
      ∧ (CountChecks checks report ↔ (∀ c ∈ checks, c.isUnsupported = false)
        ∧ ∀ id, (checks.countP fun c => c.failsRule id) ≤ cap.value) := by
  obtain ⟨checks, state, hchecks, -, hfits, haccounted, rfl⟩ := validateProfile_accounted cap.lt h
  refine ⟨checks, hchecks, ?_⟩
  have hexact := haccounted.exact
  have hsplit := hexact.outcomes
  have hlength : state.finish.failedAssertions.length
      = (keptChecks cap.value recordPassed checks).countP Check.isFailed :=
    haccounted.failedAssertions_length
  have hkept : (keptChecks cap.value recordPassed checks).countP Check.isFailed
      ≤ checks.countP Check.isFailed :=
    (keptAfter_sublist cap.value recordPassed [] checks).countP_le
  have hkeptIff := keptChecks_isFailed_iff cap.value recordPassed checks
  have hunsupported : checks.countP Check.isUnsupported = 0
      ↔ ∀ c ∈ checks, c.isUnsupported = false := by
    simp only [List.countP_eq_zero, Bool.not_eq_true]
  have hxmlFailed : (xmlDetails state.finish).failedChecks
      = (keptChecks cap.value recordPassed checks).countP Check.isFailed := by
    show saturateU64 state.finish.failedAssertions.length = _
    rw [hlength]
    exact saturateU64_of_lt (by show _ < u64Size; omega)
  have hxmlPassed : (xmlDetails state.finish).passedChecks
      = checks.length - (keptChecks cap.value recordPassed checks).countP Check.isFailed := by
    show state.finish.checksExecuted - (xmlDetails state.finish).failedChecks = _
    rw [hxmlFailed, hexact.checksExecuted]
  have htextFailed : (checkCounts [state.finish]).failed = checks.countP Check.isFailed := by
    show saturateU64 (0 + state.finish.failedRules) = _
    rw [hexact.failedRules, Nat.zero_add]
    exact saturateU64_of_lt (by omega)
  have htextPassed : (checkCounts [state.finish]).passed
      = checks.length - checks.countP Check.isFailed := by
    show saturateU64 (0 + (state.finish.checksExecuted - state.finish.failedRules)) = _
    rw [hexact.failedRules, hexact.checksExecuted, Nat.zero_add]
    exact saturateU64_of_lt (by omega)
  rw [← hunsupported, ← hkeptIff]
  constructor
  · intro hcount
    have hpassed := hcount.textPassed
    rw [htextPassed] at hpassed
    exact ⟨by omega, hxmlFailed.symm.trans hcount.xmlFailed⟩
  · rintro ⟨hnone, hall⟩
    refine ⟨hxmlFailed.trans hall, ?_, htextFailed, ?_⟩
    · rw [hxmlPassed, hall]
      omega
    · rw [htextPassed]
      omega

/-- A profile whose rule fails on every page. -/
def failingProfile : ValidationProfile :=
  sampleProfile [pageRule "never" false (.bool false)]

/-- The runs on `twoPagesSource` under the caps 1 and 2: two evaluations fail. Under the cap 1 the XML
report states one failed and one passed check, the text report two failed ones. -/
theorem failingProfile_run :
    (match Parser.parse ⟨{}, none⟩ Crates.unused twoPagesSource with
      | .ok doc =>
        match validateProfile ModelServices.unused doc.model {} 1 false failingProfile,
          validateProfile ModelServices.unused doc.model {} 2 false failingProfile,
          profileChecks ModelServices.unused
            (profileGraph ModelServices.unused doc.model {} failingProfile) failingProfile.rules with
        | .ok report, .ok _, .ok checks =>
          checks.length = 2 && checks.countP Check.isFailed = 2
            && checks.countP Check.isUnsupported = 0
            && (xmlDetails report).failedChecks = 1 && (xmlDetails report).passedChecks = 1
            && (checkCounts [report]).failed = 2 && (checkCounts [report]).passed = 0
        | _, _, _ => false
      | .error _ => false) = true := by
  have hbytes := twoPagesSource.eq_def
  simp only [utf8_append] at hbytes
  repeat rw [utf8_ofList] at hbytes
  rw [hbytes]
  decide +kernel

theorem writers_countChecks_counterexample :
    ∃ doc report checks, Parser.parse ⟨{}, none⟩ Crates.unused twoPagesSource = .ok doc
      ∧ validateProfile ModelServices.unused doc.model {} 1 false failingProfile = .ok report
      ∧ profileChecks ModelServices.unused
          (profileGraph ModelServices.unused doc.model {} failingProfile) failingProfile.rules
        = .ok checks
      ∧ (xmlDetails report).failedChecks ≠ checks.countP Check.isFailed
      ∧ (xmlDetails report).passedChecks ≠ checks.countP Check.isPassed
      ∧ (xmlDetails report).failedChecks ≠ (checkCounts [report]).failed := by
  have hrun := failingProfile_run
  cases hparse : Parser.parse ⟨{}, none⟩ Crates.unused twoPagesSource with
  | error error =>
    rw [hparse] at hrun
    cases hrun
  | ok doc =>
    rw [hparse] at hrun
    dsimp only at hrun
    split at hrun
    · rename_i report _ checks hreport _ hchecks
      simp only [Bool.and_eq_true, decide_eq_true_eq] at hrun
      obtain ⟨⟨⟨⟨⟨⟨hlength, hfailed⟩, hnone⟩, hxmlFailed⟩, hxmlPassed⟩, htextFailed⟩, -⟩ := hrun
      have hsplit := length_eq_outcomes checks
      refine ⟨doc, report, checks, rfl, hreport, hchecks, ?_, ?_, ?_⟩
      · rw [hxmlFailed, hfailed]
        decide
      · rw [hxmlPassed]
        omega
      · rw [hxmlFailed, htextFailed]
        decide
    · cases hrun

theorem writers_countChecks_iff_twoPages :
    ∃ doc report checks, Parser.parse ⟨{}, none⟩ Crates.unused twoPagesSource = .ok doc
      ∧ validateProfile ModelServices.unused doc.model {} 2 false failingProfile = .ok report
      ∧ checks.countP Check.isFailed = 2 ∧ CountChecks checks report := by
  have hrun := failingProfile_run
  cases hparse : Parser.parse ⟨{}, none⟩ Crates.unused twoPagesSource with
  | error error =>
    rw [hparse] at hrun
    cases hrun
  | ok doc =>
    rw [hparse] at hrun
    dsimp only at hrun
    split at hrun
    · rename_i _ report checks _ hreport hchecks
      simp only [Bool.and_eq_true, decide_eq_true_eq] at hrun
      obtain ⟨⟨⟨⟨⟨⟨hlength, hfailed⟩, hnone⟩, -⟩, -⟩, -⟩, -⟩ := hrun
      obtain ⟨found, hfound, hiff⟩ := writers_countChecks_iff ModelServices.unused doc.model {}
        ⟨2, by decide, by decide⟩ false failingProfile report hreport
      cases hchecks.symm.trans hfound
      refine ⟨doc, report, checks, rfl, hreport, hfailed, hiff.mpr ⟨?_, ?_⟩⟩
      · simpa only [List.countP_eq_zero, Bool.not_eq_true] using hnone
      · intro id
        exact List.countP_le_length.trans (le_of_eq hlength)
    · cases hrun

end Pdfv
