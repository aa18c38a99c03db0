import Pdfv.Validation.Session
import Pdfv.Validation.LinkFacts
import Pdfv.Parser.Document
import Mathlib.Data.List.Perm.Basic
/-!
# Check accounting

The evaluations of a run are a list that depends on the document and the rules alone
(`profileChecks`): one for each visited object and each supported rule for a type of the object, the
deferred rules last. Each check changes the profile state in one way (`Accounted.applyRule`); from
there the whole report is a function of the list, the failure cap and the recording flag
(`validateProfile_accounting`).
-/

namespace Pdfv

open Fallible

/-! ## Checks -/

/-- How the evaluation of a rule on an object ended. -/
inductive CheckOutcome where
  | passed
  | failed
  | unsupported (error : ProfileError)
deriving DecidableEq

/-- One evaluation. -/
structure Check where
  object : ModelObjectRef
  rule : Rule
  outcome : CheckOutcome

namespace Check

variable (c : Check)

/-- The object and the rule. -/
def pair : ModelObjectRef × Rule :=
  (c.object, c.rule)

def isPassed : Bool :=
  c.outcome = .passed

def isFailed : Bool :=
  c.outcome = .failed

def isUnsupported : Bool :=
  !c.isPassed && !c.isFailed

/-- A failure of the rule with a given id. -/
def failsRule (id : Identifier) : Bool :=
  c.isFailed && c.rule.id = id

/-- The status in the report. -/
def status : AssertionStatus :=
  if c.isPassed then .passed else .failed

/-- The assertion of a check, with its ordinal. -/
def assertion (ordinal : Nat) : Assertion :=
  ProfileState.assertionOf c.object c.rule c.status ordinal

/-- The assertion reports the check, under some ordinal. -/
def ReportedAs (a : Assertion) : Prop :=
  a = c.assertion a.ordinal

end Check

/-- The evaluation of a rule on an object; an error that is no profile error ends the run. -/
def checkOf (services : ModelServices) (graph : ModelGraph) (pair : ModelObjectRef × Rule) :
    Except PdfvError Check :=
  match evaluateRule services graph pair.1 pair.2 with
  | .ok .passed => .ok ⟨pair.1, pair.2, .passed⟩
  | .ok .failed => .ok ⟨pair.1, pair.2, .failed⟩
  | .error (.profile error) => .ok ⟨pair.1, pair.2, .unsupported error⟩
  | .error e => .error e

/-- The objects a run visits, in order. -/
def ModelGraph.visitedObjects (graph : ModelGraph) : Except PdfvError (List ModelObjectRef) :=
  match graph.walk.visit graph.limits.maxObjects walkRoots with
  | ⟨objects, _, .finished⟩ => .ok objects
  | ⟨_, _, .stopped e⟩ => .error e
  | ⟨_, _, .failed e⟩ => .error e

/-- The checks at one object that are made at once, or that are deferred. -/
def objectPairs (rules : List Rule) (deferred : Bool) (object : ModelObjectRef) :
    List (ModelObjectRef × Rule) :=
  ((rulesFor rules object).filter fun rule =>
    !rule.test.isUnsupported && rule.deferred == deferred).map fun rule => (object, rule)

/-- The checks of a run in the order they are made. -/
def plannedPairs (rules : List Rule) (objects : List ModelObjectRef) :
    List (ModelObjectRef × Rule) :=
  objects.flatMap (objectPairs rules false) ++ objects.flatMap (objectPairs rules true)

/-- The evaluations of a run. -/
def profileChecks (services : ModelServices) (graph : ModelGraph) (rules : List Rule) :
    Except PdfvError (List Check) := do
  let objects ← graph.visitedObjects
  (plannedPairs rules objects).mapM (checkOf services graph)

/-! ### One check for each object and rule -/

/-- The supported rules for a type of the object. -/
def appliesTo (object : ModelObjectRef) (rule : Rule) : Bool :=
  !rule.test.isUnsupported && object.types.any fun family => rule.objectType = .family family

/-- The pairs of a visited object and a rule that is checked on it. -/
def applicablePairs (rules : List Rule) (objects : List ModelObjectRef) :
    List (ModelObjectRef × Rule) :=
  objects.flatMap fun object => (rules.filter (appliesTo object)).map fun rule => (object, rule)

/-- A listed object has no type twice. -/
theorem types_nodup {object : ModelObjectRef} (h : object.Listed) : object.types.Nodup := by
  cases object with
  | operator place fact =>
    show (Family.operator :: if fact.isUnknown then [.undefinedOperator, .object] else [.object]).Nodup
    split <;> decide
  | accessibility graph kind =>
    cases kind <;> simp [ModelObjectRef.types, ModelObjectRef.objectType, ModelObjectRef.superTypes,
      AccessibilityModelKind.objectType]
  | generic model =>
    have hne : model.family ≠ .object := by
      intro hfamily
      have hobject : Family.object ∈ genericFamilies := hfamily ▸ h
      revert hobject
      decide
    show [model.family, .object].Nodup
    simp [hne]
  | _ => simp [ModelObjectRef.types, ModelObjectRef.objectType, ModelObjectRef.superTypes]

/-- Two disjoint filters together are the filter by either. -/
theorem filter_append_perm_or {α : Type} {p q : α → Bool} (hdisjoint : ∀ a, p a = true → q a = false)
    (l : List α) : (l.filter p ++ l.filter q).Perm (l.filter fun a => p a || q a) := by
  induction l with
  | nil => exact .nil
  | cons a l ih =>
    by_cases hp : p a = true
    · rw [List.filter_cons_of_pos hp, List.filter_cons_of_neg (by simp [hdisjoint a hp]),
        List.filter_cons_of_pos (by simp [hp]), List.cons_append]
      exact ih.cons a
    · by_cases hq : q a = true
      · rw [List.filter_cons_of_neg hp, List.filter_cons_of_pos hq,
          List.filter_cons_of_pos (by simp [hq])]
        exact List.perm_middle.trans (ih.cons a)
      · rw [List.filter_cons_of_neg hp, List.filter_cons_of_neg hq,
          List.filter_cons_of_neg (by simp [hp, hq])]
        exact ih

/-- Grouping the rules by type and reading the groups of different types gives each rule once. -/
theorem flatMap_filter_perm (rules : List Rule) {types : List Family} (h : types.Nodup) :
    (types.flatMap fun family => rules.filter fun rule => rule.objectType = .family family).Perm
      (rules.filter fun rule => types.any fun family => rule.objectType = .family family) := by
  induction types with
  | nil =>
    rw [List.flatMap_nil]
    simp
  | cons family types ih =>
    obtain ⟨hnot, htypes⟩ := List.nodup_cons.mp h
    rw [List.flatMap_cons]
    refine ((ih htypes).append_left _).trans ?_
    refine (filter_append_perm_or ?_ rules).trans (.of_eq ?_)
    · intro rule hrule
      rw [List.any_eq_false]
      intro other hother heq
      have h1 := of_decide_eq_true hrule
      have h2 := of_decide_eq_true heq
      rw [h1] at h2
      cases h2
      exact hnot hother
    · rfl

theorem objectPairs_perm (rules : List Rule) {object : ModelObjectRef} (h : object.Listed) :
    (objectPairs rules false object ++ objectPairs rules true object).Perm
      ((rules.filter (appliesTo object)).map fun rule => (object, rule)) := by
  unfold objectPairs
  rw [← List.map_append]
  apply List.Perm.map
  refine (filter_append_perm_or ?_ _).trans ?_
  · intro rule hrule
    cases hd : rule.deferred with
    | true => simp [hd] at hrule
    | false => simp
  · have hboth : (fun rule : Rule => (!rule.test.isUnsupported && rule.deferred == false
        || !rule.test.isUnsupported && rule.deferred == true))
        = fun rule => !rule.test.isUnsupported := by
      funext rule
      cases rule.deferred <;> simp
    have happlies : rules.filter (appliesTo object)
        = (rules.filter fun rule => object.types.any fun family =>
            rule.objectType = .family family).filter fun rule => !rule.test.isUnsupported := by
      rw [List.filter_filter]
      rfl
    rw [hboth, happlies]
    exact (flatMap_filter_perm rules (types_nodup h)).filter _

/-- The visited objects are those of the walk, which ended with no node left. -/
theorem visitedObjects_ok {graph : ModelGraph} {objects : List ModelObjectRef}
    (h : graph.visitedObjects = .ok objects) :
    (graph.walk.visit graph.limits.maxObjects walkRoots).result = objects
      ∧ (graph.walk.visit graph.limits.maxObjects walkRoots).ending = .finished := by
  unfold ModelGraph.visitedObjects at h
  split at h
  · rename_i hvisit
    cases h
    rw [hvisit]
    exact ⟨rfl, rfl⟩
  · cases h
  · cases h

/-- No object is visited twice. -/
theorem visitedObjects_nodup {graph : ModelGraph} {objects : List ModelObjectRef}
    (h : graph.visitedObjects = .ok objects) : (objects.map ModelObjectRef.identityKey).Nodup := by
  rw [← (visitedObjects_ok h).1]
  exact (Walk.Graph.visit_nodup (g := graph.walk) walkRoots).1

/-- Every visited object is sourced. -/
theorem visitedObjects_sourced {graph : ModelGraph} {objects : List ModelObjectRef}
    (h : graph.visitedObjects = .ok objects) : ∀ o ∈ objects, o.Sourced graph := by
  have hall : ∀ o ∈ (graph.walk.visit graph.limits.maxObjects walkRoots).result,
      o.Sourced graph := by
    refine Walk.Graph.visit_forall
      (fun _ _ _ hnode hlinked => linkedObjects_sourced hnode hlinked) ?_
    intro o ho
    cases List.mem_singleton.mp ho
    trivial
  rwa [(visitedObjects_ok h).1] at hall

/-- Every visited object is listed. -/
theorem visitedObjects_listed {graph : ModelGraph} {objects : List ModelObjectRef}
    (h : graph.visitedObjects = .ok objects) : ∀ o ∈ objects, o.Listed :=
  fun o ho => (visitedObjects_sourced h o ho).listed

/-- The checks of a run are one for each visited object and each rule that applies to it. -/
theorem plannedPairs_perm (rules : List Rule) {objects : List ModelObjectRef}
    (h : ∀ o ∈ objects, o.Listed) :
    (plannedPairs rules objects).Perm (applicablePairs rules objects) := by
  refine (List.flatMap_append_perm objects _ _).trans ?_
  exact List.Perm.flatMap_left objects fun o ho => objectPairs_perm rules (h o ho)

theorem objectPairs_deferred {rules : List Rule} {deferred : Bool} {objects : List ModelObjectRef}
    {pair : ModelObjectRef × Rule} (h : pair ∈ objects.flatMap (objectPairs rules deferred)) :
    pair.2.deferred = deferred := by
  obtain ⟨object, -, h⟩ := List.mem_flatMap.mp h
  obtain ⟨rule, hrule, rfl⟩ := List.mem_map.mp h
  have hkept := (List.mem_filter.mp hrule).2
  simp only [Bool.and_eq_true, beq_iff_eq] at hkept
  exact hkept.2

theorem checkOf_pair {services : ModelServices} {graph : ModelGraph}
    {pair : ModelObjectRef × Rule} {c : Check} (h : checkOf services graph pair = .ok c) :
    c.pair = pair := by
  unfold checkOf at h
  split at h
  · cases h
    rfl
  · cases h
    rfl
  · cases h
    rfl
  · cases h

/-! ### The run makes these checks -/

section Run

variable {services : ModelServices} {graph : ModelGraph}

/-- The rules at one object: the checks that are made at once change the state, the others are
appended. -/
theorem foldlM_visitRule (object : ModelObjectRef) (rules : List Rule) (s : SessionState) :
    rules.foldlM (visitRule services graph object) s
      = (do
        let state ← ((rules.filter fun rule =>
            !rule.test.isUnsupported && rule.deferred == false).map fun rule => (object, rule)).foldlM
          (ProfileState.applyRule services graph) s.1
        return (state, s.2 ++ (rules.filter fun rule =>
          !rule.test.isUnsupported && rule.deferred == true).map fun rule => (object, rule))) := by
  induction rules generalizing s with
  | nil =>
    simp only [List.foldlM_nil, List.filter_nil, List.map_nil, List.append_nil, pure_bind]
  | cons rule rules ih =>
    rw [List.foldlM_cons]
    unfold visitRule
    by_cases hu : rule.test.isUnsupported = true
    · rw [if_pos hu, List.filter_cons_of_neg (by simp [hu]), List.filter_cons_of_neg (by simp [hu])]
      exact ih s
    · rw [if_neg hu]
      cases hd : rule.deferred with
      | true =>
        rw [List.filter_cons_of_neg (by simp [hd]), List.filter_cons_of_pos (by simp [hu, hd])]
        refine (ih (s.1, s.2 ++ [(object, rule)])).trans ?_
        simp only [List.map_cons, List.append_assoc, List.singleton_append]
      | false =>
        rw [List.filter_cons_of_pos (by simp [hu, hd]), List.filter_cons_of_neg (by simp [hd]),
          List.map_cons, List.foldlM_cons]
        simp only [Bool.false_eq_true, if_false, bind_assoc, pure_bind]
        congr 1
        funext state
        exact ih (state, s.2)

theorem foldlM_visitObject (rules : List Rule) (objects : List ModelObjectRef) (s : SessionState) :
    objects.foldlM (visitObject services graph rules) s
      = (do
        let state ← (objects.flatMap (objectPairs rules false)).foldlM
          (ProfileState.applyRule services graph) s.1
        return (state, s.2 ++ objects.flatMap (objectPairs rules true))) := by
  induction objects generalizing s with
  | nil =>
    simp only [List.foldlM_nil, List.flatMap_nil, List.append_nil, pure_bind]
  | cons object objects ih =>
    rw [List.foldlM_cons, List.flatMap_cons, List.flatMap_cons, List.foldlM_append]
    unfold visitObject
    rw [foldlM_visitRule]
    simp only [bind_assoc, pure_bind]
    congr 1
    funext state
    refine (ih _).trans ?_
    simp only [List.append_assoc]
    rfl

/-- A run visits the objects of the walk and makes the planned checks, one after the other. -/
theorem runProfile_ok {rules : List Rule} {start state : ProfileState}
    (h : runProfile services graph rules start = .ok state) :
    ∃ objects, graph.visitedObjects = .ok objects
      ∧ (plannedPairs rules objects).foldlM (ProfileState.applyRule services graph) start
        = .ok state := by
  have hrun := @Walk.Graph.run_eq_foldlM _ _ _ _ _ graph.walk graph.limits.maxObjects
    (visitObject services graph rules) walkRoots (start, [])
  unfold runProfile at h
  unfold ModelGraph.visitedObjects
  cases hvisit : graph.walk.visit graph.limits.maxObjects walkRoots with
  | mk objects count ending =>
    rw [hvisit] at hrun
    rw [foldlM_visitObject] at hrun
    cases hfold : (objects.flatMap (objectPairs rules false)).foldlM
        (ProfileState.applyRule services graph) start with
    | error e =>
      rw [hfold] at hrun
      have hend : (graph.walk.run graph.limits.maxObjects (visitObject services graph rules)
        walkRoots (start, [])).ending = .failed e := hrun
      split at h
      · rename_i heq
        rw [heq] at hend
        cases hend
      · cases h
      · cases h
    | ok mid =>
      rw [hfold] at hrun
      have heq : graph.walk.run graph.limits.maxObjects (visitObject services graph rules)
        walkRoots (start, []) = ⟨(mid, objects.flatMap (objectPairs rules true)), count, ending⟩ := hrun
      rw [heq] at h
      cases ending with
      | finished =>
        refine ⟨objects, rfl, ?_⟩
        unfold plannedPairs
        rw [List.foldlM_append, hfold]
        exact h
      | stopped e => cases h
      | failed e => cases h

end Run

/-! ## Retained assertions -/

/-- `max_failed_assertions_per_rule`: a `NonZeroU32`. -/
structure FailureCap where
  value : Nat
  pos : 0 < value
  lt : value < u32Size

section Retained

variable (cap : Nat) (recordPassed : Bool)

/-- Whether a check is kept as an assertion, after the checks `before`. -/
def keepsCheck (before : List Check) (c : Check) : Bool :=
  match c.outcome with
  | .passed => recordPassed
  | .failed => before.countP (fun d => d.failsRule c.rule.id) < cap
  | .unsupported _ => false

/-- The checks kept as assertions, after the checks `before`. -/
def keptAfter (before : List Check) : List Check → List Check
  | [] => []
  | c :: rest =>
    if keepsCheck cap recordPassed before c then c :: keptAfter (before ++ [c]) rest
    else keptAfter (before ++ [c]) rest

/-- The checks of a run that are kept as assertions. -/
def keptChecks (checks : List Check) : List Check :=
  keptAfter cap recordPassed [] checks

/-- The assertions of checks, numbered from `ordinal` on. -/
def numberedFrom : Nat → List Check → List Assertion
  | _, [] => []
  | ordinal, c :: rest => c.assertion ordinal :: numberedFrom (ordinal + 1) rest

theorem keptAfter_snoc (before checks : List Check) (c : Check) :
    keptAfter cap recordPassed before (checks ++ [c])
      = keptAfter cap recordPassed before checks
        ++ if keepsCheck cap recordPassed (before ++ checks) c then [c] else [] := by
  induction checks generalizing before with
  | nil =>
    simp only [List.nil_append, keptAfter, List.append_nil]
  | cons d checks ih =>
    simp only [List.cons_append, keptAfter, ih, List.append_assoc, List.nil_append]
    split
    · rw [List.cons_append]
    · rfl

theorem keptChecks_snoc (checks : List Check) (c : Check) :
    keptChecks cap recordPassed (checks ++ [c])
      = keptChecks cap recordPassed checks
        ++ if keepsCheck cap recordPassed checks c then [c] else [] :=
  keptAfter_snoc cap recordPassed [] checks c

theorem keptAfter_sublist (before checks : List Check) :
    (keptAfter cap recordPassed before checks).Sublist checks := by
  induction checks generalizing before with
  | nil => exact .slnil
  | cons c checks ih =>
    unfold keptAfter
    split
    · exact (ih _).cons_cons c
    · exact (ih _).cons c

/-- A kept check passed or failed. -/
theorem keptAfter_supported (before checks : List Check) :
    ∀ c ∈ keptAfter cap recordPassed before checks, c.isUnsupported = false := by
  induction checks generalizing before with
  | nil => exact forall_nil
  | cons c checks ih =>
    unfold keptAfter
    split
    · rename_i hkeep
      intro d hd
      rcases List.mem_cons.mp hd with rfl | hd
      · unfold keepsCheck at hkeep
        unfold Check.isUnsupported Check.isPassed Check.isFailed
        split at hkeep
        · rename_i ho
          simp [ho]
        · rename_i ho
          simp [ho]
        · cases hkeep
      · exact ih _ d hd
    · exact ih _

end Retained

theorem numberedFrom_append (ordinal : Nat) (checks more : List Check) :
    numberedFrom ordinal (checks ++ more)
      = numberedFrom ordinal checks ++ numberedFrom (ordinal + checks.length) more := by
  induction checks generalizing ordinal with
  | nil => rfl
  | cons c checks ih =>
    simp only [List.cons_append, numberedFrom, ih, List.length_cons]
    rw [Nat.add_assoc, Nat.add_comm 1]

/-- Filtering numbered assertions reports the filtered checks. -/
theorem filter_numberedFrom {p : Assertion → Bool} {q : Check → Bool} {checks : List Check}
    (h : ∀ c ∈ checks, ∀ ordinal, p (c.assertion ordinal) = q c) (ordinal : Nat) :
    List.Forall₂ Check.ReportedAs (checks.filter q) ((numberedFrom ordinal checks).filter p) := by
  induction checks generalizing ordinal with
  | nil => exact .nil
  | cons c checks ih =>
    have hrest := ih (fun d hd => h d (List.mem_cons_of_mem c hd)) (ordinal + 1)
    have hc := h c List.mem_cons_self ordinal
    unfold numberedFrom
    by_cases hq : q c = true
    · rw [List.filter_cons_of_pos hq, List.filter_cons_of_pos (by rw [hc, hq])]
      exact .cons rfl hrest
    · rw [List.filter_cons_of_neg hq, List.filter_cons_of_neg (by rw [hc]; exact hq)]
      exact hrest

/-- The kept failures of a rule are its first ones, up to the cap. -/
theorem keptChecks_failsRule (cap : Nat) (recordPassed : Bool) (id : Identifier)
    (checks : List Check) :
    (keptChecks cap recordPassed checks).filter (fun c => c.failsRule id)
      = (checks.filter (fun c => c.failsRule id)).take cap := by
  induction checks using List.reverseRecOn with
  | nil =>
    rw [List.filter_nil, List.take_nil]
    rfl
  | append_singleton checks c ih =>
    rw [keptChecks_snoc, List.filter_append, List.filter_append, ih]
    by_cases hc : c.failsRule id = true
    · have hpos : [c].filter (fun c => c.failsRule id) = [c] := by
        simp [hc]
      obtain ⟨hfailed, hid⟩ := Bool.and_eq_true_iff.mp hc
      have houtcome : c.outcome = .failed := of_decide_eq_true hfailed
      have hrule : c.rule.id = id := of_decide_eq_true hid
      have hkeep : keepsCheck cap recordPassed checks c
          = decide ((checks.filter (fun c => c.failsRule id)).length < cap) := by
        unfold keepsCheck
        rw [houtcome, hrule, List.countP_eq_length_filter]
      rw [hkeep, hpos]
      by_cases hlt : (checks.filter (fun c => c.failsRule id)).length < cap
      · rw [if_pos (decide_eq_true hlt), hpos, List.take_of_length_le (by omega),
          List.take_of_length_le (by rw [List.length_append, List.length_singleton]; omega)]
      · rw [if_neg (by simpa using hlt), List.filter_nil, List.append_nil,
          List.take_append_of_le_length (by omega)]
    · have hneg : [c].filter (fun c => c.failsRule id) = [] := by
        simp [hc]
      have hrest : (if keepsCheck cap recordPassed checks c then [c] else []).filter
          (fun c => c.failsRule id) = [] := by
        split
        · exact hneg
        · rfl
      rw [hrest, hneg, List.append_nil, List.append_nil]

/-- The kept passes are all of them, or none. -/
theorem keptChecks_isPassed (cap : Nat) (recordPassed : Bool) (checks : List Check) :
    (keptChecks cap recordPassed checks).filter Check.isPassed
      = if recordPassed then checks.filter Check.isPassed else [] := by
  induction checks using List.reverseRecOn with
  | nil =>
    rw [List.filter_nil, ite_self]
    rfl
  | append_singleton checks c ih =>
    rw [keptChecks_snoc, List.filter_append, List.filter_append, ih]
    by_cases hc : c.isPassed = true
    · have houtcome : c.outcome = .passed := of_decide_eq_true hc
      have hkeep : keepsCheck cap recordPassed checks c = recordPassed := by
        unfold keepsCheck
        rw [houtcome]
      rw [hkeep, List.filter_cons_of_pos hc]
      cases recordPassed with
      | true => simp [hc]
      | false => rfl
    · have hrest : (if keepsCheck cap recordPassed checks c then [c] else []).filter
          Check.isPassed = [] := by
        split
        · rw [List.filter_cons_of_neg hc, List.filter_nil]
        · rfl
      rw [hrest, List.filter_cons_of_neg hc, List.filter_nil, List.append_nil, List.append_nil]

/-! ## The profile state after some checks -/

/-- The state after a check with its outcome. -/
def ProfileState.recordCounted (services : ModelServices) (s : ProfileState) (c : Check) :
    Except PdfvError ProfileState :=
  let s := { s with rulesExecuted := s.rulesExecuted + 1, checksExecuted := s.checksExecuted + 1 }
  match c.outcome with
  | .passed => s.recordPass c.object c.rule
  | .failed => s.recordFailure c.object c.rule
  | .unsupported error => s.recordUnsupported services.debugExpr c.rule error

/-- The report on a check that ended unsupported. -/
structure UnsupportedAs (services : ModelServices) (profile : ProfileIdentity) (c : Check)
    (u : UnsupportedRule) : Prop where
  profileId : u.profileId = profile.id
  ruleId : u.ruleId = c.rule.id
  fragment : u.expressionFragment = some ⟨services.debugExpr c.rule.test⟩
  reason : ∃ error, c.outcome = .unsupported error ∧ BoundedText.new error.display 512 = .ok u.reason
  references : u.references = c.rule.references

/-- The assertions of one status after some checks. -/
def keptAssertions (cap : Nat) (recordPassed : Bool) (status : AssertionStatus)
    (checks : List Check) : List Assertion :=
  (numberedFrom 1 (keptChecks cap recordPassed checks)).filter fun a => a.status = status

/-- The assertion lists and the next ordinal are the ones after these checks. -/
structure AssertionsKept (cap : Nat) (recordPassed : Bool) (checks : List Check)
    (failed passed : List Assertion) (ordinal : Nat) : Prop where
  failed : failed = keptAssertions cap recordPassed .failed checks
  passed : passed = keptAssertions cap recordPassed .passed checks
  ordinal : ordinal = (keptChecks cap recordPassed checks).length + 1

/-- The state is the one after these checks: it started as `start`, and each check was counted and
kept as the outcome says. -/
structure Accounted (services : ModelServices) (start : ProfileState) (checks : List Check)
    (s : ProfileState) : Prop where
  profile : s.profile = start.profile
  cap : s.maxFailedAssertionsPerRule = start.maxFailedAssertionsPerRule
  recordPassed : s.recordPassedAssertions = start.recordPassedAssertions
  rulesExecuted : s.rulesExecuted = checks.length
  checksExecuted : s.checksExecuted = checks.length
  failedRules : s.failedRules = checks.countP Check.isFailed
  assertions : AssertionsKept start.maxFailedAssertionsPerRule start.recordPassedAssertions checks
    s.failedAssertions s.passedAssertions s.nextOrdinal
  retained : ∀ id, s.retainedFailuresByRule id
    = min start.maxFailedAssertionsPerRule (checks.countP fun c => c.failsRule id)
  unsupported : ∃ reports, s.unsupportedRules = start.unsupportedRules ++ reports
    ∧ List.Forall₂ (UnsupportedAs services start.profile) (checks.filter Check.isUnsupported) reports

theorem u64Size_pos : 0 < u64Size := by
  decide

/-- Before any check. -/
theorem Accounted.start (services : ModelServices) (profile : ProfileIdentity) (cap : Nat)
    (recordPassed : Bool) (rules : List Rule) :
    Accounted services
      ((ProfileState.new profile cap recordPassed).registerStaticUnsupportedRules rules) []
      ((ProfileState.new profile cap recordPassed).registerStaticUnsupportedRules rules) where
  profile := rfl
  cap := rfl
  recordPassed := rfl
  rulesExecuted := rfl
  checksExecuted := rfl
  failedRules := rfl
  assertions := ⟨rfl, rfl, rfl⟩
  retained := fun _ => (Nat.min_zero _).symm
  unsupported := ⟨[], (List.append_nil _).symm, .nil⟩

section Kept

variable {cap : Nat} {recordPassed : Bool} {checks : List Check} {c : Check}
  {failed passed : List Assertion} {ordinal : Nat}

theorem keptAssertions_snoc (hkeep : keepsCheck cap recordPassed checks c = true)
    (status : AssertionStatus) :
    keptAssertions cap recordPassed status (checks ++ [c])
      = keptAssertions cap recordPassed status checks
        ++ if c.status = status then
            [c.assertion ((keptChecks cap recordPassed checks).length + 1)] else [] := by
  unfold keptAssertions
  rw [keptChecks_snoc, if_pos hkeep, numberedFrom_append, List.filter_append, Nat.add_comm 1]
  congr 1
  by_cases hstatus : c.status = status
  · rw [if_pos hstatus]
    exact List.filter_cons_of_pos (decide_eq_true hstatus)
  · rw [if_neg hstatus]
    exact List.filter_cons_of_neg fun h => hstatus (of_decide_eq_true h)

/-- A check that is not kept leaves the lists as they are. -/
theorem AssertionsKept.dropped (h : AssertionsKept cap recordPassed checks failed passed ordinal)
    (hkeep : keepsCheck cap recordPassed checks c = false) :
    AssertionsKept cap recordPassed (checks ++ [c]) failed passed ordinal := by
  have hsame : keptChecks cap recordPassed (checks ++ [c]) = keptChecks cap recordPassed checks := by
    rw [keptChecks_snoc, hkeep, if_neg Bool.false_ne_true, List.append_nil]
  refine ⟨?_, ?_, ?_⟩
  · unfold keptAssertions
    rw [hsame]
    exact h.failed
  · unfold keptAssertions
    rw [hsame]
    exact h.passed
  · rw [hsame]
    exact h.ordinal

/-- A check that is kept takes the next ordinal and goes to the list of its status. -/
theorem AssertionsKept.kept (h : AssertionsKept cap recordPassed checks failed passed ordinal)
    (hkeep : keepsCheck cap recordPassed checks c = true) :
    AssertionsKept cap recordPassed (checks ++ [c])
      (failed ++ if c.status = .failed then [c.assertion ordinal] else [])
      (passed ++ if c.status = .passed then [c.assertion ordinal] else []) (ordinal + 1) := by
  refine ⟨?_, ?_, ?_⟩
  · rw [keptAssertions_snoc hkeep, ← h.ordinal, ← h.failed]
  · rw [keptAssertions_snoc hkeep, ← h.ordinal, ← h.passed]
  · rw [keptChecks_snoc, if_pos hkeep, List.length_append, h.ordinal]
    rfl

end Kept

/-! ### One check -/

/-- What `apply_rule` does: the evaluation is counted, then its outcome is recorded. -/
theorem applyRule_ok {services : ModelServices} {graph : ModelGraph} {s s' : ProfileState}
    {pair : ModelObjectRef × Rule} (h : s.applyRule services graph pair = .ok s') :
    s.rulesExecuted + 1 < u64Size ∧ ∃ c, checkOf services graph pair = .ok c ∧ c.pair = pair
      ∧ s.recordCounted services c = .ok s' := by
  unfold ProfileState.applyRule at h
  obtain ⟨_, hroom, h⟩ := bind_eq_ok.mp h
  obtain ⟨_, -, h⟩ := bind_eq_ok.mp h
  refine ⟨not_le.mp (failIf_eq_ok.mp hroom), ?_⟩
  unfold checkOf
  cases heval : evaluateRule services graph pair.1 pair.2 with
  | ok outcome =>
    rw [heval] at h
    cases outcome with
    | passed => exact ⟨_, rfl, rfl, h⟩
    | failed => exact ⟨_, rfl, rfl, h⟩
  | error e =>
    rw [heval] at h
    cases e with
    | profile error => exact ⟨_, rfl, rfl, h⟩
    | io path source => cases h
    | parse error => cases h
    | validation error => cases h
    | policy error => cases h
    | repair error => cases h
    | report error => cases h
    | configuration error => cases h

section Step

variable {services : ModelServices} {start s s' : ProfileState} {checks : List Check} {c : Check}

/-- What an assertion takes: the next ordinal. -/
theorem assertion_ok {object : ModelObjectRef} {rule : Rule} {status : AssertionStatus}
    {result : Assertion × ProfileState} (h : s.assertion object rule status = .ok result) :
    result = (ProfileState.assertionOf object rule status s.nextOrdinal,
      { s with nextOrdinal := s.nextOrdinal + 1 }) := by
  unfold ProfileState.assertion at h
  obtain ⟨_, -, h⟩ := bind_eq_ok.mp h
  exact (pure_eq_ok.mp h).symm

/-- What holds of the state whatever the outcome of the next check is: the counters of checks. -/
theorem countP_snoc (p : Check → Bool) (checks : List Check) (c : Check) :
    (checks ++ [c]).countP p = checks.countP p + if p c then 1 else 0 := by
  rw [List.countP_append, List.countP_singleton]

theorem filter_isUnsupported_snoc (checks : List Check) (hc : c.isUnsupported = false) :
    (checks ++ [c]).filter Check.isUnsupported = checks.filter Check.isUnsupported := by
  rw [List.filter_append, List.filter_cons_of_neg (by simp [hc]), List.filter_nil, List.append_nil]

/-- The failures of a rule do not change with a check that did not fail. -/
theorem countP_failsRule_snoc (hc : c.isFailed = false) (id : Identifier) :
    (checks ++ [c]).countP (fun c => c.failsRule id) = checks.countP fun c => c.failsRule id := by
  rw [countP_snoc]
  simp [Check.failsRule, hc]

/-- The step at a check that passed. -/
theorem Accounted.recordPass (h : Accounted services start checks s) (hc : c.outcome = .passed)
    (hs : s.recordCounted services c = .ok s') : Accounted services start (checks ++ [c]) s' := by
  have hfailed : c.isFailed = false := by simp [Check.isFailed, hc]
  have hpassed : c.status = .passed := by simp [Check.status, Check.isPassed, hc]
  have hsupported : c.isUnsupported = false := by simp [Check.isUnsupported, Check.isPassed, hc]
  have hkeep : keepsCheck start.maxFailedAssertionsPerRule start.recordPassedAssertions checks c
      = start.recordPassedAssertions := by
    unfold keepsCheck
    rw [hc]
  have hcount : (checks ++ [c]).countP Check.isFailed = checks.countP Check.isFailed := by
    rw [countP_snoc, hfailed]
    rfl
  have hretained : ∀ id, s.retainedFailuresByRule id = min start.maxFailedAssertionsPerRule
      ((checks ++ [c]).countP fun c => c.failsRule id) := by
    intro id
    rw [countP_failsRule_snoc hfailed]
    exact h.retained id
  have hunsupported := filter_isUnsupported_snoc checks hsupported ▸ h.unsupported
  unfold ProfileState.recordCounted at hs
  rw [hc] at hs
  dsimp only at hs
  unfold ProfileState.recordPass at hs
  by_cases hflag : start.recordPassedAssertions = true
  · rw [if_pos (h.recordPassed.trans hflag)] at hs
    obtain ⟨_, hassertion, hs⟩ := bind_eq_ok.mp hs
    cases assertion_ok hassertion
    cases pure_eq_ok.mp hs
    have hkept := h.assertions.kept (hkeep.trans hflag)
    rw [if_neg (by rw [hpassed]; decide), if_pos hpassed, List.append_nil] at hkept
    refine ⟨h.profile, h.cap, h.recordPassed, ?_, ?_, h.failedRules.trans hcount.symm, ?_,
      hretained, hunsupported⟩
    · simp [h.rulesExecuted]
    · simp [h.checksExecuted]
    · unfold Check.assertion at hkept
      rw [hpassed] at hkept
      exact hkept
  · rw [if_neg (by rw [h.recordPassed]; exact hflag)] at hs
    cases hs
    have hoff : start.recordPassedAssertions = false := by simpa using hflag
    refine ⟨h.profile, h.cap, h.recordPassed, ?_, ?_, h.failedRules.trans hcount.symm,
      h.assertions.dropped (hkeep.trans hoff), hretained, hunsupported⟩
    · simp [h.rulesExecuted]
    · simp [h.checksExecuted]

/-- One more retained failure below the cap. -/
theorem min_succ_cap {cap count bound : Nat} (hcap : cap < bound) (hlt : count < cap) :
    min (min cap count + 1) (bound - 1) = min cap (count + 1) := by
  omega

/-- The step at a check that failed. -/
theorem Accounted.recordFailure (h : Accounted services start checks s)
    (hcap : start.maxFailedAssertionsPerRule < u32Size) (hc : c.outcome = .failed)
    (hs : s.recordCounted services c = .ok s') : Accounted services start (checks ++ [c]) s' := by
  have hfailed : c.isFailed = true := by simp [Check.isFailed, hc]
  have hstatus : c.status = .failed := by simp [Check.status, Check.isPassed, hc]
  have hsupported : c.isUnsupported = false := by simp [Check.isUnsupported, hfailed]
  have hkeep : keepsCheck start.maxFailedAssertionsPerRule start.recordPassedAssertions checks c
      = decide ((checks.countP fun d => d.failsRule c.rule.id)
        < start.maxFailedAssertionsPerRule) := by
    unfold keepsCheck
    rw [hc]
  have hcount : (checks ++ [c]).countP Check.isFailed = checks.countP Check.isFailed + 1 := by
    rw [countP_snoc, if_pos hfailed]
  have hown : (checks ++ [c]).countP (fun d => d.failsRule c.rule.id)
      = (checks.countP fun d => d.failsRule c.rule.id) + 1 := by
    rw [countP_snoc, if_pos (by simp [Check.failsRule, hfailed])]
  have hother : ∀ id, id ≠ c.rule.id → (checks ++ [c]).countP (fun d => d.failsRule id)
      = checks.countP fun d => d.failsRule id := by
    intro id hid
    rw [countP_snoc, if_neg (by simp [Check.failsRule, hid.symm])]
    rfl
  have hunsupported := filter_isUnsupported_snoc checks hsupported ▸ h.unsupported
  have hretained := h.retained c.rule.id
  unfold ProfileState.recordCounted at hs
  rw [hc] at hs
  dsimp only at hs
  unfold ProfileState.recordFailure at hs
  obtain ⟨_, -, hs⟩ := bind_eq_ok.mp hs
  by_cases hlt : (checks.countP fun d => d.failsRule c.rule.id) < start.maxFailedAssertionsPerRule
  · have hroom : s.retainedFailuresByRule c.rule.id < s.maxFailedAssertionsPerRule := by
      rw [hretained, h.cap]
      omega
    rw [if_pos hroom] at hs
    obtain ⟨_, hassertion, hs⟩ := bind_eq_ok.mp hs
    cases assertion_ok hassertion
    cases pure_eq_ok.mp hs
    have hkept := h.assertions.kept (hkeep.trans (decide_eq_true hlt))
    rw [if_pos hstatus, if_neg (by rw [hstatus]; decide), List.append_nil] at hkept
    refine ⟨h.profile, h.cap, h.recordPassed, ?_, ?_, ?_, ?_, ?_, hunsupported⟩
    · simp [h.rulesExecuted]
    · simp [h.checksExecuted]
    · simp [hcount, h.failedRules]
    · unfold Check.assertion at hkept
      rw [hstatus] at hkept
      exact hkept
    · intro id
      by_cases hid : id = c.rule.id
      · rw [hid, hown]
        dsimp only
        rw [if_pos rfl, hretained]
        exact min_succ_cap hcap hlt
      · rw [hother id hid]
        dsimp only
        rw [if_neg hid]
        exact h.retained id
  · have hfull : ¬ s.retainedFailuresByRule c.rule.id < s.maxFailedAssertionsPerRule := by
      rw [hretained, h.cap]
      omega
    rw [if_neg hfull] at hs
    cases pure_eq_ok.mp hs
    refine ⟨h.profile, h.cap, h.recordPassed, ?_, ?_, ?_,
      h.assertions.dropped (hkeep.trans (decide_eq_false hlt)), ?_, hunsupported⟩
    · simp [h.rulesExecuted]
    · simp [h.checksExecuted]
    · simp [hcount, h.failedRules]
    · intro id
      by_cases hid : id = c.rule.id
      · rw [hid, hown]
        show s.retainedFailuresByRule c.rule.id = _
        omega
      · rw [hother id hid]
        exact h.retained id

/-- The step at a check that ended unsupported. -/
theorem Accounted.recordUnsupported {error : ProfileError} (h : Accounted services start checks s)
    (hc : c.outcome = .unsupported error) (hs : s.recordCounted services c = .ok s') :
    Accounted services start (checks ++ [c]) s' := by
  have hfailed : c.isFailed = false := by simp [Check.isFailed, hc]
  have hunsupported : c.isUnsupported = true := by
    simp [Check.isUnsupported, Check.isPassed, hfailed, hc]
  have hkeep : keepsCheck start.maxFailedAssertionsPerRule start.recordPassedAssertions checks c
      = false := by
    unfold keepsCheck
    rw [hc]
  obtain ⟨reports, heq, hreports⟩ := h.unsupported
  unfold ProfileState.recordCounted at hs
  rw [hc] at hs
  dsimp only at hs
  unfold ProfileState.recordUnsupported at hs
  obtain ⟨reason, hreason, hs⟩ := bind_eq_ok.mp hs
  cases pure_eq_ok.mp hs
  refine ⟨h.profile, h.cap, h.recordPassed, ?_, ?_, ?_, h.assertions.dropped hkeep, ?_, ?_⟩
  · simp [h.rulesExecuted]
  · simp [h.checksExecuted]
  · rw [countP_snoc, hfailed]
    exact h.failedRules
  · intro id
    rw [countP_failsRule_snoc hfailed]
    exact h.retained id
  · refine ⟨reports ++ [⟨s.profile.id, c.rule.id, some ⟨services.debugExpr c.rule.test⟩, reason,
      c.rule.references⟩], ?_, ?_⟩
    · dsimp only
      rw [heq, List.append_assoc]
    · rw [List.filter_append, List.filter_cons_of_pos hunsupported, List.filter_nil]
      refine List.rel_append hreports (.cons ⟨?_, rfl, rfl, ⟨error, hc, hreason⟩, rfl⟩ .nil)
      rw [← h.profile]

/-- One step: the next check is counted and recorded. -/
theorem Accounted.step (h : Accounted services start checks s)
    (hcap : start.maxFailedAssertionsPerRule < u32Size)
    (hs : s.recordCounted services c = .ok s') : Accounted services start (checks ++ [c]) s' := by
  cases hc : c.outcome with
  | passed => exact h.recordPass hc hs
  | failed => exact h.recordFailure hcap hc hs
  | unsupported error => exact h.recordUnsupported hc hs

/-- A run of checks: each has its outcome, and the state is the one after all of them. -/
theorem Accounted.run {graph : ModelGraph} {pairs : List (ModelObjectRef × Rule)}
    (h : Accounted services start checks s) (hcap : start.maxFailedAssertionsPerRule < u32Size)
    (hfits : checks.length < u64Size)
    (hs : pairs.foldlM (ProfileState.applyRule services graph) s = .ok s') :
    ∃ more, pairs.mapM (checkOf services graph) = .ok more ∧ more.map Check.pair = pairs
      ∧ (checks ++ more).length < u64Size ∧ Accounted services start (checks ++ more) s' := by
  induction pairs generalizing s checks with
  | nil =>
    cases pure_eq_ok.mp hs
    exact ⟨[], rfl, rfl, by rwa [List.append_nil], by rwa [List.append_nil]⟩
  | cons pair pairs ih =>
    rw [List.foldlM_cons] at hs
    obtain ⟨mid, hmid, hs⟩ := bind_eq_ok.mp hs
    obtain ⟨hroom, c, hcheck, hpair, hrecord⟩ := applyRule_ok hmid
    have hnext := h.step hcap hrecord
    have hnextFits : (checks ++ [c]).length < u64Size := by
      rwa [List.length_append, List.length_singleton, ← h.rulesExecuted]
    obtain ⟨more, hmore, hpairs, hlength, haccounted⟩ := ih hnext hnextFits hs
    rw [List.append_assoc, List.singleton_append] at hlength haccounted
    refine ⟨c :: more, ?_, ?_, hlength, haccounted⟩
    · rw [List.mapM_cons, hcheck, ok_bind, hmore]
      rfl
    · rw [List.map_cons, hpair, hpairs]

end Step

/-! ## Reports -/

/-- The graph of a run. -/
def profileGraph (services : ModelServices) (document : ModelDocument) (limits : ResourceLimits)
    (profile : ValidationProfile) : ModelGraph :=
  ModelGraph.forRules services.crates document limits profile.rules profile.flavour

/-- The state of a run before the walk. -/
def profileStart (maxFailed : Nat) (recordPassed : Bool) (profile : ValidationProfile) :
    ProfileState :=
  (ProfileState.new profile.identity maxFailed recordPassed).registerStaticUnsupportedRules
    profile.rules

/-- The rules of a profile whose test is not supported. -/
def staticUnsupported (rules : List Rule) : Nat :=
  rules.countP fun rule => rule.test.isUnsupported

theorem registerStaticUnsupportedRules_length (s : ProfileState) (rules : List Rule) :
    (s.registerStaticUnsupportedRules rules).unsupportedRules.length
      = s.unsupportedRules.length + staticUnsupported rules := by
  unfold ProfileState.registerStaticUnsupportedRules staticUnsupported
  dsimp only
  rw [List.length_append, List.length_filterMap_eq_countP]
  congr 2
  funext rule
  unfold RuleExpr.isUnsupported
  cases rule.test <;> rfl

/-- The evaluations of a run: one for each visited object and each supported rule for a type of the
object, the deferred rules last. -/
structure Evaluations (services : ModelServices) (graph : ModelGraph) (rules : List Rule)
    (checks : List Check) : Prop where
  objects : ∃ objects, graph.visitedObjects = .ok objects
    ∧ (objects.map ModelObjectRef.identityKey).Nodup
    ∧ (checks.map Check.pair).Perm (applicablePairs rules objects)
  deferredLast : ∃ now later, checks = now ++ later ∧ (∀ c ∈ now, c.rule.deferred = false)
    ∧ ∀ c ∈ later, c.rule.deferred = true
  evaluated : ∀ c ∈ checks, checkOf services graph c.pair = .ok c

/-- The evaluations and the state at the end of a run. -/
theorem validateProfile_accounted {services : ModelServices} {document : ModelDocument}
    {limits : ResourceLimits} {maxFailed : Nat} {recordPassed : Bool} {profile : ValidationProfile}
    {report : ProfileReport} (hcap : maxFailed < u32Size)
    (h : validateProfile services document limits maxFailed recordPassed profile = .ok report) :
    ∃ checks state, profileChecks services (profileGraph services document limits profile)
        profile.rules = .ok checks
      ∧ Evaluations services (profileGraph services document limits profile) profile.rules checks
      ∧ checks.length < u64Size
      ∧ Accounted services (profileStart maxFailed recordPassed profile) checks state
      ∧ report = state.finish := by
  unfold validateProfile at h
  obtain ⟨state, hrun, h⟩ := bind_eq_ok.mp h
  obtain ⟨objects, hobjects, hfold⟩ := runProfile_ok hrun
  obtain ⟨checks, hchecks, hpairs, hfits, haccounted⟩ :=
    (Accounted.start services profile.identity maxFailed recordPassed profile.rules).run hcap
      u64Size_pos hfold
  refine ⟨checks, state, ?_, ⟨⟨objects, hobjects, visitedObjects_nodup hobjects, ?_⟩, ?_, ?_⟩,
    hfits, haccounted, (pure_eq_ok.mp h).symm⟩
  · unfold profileChecks
    rw [show (profileGraph services document limits profile).visitedObjects = .ok objects from hobjects,
      ok_bind]
    exact hchecks
  · rw [hpairs]
    exact plannedPairs_perm profile.rules (visitedObjects_listed hobjects)
  · obtain ⟨now, later, hsplit, hnow, hlater⟩ := List.map_eq_append_iff.mp hpairs
    refine ⟨now, later, hsplit, ?_, ?_⟩
    · intro c hc
      exact objectPairs_deferred (hnow ▸ List.mem_map_of_mem hc : c.pair ∈ _)
    · intro c hc
      exact objectPairs_deferred (hlater ▸ List.mem_map_of_mem hc : c.pair ∈ _)
  · intro c hc
    obtain ⟨pair, -, hcheck⟩ := mem_mapM_ok hchecks hc
    rw [checkOf_pair hcheck]
    exact hcheck

/-- The report accounts for each evaluation. -/
structure ExactAccounting (cap : Nat) (recordPassed : Bool) (checks : List Check)
    (report : ProfileReport) : Prop where
  checksExecuted : report.checksExecuted = checks.length
  rulesExecuted : report.rulesExecuted = checks.length
  outcomes : checks.length
    = checks.countP Check.isPassed + checks.countP Check.isFailed + checks.countP Check.isUnsupported
  failedRules : report.failedRules = checks.countP Check.isFailed
  failedStatus : ∀ a ∈ report.failedAssertions, a.status = .failed
  failedAssertions : ∀ id, List.Forall₂ Check.ReportedAs
    ((checks.filter fun c => c.failsRule id).take cap)
    (report.failedAssertions.filter fun a => a.ruleId = id)
  passedAssertions : List.Forall₂ Check.ReportedAs
    (if recordPassed then checks.filter Check.isPassed else []) report.passedAssertions
  ordinals : ∃ kept : List Check, kept.Sublist checks
    ∧ (report.failedAssertions ++ report.passedAssertions).Perm (numberedFrom 1 kept)
  isCompliant : report.isCompliant = true
    ↔ checks.countP Check.isFailed = 0 ∧ report.unsupportedRules = []

/-- The outcomes are three. -/
theorem length_eq_outcomes (checks : List Check) : checks.length
    = checks.countP Check.isPassed + checks.countP Check.isFailed
      + checks.countP Check.isUnsupported := by
  induction checks with
  | nil => rfl
  | cons c checks ih =>
    simp only [List.length_cons, List.countP_cons, ih]
    unfold Check.isUnsupported Check.isPassed Check.isFailed
    cases c.outcome <;> simp <;> omega

theorem numberedFrom_filter_or (ordinal : Nat) (checks : List Check) :
    ((numberedFrom ordinal checks).filter (fun a => a.status = .failed)
      ++ (numberedFrom ordinal checks).filter fun a => a.status = .passed).Perm
      (numberedFrom ordinal checks) := by
  refine (filter_append_perm_or ?_ _).trans (.of_eq ?_)
  · intro a ha
    rw [of_decide_eq_true ha]
    rfl
  · rw [List.filter_eq_self]
    intro a _
    cases a.status <;> rfl

/-- The report of an accounted state is exact. -/
theorem Accounted.exact {services : ModelServices} {start state : ProfileState}
    {checks : List Check} (h : Accounted services start checks state) :
    ExactAccounting start.maxFailedAssertionsPerRule start.recordPassedAssertions checks
      state.finish := by
  have hkept := fun c => keptAfter_supported start.maxFailedAssertionsPerRule
    start.recordPassedAssertions [] checks c
  refine ⟨h.checksExecuted, h.rulesExecuted, length_eq_outcomes checks, h.failedRules, ?_, ?_, ?_,
    ⟨keptChecks start.maxFailedAssertionsPerRule start.recordPassedAssertions checks,
      keptAfter_sublist _ _ [] checks, ?_⟩, ?_⟩
  · intro a ha
    have ha : a ∈ state.failedAssertions := ha
    rw [h.assertions.failed] at ha
    exact of_decide_eq_true (List.mem_filter.mp ha).2
  · intro id
    have hfilter : (state.finish.failedAssertions.filter fun a => a.ruleId = id)
        = (numberedFrom 1 (keptChecks start.maxFailedAssertionsPerRule
            start.recordPassedAssertions checks)).filter fun a =>
              decide (a.ruleId = id) && decide (a.status = .failed) := by
      show state.failedAssertions.filter _ = _
      rw [h.assertions.failed]
      unfold keptAssertions
      rw [List.filter_filter]
    rw [hfilter, ← keptChecks_failsRule _ start.recordPassedAssertions]
    apply filter_numberedFrom
    intro c hc ordinal
    have hsupported := hkept c hc
    show (decide (c.rule.id = id) && decide (c.status = .failed)) = c.failsRule id
    unfold Check.isUnsupported Check.isPassed Check.isFailed at hsupported
    unfold Check.failsRule Check.status Check.isPassed Check.isFailed
    cases hc : c.outcome <;> simp [hc] at hsupported ⊢
  · rw [← keptChecks_isPassed start.maxFailedAssertionsPerRule]
    show List.Forall₂ _ _ state.passedAssertions
    rw [h.assertions.passed]
    apply filter_numberedFrom
    intro c hc ordinal
    show decide (c.status = .passed) = c.isPassed
    unfold Check.status
    cases c.isPassed <;> rfl
  · show (state.failedAssertions ++ state.passedAssertions).Perm _
    rw [h.assertions.failed, h.assertions.passed]
    exact numberedFrom_filter_or 1 _
  · show (decide (state.failedRules = 0) && state.unsupportedRules.isEmpty) = true ↔ _
    rw [Bool.and_eq_true_iff, decide_eq_true_iff, List.isEmpty_iff, h.failedRules]
    exact Iff.rfl

/-- The rules that are reported unsupported: those of the profile, then one for each evaluation that
ended so. -/
theorem Accounted.unsupported_length {services : ModelServices} {maxFailed : Nat}
    {recordPassed : Bool} {profile : ValidationProfile} {checks : List Check} {state : ProfileState}
    (h : Accounted services (profileStart maxFailed recordPassed profile) checks state) :
    state.finish.unsupportedRules.length
      = staticUnsupported profile.rules + checks.countP Check.isUnsupported := by
  obtain ⟨reports, heq, hreports⟩ := h.unsupported
  show state.unsupportedRules.length = _
  rw [heq, List.length_append, ← hreports.length_eq, ← List.countP_eq_length_filter]
  congr 1
  exact (registerStaticUnsupportedRules_length _ _).trans (Nat.zero_add _)

/-- Check accounting is exact, and the counters and the verdict depend neither on the failure cap nor
on whether passed assertions are recorded. -/
theorem validateProfile_accounting (services : ModelServices) (document : ModelDocument)
    (limits : ResourceLimits) (cap : FailureCap) (recordPassed : Bool) (profile : ValidationProfile)
    (report : ProfileReport)
    (h : validateProfile services document limits cap.value recordPassed profile = .ok report) :
    ∃ checks, profileChecks services (profileGraph services document limits profile)
        profile.rules = .ok checks
      ∧ Evaluations services (profileGraph services document limits profile) profile.rules checks
      ∧ ExactAccounting cap.value recordPassed checks report
      ∧ ∀ (cap' : FailureCap) (recordPassed' : Bool) (report' : ProfileReport),
        validateProfile services document limits cap'.value recordPassed' profile = .ok report' →
          report'.isCompliant = report.isCompliant
          ∧ report'.checksExecuted = report.checksExecuted
          ∧ report'.rulesExecuted = report.rulesExecuted
          ∧ report'.failedRules = report.failedRules
          ∧ report'.unsupportedRules.length = report.unsupportedRules.length := by
  obtain ⟨checks, state, hchecks, hevaluations, -, haccounted, rfl⟩ :=
    validateProfile_accounted cap.lt h
  refine ⟨checks, hchecks, hevaluations, haccounted.exact, ?_⟩
  intro cap' recordPassed' report' h'
  obtain ⟨checks', state', hchecks', -, -, haccounted', rfl⟩ := validateProfile_accounted cap'.lt h'
  cases hchecks.symm.trans hchecks'
  have hexact := haccounted.exact
  have hexact' := haccounted'.exact
  have hlength := haccounted'.unsupported_length.trans haccounted.unsupported_length.symm
  refine ⟨?_, hexact'.checksExecuted.trans hexact.checksExecuted.symm,
    hexact'.rulesExecuted.trans hexact.rulesExecuted.symm,
    hexact'.failedRules.trans hexact.failedRules.symm, hlength⟩
  rw [Bool.eq_iff_iff, hexact'.isCompliant, hexact.isCompliant, ← List.length_eq_zero_iff,
    ← List.length_eq_zero_iff, hlength]

/-- A document with two pages. -/
def twoPagesSource : Bytes :=
  utf8 ("%PDF-1.7\n1 0 obj<</Type/Catalog/Pages 2 0 R>>endobj\n"
    ++ "2 0 obj<</Type/Pages/Kids[3 0 R 4 0 R]>>endobj\n3 0 obj<</Type/Page>>endobj\n"
    ++ "4 0 obj<</Type/Page>>endobj\ntrailer<</Root 1 0 R>>\n%%EOF")

/-- A rule on pages. -/
def pageRule (id : String) (deferred : Bool) (test : RuleExpr) : Rule :=
  ⟨⟨id⟩, .family .page, deferred, ⟨id⟩, test, ⟨id⟩, []⟩

/-- A profile with these rules. -/
def sampleProfile (rules : List Rule) : ValidationProfile :=
  ⟨⟨⟨"sample"⟩, ⟨"sample"⟩, none⟩, ⟨⟨"pdfa"⟩, 1, ⟨"b"⟩, Nat.one_pos⟩, rules⟩

/-- A rule that fails on every page, a deferred one that passes, and one that asks for a property that
no model has. -/
def mixedProfile : ValidationProfile :=
  sampleProfile [pageRule "never" false (.bool false), pageRule "always" true (.bool true),
    pageRule "unknown" false (.property ["unknown"])]

/-- The run on `twoPagesSource`: of the six checks two fail, and one failure is retained. -/
theorem mixedProfile_run :
    (match Parser.parse ⟨{}, none⟩ Crates.unused twoPagesSource with
      | .ok doc =>
        match validateProfile ModelServices.unused doc.model {} 1 true mixedProfile with
        | .ok report => report.checksExecuted = 6 && report.failedRules = 2
          && report.failedAssertions.length = 1
        | .error _ => false
      | .error _ => false) = true := by
  have hbytes := twoPagesSource.eq_def
  simp only [utf8_append] at hbytes
  repeat rw [utf8_ofList] at hbytes
  rw [hbytes]
  decide +kernel

theorem validateProfile_accounting_twoPages :
    ∃ doc report checks, Parser.parse ⟨{}, none⟩ Crates.unused twoPagesSource = .ok doc
      ∧ validateProfile ModelServices.unused doc.model {} 1 true mixedProfile = .ok report
      ∧ checks.length = 6 ∧ checks.countP Check.isFailed = 2 ∧ report.failedAssertions.length = 1
      ∧ ExactAccounting 1 true checks report := by
  have hrun := mixedProfile_run
  cases hparse : Parser.parse ⟨{}, none⟩ Crates.unused twoPagesSource with
  | error error =>
    rw [hparse] at hrun
    cases hrun
  | ok doc =>
    rw [hparse] at hrun
    dsimp only at hrun
    cases hreport : validateProfile ModelServices.unused doc.model {} 1 true mixedProfile with
    | error error =>
      rw [hreport] at hrun
      cases hrun
    | ok report =>
      rw [hreport] at hrun
      simp only [Bool.and_eq_true, decide_eq_true_eq] at hrun
      obtain ⟨checks, -, -, hexact, -⟩ := validateProfile_accounting ModelServices.unused doc.model {}
        ⟨1, by decide, by decide⟩ true mixedProfile report hreport
      exact ⟨doc, report, checks, rfl, hreport, hexact.checksExecuted.symm.trans hrun.1.1,
        hexact.failedRules.symm.trans hrun.1.2, hrun.2, hexact⟩

end Pdfv
