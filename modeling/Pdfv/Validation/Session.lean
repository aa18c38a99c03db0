import Pdfv.Validation.Graph
import Pdfv.Basic.Walk
/-!
# The validation session

`validateProfile`: the walk over the model graph, the rules each visited object is checked against,
the deferred rules after all others, and the counters and assertions of the profile report.
-/

namespace Pdfv

open Fallible

/-- The functions of other crates that a run calls, and the property tables of the model objects. The
results on traversal and reports hold for every table. -/
structure ModelServices where
  crates : Crates
  regex : RegexCrate
  /-- `ModelObjectRef::property`, over the document, limits and flavour of a graph. -/
  property : ModelGraph → ModelObjectRef → PropertyName → Except PdfvError ModelValue
  /-- The derived debug text of an expression. -/
  debugExpr : RuleExpr → String

/-- Services for runs on which no property is known and no crate is called. -/
def ModelServices.unused : ModelServices where
  crates := Crates.unused
  regex := ⟨fun _ _ => .error "unused", fun _ _ => .error "unused"⟩
  property _ _ property := .error (.profile (.unknownProperty ⟨property⟩))
  debugExpr _ := ""

/-! ## Property paths -/

section Paths

variable (services : ModelServices) (graph : ModelGraph)

/-- A path that the model does not support. -/
def unsupportedPath {α : Type} (reason : String) : Except PdfvError α := do
  let reason ← BoundedText.new reason 512
  .error (.profile (.unsupportedRule reason))

/-- The objects one link of a path leads to. -/
def followLink (link : PropertyName) (candidate : ModelObjectRef) :
    Except PdfvError (List ModelObjectRef) :=
  match linkTarget candidate.objectType link with
  | none =>
    unsupportedPath s!"unknown validation model link {link} on {candidate.objectType.text}"
  | some target =>
    if candidate.links.any fun row => row.1 = link then do
      let linked ← graph.linkedObjects graph.limits.maxObjects candidate
      return linked.filter fun object => object.objectType = target
    else
      unsupportedPath s!"unmaterialized validation model link {link} on {candidate.objectType.text}"

/-- The objects the links of a path lead to. -/
def followLinks (current : List ModelObjectRef) (links : List PropertyName) :
    Except PdfvError (List ModelObjectRef) :=
  links.foldlM (fun current link => do
    let next ← current.mapM (followLink graph link)
    failIf (next.flatten.length > graph.limits.maxObjects) (budgetExceeded "linked_objects")
    return next.flatten) current

/-- `DefaultRuleEvaluator::property`. -/
def resolveProperty (object : ModelObjectRef) (path : PropertyPath) :
    Except PdfvError ModelValue :=
  match path.getLast? with
  | none => .error (.profile (.unknownProperty ⟨"empty"⟩))
  | some terminal =>
    if path.dropLast.isEmpty then services.property graph object terminal
    else do
      let reached ← followLinks graph [object] path.dropLast
      let values ← reached.mapM fun candidate => services.property graph candidate terminal
      match values with
      | [] => return .null
      | [value] => return value
      | values => return .list values

/-- `DefaultRuleEvaluator::evaluate`. -/
def evaluateRule (object : ModelObjectRef) (rule : Rule) : Except PdfvError RuleOutcome :=
  evaluate ⟨resolveProperty services graph object, graph.document.parseFacts,
    graph.limits.maxObjectDepth, graph.limits.maxArrayLen, services.regex⟩ rule.test

end Paths

/-! ## Reports -/

/-- Assertion status. -/
inductive AssertionStatus where
  | passed
  | failed
deriving DecidableEq, Repr

/-- Rule assertion detail. -/
structure Assertion where
  ordinal : Nat
  ruleId : Identifier
  status : AssertionStatus
  description : BoundedText
  location : ObjectLocation
  objectContext : Option BoundedText
  message : Option BoundedText
deriving DecidableEq, Repr

/-- Unsupported rule detail. -/
structure UnsupportedRule where
  profileId : Identifier
  ruleId : Identifier
  expressionFragment : Option BoundedText
  reason : BoundedText
  references : List SpecReference
deriving DecidableEq, Repr

/-- Per-profile report. -/
structure ProfileReport where
  profile : ProfileIdentity
  isCompliant : Bool
  checksExecuted : Nat
  rulesExecuted : Nat
  failedRules : Nat
  failedAssertions : List Assertion
  passedAssertions : List Assertion
  unsupportedRules : List UnsupportedRule
deriving DecidableEq, Repr

/-! ## The state of one profile -/

/-- `ProfileState`. The map of retained failures is a function that is 0 where the map has no
entry. -/
structure ProfileState where
  profile : ProfileIdentity
  maxFailedAssertionsPerRule : Nat
  recordPassedAssertions : Bool
  checksExecuted : Nat
  rulesExecuted : Nat
  failedRules : Nat
  failedAssertions : List Assertion
  passedAssertions : List Assertion
  unsupportedRules : List UnsupportedRule
  retainedFailuresByRule : Identifier → Nat
  nextOrdinal : Nat

namespace ProfileState

/-- `ProfileState::new`. -/
def new (profile : ProfileIdentity) (maxFailed : Nat) (recordPassed : Bool) : ProfileState where
  profile := profile
  maxFailedAssertionsPerRule := maxFailed
  recordPassedAssertions := recordPassed
  checksExecuted := 0
  rulesExecuted := 0
  failedRules := 0
  failedAssertions := []
  passedAssertions := []
  unsupportedRules := []
  retainedFailuresByRule := fun _ => 0
  nextOrdinal := 1

/-- `ProfileState::register_static_unsupported_rules`. -/
def registerStaticUnsupportedRules (s : ProfileState) (rules : List Rule) : ProfileState :=
  { s with
    unsupportedRules := s.unsupportedRules ++ rules.filterMap fun rule =>
      match rule.test with
      | .unsupported fragment reason =>
        some ⟨s.profile.id, rule.id, some fragment, reason, rule.references⟩
      | _ => none }

/-- The assertion of a check with a given ordinal. -/
def assertionOf (object : ModelObjectRef) (rule : Rule) (status : AssertionStatus)
    (ordinal : Nat) : Assertion :=
  ⟨ordinal, rule.id, status, rule.description, object.location, some ⟨object.context⟩,
    some rule.errorMessage⟩

/-- `ProfileState::assertion`: the ordinal is taken. -/
def assertion (s : ProfileState) (object : ModelObjectRef) (rule : Rule)
    (status : AssertionStatus) : Except PdfvError (Assertion × ProfileState) := do
  failIf (s.nextOrdinal + 1 ≥ u64Size) (PdfvError.limit "assertion_ordinal")
  return (assertionOf object rule status s.nextOrdinal,
    { s with nextOrdinal := s.nextOrdinal + 1 })

/-- A passed check. -/
def recordPass (s : ProfileState) (object : ModelObjectRef) (rule : Rule) :
    Except PdfvError ProfileState :=
  if s.recordPassedAssertions then do
    let (assertion, s) ← s.assertion object rule .passed
    return { s with passedAssertions := s.passedAssertions ++ [assertion] }
  else .ok s

/-- A failed check. -/
def recordFailure (s : ProfileState) (object : ModelObjectRef) (rule : Rule) :
    Except PdfvError ProfileState := do
  failIf (s.failedRules + 1 ≥ u64Size) (PdfvError.limit "failed_rules")
  let s := { s with failedRules := s.failedRules + 1 }
  let retained := s.retainedFailuresByRule rule.id
  if retained < s.maxFailedAssertionsPerRule then
    let (assertion, s) ← s.assertion object rule .failed
    return { s with
      failedAssertions := s.failedAssertions ++ [assertion],
      retainedFailuresByRule := fun id =>
        if id = rule.id then min (retained + 1) (u32Size - 1) else s.retainedFailuresByRule id }
  else return s

/-- A check whose evaluation failed with a profile error. -/
def recordUnsupported (s : ProfileState) (debugExpr : RuleExpr → String) (rule : Rule)
    (error : ProfileError) : Except PdfvError ProfileState := do
  let reason ← BoundedText.new error.display 512
  return { s with
    unsupportedRules := s.unsupportedRules ++
      [⟨s.profile.id, rule.id, some ⟨debugExpr rule.test⟩, reason, rule.references⟩] }

/-- `ProfileState::apply_rule`. -/
def applyRule (services : ModelServices) (graph : ModelGraph) (s : ProfileState)
    (check : ModelObjectRef × Rule) : Except PdfvError ProfileState := do
  failIf (s.rulesExecuted + 1 ≥ u64Size) (PdfvError.limit "rules_executed")
  failIf (s.checksExecuted + 1 ≥ u64Size) (PdfvError.limit "checks_executed")
  let s := { s with rulesExecuted := s.rulesExecuted + 1, checksExecuted := s.checksExecuted + 1 }
  match evaluateRule services graph check.1 check.2 with
  | .error (.profile error) => s.recordUnsupported services.debugExpr check.2 error
  | .error e => .error e
  | .ok .passed => s.recordPass check.1 check.2
  | .ok .failed => s.recordFailure check.1 check.2

/-- `ProfileState::finish`. -/
def finish (s : ProfileState) : ProfileReport where
  profile := s.profile
  isCompliant := s.failedRules = 0 && s.unsupportedRules.isEmpty
  checksExecuted := s.checksExecuted
  rulesExecuted := s.rulesExecuted
  failedRules := s.failedRules
  failedAssertions := s.failedAssertions
  passedAssertions := s.passedAssertions
  unsupportedRules := s.unsupportedRules

end ProfileState

/-! ## The walk -/

/-- The types of an object: its own, then its supertypes. -/
def ModelObjectRef.types (object : ModelObjectRef) : List Family :=
  object.objectType :: object.superTypes

/-- `RuleIndex::rules_for`: the index groups the rules by type, in their order. -/
def rulesFor (rules : List Rule) (object : ModelObjectRef) : List Rule :=
  object.types.flatMap fun family => rules.filter fun rule => rule.objectType = .family family

/-- The graph of model objects as the walk sees it. -/
def ModelGraph.walk (graph : ModelGraph) : Walk.Graph ModelObjectRef String PdfvError where
  key := ModelObjectRef.identityKey
  expand object budget := graph.linkedObjects budget object
  limit := .limit "max_objects"

section Profile

variable (services : ModelServices) (graph : ModelGraph)

/-- The loop state of `validate_profile` beside the stack: the profile state and the deferred
checks. -/
abbrev SessionState := ProfileState × List (ModelObjectRef × Rule)

/-- One rule at a visited object: a rule that is not supported is skipped, a deferred one waits. -/
def visitRule (object : ModelObjectRef) (s : SessionState) (rule : Rule) :
    Except PdfvError SessionState :=
  if rule.test.isUnsupported then .ok s
  else if rule.deferred then .ok (s.1, s.2 ++ [(object, rule)])
  else do
    let state ← s.1.applyRule services graph (object, rule)
    return (state, s.2)

/-- The rules at a visited object. -/
def visitObject (rules : List Rule) (s : SessionState) (object : ModelObjectRef) :
    Except PdfvError SessionState :=
  (rulesFor rules object).foldlM (visitRule services graph object) s

/-- The document object, from which every walk starts. -/
def walkRoots : List ModelObjectRef :=
  [.document]

/-- The walk of `validate_profile` and the deferred rules after it. -/
def runProfile (rules : List Rule) (start : ProfileState) : Except PdfvError ProfileState :=
  match graph.walk.run graph.limits.maxObjects (visitObject services graph rules) walkRoots
      (start, []) with
  | ⟨(state, deferred), _, .finished⟩ => deferred.foldlM (ProfileState.applyRule services graph) state
  | ⟨_, _, .stopped e⟩ => .error e
  | ⟨_, _, .failed e⟩ => .error e

end Profile

/-- `ValidationSession::validate_profile`. -/
def validateProfile (services : ModelServices) (document : ModelDocument) (limits : ResourceLimits)
    (maxFailed : Nat) (recordPassed : Bool) (profile : ValidationProfile) :
    Except PdfvError ProfileReport := do
  let graph := ModelGraph.forRules services.crates document limits profile.rules profile.flavour
  let start := (ProfileState.new profile.identity maxFailed recordPassed).registerStaticUnsupportedRules
    profile.rules
  let state ← runProfile services graph profile.rules start
  return state.finish

end Pdfv
