import Pdfv.Report.XmlReport
/-!
# Reports that are read back

`validationReport_reproduced_iff`: a validation report is rendered in every markup format, and an XML parser reads
its strings back, exactly when none of them has a character that XML forbids or its parser
normalises.
-/

namespace Pdfv

open Fallible

/-! ## Plain values -/

namespace WrittenValue

instance (value : WrittenValue) : Decidable value.Harmless :=
  match value with
  | escaped _ => inferInstanceAs (Decidable True)
  | plain value => inferInstanceAs
      (Decidable ((∀ c ∈ value.toList, isXmlChar c = true ∧ isLineControl c = false)
        ∧ ∀ c ∈ value.toList, entityName c = none))

/-- The characters of numbers need no escaping. -/
theorem harmless_of_numberChars {text : String}
    (h : ∀ c ∈ text.toList, isNumberChar c = true) : (plain text).Harmless := by
  have hchar : ∀ c, isNumberChar c = true →
      isXmlChar c = true ∧ isLineControl c = false ∧ entityName c = none := by
    intro c hc
    rcases Bool.or_eq_true_iff.mp hc with hdigit | hmem
    · have hrange : 48 ≤ c.toNat ∧ c.toNat ≤ 57 := by
        unfold Char.isDigit at hdigit
        simp only [Bool.and_eq_true, decide_eq_true_eq] at hdigit
        exact hdigit
      refine ⟨?_, ?_, ?_⟩
      · unfold isXmlChar
        simp only [Bool.or_eq_true, Bool.and_eq_true, decide_eq_true_eq]
        omega
      · unfold isLineControl
        simp only [Bool.or_eq_false_iff, decide_eq_false_iff_not]
        omega
      · have hne : ∀ d : Char, d.toNat < 48 ∨ 57 < d.toNat → c ≠ d := by
          rintro d hd rfl
          omega
        unfold entityName
        rw [if_neg (hne '&' (by decide)), if_neg (hne '<' (by decide)),
          if_neg (hne '>' (by decide)), if_neg (by omega), if_neg (by omega)]
    · have hall : ∀ c ∈ ['-', '.', 'i', 'n', 'f', 'N', 'a'],
          isXmlChar c = true ∧ isLineControl c = false ∧ entityName c = none := by
        decide
      exact hall c (List.contains_iff_mem.mp hmem)
  constructor
  · intro c hc
    obtain ⟨hlegal, hcontrol, -⟩ := hchar c (h c hc)
    exact ⟨hlegal, hcontrol⟩
  · intro c hc
    exact (hchar c (h c hc)).2.2

theorem harmless_append {a b : String} (ha : (plain a).Harmless) (hb : (plain b).Harmless) :
    (plain (a ++ b)).Harmless := by
  have hmem : ∀ c, c ∈ (a ++ b).toList → c ∈ a.toList ∨ c ∈ b.toList := by
    intro c hc
    rw [String.toList_append] at hc
    exact List.mem_append.mp hc
  constructor
  · intro c hc
    exact (hmem c hc).elim (ha.1 c) (hb.1 c)
  · intro c hc
    exact (hmem c hc).elim (ha.2 c) (hb.2 c)

theorem harmless_nat (n : Nat) : (plain (toString n)).Harmless := by
  apply harmless_of_numberChars
  intro c hc
  have hdigits : (toString n).toList = Nat.toDigits 10 n := String.toList_ofList
  rw [hdigits] at hc
  exact toDigits_chars n c hc

theorem harmless_bool (b : Bool) : (plain (toString b)).Harmless := by
  cases b <;> decide

theorem harmless_double (x : Double) : (plain x.display).Harmless :=
  harmless_of_numberChars x.display_chars

theorem harmless_optionalNumber (number : Option Nat) : (plain (optionalNumber number)).Harmless := by
  cases number with
  | none => decide
  | some n => exact harmless_nat n

theorem harmless_pair (a b : Nat) (separator : String) (h : (plain separator).Harmless) :
    (plain (toString a ++ separator ++ toString b)).Harmless :=
  harmless_append (harmless_append (harmless_nat a) h) (harmless_nat b)

end WrittenValue

/-! ## Elements -/

/-- Attributes with distinct names. -/
theorem AttributesValid.of_keys {attributes : List WrittenAttribute} (keys : List String)
    (hkeys : attributes.map WrittenAttribute.name = keys)
    (hnames : ∀ key ∈ keys, isXmlName key = true) (hunique : keys.Nodup)
    (hvalues : ∀ attr ∈ attributes, attr.value.Harmless) : AttributesValid attributes where
  names attr hattr := hnames attr.name (hkeys ▸ List.mem_map_of_mem hattr)
  values := hvalues
  unique := hkeys ▸ hunique

theorem attributesValid_nil : AttributesValid [] :=
  .of_keys [] rfl (by decide) (by decide) (by decide)

/-- The strings of the lines are read back. -/
def LinesSafe (lines : List WrittenLine) : Prop :=
  ∀ line ∈ lines, line.Safe

/-- The escaped string of an attribute. -/
def escapedValue : WrittenAttribute → Option String
  | ⟨_, .escaped text⟩ => some text
  | ⟨_, .plain _⟩ => none

/-- Only the escaped strings can make attributes unsafe. -/
theorem attributesSafe_iff {attributes : List WrittenAttribute} (h : AttributesValid attributes)
    (texts : List String) (htexts : attributes.filterMap escapedValue = texts) :
    AttributesSafe attributes ↔ ∀ text ∈ texts, AttributeSafe text := by
  rw [← htexts]
  constructor
  · intro hsafe text htext
    obtain ⟨attr, hattr, hvalue⟩ := List.mem_filterMap.mp htext
    obtain ⟨name, value⟩ := attr
    cases value with
    | escaped other =>
      cases hvalue
      exact hsafe _ hattr
    | plain other => cases hvalue
  · intro hsafe attr hattr
    obtain ⟨name, value⟩ := attr
    cases value with
    | escaped text => exact hsafe text (List.mem_filterMap.mpr ⟨_, hattr, rfl⟩)
    | plain text => exact (h.values _ hattr).1

theorem attributesSafe_nil : AttributesSafe [] :=
  fun _ hattr => absurd hattr List.not_mem_nil

@[simp] theorem linesSafe_nil : LinesSafe [] ↔ True := by
  unfold LinesSafe
  exact iff_true_intro fun _ hline => absurd hline List.not_mem_nil

@[simp] theorem linesSafe_append {lines lines' : List WrittenLine} :
    LinesSafe (lines ++ lines') ↔ LinesSafe lines ∧ LinesSafe lines' :=
  List.forall_mem_append

@[simp] theorem linesSafe_cons {line : WrittenLine} {lines : List WrittenLine} :
    LinesSafe (line :: lines) ↔ line.Safe ∧ LinesSafe lines :=
  List.forall_mem_cons

theorem linesSafe_flatMap {α : Type} {f : α → List WrittenLine} {p : α → Prop} {l : List α}
    (h : ∀ a, LinesSafe (f a) ↔ p a) : LinesSafe (l.flatMap f) ↔ ∀ a ∈ l, p a := by
  induction l with
  | nil => exact iff_of_true (linesSafe_nil.mpr trivial) fun a ha => absurd ha List.not_mem_nil
  | cons a rest ih => rw [List.flatMap_cons, linesSafe_append, List.forall_mem_cons, h, ih]

theorem linesSafe_map {α : Type} {f : α → WrittenLine} {p : α → Prop} {l : List α}
    (h : ∀ a, (f a).Safe ↔ p a) : LinesSafe (l.map f) ↔ ∀ a ∈ l, p a := by
  unfold LinesSafe
  rw [List.forall_mem_map]
  exact forall₂_congr fun a _ => h a

theorem linesSafe_blockElement {indent : Nat} {name : String}
    {attributes : List WrittenAttribute} {body : List WrittenLine} :
    LinesSafe (blockElement indent name attributes body)
      ↔ AttributesSafe attributes ∧ LinesSafe body := by
  unfold blockElement
  rw [linesSafe_cons, linesSafe_append, linesSafe_cons]
  constructor
  · rintro ⟨hstart, hbody, -⟩
    exact ⟨hstart, hbody⟩
  · rintro ⟨hstart, hbody⟩
    exact ⟨hstart, hbody, trivial, linesSafe_nil.mpr trivial⟩

theorem textElement_safe {indent : Nat} {name text : String} :
    (textElement indent name text).Safe ↔ TextSafe text := by
  constructor
  · exact And.right
  · intro h
    exact ⟨attributesSafe_nil, h⟩

theorem emptyElement_safe {indent : Nat} {name : String} {attributes : List WrittenAttribute} :
    (emptyElement indent name attributes).Safe ↔ AttributesSafe attributes := by
  constructor
  · exact And.left
  · intro h
    exact ⟨h, fun c hc => absurd hc List.not_mem_nil⟩

namespace Nested

theorem textElement {indent : Nat} {name text : String} {rest : List WrittenLine}
    (hname : isXmlName name = true) (h : Nested rest) :
    Nested (Pdfv.textElement indent name text :: rest) :=
  .leaf hname attributesValid_nil trivial h

theorem emptyElement {indent : Nat} {name : String} {attributes : List WrittenAttribute}
    {rest : List WrittenLine} (hname : isXmlName name = true)
    (hattributes : AttributesValid attributes) (h : Nested rest) :
    Nested (Pdfv.emptyElement indent name attributes :: rest) :=
  .leaf hname hattributes (by decide) h

theorem blockElement {indent : Nat} {name : String} {attributes : List WrittenAttribute}
    {body : List WrittenLine} (hname : isXmlName name = true)
    (hattributes : AttributesValid attributes) (h : Nested body) :
    Nested (Pdfv.blockElement indent name attributes body) :=
  .block hname hattributes h .nil

/-- Lines for the elements of a list. -/
theorem map {α : Type} {f : α → WrittenLine} {l : List α} (h : ∀ a, Nested [f a]) :
    Nested (l.map f) := by
  induction l with
  | nil => exact .nil
  | cons a rest ih => exact (h a).append ih

end Nested

/-! ## Strings of a report -/

/-- The string, when there is one, is read back from the content of an element. -/
def OptionalSafe (text : Option BoundedText) : Prop :=
  ∀ value ∈ text, TextSafe value.text

/-- The strings that are written for an assertion. -/
def Assertion.Reproducible (assertion : Assertion) : Prop :=
  AttributeSafe assertion.ruleId.text ∧ AttributeSafe (locationText assertion.location)
    ∧ TextSafe assertion.description.text ∧ OptionalSafe assertion.message

/-- The strings that are written for an unsupported rule. -/
def UnsupportedRule.Reproducible (rule : UnsupportedRule) : Prop :=
  AttributeSafe rule.profileId.text ∧ AttributeSafe rule.ruleId.text
    ∧ OptionalSafe rule.expressionFragment ∧ TextSafe rule.reason.text
    ∧ ∀ reference ∈ rule.references,
      AttributeSafe reference.specification.text ∧ AttributeSafe reference.clause.text

/-- The strings that are written for a profile report. -/
def ProfileReport.Reproducible (profile : ProfileReport) : Prop :=
  AttributeSafe profile.profile.name.text
    ∧ (∀ assertion ∈ profile.failedAssertions, assertion.Reproducible)
    ∧ (∀ assertion ∈ profile.passedAssertions, assertion.Reproducible)
    ∧ ∀ rule ∈ profile.unsupportedRules, rule.Reproducible

mutual

/-- The strings that are written for a feature value. -/
def FeatureValue.Reproducible : FeatureValue → Prop
  | .string value => TextSafe value.text
  | .list values => FeatureValue.AllReproducible values
  | _ => True

/-- The strings that are written for some feature values. -/
def FeatureValue.AllReproducible : List FeatureValue → Prop
  | [] => True
  | value :: values => FeatureValue.Reproducible value ∧ FeatureValue.AllReproducible values

end

/-- The strings that are written for a feature object. -/
def FeatureObject.Reproducible (object : FeatureObject) : Prop :=
  AttributeSafe object.family.text ∧ AttributeSafe (locationText object.location)
    ∧ ∀ entry ∈ object.properties.entries, AttributeSafe entry.1 ∧ entry.2.Reproducible

/-- The strings that are written for a policy result. -/
def PolicyRuleResult.Reproducible (result : PolicyRuleResult) : Prop :=
  AttributeSafe result.id.text ∧ TextSafe result.description.text ∧ TextSafe result.message.text

/-- The strings that are written for a policy report. -/
def PolicyReport.Reproducible (report : PolicyReport) : Prop :=
  AttributeSafe (boundedOrEmpty report.name) ∧ ∀ result ∈ report.results, result.Reproducible

/-- The strings that are written for a parse fact. -/
def ParseFact.Reproducible : ParseFact → Prop
  | .xref location fact => AttributeSafe (locationText location) ∧ AttributeSafe (xrefFactText fact)
  | .stream _ fact => AttributeSafe (streamFactText fact)
  | .encryption _ handler _ _ algorithm _ =>
    AttributeSafe (optionalIdentifier handler) ∧ AttributeSafe (optionalIdentifier algorithm)
  | .xmp _ fact => AttributeSafe (xmpFactText fact)
  | _ => True

/-- The strings that are written for a report: those of attributes without line ends and TABs, those
of texts without returns, and every character one of XML. -/
structure ValidationReport.Reproducible (report : ValidationReport) : Prop where
  source : TextSafe (sourceName report.source)
  profiles : ∀ profile ∈ report.profileReports, profile.Reproducible
  facts : ∀ fact ∈ report.parseFacts, fact.Reproducible
  features : ∀ features ∈ report.featureReport, ∀ object ∈ features.objects, object.Reproducible
  policy : ∀ policy ∈ report.policyReport, policy.Reproducible
  warnings : ∀ warning ∈ report.warnings, TextSafe warning.messageText.text
  profileIds : ∀ c ∈ (profileList report).toList, isXmlChar c = true

/-! ## The strings of the writers -/

/-- The line of an optional text. -/
theorem optionalElement_safe {indent : Nat} {name : String} (text : Option BoundedText) :
    LinesSafe (text.map fun value => textElement indent name value.text).toList
      ↔ OptionalSafe text := by
  cases text with
  | none => exact iff_of_true (linesSafe_nil.mpr trivial) fun value hvalue => by cases hvalue
  | some value =>
    unfold OptionalSafe
    rw [Option.map_some, Option.toList_some, linesSafe_cons, textElement_safe]
    constructor
    · rintro ⟨htext, -⟩ other hother
      cases hother
      exact htext
    · intro h
      exact ⟨h value rfl, linesSafe_nil.mpr trivial⟩

theorem optionalElement_nested {indent : Nat} {name : String} (hname : isXmlName name = true)
    (text : Option BoundedText) :
    Nested (text.map fun value => textElement indent name value.text).toList := by
  cases text with
  | none => exact .nil
  | some value => exact .textElement hname .nil

theorem itemAttributes_valid (source : InputSummary) : AttributesValid
    (source.bytes.map fun bytes => plainAttr "size" (toString bytes)).toList := by
  cases source.bytes with
  | none => exact attributesValid_nil
  | some bytes =>
    exact .of_keys ["size"] rfl (by decide) (by decide)
      (List.forall_mem_singleton.mpr (WrittenValue.harmless_nat bytes))

theorem xmlItem_nested (source : InputSummary) : Nested (xmlItem source) :=
  .blockElement (by decide) (itemAttributes_valid source) (.textElement (by decide) .nil)

theorem xmlItem_safe (source : InputSummary) :
    LinesSafe (xmlItem source) ↔ TextSafe (sourceName source) := by
  have hattributes : AttributesSafe
      (source.bytes.map fun bytes => plainAttr "size" (toString bytes)).toList := by
    refine (attributesSafe_iff (itemAttributes_valid source) [] ?_).mpr
      fun _ h => absurd h List.not_mem_nil
    cases source.bytes <;> rfl
  unfold xmlItem
  rw [linesSafe_blockElement, linesSafe_cons, textElement_safe]
  constructor
  · rintro ⟨-, htext, -⟩
    exact htext
  · intro h
    exact ⟨hattributes, h, linesSafe_nil.mpr trivial⟩

theorem checkAttributes_valid (assertion : Assertion) : AttributesValid
    [escapedAttr "ruleId" assertion.ruleId.text,
      plainAttr "status" (assertionStatusText assertion.status),
      escapedAttr "location" (locationText assertion.location)] := by
  refine .of_keys ["ruleId", "status", "location"] rfl (by decide) (by decide) ?_
  have hstatus : ∀ status, (WrittenValue.plain (assertionStatusText status)).Harmless := by
    intro status
    cases status <;> decide
  rw [List.forall_mem_cons, List.forall_mem_cons, List.forall_mem_singleton]
  exact ⟨trivial, hstatus _, trivial⟩

theorem xmlCheck_nested (assertion : Assertion) : Nested (xmlCheck assertion) :=
  .blockElement (by decide) (checkAttributes_valid assertion)
    (.textElement (by decide) (optionalElement_nested (by decide) assertion.message))

theorem xmlCheck_safe (assertion : Assertion) :
    LinesSafe (xmlCheck assertion) ↔ assertion.Reproducible := by
  unfold xmlCheck Assertion.Reproducible
  rw [linesSafe_blockElement, attributesSafe_iff (checkAttributes_valid assertion)
    [assertion.ruleId.text, locationText assertion.location] rfl, linesSafe_cons,
    textElement_safe, optionalElement_safe, List.forall_mem_cons, List.forall_mem_singleton,
    and_assoc]

theorem xmlAssertions_nested {element : String} (helement : isXmlName element = true)
    (assertions : List Assertion) : Nested (xmlAssertions element assertions) := by
  unfold xmlAssertions
  split
  · exact .nil
  · exact .blockElement helement attributesValid_nil (.flatMap fun a _ => xmlCheck_nested a)

/-- An element for a list is left out when the list is empty. -/
theorem optionalBlock_safe {α : Type} {l : List α} {indent : Nat} {element : String}
    {lines : List WrittenLine} {p : α → Prop} (h : LinesSafe lines ↔ ∀ a ∈ l, p a) :
    LinesSafe (if l.isEmpty then [] else blockElement indent element [] lines)
      ↔ ∀ a ∈ l, p a := by
  cases l with
  | nil => exact iff_of_true (linesSafe_nil.mpr trivial) fun a ha => absurd ha List.not_mem_nil
  | cons a rest =>
    rw [if_neg (by exact Bool.false_ne_true), linesSafe_blockElement, h]
    exact and_iff_right attributesSafe_nil

theorem xmlAssertions_safe (element : String) (assertions : List Assertion) :
    LinesSafe (xmlAssertions element assertions)
      ↔ ∀ assertion ∈ assertions, assertion.Reproducible :=
  optionalBlock_safe (linesSafe_flatMap xmlCheck_safe)

theorem xmlReference_valid (reference : SpecReference) : AttributesValid
    [escapedAttr "specification" reference.specification.text,
      escapedAttr "clause" reference.clause.text] := by
  refine .of_keys ["specification", "clause"] rfl (by decide) (by decide) ?_
  rw [List.forall_mem_cons, List.forall_mem_singleton]
  exact ⟨trivial, trivial⟩

theorem unsupportedAttributes_valid (rule : UnsupportedRule) : AttributesValid
    [escapedAttr "profileId" rule.profileId.text, escapedAttr "ruleId" rule.ruleId.text] := by
  refine .of_keys ["profileId", "ruleId"] rfl (by decide) (by decide) ?_
  rw [List.forall_mem_cons, List.forall_mem_singleton]
  exact ⟨trivial, trivial⟩

theorem xmlUnsupportedRule_nested (rule : UnsupportedRule) : Nested (xmlUnsupportedRule rule) := by
  refine .blockElement (by decide) (unsupportedAttributes_valid rule)
    ((optionalElement_nested (by decide) _).append (.textElement (by decide) ?_))
  split
  · exact .nil
  · exact .blockElement (by decide) attributesValid_nil (.map fun reference =>
      .emptyElement (by decide) (xmlReference_valid reference) .nil)

theorem xmlUnsupportedRule_safe (rule : UnsupportedRule) :
    LinesSafe (xmlUnsupportedRule rule) ↔ rule.Reproducible := by
  have hreference : ∀ reference : SpecReference,
      (emptyElement 14 "reference" [escapedAttr "specification" reference.specification.text,
        escapedAttr "clause" reference.clause.text]).Safe
        ↔ AttributeSafe reference.specification.text ∧ AttributeSafe reference.clause.text := by
    intro reference
    rw [emptyElement_safe, attributesSafe_iff (xmlReference_valid reference)
      [reference.specification.text, reference.clause.text] rfl, List.forall_mem_cons,
      List.forall_mem_singleton]
  unfold xmlUnsupportedRule UnsupportedRule.Reproducible
  rw [linesSafe_blockElement, attributesSafe_iff (unsupportedAttributes_valid rule)
    [rule.profileId.text, rule.ruleId.text] rfl, linesSafe_append, linesSafe_cons,
    textElement_safe, optionalElement_safe, optionalBlock_safe (linesSafe_map hreference),
    List.forall_mem_cons, List.forall_mem_singleton, and_assoc]

theorem xmlUnsupportedRules_nested (rules : List UnsupportedRule) :
    Nested (xmlUnsupportedRules rules) := by
  unfold xmlUnsupportedRules
  split
  · exact .nil
  · exact .blockElement (by decide) attributesValid_nil
      (.flatMap fun rule _ => xmlUnsupportedRule_nested rule)

theorem xmlUnsupportedRules_safe (rules : List UnsupportedRule) :
    LinesSafe (xmlUnsupportedRules rules) ↔ ∀ rule ∈ rules, rule.Reproducible :=
  optionalBlock_safe (linesSafe_flatMap xmlUnsupportedRule_safe)

theorem profileAttributes_valid (status : ValidationStatus) (profile : ProfileReport) :
    AttributesValid [escapedAttr "profileName" profile.profile.name.text,
      escapedAttr "statement" (statusStatement status),
      plainAttr "isCompliant" (toString profile.isCompliant)] := by
  refine .of_keys ["profileName", "statement", "isCompliant"] rfl (by decide) (by decide) ?_
  rw [List.forall_mem_cons, List.forall_mem_cons, List.forall_mem_singleton]
  exact ⟨trivial, trivial, WrittenValue.harmless_bool _⟩

theorem detailsAttributes_valid (details : XmlDetails) : AttributesValid
    [plainAttr "passedRules" (toString details.passedRules),
      plainAttr "failedRules" (toString details.failedRules),
      plainAttr "passedChecks" (toString details.passedChecks),
      plainAttr "failedChecks" (toString details.failedChecks),
      plainAttr "unsupportedRules" (toString details.unsupportedRules)] := by
  refine .of_keys ["passedRules", "failedRules", "passedChecks", "failedChecks",
    "unsupportedRules"] rfl (by decide) (by decide) ?_
  simp only [List.forall_mem_cons]
  exact ⟨WrittenValue.harmless_nat _, WrittenValue.harmless_nat _, WrittenValue.harmless_nat _,
    WrittenValue.harmless_nat _, WrittenValue.harmless_nat _,
    fun _ h => absurd h List.not_mem_nil⟩

theorem xmlValidationReport_nested (status : ValidationStatus) (profile : ProfileReport) :
    Nested (xmlValidationReport status profile) :=
  .blockElement (by decide) (profileAttributes_valid status profile)
    (.emptyElement (by decide) (detailsAttributes_valid _)
      (((xmlAssertions_nested (by decide) _).append (xmlAssertions_nested (by decide) _)).append
        (xmlUnsupportedRules_nested _)))

theorem statusStatement_safe (status : ValidationStatus) :
    AttributeSafe (statusStatement status) := by
  unfold AttributeSafe
  cases status <;> decide

theorem xmlValidationReport_safe (status : ValidationStatus) (profile : ProfileReport) :
    LinesSafe (xmlValidationReport status profile) ↔ profile.Reproducible := by
  have hdetails : ∀ details : XmlDetails, (emptyElement 8 "details"
      [plainAttr "passedRules" (toString details.passedRules),
        plainAttr "failedRules" (toString details.failedRules),
        plainAttr "passedChecks" (toString details.passedChecks),
        plainAttr "failedChecks" (toString details.failedChecks),
        plainAttr "unsupportedRules" (toString details.unsupportedRules)]).Safe := by
    intro details
    rw [emptyElement_safe, attributesSafe_iff (detailsAttributes_valid details) [] rfl]
    exact fun _ h => absurd h List.not_mem_nil
  unfold xmlValidationReport ProfileReport.Reproducible
  rw [linesSafe_blockElement, attributesSafe_iff (profileAttributes_valid status profile)
    [profile.profile.name.text, statusStatement status] rfl, linesSafe_cons, linesSafe_append,
    linesSafe_append, xmlAssertions_safe, xmlAssertions_safe, xmlUnsupportedRules_safe,
    List.forall_mem_cons, List.forall_mem_singleton, and_assoc, and_assoc]
  constructor
  · rintro ⟨hname, -, -, hrest⟩
    exact ⟨hname, hrest⟩
  · rintro ⟨hname, hrest⟩
    exact ⟨hname, statusStatement_safe status, hdetails _, hrest⟩

theorem noProfileAttributes_valid (status : ValidationStatus) : AttributesValid
    [plainAttr "profileName" "", escapedAttr "statement" (statusStatement status),
      plainAttr "isCompliant" "false"] := by
  refine .of_keys ["profileName", "statement", "isCompliant"] rfl (by decide) (by decide) ?_
  rw [List.forall_mem_cons, List.forall_mem_cons, List.forall_mem_singleton]
  exact ⟨by decide, trivial, by decide⟩

theorem noDetails_valid : AttributesValid
    [plainAttr "passedRules" "0", plainAttr "failedRules" "0", plainAttr "passedChecks" "0",
      plainAttr "failedChecks" "0", plainAttr "unsupportedRules" "0"] :=
  .of_keys ["passedRules", "failedRules", "passedChecks", "failedChecks", "unsupportedRules"] rfl
    (by decide) (by decide) (by decide)

theorem xmlNoProfile_nested (status : ValidationStatus) : Nested (xmlNoProfile status) :=
  .blockElement (by decide) (noProfileAttributes_valid status)
    (.emptyElement (by decide) noDetails_valid .nil)

theorem xmlNoProfile_safe (status : ValidationStatus) : LinesSafe (xmlNoProfile status) := by
  unfold xmlNoProfile
  rw [linesSafe_blockElement, attributesSafe_iff (noProfileAttributes_valid status)
    [statusStatement status] rfl, linesSafe_cons, emptyElement_safe,
    attributesSafe_iff noDetails_valid [] rfl, List.forall_mem_singleton]
  exact ⟨statusStatement_safe status, fun _ h => absurd h List.not_mem_nil,
    linesSafe_nil.mpr trivial⟩

/-! ### Features -/

/-- The attributes of a value element are plain. -/
theorem plainAttributes_safe {attributes : List WrittenAttribute}
    (h : AttributesValid attributes) (hplain : attributes.filterMap escapedValue = []) :
    AttributesSafe attributes := by
  rw [attributesSafe_iff h [] hplain]
  exact fun _ hmem => absurd hmem List.not_mem_nil

theorem valueAttributes_valid {kind : String} (h : (WrittenValue.plain kind).Harmless) :
    AttributesValid [plainAttr "type" kind] :=
  .of_keys ["type"] rfl (by decide) (by decide) (List.forall_mem_singleton.mpr h)

theorem redactedAttributes_valid (bytes : Nat) : AttributesValid
    [plainAttr "type" "redactedString", plainAttr "bytes" (toString bytes)] := by
  refine .of_keys ["type", "bytes"] rfl (by decide) (by decide) ?_
  rw [List.forall_mem_cons, List.forall_mem_singleton]
  exact ⟨by decide, WrittenValue.harmless_nat bytes⟩

theorem keyAttributes_valid (key : ObjectKey) : AttributesValid
    [plainAttr "type" "objectKey", plainAttr "number" (toString key.number),
      plainAttr "generation" (toString key.generation)] := by
  refine .of_keys ["type", "number", "generation"] rfl (by decide) (by decide) ?_
  rw [List.forall_mem_cons, List.forall_mem_cons, List.forall_mem_singleton]
  exact ⟨by decide, WrittenValue.harmless_nat _, WrittenValue.harmless_nat _⟩

/-- A harmless value is read back from the content of an element. -/
theorem textSafe_of_harmless {text : String} (h : (WrittenValue.plain text).Harmless) :
    TextSafe text := fun c hc => ⟨(h.1 c hc).1, isLineControl_return (h.1 c hc).2⟩

mutual

theorem xmlFeatureValue_nested (indent : Nat) : ∀ value, Nested (xmlFeatureValue indent value)
  | .null => .emptyElement (by decide) (valueAttributes_valid (by decide)) .nil
  | .bool value => .leaf (by decide) (valueAttributes_valid (by decide))
      (WrittenValue.harmless_bool value) .nil
  | .number value => .leaf (by decide) (valueAttributes_valid (by decide))
      (WrittenValue.harmless_double value) .nil
  | .string _ => .leaf (by decide) (valueAttributes_valid (by decide)) trivial .nil
  | .redactedString bytes => .emptyElement (by decide) (redactedAttributes_valid bytes) .nil
  | .objectKey key => .emptyElement (by decide) (keyAttributes_valid key) .nil
  | .list values => .blockElement (by decide) (valueAttributes_valid (by decide))
      (xmlFeatureValues_nested (indent + 2) values)

theorem xmlFeatureValues_nested (indent : Nat) : ∀ values, Nested (xmlFeatureValues indent values)
  | [] => .nil
  | value :: values =>
    (xmlFeatureValue_nested indent value).append (xmlFeatureValues_nested indent values)

end

/-- The line of a value with a plain type. -/
theorem valueLine_safe {indent : Nat} {kind : String} (h : (WrittenValue.plain kind).Harmless)
    (content : WrittenValue) :
    LinesSafe [⟨indent, .element "value" [plainAttr "type" kind] content⟩]
      ↔ TextSafe content.text := by
  rw [linesSafe_cons]
  constructor
  · rintro ⟨⟨-, htext⟩, -⟩
    exact htext
  · intro htext
    exact ⟨⟨plainAttributes_safe (valueAttributes_valid h) rfl, htext⟩, linesSafe_nil.mpr trivial⟩

theorem emptyLine_safe {indent : Nat} {name : String} {attributes : List WrittenAttribute}
    (h : AttributesValid attributes) (hplain : attributes.filterMap escapedValue = []) :
    LinesSafe [emptyElement indent name attributes] := by
  rw [linesSafe_cons, emptyElement_safe]
  exact ⟨plainAttributes_safe h hplain, linesSafe_nil.mpr trivial⟩

mutual

theorem xmlFeatureValue_safe (indent : Nat) :
    ∀ value, LinesSafe (xmlFeatureValue indent value) ↔ value.Reproducible
  | .null => iff_of_true (emptyLine_safe (valueAttributes_valid (by decide)) rfl) trivial
  | .bool value => iff_of_true ((valueLine_safe (by decide) _).mpr
      (textSafe_of_harmless (WrittenValue.harmless_bool value))) trivial
  | .number value => iff_of_true ((valueLine_safe (by decide) _).mpr
      (textSafe_of_harmless (WrittenValue.harmless_double value))) trivial
  | .string value => valueLine_safe (by decide) (.escaped value.text)
  | .redactedString bytes =>
    iff_of_true (emptyLine_safe (redactedAttributes_valid bytes) rfl) trivial
  | .objectKey key => iff_of_true (emptyLine_safe (keyAttributes_valid key) rfl) trivial
  | .list values => by
    have hattributes := plainAttributes_safe (@valueAttributes_valid "list" (by decide)) rfl
    have hvalues := xmlFeatureValues_safe (indent + 2) values
    unfold xmlFeatureValue FeatureValue.Reproducible
    rw [linesSafe_blockElement, hvalues]
    exact and_iff_right hattributes

theorem xmlFeatureValues_safe (indent : Nat) :
    ∀ values, LinesSafe (xmlFeatureValues indent values) ↔ FeatureValue.AllReproducible values
  | [] => linesSafe_nil
  | value :: values => by
    have hvalue := xmlFeatureValue_safe indent value
    have hvalues := xmlFeatureValues_safe indent values
    unfold xmlFeatureValues FeatureValue.AllReproducible
    rw [linesSafe_append, hvalue, hvalues]

end

theorem objectAttributes_valid (object : FeatureObject) : AttributesValid
    [escapedAttr "family" object.family.text,
      escapedAttr "location" (locationText object.location)] := by
  refine .of_keys ["family", "location"] rfl (by decide) (by decide) ?_
  rw [List.forall_mem_cons, List.forall_mem_singleton]
  exact ⟨trivial, trivial⟩

theorem propertyAttributes_valid (name : PropertyName) :
    AttributesValid [escapedAttr "name" name] :=
  .of_keys ["name"] rfl (by decide) (by decide) (List.forall_mem_singleton.mpr trivial)

theorem xmlFeatureObject_nested (object : FeatureObject) : Nested (xmlFeatureObject object) :=
  .blockElement (by decide) (objectAttributes_valid object) (.flatMap fun entry _ =>
    .blockElement (by decide) (propertyAttributes_valid entry.1)
      (xmlFeatureValue_nested 12 entry.2))

theorem xmlFeatureObject_safe (object : FeatureObject) :
    LinesSafe (xmlFeatureObject object) ↔ object.Reproducible := by
  have hentry : ∀ entry : PropertyName × FeatureValue,
      LinesSafe (blockElement 10 "property" [escapedAttr "name" entry.1]
        (xmlFeatureValue 12 entry.2)) ↔ AttributeSafe entry.1 ∧ entry.2.Reproducible := by
    intro entry
    rw [linesSafe_blockElement, attributesSafe_iff (propertyAttributes_valid entry.1) [entry.1] rfl,
      List.forall_mem_singleton, xmlFeatureValue_safe]
  unfold xmlFeatureObject FeatureObject.Reproducible
  rw [linesSafe_blockElement, attributesSafe_iff (objectAttributes_valid object)
    [object.family.text, locationText object.location] rfl, linesSafe_flatMap hentry,
    List.forall_mem_cons, List.forall_mem_singleton, and_assoc]

theorem featureAttributes_valid (report : FeatureReport) : AttributesValid
    [plainAttr "visitedObjects" (toString report.visitedObjects),
      plainAttr "extractedObjects" (toString report.objects.length),
      plainAttr "truncated" (toString report.truncated)] := by
  refine .of_keys ["visitedObjects", "extractedObjects", "truncated"] rfl (by decide) (by decide) ?_
  rw [List.forall_mem_cons, List.forall_mem_cons, List.forall_mem_singleton]
  exact ⟨WrittenValue.harmless_nat _, WrittenValue.harmless_nat _, WrittenValue.harmless_bool _⟩

theorem xmlFeatureReport_nested (report : FeatureReport) : Nested (xmlFeatureReport report) :=
  .blockElement (by decide) (featureAttributes_valid report)
    (.flatMap fun object _ => xmlFeatureObject_nested object)

theorem xmlFeatureReport_safe (report : FeatureReport) :
    LinesSafe (xmlFeatureReport report) ↔ ∀ object ∈ report.objects, object.Reproducible := by
  unfold xmlFeatureReport
  rw [linesSafe_blockElement, linesSafe_flatMap xmlFeatureObject_safe]
  exact and_iff_right (plainAttributes_safe (featureAttributes_valid report) rfl)

/-! ### Policies, facts and warnings -/

theorem resultAttributes_valid (result : PolicyRuleResult) : AttributesValid
    [escapedAttr "id" result.id.text, plainAttr "passed" (toString result.passed),
      plainAttr "matches" (toString result.matched)] := by
  refine .of_keys ["id", "passed", "matches"] rfl (by decide) (by decide) ?_
  rw [List.forall_mem_cons, List.forall_mem_cons, List.forall_mem_singleton]
  exact ⟨trivial, WrittenValue.harmless_bool _, WrittenValue.harmless_nat _⟩

theorem xmlPolicyResult_nested (result : PolicyRuleResult) : Nested (xmlPolicyResult result) :=
  .blockElement (by decide) (resultAttributes_valid result)
    (.textElement (by decide) (.textElement (by decide) .nil))

theorem xmlPolicyResult_safe (result : PolicyRuleResult) :
    LinesSafe (xmlPolicyResult result) ↔ result.Reproducible := by
  unfold xmlPolicyResult PolicyRuleResult.Reproducible
  rw [linesSafe_blockElement, attributesSafe_iff (resultAttributes_valid result)
    [result.id.text] rfl, linesSafe_cons, linesSafe_cons, textElement_safe, textElement_safe,
    linesSafe_nil, and_true, List.forall_mem_singleton]

theorem policyAttributes_valid (report : PolicyReport) : AttributesValid
    [escapedAttr "name" (boundedOrEmpty report.name),
      plainAttr "isCompliant" (toString report.isCompliant)] := by
  refine .of_keys ["name", "isCompliant"] rfl (by decide) (by decide) ?_
  rw [List.forall_mem_cons, List.forall_mem_singleton]
  exact ⟨trivial, WrittenValue.harmless_bool _⟩

theorem xmlPolicyReport_nested (report : PolicyReport) : Nested (xmlPolicyReport report) :=
  .blockElement (by decide) (policyAttributes_valid report)
    (.flatMap fun result _ => xmlPolicyResult_nested result)

theorem xmlPolicyReport_safe (report : PolicyReport) :
    LinesSafe (xmlPolicyReport report) ↔ report.Reproducible := by
  unfold xmlPolicyReport PolicyReport.Reproducible
  rw [linesSafe_blockElement, attributesSafe_iff (policyAttributes_valid report)
    [boundedOrEmpty report.name] rfl, linesSafe_flatMap xmlPolicyResult_safe,
    List.forall_mem_singleton]

/-- The attributes of the element for a fact. -/
def ParseFact.attributes (fact : ParseFact) : List WrittenAttribute :=
  match (xmlParseFact fact).markup with
  | .element _ attributes _ => attributes
  | _ => []

theorem ParseFact.attributes_valid (fact : ParseFact) : AttributesValid fact.attributes := by
  cases fact with
  | header offset version hadLeadingBytes =>
    refine .of_keys ["offset", "version", "hadLeadingBytes"] rfl (by decide) (by decide) ?_
    unfold attributes xmlParseFact emptyElement
    simp only [List.forall_mem_cons]
    exact ⟨WrittenValue.harmless_nat _,
      WrittenValue.harmless_pair version.major version.minor "." (by decide),
      WrittenValue.harmless_bool _, fun _ h => absurd h List.not_mem_nil⟩
  | postEofData bytes =>
    exact .of_keys ["bytes"] rfl (by decide) (by decide)
      (List.forall_mem_singleton.mpr (WrittenValue.harmless_nat bytes))
  | xref location fact =>
    refine .of_keys ["location", "fact"] rfl (by decide) (by decide) ?_
    unfold attributes xmlParseFact emptyElement
    simp only [List.forall_mem_cons]
    exact ⟨trivial, trivial, fun _ h => absurd h List.not_mem_nil⟩
  | stream object fact =>
    refine .of_keys ["object", "fact"] rfl (by decide) (by decide) ?_
    unfold attributes xmlParseFact emptyElement
    simp only [List.forall_mem_cons]
    exact ⟨WrittenValue.harmless_pair object.number object.generation " " (by decide), trivial,
      fun _ h => absurd h List.not_mem_nil⟩
  | encryption encrypted handler version revision algorithm decrypted =>
    refine .of_keys ["encrypted", "handler", "version", "revision", "algorithm", "decrypted"] rfl
      (by decide) (by decide) ?_
    unfold attributes xmlParseFact emptyElement
    simp only [List.forall_mem_cons]
    exact ⟨WrittenValue.harmless_bool _, trivial, WrittenValue.harmless_optionalNumber _,
      WrittenValue.harmless_optionalNumber _, trivial, WrittenValue.harmless_bool _,
      fun _ h => absurd h List.not_mem_nil⟩
  | xmp object fact =>
    refine .of_keys ["object", "fact"] rfl (by decide) (by decide) ?_
    unfold attributes xmlParseFact emptyElement
    simp only [List.forall_mem_cons]
    exact ⟨WrittenValue.harmless_pair object.number object.generation " " (by decide), trivial,
      fun _ h => absurd h List.not_mem_nil⟩

theorem xmlParseFact_nested (fact : ParseFact) : Nested [xmlParseFact fact] := by
  have hattributes := fact.attributes_valid
  cases fact <;> exact .emptyElement (by decide) hattributes .nil

theorem xmlParseFact_safe (fact : ParseFact) : (xmlParseFact fact).Safe ↔ fact.Reproducible := by
  have hattributes := fact.attributes_valid
  cases fact with
  | header offset version hadLeadingBytes =>
    exact iff_of_true (emptyElement_safe.mpr (plainAttributes_safe hattributes rfl)) trivial
  | postEofData bytes =>
    exact iff_of_true (emptyElement_safe.mpr (plainAttributes_safe hattributes rfl)) trivial
  | xref location fact =>
    refine emptyElement_safe.trans ((attributesSafe_iff hattributes
      [locationText location, xrefFactText fact] rfl).trans ?_)
    rw [List.forall_mem_cons, List.forall_mem_singleton]
    rfl
  | stream object fact =>
    refine emptyElement_safe.trans ((attributesSafe_iff hattributes
      [streamFactText fact] rfl).trans ?_)
    rw [List.forall_mem_singleton]
    rfl
  | encryption encrypted handler version revision algorithm decrypted =>
    refine emptyElement_safe.trans ((attributesSafe_iff hattributes
      [optionalIdentifier handler, optionalIdentifier algorithm] rfl).trans ?_)
    rw [List.forall_mem_cons, List.forall_mem_singleton]
    rfl
  | xmp object fact =>
    refine emptyElement_safe.trans ((attributesSafe_iff hattributes
      [xmpFactText fact] rfl).trans ?_)
    rw [List.forall_mem_singleton]
    rfl

theorem xmlParseFacts_nested (facts : List ParseFact) : Nested (xmlParseFacts facts) := by
  unfold xmlParseFacts
  split
  · exact .nil
  · exact .blockElement (by decide) attributesValid_nil (.map xmlParseFact_nested)

theorem xmlParseFacts_safe (facts : List ParseFact) :
    LinesSafe (xmlParseFacts facts) ↔ ∀ fact ∈ facts, fact.Reproducible :=
  optionalBlock_safe (linesSafe_map xmlParseFact_safe)

theorem xmlWarnings_nested (warnings : List ValidationWarning) (indent : Nat) :
    Nested (xmlWarnings warnings indent) := by
  unfold xmlWarnings
  split
  · exact .nil
  · exact .blockElement (by decide) attributesValid_nil
      (.map fun warning => .textElement (by decide) .nil)

theorem xmlWarnings_safe (warnings : List ValidationWarning) (indent : Nat) :
    LinesSafe (xmlWarnings warnings indent)
      ↔ ∀ warning ∈ warnings, TextSafe warning.messageText.text :=
  optionalBlock_safe (linesSafe_map fun _ => textElement_safe)

/-! ### Items and documents -/

theorem summaryAttributes_valid (summary : BatchSummary) : AttributesValid
    [plainAttr "totalJobs" (toString summary.totalFiles),
      plainAttr "failedToParse" (toString summary.parseFailures),
      plainAttr "encrypted" (toString summary.encrypted),
      plainAttr "incomplete" (toString summary.incomplete),
      plainAttr "internalErrors" (toString summary.internalErrors)] := by
  refine .of_keys ["totalJobs", "failedToParse", "encrypted", "incomplete", "internalErrors"] rfl
    (by decide) (by decide) ?_
  simp only [List.forall_mem_cons]
  exact ⟨WrittenValue.harmless_nat _, WrittenValue.harmless_nat _, WrittenValue.harmless_nat _,
    WrittenValue.harmless_nat _, WrittenValue.harmless_nat _,
    fun _ h => absurd h List.not_mem_nil⟩

theorem jobsAttributes_valid (compliant nonCompliant failedJobs : Nat) : AttributesValid
    [plainAttr "compliant" (toString compliant), plainAttr "nonCompliant" (toString nonCompliant),
      plainAttr "failedJobs" (toString failedJobs)] := by
  refine .of_keys ["compliant", "nonCompliant", "failedJobs"] rfl (by decide) (by decide) ?_
  simp only [List.forall_mem_cons]
  exact ⟨WrittenValue.harmless_nat _, WrittenValue.harmless_nat _, WrittenValue.harmless_nat _,
    fun _ h => absurd h List.not_mem_nil⟩

theorem durationAttributes_valid (elapsed : Nat) :
    AttributesValid [plainAttr "elapsedMillis" (toString elapsed)] :=
  .of_keys ["elapsedMillis"] rfl (by decide) (by decide)
    (List.forall_mem_singleton.mpr (WrittenValue.harmless_nat elapsed))

theorem xmlBatchSummary_nested (summary : BatchSummary) : Nested (xmlBatchSummary summary) :=
  .blockElement (by decide) (summaryAttributes_valid summary)
    (.leaf (by decide) (jobsAttributes_valid _ _ _) (WrittenValue.harmless_nat _)
      (.emptyElement (by decide) (durationAttributes_valid _) .nil))

theorem xmlBatchSummary_safe (summary : BatchSummary) : LinesSafe (xmlBatchSummary summary) := by
  unfold xmlBatchSummary
  rw [linesSafe_blockElement, linesSafe_cons]
  exact ⟨plainAttributes_safe (summaryAttributes_valid summary) rfl,
    ⟨plainAttributes_safe (jobsAttributes_valid _ _ _) rfl,
      textSafe_of_harmless (WrittenValue.harmless_nat _)⟩,
    emptyLine_safe (durationAttributes_valid _) rfl⟩

theorem xmlProfiles_nested (report : ValidationReport) : Nested (xmlProfiles report) :=
  .flatMap fun profile _ => xmlValidationReport_nested report.status profile

theorem xmlProfiles_safe (report : ValidationReport) : LinesSafe (xmlProfiles report)
    ↔ ∀ profile ∈ report.profileReports, profile.Reproducible :=
  linesSafe_flatMap (xmlValidationReport_safe report.status)

theorem xmlExtracted_nested (report : ValidationReport) : Nested (xmlExtracted report) :=
  (Nested.flatMap fun features _ => xmlFeatureReport_nested features).append
    (.flatMap fun policy _ => xmlPolicyReport_nested policy)

theorem xmlExtracted_safe (report : ValidationReport) : LinesSafe (xmlExtracted report)
    ↔ (∀ features ∈ report.featureReport, ∀ object ∈ features.objects, object.Reproducible)
      ∧ ∀ policy ∈ report.policyReport, policy.Reproducible := by
  unfold xmlExtracted
  rw [linesSafe_append, linesSafe_flatMap xmlFeatureReport_safe,
    linesSafe_flatMap xmlPolicyReport_safe]
  simp only [Option.mem_toList]
  rfl

/-- The strings that are written in XML for a report. -/
def ValidationReport.XmlReproducible (report : ValidationReport) : Prop :=
  TextSafe (sourceName report.source)
    ∧ (∀ profile ∈ report.profileReports, profile.Reproducible)
    ∧ (∀ fact ∈ report.parseFacts, fact.Reproducible)
    ∧ (∀ features ∈ report.featureReport, ∀ object ∈ features.objects, object.Reproducible)
    ∧ (∀ policy ∈ report.policyReport, policy.Reproducible)
    ∧ ∀ warning ∈ report.warnings, TextSafe warning.messageText.text

theorem xmlJob_nested (report : ValidationReport) : Nested (xmlJob report) := by
  have hnoProfile : Nested (if report.profileReports.isEmpty then xmlNoProfile report.status
      else []) := by
    split
    · exact xmlNoProfile_nested report.status
    · exact .nil
  exact .blockElement (by decide) attributesValid_nil
    ((((((xmlItem_nested report.source).append (xmlProfiles_nested report)).append
      hnoProfile).append (xmlParseFacts_nested _)).append (xmlExtracted_nested report)).append
      (xmlWarnings_nested _ _))

theorem xmlJob_safe (report : ValidationReport) :
    LinesSafe (xmlJob report) ↔ report.XmlReproducible := by
  have hnoProfile : LinesSafe (if report.profileReports.isEmpty then xmlNoProfile report.status
      else []) := by
    split
    · exact xmlNoProfile_safe report.status
    · exact linesSafe_nil.mpr trivial
  unfold xmlJob ValidationReport.XmlReproducible
  rw [linesSafe_blockElement, linesSafe_append, linesSafe_append, linesSafe_append,
    linesSafe_append, linesSafe_append, xmlItem_safe, xmlProfiles_safe, xmlParseFacts_safe,
    xmlExtracted_safe, xmlWarnings_safe]
  constructor
  · rintro ⟨-, ⟨⟨⟨⟨hsource, hprofiles⟩, -⟩, hfacts⟩, hfeatures, hpolicy⟩, hwarnings⟩
    exact ⟨hsource, hprofiles, hfacts, hfeatures, hpolicy, hwarnings⟩
  · rintro ⟨hsource, hprofiles, hfacts, hfeatures, hpolicy, hwarnings⟩
    exact ⟨attributesSafe_nil,
      ⟨⟨⟨⟨hsource, hprofiles⟩, hnoProfile⟩, hfacts⟩, hfeatures, hpolicy⟩, hwarnings⟩

theorem rawXmlAttributes_valid (status : ValidationStatus) :
    AttributesValid [plainAttr "status" (statusText status)] := by
  refine .of_keys ["status"] rfl (by decide) (by decide) (List.forall_mem_singleton.mpr ?_)
  cases status <;> decide

theorem rawXmlResult_nested (report : ValidationReport) : Nested (rawXmlResult report) :=
  .blockElement (by decide) (rawXmlAttributes_valid report.status)
    (((((xmlItem_nested report.source).append (xmlProfiles_nested report)).append
      (xmlExtracted_nested report)).append (xmlParseFacts_nested _)).append (xmlWarnings_nested _ _))

theorem rawXmlResult_safe (report : ValidationReport) :
    LinesSafe (rawXmlResult report) ↔ report.XmlReproducible := by
  unfold rawXmlResult ValidationReport.XmlReproducible
  rw [linesSafe_blockElement, linesSafe_append, linesSafe_append, linesSafe_append,
    linesSafe_append, xmlItem_safe, xmlProfiles_safe, xmlParseFacts_safe, xmlExtracted_safe,
    xmlWarnings_safe]
  constructor
  · rintro ⟨-, ⟨⟨⟨hsource, hprofiles⟩, hfeatures, hpolicy⟩, hfacts⟩, hwarnings⟩
    exact ⟨hsource, hprofiles, hfacts, hfeatures, hpolicy, hwarnings⟩
  · rintro ⟨hsource, hprofiles, hfacts, hfeatures, hpolicy, hwarnings⟩
    exact ⟨plainAttributes_safe (rawXmlAttributes_valid report.status) rfl,
      ⟨⟨⟨hsource, hprofiles⟩, hfeatures, hpolicy⟩, hfacts⟩, hwarnings⟩

theorem releaseAttributes_valid :
    AttributesValid [plainAttr "id" "pdfv-core", escapedAttr "version" engineVersion] :=
  .of_keys ["id", "version"] rfl (by decide) (by decide) (by decide)

theorem engineAttributes_valid :
    AttributesValid [plainAttr "engine" "pdfv-core", escapedAttr "version" engineVersion] :=
  .of_keys ["engine", "version"] rfl (by decide) (by decide) (by decide)

theorem tasksAttributes_valid (tasks : String) : AttributesValid [escapedAttr "tasks" tasks] :=
  .of_keys ["tasks"] rfl (by decide) (by decide) (List.forall_mem_singleton.mpr trivial)

theorem engineVersion_safe : AttributeSafe engineVersion := by
  unfold AttributeSafe
  decide

theorem rawValidationTasks_safe (report : BatchReport) :
    AttributeSafe (rawValidationTasks report) := by
  unfold rawValidationTasks AttributeSafe
  split <;> split <;> decide

theorem xmlBatch_valid (report : BatchReport) : (xmlBatch report).Valid where
  root := by
    show isXmlName "report" = true
    decide
  attributes := attributesValid_nil
  body :=
    (((Nested.blockElement (by decide) attributesValid_nil
      (.emptyElement (by decide) releaseAttributes_valid .nil)).append
      (.blockElement (by decide) attributesValid_nil (.flatMap fun item _ => xmlJob_nested item))).append
      (xmlBatchSummary_nested _)).append (xmlWarnings_nested _ _)

theorem rawXmlBatch_valid (report : BatchReport) : (rawXmlBatch report).Valid where
  root := by
    show isXmlName "rawReport" = true
    decide
  attributes := engineAttributes_valid
  body :=
    .emptyElement (by decide) (tasksAttributes_valid _)
      ((Nested.blockElement (by decide) attributesValid_nil
        (.flatMap fun item _ => rawXmlResult_nested item)).append (xmlBatchSummary_nested _))

theorem xmlBatch_safe (report : ValidationReport) :
    (xmlBatch (singleBatch report)).Safe ↔ report.XmlReproducible := by
  have hrelease : LinesSafe (blockElement 2 "buildInformation" []
      [emptyElement 4 "releaseDetails"
        [plainAttr "id" "pdfv-core", escapedAttr "version" engineVersion]]) := by
    rw [linesSafe_blockElement, linesSafe_cons, emptyElement_safe,
      attributesSafe_iff releaseAttributes_valid [engineVersion] rfl, List.forall_mem_singleton]
    exact ⟨attributesSafe_nil, engineVersion_safe, linesSafe_nil.mpr trivial⟩
  have hjobs : LinesSafe (blockElement 2 "jobs" [] ([report].flatMap xmlJob))
      ↔ report.XmlReproducible := by
    rw [linesSafe_blockElement, List.flatMap_singleton, xmlJob_safe]
    exact and_iff_right attributesSafe_nil
  have hbody : (xmlBatch (singleBatch report)).Safe ↔ AttributesSafe []
      ∧ LinesSafe (blockElement 2 "buildInformation" []
          [emptyElement 4 "releaseDetails"
            [plainAttr "id" "pdfv-core", escapedAttr "version" engineVersion]]
        ++ blockElement 2 "jobs" [] ([report].flatMap xmlJob)
        ++ xmlBatchSummary (singleBatch report).summary ++ xmlWarnings [] 2) := Iff.rfl
  rw [hbody, linesSafe_append, linesSafe_append, linesSafe_append, hjobs]
  constructor
  · rintro ⟨-, ⟨⟨-, h⟩, -⟩, -⟩
    exact h
  · intro h
    exact ⟨attributesSafe_nil, ⟨⟨hrelease, h⟩, xmlBatchSummary_safe _⟩, linesSafe_nil.mpr trivial⟩

theorem rawXmlBatch_safe (report : ValidationReport) :
    (rawXmlBatch (singleBatch report)).Safe ↔ report.XmlReproducible := by
  have hengine : AttributesSafe
      [plainAttr "engine" "pdfv-core", escapedAttr "version" engineVersion] := by
    rw [attributesSafe_iff engineAttributes_valid [engineVersion] rfl, List.forall_mem_singleton]
    exact engineVersion_safe
  have htasks : (emptyElement 2 "processorConfig"
      [escapedAttr "tasks" (rawValidationTasks (singleBatch report))]).Safe := by
    rw [emptyElement_safe, attributesSafe_iff (tasksAttributes_valid _)
      [rawValidationTasks (singleBatch report)] rfl, List.forall_mem_singleton]
    exact rawValidationTasks_safe _
  have hresults : LinesSafe (blockElement 2 "processorResults" [] ([report].flatMap rawXmlResult))
      ↔ report.XmlReproducible := by
    rw [linesSafe_blockElement, List.flatMap_singleton, rawXmlResult_safe]
    exact and_iff_right attributesSafe_nil
  have hbody : (rawXmlBatch (singleBatch report)).Safe ↔ AttributesSafe
      [plainAttr "engine" "pdfv-core", escapedAttr "version" engineVersion]
      ∧ LinesSafe (emptyElement 2 "processorConfig"
          [escapedAttr "tasks" (rawValidationTasks (singleBatch report))]
        :: (blockElement 2 "processorResults" [] ([report].flatMap rawXmlResult)
          ++ xmlBatchSummary (singleBatch report).summary)) := Iff.rfl
  rw [hbody, linesSafe_cons, linesSafe_append, hresults]
  constructor
  · rintro ⟨-, -, h, -⟩
    exact h
  · intro h
    exact ⟨hengine, htasks, h, xmlBatchSummary_safe _⟩

/-! ## HTML -/

/-- The row of a report is written exactly when its source and the ids of its profiles are legal. -/
theorem htmlRow_ok {item : ValidationReport} : (∃ row, htmlRow item = .ok row)
    ↔ (∀ c ∈ (sourceName item.source).toList, isXmlChar c = true)
      ∧ ∀ c ∈ (profileList item).toList, isXmlChar c = true := by
  unfold htmlRow
  constructor
  · rintro ⟨row, hrow⟩
    obtain ⟨source, hsource, hrest⟩ := bind_eq_ok.mp hrow
    obtain ⟨profiles, hprofiles, -⟩ := bind_eq_ok.mp hrest
    exact ⟨(escapedText_iff.mp hsource).1, (escapedText_iff.mp hprofiles).1⟩
  · rintro ⟨hsource, hprofiles⟩
    rw [escapedText_iff.mpr ⟨hsource, rfl⟩]
    dsimp only [ok_bind]
    rw [escapedText_iff.mpr ⟨hprofiles, rfl⟩]
    exact ⟨_, rfl⟩

theorem htmlBatch_ok {report : ValidationReport} : (∃ out, htmlBatch (singleBatch report) = .ok out)
    ↔ ∃ row, htmlRow report = .ok row := by
  have htitle : ∃ opening, htmlStart "pdfv validation report" = .ok opening := by
    unfold htmlStart
    have hlegal : ∀ c ∈ "pdfv validation report".toList, isXmlChar c = true := by
      decide
    rw [escapedText_iff.mpr ⟨hlegal, rfl⟩]
    exact ⟨_, rfl⟩
  obtain ⟨opening, htitle⟩ := htitle
  have hitems : (singleBatch report).items = [report] := rfl
  unfold htmlBatch
  rw [htitle, hitems, List.mapM_cons, List.mapM_nil]
  constructor
  · rintro ⟨out, hout⟩
    obtain ⟨_, -, hrest⟩ := bind_eq_ok.mp hout
    obtain ⟨rows, hrows, -⟩ := bind_eq_ok.mp hrest
    obtain ⟨row, hrow, -⟩ := bind_eq_ok.mp hrows
    exact ⟨row, hrow⟩
  · rintro ⟨row, hrow⟩
    rw [hrow]
    exact ⟨_, rfl⟩

/-! ## Reports -/

/-- The report is rendered in every markup format, and an XML parser reads of both XML outputs the
tags, attributes and texts of the report. -/
def ValidationReport.Reproduced (report : ValidationReport) : Prop :=
  (∃ out, writeReport report .xml = .ok out
      ∧ readXml out = some (xmlBatch (singleBatch report)).infos)
    ∧ (∃ out, writeReport report .rawXml = .ok out
      ∧ readXml out = some (rawXmlBatch (singleBatch report)).infos)
    ∧ ∃ out, writeReport report .html = .ok out

/-- A report is rendered and read back exactly when its strings allow it. -/
theorem validationReport_reproduced_iff (report : ValidationReport) :
    report.Reproduced ↔ report.Reproducible := by
  have hxml := (WrittenDocument.reproduced_iff (xmlBatch_valid (singleBatch report))).trans
    (xmlBatch_safe report)
  have hraw := (WrittenDocument.reproduced_iff (rawXmlBatch_valid (singleBatch report))).trans
    (rawXmlBatch_safe report)
  have hhtml : (∃ out, htmlBatch (singleBatch report) = .ok out) ↔ _ :=
    htmlBatch_ok.trans htmlRow_ok
  unfold ValidationReport.Reproduced
  constructor
  · rintro ⟨hxmlOut, -, hhtmlOut⟩
    obtain ⟨hsource, hprofiles, hfacts, hfeatures, hpolicy, hwarnings⟩ := hxml.mp hxmlOut
    exact ⟨hsource, hprofiles, hfacts, hfeatures, hpolicy, hwarnings, (hhtml.mp hhtmlOut).2⟩
  · rintro ⟨hsource, hprofiles, hfacts, hfeatures, hpolicy, hwarnings, hids⟩
    have hreproducible : report.XmlReproducible :=
      ⟨hsource, hprofiles, hfacts, hfeatures, hpolicy, hwarnings⟩
    exact ⟨hxml.mpr hreproducible, hraw.mpr hreproducible,
      hhtml.mpr ⟨fun c hc => (hsource c hc).1, hids⟩⟩

/-! ## A test -/

/-- A font resource whose name is a control character. -/
def controlNameFont : FontModel where
  pageOrdinal := 0
  key := none
  offset := none
  name := ⟨[1]⟩
  dictionary := ⟨.indirect ⟨5, 0, by decide, by decide, by decide⟩, []⟩

/-- A report with a failed check on that font. -/
def controlNameReport : ValidationReport where
  engineVersion := engineVersion
  source := ⟨.file, some ⟨utf8 "a.pdf"⟩, some 600⟩
  status := .invalid
  flavours := []
  profileReports := [{
    profile := ⟨⟨"pdfa-1b"⟩, ⟨"PDF/A-1B"⟩, none⟩
    isCompliant := false
    checksExecuted := 1
    rulesExecuted := 1
    failedRules := 1
    failedAssertions := [⟨1, ⟨"6.3.4"⟩, .failed, ⟨"The font program is embedded"⟩,
      (ModelObjectRef.font controlNameFont).location, none, none⟩]
    passedAssertions := []
    unsupportedRules := [] }]
  parseFacts := []
  warnings := []
  featureReport := none
  policyReport := none
  taskDurations := []

theorem controlNameReport_run : (match writeReport controlNameReport .xml with
    | .ok _ => false
    | .error _ => true) = true := by
  decide

/-- The report with a failed check on that font is not rendered. -/
theorem controlNameReport_not_reproduced : ¬ controlNameReport.Reproduced := by
  rintro ⟨⟨out, hout, -⟩, -, -⟩
  have hrun := controlNameReport_run
  rw [hout] at hrun
  cases hrun

end Pdfv
