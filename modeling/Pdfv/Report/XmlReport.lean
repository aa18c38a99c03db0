import Pdfv.Report.XmlText
import Pdfv.Report.Reports
import Pdfv.Report.Writers
import Pdfv.Basic.Display
/-!
# XML and HTML reports

The XML, raw XML and HTML writers for a validation report, as the lines they write. An assertion of
the engine has no error arguments, so the element for them is not written.
-/

namespace Pdfv

open Fallible

/-! ## Texts -/

/-- `source_name`. -/
def sourceName (source : InputSummary) : String :=
  match source.path with
  | some path => path.display
  | none => "<memory>"

/-- `status_text`. -/
def statusText : ValidationStatus → String
  | .valid => "valid"
  | .invalid => "invalid"
  | .encrypted => "encrypted"
  | .incomplete => "incomplete"
  | .parseFailed => "parse failed"

/-- `status_statement`. -/
def statusStatement : ValidationStatus → String
  | .valid => "PDF file is compliant with Validation Profile requirements."
  | .invalid => "PDF file is not compliant with Validation Profile requirements."
  | .encrypted => "PDF file is encrypted and could not be validated."
  | .incomplete => "Validation did not complete for all required rules."
  | .parseFailed => "PDF file could not be parsed."

/-- `assertion_status_text`. -/
def assertionStatusText : AssertionStatus → String
  | .passed => "passed"
  | .failed => "failed"

/-- `location_text`. -/
def locationText (location : ObjectLocation) : String :=
  match location.path, location.object, location.offset with
  | some path, _, _ => path.text
  | none, some object, _ => s!"object {object.number} {object.generation}"
  | none, none, some offset => s!"offset {offset}"
  | none, none, none => "unknown"

/-- `map_or("", BoundedText::as_str)`. -/
def boundedOrEmpty (text : Option BoundedText) : String :=
  (text.map BoundedText.text).getD ""

/-- `map_or("", Identifier::as_str)`. -/
def optionalIdentifier (identifier : Option Identifier) : String :=
  (identifier.map Identifier.text).getD ""

/-- `map_or_else(String::new, |value| value.to_string())`. -/
def optionalNumber (number : Option Nat) : String :=
  (number.map toString).getD ""

/-- `xref_fact_text`. -/
def xrefFactText : XrefFact → String
  | .eolMarkersComply => "eolMarkersComply"
  | .malformedClassic => "malformedClassic"
  | .xrefStreamParsed entries compressedEntries =>
    s!"xrefStreamParsed entries={entries} compressedEntries={compressedEntries}"
  | .prevChain offset => s!"prevChain offset={offset}"
  | .hybridReference offset => s!"hybridReference offset={offset}"
  | .objectStreamParsed => "objectStreamParsed"

/-- `stream_fact_text`. -/
def streamFactText : StreamFact → String
  | .length declared discovered => s!"length declared={declared} discovered={discovered}"
  | .keywordSpacing streamKeywordCrlfCompliant endstreamKeywordEolCompliant =>
    s!"keywordSpacing streamKeywordCRLFCompliant={streamKeywordCrlfCompliant} "
      ++ s!"endstreamKeywordEolCompliant={endstreamKeywordEolCompliant}"
  | .decoded bytes => s!"decoded bytes={bytes}"
  | .filterDecoded filter inputBytes outputBytes =>
    s!"filterDecoded filter={filter.text} inputBytes={inputBytes} outputBytes={outputBytes}"
  | .filterMetadataMode filter bytes => s!"filterMetadataMode filter={filter.text} bytes={bytes}"

/-- `xmp_fact_text`. -/
def xmpFactText : XmpFact → String
  | .packetParsed bytes namespaces claims =>
    s!"packetParsed bytes={bytes} namespaces={namespaces} claims={claims}"
  | .missingPacketWrapper => "missingPacketWrapper"
  | .flavourClaim family part conformance partPrefix displayFlavour namespaceUri rev revPrefix
      conformancePrefix =>
    s!"flavourClaim family={family.text} part={part} "
      ++ s!"conformance={optionalIdentifier conformance} partPrefix={partPrefix.text} "
      ++ s!"displayFlavour={displayFlavour.text} namespaceUri={namespaceUri.text} "
      ++ s!"rev={boundedOrEmpty rev} revPrefix={optionalIdentifier revPrefix} "
      ++ s!"conformancePrefix={optionalIdentifier conformancePrefix}"
  | .packetHeader bytes encoding actualEncoding =>
    s!"packetHeader bytes={boundedOrEmpty bytes} encoding={boundedOrEmpty encoding} "
      ++ s!"actualEncoding={actualEncoding.text}"
  | .rdfProperty namespaceUri namePrefix name value arrayKind xmlLang =>
    s!"rdfProperty namespaceUri={namespaceUri.text} prefix={namePrefix.text} name={name.text} "
      ++ s!"value={boundedOrEmpty value} arrayKind={optionalIdentifier arrayKind} "
      ++ s!"xmlLang={boundedOrEmpty xmlLang}"
  | .duplicateClaim namespaceUri property =>
    s!"duplicateClaim namespaceUri={namespaceUri.text} property={property.text}"
  | .malformed reason => s!"malformed reason={reason.text}"
  | .hostileXmlRejected reason => s!"hostileXmlRejected reason={reason.text}"

/-- `profile_list`. -/
def profileList (report : ValidationReport) : String :=
  if report.profileReports.isEmpty then "-"
  else ", ".intercalate (report.profileReports.map fun profile => profile.profile.id.text)

/-! ## Elements -/

/-- An attribute whose value is escaped. -/
def escapedAttr (name text : String) : WrittenAttribute :=
  ⟨name, .escaped text⟩

/-- An attribute whose value is written as it is. -/
def plainAttr (name text : String) : WrittenAttribute :=
  ⟨name, .plain text⟩

/-- An element on a line of its own, with an escaped text. -/
def textElement (indent : Nat) (name text : String) : WrittenLine :=
  ⟨indent, .element name [] (.escaped text)⟩

/-- An element on a line of its own, without content. -/
def emptyElement (indent : Nat) (name : String) (attributes : List WrittenAttribute) :
    WrittenLine :=
  ⟨indent, .element name attributes (.plain "")⟩

/-- An element whose tags stand on lines of their own. -/
def blockElement (indent : Nat) (name : String) (attributes : List WrittenAttribute)
    (body : List WrittenLine) : List WrittenLine :=
  ⟨indent, .start name attributes⟩ :: (body ++ [⟨indent, .finish name⟩])

/-! ## The XML writer -/

/-- `write_xml_item`. -/
def xmlItem (source : InputSummary) : List WrittenLine :=
  blockElement 6 "item" (source.bytes.map fun bytes => plainAttr "size" (toString bytes)).toList
    [textElement 8 "name" (sourceName source)]

/-- An assertion of `write_xml_assertions`. -/
def xmlCheck (assertion : Assertion) : List WrittenLine :=
  blockElement 10 "check"
    [escapedAttr "ruleId" assertion.ruleId.text,
      plainAttr "status" (assertionStatusText assertion.status),
      escapedAttr "location" (locationText assertion.location)]
    (textElement 12 "description" assertion.description.text
      :: (assertion.message.map fun message => textElement 12 "message" message.text).toList)

/-- `write_xml_assertions`. -/
def xmlAssertions (element : String) (assertions : List Assertion) : List WrittenLine :=
  if assertions.isEmpty then [] else blockElement 8 element [] (assertions.flatMap xmlCheck)

/-- A rule of `write_xml_unsupported_rules`. -/
def xmlUnsupportedRule (rule : UnsupportedRule) : List WrittenLine :=
  blockElement 10 "rule"
    [escapedAttr "profileId" rule.profileId.text, escapedAttr "ruleId" rule.ruleId.text]
    ((rule.expressionFragment.map fun fragment => textElement 12 "expression" fragment.text).toList
      ++ textElement 12 "reason" rule.reason.text
      :: if rule.references.isEmpty then [] else
        blockElement 12 "references" [] (rule.references.map fun reference =>
          emptyElement 14 "reference"
            [escapedAttr "specification" reference.specification.text,
              escapedAttr "clause" reference.clause.text]))

/-- `write_xml_unsupported_rules`. -/
def xmlUnsupportedRules (rules : List UnsupportedRule) : List WrittenLine :=
  if rules.isEmpty then [] else
    blockElement 8 "unsupportedRules" [] (rules.flatMap xmlUnsupportedRule)

/-- `write_xml_validation_report`. -/
def xmlValidationReport (status : ValidationStatus) (profile : ProfileReport) :
    List WrittenLine :=
  let details := xmlDetails profile
  blockElement 6 "validationReport"
    [escapedAttr "profileName" profile.profile.name.text,
      escapedAttr "statement" (statusStatement status),
      plainAttr "isCompliant" (toString profile.isCompliant)]
    (emptyElement 8 "details"
        [plainAttr "passedRules" (toString details.passedRules),
          plainAttr "failedRules" (toString details.failedRules),
          plainAttr "passedChecks" (toString details.passedChecks),
          plainAttr "failedChecks" (toString details.failedChecks),
          plainAttr "unsupportedRules" (toString details.unsupportedRules)]
      :: (xmlAssertions "failedChecks" profile.failedAssertions
        ++ xmlAssertions "passedChecks" profile.passedAssertions
        ++ xmlUnsupportedRules profile.unsupportedRules))

/-- The `<validationReport>` of a report without profiles. -/
def xmlNoProfile (status : ValidationStatus) : List WrittenLine :=
  blockElement 6 "validationReport"
    [plainAttr "profileName" "", escapedAttr "statement" (statusStatement status),
      plainAttr "isCompliant" "false"]
    [emptyElement 8 "details"
      [plainAttr "passedRules" "0", plainAttr "failedRules" "0", plainAttr "passedChecks" "0",
        plainAttr "failedChecks" "0", plainAttr "unsupportedRules" "0"]]

mutual

/-- `write_xml_feature_value`. -/
def xmlFeatureValue (indent : Nat) : FeatureValue → List WrittenLine
  | .null => [emptyElement indent "value" [plainAttr "type" "null"]]
  | .bool value => [⟨indent, .element "value" [plainAttr "type" "bool"] (.plain (toString value))⟩]
  | .number value =>
    [⟨indent, .element "value" [plainAttr "type" "number"] (.plain value.display)⟩]
  | .string value =>
    [⟨indent, .element "value" [plainAttr "type" "string"] (.escaped value.text)⟩]
  | .redactedString bytes =>
    [emptyElement indent "value"
      [plainAttr "type" "redactedString", plainAttr "bytes" (toString bytes)]]
  | .objectKey key =>
    [emptyElement indent "value"
      [plainAttr "type" "objectKey", plainAttr "number" (toString key.number),
        plainAttr "generation" (toString key.generation)]]
  | .list values =>
    blockElement indent "value" [plainAttr "type" "list"] (xmlFeatureValues (indent + 2) values)

/-- `write_xml_feature_value` on each value of a list. -/
def xmlFeatureValues (indent : Nat) : List FeatureValue → List WrittenLine
  | [] => []
  | value :: values => xmlFeatureValue indent value ++ xmlFeatureValues indent values

end

/-- An object of `write_xml_feature_report`. -/
def xmlFeatureObject (object : FeatureObject) : List WrittenLine :=
  blockElement 8 "featureObject"
    [escapedAttr "family" object.family.text,
      escapedAttr "location" (locationText object.location)]
    (object.properties.entries.flatMap fun entry =>
      blockElement 10 "property" [escapedAttr "name" entry.1] (xmlFeatureValue 12 entry.2))

/-- `write_xml_feature_report`. -/
def xmlFeatureReport (report : FeatureReport) : List WrittenLine :=
  blockElement 6 "featureReport"
    [plainAttr "visitedObjects" (toString report.visitedObjects),
      plainAttr "extractedObjects" (toString report.objects.length),
      plainAttr "truncated" (toString report.truncated)]
    (report.objects.flatMap xmlFeatureObject)

/-- A result of `write_xml_policy_report`. -/
def xmlPolicyResult (result : PolicyRuleResult) : List WrittenLine :=
  blockElement 8 "rule"
    [escapedAttr "id" result.id.text, plainAttr "passed" (toString result.passed),
      plainAttr "matches" (toString result.matched)]
    [textElement 10 "description" result.description.text,
      textElement 10 "message" result.message.text]

/-- `write_xml_policy_report`. -/
def xmlPolicyReport (report : PolicyReport) : List WrittenLine :=
  blockElement 6 "policyReport"
    [escapedAttr "name" (boundedOrEmpty report.name),
      plainAttr "isCompliant" (toString report.isCompliant)]
    (report.results.flatMap xmlPolicyResult)

/-- A fact of `write_xml_parse_facts`. -/
def xmlParseFact : ParseFact → WrittenLine
  | .header offset version hadLeadingBytes =>
    emptyElement 8 "header"
      [plainAttr "offset" (toString offset),
        plainAttr "version" s!"{version.major}.{version.minor}",
        plainAttr "hadLeadingBytes" (toString hadLeadingBytes)]
  | .postEofData bytes => emptyElement 8 "postEofData" [plainAttr "bytes" (toString bytes)]
  | .xref location fact =>
    emptyElement 8 "xref"
      [escapedAttr "location" (locationText location), escapedAttr "fact" (xrefFactText fact)]
  | .stream object fact =>
    emptyElement 8 "stream"
      [plainAttr "object" s!"{object.number} {object.generation}",
        escapedAttr "fact" (streamFactText fact)]
  | .encryption encrypted handler version revision algorithm decrypted =>
    emptyElement 8 "encryption"
      [plainAttr "encrypted" (toString encrypted),
        escapedAttr "handler" (optionalIdentifier handler),
        plainAttr "version" (optionalNumber version),
        plainAttr "revision" (optionalNumber revision),
        escapedAttr "algorithm" (optionalIdentifier algorithm),
        plainAttr "decrypted" (toString decrypted)]
  | .xmp object fact =>
    emptyElement 8 "xmp"
      [plainAttr "object" s!"{object.number} {object.generation}",
        escapedAttr "fact" (xmpFactText fact)]

/-- `write_xml_parse_facts`. -/
def xmlParseFacts (facts : List ParseFact) : List WrittenLine :=
  if facts.isEmpty then [] else blockElement 6 "parseFacts" [] (facts.map xmlParseFact)

/-- `write_xml_warnings`. -/
def xmlWarnings (warnings : List ValidationWarning) (indent : Nat) : List WrittenLine :=
  if warnings.isEmpty then [] else
    blockElement indent "warnings" [] (warnings.map fun warning =>
      textElement (indent + 2) "warning" warning.messageText.text)

/-- `write_xml_batch_summary`. -/
def xmlBatchSummary (summary : BatchSummary) : List WrittenLine :=
  blockElement 2 "batchSummary"
    [plainAttr "totalJobs" (toString summary.totalFiles),
      plainAttr "failedToParse" (toString summary.parseFailures),
      plainAttr "encrypted" (toString summary.encrypted),
      plainAttr "incomplete" (toString summary.incomplete),
      plainAttr "internalErrors" (toString summary.internalErrors)]
    [⟨4, .element "validationReports"
        [plainAttr "compliant" (toString summary.valid),
          plainAttr "nonCompliant" (toString summary.invalid),
          plainAttr "failedJobs" (toString (saturateU64 (saturateU64 (saturateU64
            (summary.parseFailures + summary.encrypted) + summary.incomplete)
            + summary.internalErrors)))]
        (.plain (toString (saturateU64 (summary.valid + summary.invalid))))⟩,
      emptyElement 4 "duration" [plainAttr "elapsedMillis" (toString summary.elapsedMillis)]]

/-- The profile reports of an item. -/
def xmlProfiles (report : ValidationReport) : List WrittenLine :=
  report.profileReports.flatMap (xmlValidationReport report.status)

/-- The feature report and the policy report of an item. -/
def xmlExtracted (report : ValidationReport) : List WrittenLine :=
  report.featureReport.toList.flatMap xmlFeatureReport
    ++ report.policyReport.toList.flatMap xmlPolicyReport

/-- `write_xml_job`. -/
def xmlJob (report : ValidationReport) : List WrittenLine :=
  blockElement 4 "job" []
    (xmlItem report.source ++ xmlProfiles report
      ++ (if report.profileReports.isEmpty then xmlNoProfile report.status else [])
      ++ xmlParseFacts report.parseFacts ++ xmlExtracted report ++ xmlWarnings report.warnings 6)

/-- `write_xml_batch`. -/
def xmlBatch (report : BatchReport) : WrittenDocument where
  root := "report"
  attributes := []
  body :=
    blockElement 2 "buildInformation" []
        [emptyElement 4 "releaseDetails"
          [plainAttr "id" "pdfv-core", escapedAttr "version" engineVersion]]
      ++ blockElement 2 "jobs" [] (report.items.flatMap xmlJob)
      ++ xmlBatchSummary report.summary ++ xmlWarnings report.warnings 2

/-! ## The raw XML writer -/

/-- `raw_validation_tasks`. -/
def rawValidationTasks (report : BatchReport) : String :=
  ",".intercalate (["validation"]
    ++ (if report.items.any fun item => item.featureReport.isSome then ["features"] else [])
    ++ if report.items.any fun item => item.policyReport.isSome then ["policy"] else [])

/-- An item of `write_raw_xml_batch`. -/
def rawXmlResult (report : ValidationReport) : List WrittenLine :=
  blockElement 4 "processorResult" [plainAttr "status" (statusText report.status)]
    (xmlItem report.source ++ xmlProfiles report ++ xmlExtracted report
      ++ xmlParseFacts report.parseFacts ++ xmlWarnings report.warnings 6)

/-- `write_raw_xml_batch`. -/
def rawXmlBatch (report : BatchReport) : WrittenDocument where
  root := "rawReport"
  attributes := [plainAttr "engine" "pdfv-core", escapedAttr "version" engineVersion]
  body :=
    emptyElement 2 "processorConfig" [escapedAttr "tasks" (rawValidationTasks report)]
      :: (blockElement 2 "processorResults" [] (report.items.flatMap rawXmlResult)
        ++ xmlBatchSummary report.summary)

/-! ## The HTML writer -/

/-- `write_html_start`. -/
def htmlStart (title : String) : Except PdfvError (List Char) := do
  let title ← escapedText title
  return ("<!doctype html>\n".toList
    ++ "<html lang=\"en\"><head><meta charset=\"utf-8\"><title>".toList ++ title
    ++ ("</title><style>body\x7bfont-family:system-ui,sans-serif;margin:2rem;color:#1f2937\x7d"
      ++ "table\x7bborder-collapse:collapse;width:100%\x7d"
      ++ "th,td\x7bborder:1px solid #d1d5db;padding:.4rem;text-align:left\x7d"
      ++ "th\x7bbackground:#f3f4f6\x7d</style></head><body>\n").toList)

/-- A row of `write_html_batch`. -/
def htmlRow (item : ValidationReport) : Except PdfvError (List Char) := do
  let features := match item.featureReport with
    | some features => toString features.objects.length
    | none => "-"
  let policy := match item.policyReport with
    | some policy => if policy.isCompliant then "compliant" else "non-compliant"
    | none => "-"
  let source ← escapedText (sourceName item.source)
  let profiles ← escapedText (profileList item)
  return "<tr><td>".toList ++ source
    ++ s!"</td><td>{statusText item.status}</td><td>".toList ++ profiles
    ++ s!"</td><td>{features}</td><td>{policy}</td></tr>\n".toList

/-- `write_html_batch`. -/
def htmlBatch (report : BatchReport) : Except PdfvError String := do
  let opening ← htmlStart "pdfv validation report"
  let rows ← report.items.mapM htmlRow
  return String.ofList (opening
    ++ ("<h1>Validation Report</h1>\n"
      ++ s!"<p>{report.summary.valid} valid, {report.summary.invalid} invalid, "
      ++ s!"{report.summary.parseFailures} parse failed, {report.summary.encrypted} encrypted, "
      ++ s!"{report.summary.incomplete} incomplete.</p>\n"
      ++ "<table><thead><tr><th>Input</th><th>Status</th><th>Profiles</th><th>Features</th>"
      ++ "<th>Policy</th></tr></thead><tbody>\n").toList
    ++ rows.flatten ++ "</tbody></table>\n</body></html>\n".toList)

/-! ## Writing a report -/

/-- The formats that escape strings. -/
inductive MarkupFormat where
  | xml
  | rawXml
  | html
deriving DecidableEq, Repr

/-- The batch of one report. -/
def singleBatch (report : ValidationReport) : BatchReport :=
  .fromItems [report] [] 0

/-- `ReportFormat::write_report`: what is written to a sink that does not fail. -/
def writeReport (report : ValidationReport) : MarkupFormat → Except PdfvError String
  | .xml => (xmlBatch (singleBatch report)).written
  | .rawXml => (rawXmlBatch (singleBatch report)).written
  | .html => htmlBatch (singleBatch report)

end Pdfv
