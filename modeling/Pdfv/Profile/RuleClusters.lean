import Pdfv.Basic.Grouping
import Pdfv.Profile.Builtin
import Pdfv.Profile.ExprParser
/-!
# Clusters of unsupported rules

The unsupported rules of all profiles grouped by reason, profile family, type and what is missing,
and the burn-down of the clusters against those of an earlier report. Every rule is in exactly one
cluster (`clusterReport_partitions`), and the deltas of a burn-down, with the clusters that are new
and those that are gone, add up to the difference of the two reports (`burnDown_accounts`).
-/

namespace Pdfv

open Fallible Grouping

/-- `UnsupportedRuleParityEntry`. -/
structure UnsupportedRuleParityEntry where
  flavour : BoundedText
  source : BoundedText
  ruleId : Identifier
  objectType : ObjectTypeName
  primaryReason : BoundedText
  reason : BoundedText
  expressionFragment : BoundedText
deriving DecidableEq

/-! ## Keys -/

/-- `ClusterKey`. -/
structure ClusterKey where
  primaryReason : String
  profileFamily : String
  objectType : String
  property : Option String
  link : Option String
  semanticFamily : Option String
deriving DecidableEq, Repr

namespace ClusterKey

/-- The derived order: one field after the other. -/
def order : ClusterKey → ClusterKey → Ordering :=
  compareLex (compareOn primaryReason) <| compareLex (compareOn profileFamily) <|
    compareLex (compareOn objectType) <| compareLex (compareOn property) <|
      compareLex (compareOn link) (compareOn semanticFamily)

instance instOrd : Ord ClusterKey where
  compare := order

instance instTransOrd : Std.TransOrd ClusterKey :=
  inferInstanceAs (Std.TransCmp (compareLex (compareOn primaryReason) <|
    compareLex (compareOn profileFamily) <| compareLex (compareOn objectType) <|
      compareLex (compareOn property) <| compareLex (compareOn link) (compareOn semanticFamily)))

instance instLawfulEqOrd : Std.LawfulEqOrd ClusterKey where
  compare_self := Std.ReflCmp.compare_self
  eq_of_compare {a b} h := by
    obtain ⟨hreason, h⟩ := compareLex_eq_eq.mp h
    obtain ⟨hfamily, h⟩ := compareLex_eq_eq.mp h
    obtain ⟨htype, h⟩ := compareLex_eq_eq.mp h
    obtain ⟨hproperty, h⟩ := compareLex_eq_eq.mp h
    obtain ⟨hlink, hsemantic⟩ := compareLex_eq_eq.mp h
    cases a
    cases b
    cases Std.compare_eq_iff_eq.mp hreason
    cases Std.compare_eq_iff_eq.mp hfamily
    cases Std.compare_eq_iff_eq.mp htype
    cases Std.compare_eq_iff_eq.mp hproperty
    cases Std.compare_eq_iff_eq.mp hlink
    cases Std.compare_eq_iff_eq.mp hsemantic
    rfl

end ClusterKey

/-- `profile_family`: the text before the first hyphen. -/
def profileFamily (flavour : String) : String :=
  String.ofList (flavour.toList.takeWhile fun c => c ≠ '-')

/-- `reason_token`: the text between a prefix and the first occurrence of the text after it. -/
def reasonToken (reason start stop : String) : Option String :=
  (stripText start reason).bind fun rest =>
    (splitOnce stop.toList rest.toList).map fun (token, _) => String.ofList token

/-- `missing_property` and `missing_link`. -/
def missingToken (entry : UnsupportedRuleParityEntry) (primaryReason start : String) :
    Option String :=
  if entry.primaryReason.text = primaryReason then reasonToken entry.reason.text start " on "
  else none

/-- `missing_semantic_family`. -/
def missingSemanticFamily (entry : UnsupportedRuleParityEntry) : Option String :=
  if entry.primaryReason.text ≠ "missingSemanticFamily" then none
  else if ["undefinedOperator", "operator", "markedContent", "contentStream"].contains
      entry.objectType.text then some "contentStream"
  else some "accessibility"

/-- `ClusterKey::from_rule`. -/
def ClusterKey.fromRule (entry : UnsupportedRuleParityEntry) : ClusterKey where
  primaryReason := entry.primaryReason.text
  profileFamily := Pdfv.profileFamily entry.flavour.text
  objectType := entry.objectType.text
  property := missingToken entry "missingProperty" "unknown validation model property "
  link := missingToken entry "missingLink" "unknown validation model link "
  semanticFamily := missingSemanticFamily entry

/-- `ClusterKey::release_blocking`. -/
def ClusterKey.releaseBlocking (key : ClusterKey) : Bool :=
  key.profileFamily = "pdfa" || key.profileFamily = "pdfua"

/-- `is_g5_document_property`. -/
def isG5DocumentProperty (property : String) : Bool :=
  ["XMPTitle", "XMPProducer", "XMPKeywords", "XMPDescription", "XMPCreatorTool", "XMPCreator",
   "XMPCreatorSize", "doModDatesMatch", "doCreationDatesMatch", "part", "partPrefix", "rev",
   "revPrefix"].contains property

/-- The object types of the phases of `expected_phase`. -/
def phaseRows : List (String × List String) :=
  [("G3", ["font", "fontDescriptor", "fontProgram", "cMap", "embeddedFontFile"]),
   ("G4", ["resource", "colorSpace", "iccProfile", "extGState", "pattern", "shading", "function",
     "xObject", "formXObject", "postScriptXObject", "image", "outputIntent"]),
   ("G5", ["metadata"]),
   ("G6", ["accessibilityDocument", "structureTreeRoot", "structureElement", "textChunk",
     "imageChunk", "accessibilityAnnotation", "artifact", "table", "list", "heading", "link"])]

/-- `ClusterKey::expected_phase`. -/
def ClusterKey.expectedPhase (key : ClusterKey) : String :=
  if key.primaryReason = "unsupportedExpression" then "G1"
  else if key.primaryReason = "missingSemanticFamily" ∧ key.semanticFamily = some "contentStream" then
    "G4"
  else if key.primaryReason = "missingSemanticFamily" ∧ key.semanticFamily = some "accessibility" then
    "G6"
  else if key.primaryReason = "missingProperty" ∧ key.objectType = "document"
      ∧ key.property.any isG5DocumentProperty = true then "G5"
  else ((phaseRows.find? fun row => row.2.contains key.objectType).map Prod.fst).getD "G2"

/-- `owner_spec_for_cluster`. -/
def ownerSpecForCluster (key : ClusterKey) : String × String :=
  if key.primaryReason = "unsupportedExpression" then
    ("12-profile-rule-ir-design.md", "Expression parity")
  else if key.expectedPhase = "G3" ∨ key.expectedPhase = "G4" then
    ("22-resource-font-color-semantics-design.md", "Resource semantics")
  else if key.expectedPhase = "G5" then ("18-xmp-metadata-flavour-design.md", "XMP RDF metadata")
  else if key.expectedPhase = "G6" then
    ("23-structure-accessibility-design.md", "Accessibility semantics")
  else ("17-validation-model-parity-design.md", "Derived model properties")

/-- `ClusterKey::owner_spec`. -/
def ClusterKey.ownerSpec (key : ClusterKey) : Except PdfvError SpecReference := do
  let specification ← BoundedText.new (ownerSpecForCluster key).1 128
  let clause ← BoundedText.new (ownerSpecForCluster key).2 128
  return ⟨specification, clause⟩

/-! ## Clusters -/

/-- `UnsupportedRuleClusterExample`. -/
structure UnsupportedRuleClusterExample where
  flavour : BoundedText
  ruleId : Identifier
  reason : BoundedText
  expressionFragment : BoundedText
deriving DecidableEq, Repr

/-- `UnsupportedRuleCluster`. -/
structure UnsupportedRuleCluster where
  primaryReason : BoundedText
  profileFamily : BoundedText
  objectType : ObjectTypeName
  property : Option PropertyName
  link : Option PropertyName
  semanticFamily : Option BoundedText
  ruleCount : Nat
  releaseBlocking : Bool
  ownerSpec : SpecReference
  expectedPhase : BoundedText
  examples : List UnsupportedRuleClusterExample
deriving DecidableEq

/-- `ClusterKey::from_cluster`. -/
def ClusterKey.fromCluster (cluster : UnsupportedRuleCluster) : ClusterKey where
  primaryReason := cluster.primaryReason.text
  profileFamily := cluster.profileFamily.text
  objectType := cluster.objectType.text
  property := cluster.property
  link := cluster.link
  semanticFamily := cluster.semanticFamily.map BoundedText.text

/-- `ClusterAccumulator`. -/
structure ClusterAccumulator where
  ruleCount : Nat := 0
  examples : List UnsupportedRuleClusterExample := []

/-- The example that shows a rule. -/
def UnsupportedRuleParityEntry.asExample (entry : UnsupportedRuleParityEntry) :
    UnsupportedRuleClusterExample :=
  ⟨entry.flavour, entry.ruleId, entry.reason, entry.expressionFragment⟩

/-- `ClusterAccumulator::push`. -/
def ClusterAccumulator.push (cluster : ClusterAccumulator) (entry : UnsupportedRuleParityEntry) :
    ClusterAccumulator where
  ruleCount := saturateU64 (cluster.ruleCount + 1)
  examples :=
    if cluster.examples.length < 3 then cluster.examples ++ [entry.asExample] else cluster.examples

/-- `PropertyName::new`. -/
def newPropertyName (value : String) : Except PdfvError PropertyName :=
  (newIdentifier value).map Identifier.text

/-- `ObjectTypeName::new`. -/
def newObjectTypeName (value : String) : Except PdfvError ObjectTypeName :=
  (newIdentifier value).map fun name => ObjectTypeName.ofText name.text

/-- `ClusterAccumulator::finish`. -/
def ClusterAccumulator.finish (cluster : ClusterAccumulator) (key : ClusterKey) :
    Except PdfvError UnsupportedRuleCluster := do
  let ownerSpec ← key.ownerSpec
  let expectedPhase ← BoundedText.new key.expectedPhase 16
  let primaryReason ← BoundedText.new key.primaryReason 128
  let profileFamily ← BoundedText.new key.profileFamily 64
  let objectType ← newObjectTypeName key.objectType
  let property ← key.property.mapM newPropertyName
  let link ← key.link.mapM newPropertyName
  let semanticFamily ← key.semanticFamily.mapM fun family => BoundedText.new family 128
  return {
    primaryReason, profileFamily, objectType, property, link, semanticFamily, ownerSpec,
    expectedPhase
    ruleCount := cluster.ruleCount
    releaseBlocking := key.releaseBlocking
    examples := cluster.examples }

/-- `UnsupportedRuleClusterSummary`. -/
structure UnsupportedRuleClusterSummary where
  totalRules : Nat := 0
  totalClusters : Nat := 0
  releaseBlockingRules : Nat := 0
  releaseBlockingClusters : Nat := 0
deriving DecidableEq, Repr

/-- The loop of `UnsupportedRuleClusterSummary::from_clusters`. -/
def UnsupportedRuleClusterSummary.add (summary : UnsupportedRuleClusterSummary)
    (cluster : UnsupportedRuleCluster) : UnsupportedRuleClusterSummary :=
  let summary := { summary with totalRules := saturateU64 (summary.totalRules + cluster.ruleCount) }
  if cluster.releaseBlocking then
    { summary with
      releaseBlockingClusters := saturateU64 (summary.releaseBlockingClusters + 1)
      releaseBlockingRules := saturateU64 (summary.releaseBlockingRules + cluster.ruleCount) }
  else summary

/-- `UnsupportedRuleClusterSummary::from_clusters`. -/
def UnsupportedRuleClusterSummary.fromClusters (clusters : List UnsupportedRuleCluster) :
    UnsupportedRuleClusterSummary :=
  clusters.foldl UnsupportedRuleClusterSummary.add { totalClusters := saturateU64 clusters.length }

/-- `UnsupportedRuleClusterReport`, without the schema version and the vendor pins. -/
structure UnsupportedRuleClusterReport where
  summary : UnsupportedRuleClusterSummary
  clusters : List UnsupportedRuleCluster

/-- The clusters before they are finished. -/
def collectClusters (entries : List UnsupportedRuleParityEntry) :
    OrdMap ClusterKey ClusterAccumulator :=
  collect ClusterKey.fromRule {} ClusterAccumulator.push entries

/-- `unsupported_rule_cluster_report_from_rules`. -/
def unsupportedRuleClusterReportFromRules (entries : List UnsupportedRuleParityEntry) :
    Except PdfvError UnsupportedRuleClusterReport := do
  let clusters ← (collectClusters entries).entries.mapM fun (key, cluster) => cluster.finish key
  return ⟨UnsupportedRuleClusterSummary.fromClusters clusters, clusters⟩

/-! ## The burn-down -/

/-- `signed_count_delta`. -/
def signedCountDelta (current previous : Nat) : Int :=
  if current ≥ previous then ((min (current - previous) (isizeSize - 1) : Nat) : Int)
  else -((min (previous - current) (isizeSize - 1) : Nat) : Int)

/-- `RuleBurnDownCluster`: a cluster with its count in the earlier report. -/
structure RuleBurnDownCluster where
  cluster : UnsupportedRuleCluster
  previousRules : Option Nat
  deltaRules : Option Int
deriving DecidableEq

/-- The counts of a report by key; of two clusters with one key the last counts. -/
def previousCounts (report : UnsupportedRuleClusterReport) : OrdMap ClusterKey Nat :=
  report.clusters.foldl
    (fun counts cluster => counts.insert (ClusterKey.fromCluster cluster) cluster.ruleCount)
    OrdMap.empty

/-- A row of the burn-down. -/
def burnDownRow (counts : OrdMap ClusterKey Nat) (cluster : UnsupportedRuleCluster) :
    RuleBurnDownCluster :=
  let previous := counts.get? (ClusterKey.fromCluster cluster)
  ⟨cluster, previous, previous.map (signedCountDelta cluster.ruleCount)⟩

/-- The order of `largest_clusters`: by count, the largest first, then by the texts. -/
def largestOrder : RuleBurnDownCluster → RuleBurnDownCluster → Ordering :=
  compareLex (fun a b => compare b.cluster.ruleCount a.cluster.ruleCount) <|
    compareLex (compareOn fun row => row.cluster.primaryReason.text) <|
      compareLex (compareOn fun row => row.cluster.profileFamily.text) <|
        compareLex (compareOn fun row => row.cluster.objectType.text) <|
          compareLex (compareOn fun row => row.cluster.property.getD "")
            (compareOn fun row => row.cluster.link.getD "")

/-- `RuleBurnDownReport`, without the schema version. -/
structure RuleBurnDownReport where
  currentSummary : UnsupportedRuleClusterSummary
  previousSummary : Option UnsupportedRuleClusterSummary
  clusters : List RuleBurnDownCluster
  largestClusters : List RuleBurnDownCluster

/-- `rule_burn_down_report_from_clusters`. -/
def ruleBurnDownReportFromClusters (current : UnsupportedRuleClusterReport)
    (previous : Option UnsupportedRuleClusterReport) : RuleBurnDownReport :=
  let counts := (previous.map previousCounts).getD OrdMap.empty
  let rows := current.clusters.map (burnDownRow counts)
  { currentSummary := current.summary
    previousSummary := previous.map UnsupportedRuleClusterReport.summary
    clusters := rows
    largestClusters := (rows.mergeSort fun a b => (largestOrder a b).isLE).take 20 }

/-! ## The clusters partition the rules -/

/-- The rules of a cluster. -/
abbrev rulesOf (key : ClusterKey) (entries : List UnsupportedRuleParityEntry) :
    List UnsupportedRuleParityEntry :=
  members ClusterKey.fromRule key entries

namespace ClusterAccumulator

theorem push_examples (cluster : ClusterAccumulator) (entry : UnsupportedRuleParityEntry)
    {shown : List UnsupportedRuleClusterExample} (h : cluster.examples = shown.take 3) :
    (cluster.push entry).examples = (shown ++ [entry.asExample]).take 3 := by
  unfold push
  rw [h]
  by_cases hlt : shown.length < 3
  · rw [List.take_of_length_le (by omega), if_pos hlt, List.take_of_length_le]
    rw [List.length_append, List.length_singleton]
    omega
  · rw [if_neg (by rw [List.length_take]; omega), List.take_append_of_le_length (by omega)]

/-- A cluster counts its rules and shows the first three. -/
theorem foldl_push (entries : List UnsupportedRuleParityEntry) :
    (entries.foldl push {}).ruleCount = saturateU64 entries.length
      ∧ (entries.foldl push {}).examples
          = (entries.map UnsupportedRuleParityEntry.asExample).take 3 := by
  induction entries using List.reverseRecOn with
  | nil => exact ⟨rfl, rfl⟩
  | append_singleton entries entry ih =>
    obtain ⟨hcount, hexamples⟩ := ih
    rw [List.foldl_append, List.map_append, List.length_append]
    refine ⟨?_, push_examples _ entry hexamples⟩
    have hstep : ([entry].foldl push (entries.foldl push {})).ruleCount
        = saturateU64 ((entries.foldl push {}).ruleCount + 1) := rfl
    rw [hstep, hcount, saturateU64_add]
    rfl

end ClusterAccumulator

theorem newIdentifier_text {value : String} {identifier : Identifier}
    (h : newIdentifier value = .ok identifier) : identifier.text = value := by
  unfold newIdentifier Identifier.new at h
  dsimp only at h
  split_ifs at h
  cases h
  rfl

theorem ObjectTypeName.text_ofText (name : String) : (ObjectTypeName.ofText name).text = name := by
  unfold ObjectTypeName.ofText
  split
  · rename_i found hfound
    unfold Family.ofText at hfound
    simpa [text] using List.find?_some hfound
  · rfl

theorem newPropertyName_ok {value : String} {name : PropertyName}
    (h : newPropertyName value = .ok name) : name = value := by
  unfold newPropertyName at h
  cases hnew : newIdentifier value with
  | error e =>
    rw [hnew] at h
    cases h
  | ok identifier =>
    rw [hnew] at h
    cases h
    exact newIdentifier_text hnew

theorem newObjectTypeName_ok {value : String} {name : ObjectTypeName}
    (h : newObjectTypeName value = .ok name) : name.text = value := by
  unfold newObjectTypeName at h
  cases hnew : newIdentifier value with
  | error e =>
    rw [hnew] at h
    cases h
  | ok identifier =>
    rw [hnew] at h
    cases h
    rw [ObjectTypeName.text_ofText, newIdentifier_text hnew]

/-- An optional text that is checked keeps its text. -/
theorem optionMapM_ok {α β : Type} {f : α → Except PdfvError β} {g : β → α}
    (hf : ∀ a b, f a = .ok b → g b = a) {o : Option α} {r : Option β} (h : o.mapM f = .ok r) :
    r.map g = o := by
  cases o with
  | none =>
    cases pure_eq_ok.mp h
    rfl
  | some a =>
    rw [Option.mapM_some, map_eq_pure_bind] at h
    obtain ⟨b, hb, h⟩ := bind_eq_ok.mp h
    cases pure_eq_ok.mp h
    rw [Option.map_some, hf a b hb]

/-- A finished cluster has the key it was collected under. -/
theorem ClusterAccumulator.finish_ok {cluster : ClusterAccumulator} {key : ClusterKey}
    {finished : UnsupportedRuleCluster} (h : cluster.finish key = .ok finished) :
    ClusterKey.fromCluster finished = key ∧ finished.ruleCount = cluster.ruleCount
      ∧ finished.examples = cluster.examples ∧ finished.releaseBlocking = key.releaseBlocking
      ∧ finished.expectedPhase.text = key.expectedPhase := by
  unfold finish at h
  obtain ⟨ownerSpec, -, h⟩ := bind_eq_ok.mp h
  obtain ⟨expectedPhase, hphase, h⟩ := bind_eq_ok.mp h
  obtain ⟨primaryReason, hreason, h⟩ := bind_eq_ok.mp h
  obtain ⟨profileFamily, hfamily, h⟩ := bind_eq_ok.mp h
  obtain ⟨objectType, htype, h⟩ := bind_eq_ok.mp h
  obtain ⟨property, hproperty, h⟩ := bind_eq_ok.mp h
  obtain ⟨link, hlink, h⟩ := bind_eq_ok.mp h
  obtain ⟨semanticFamily, hsemantic, h⟩ := bind_eq_ok.mp h
  cases pure_eq_ok.mp h
  refine ⟨?_, rfl, rfl, rfl, ?_⟩
  · have hsame := optionMapM_ok (g := id) (fun _ _ => newPropertyName_ok) hproperty
    have hsame' := optionMapM_ok (g := id) (fun _ _ => newPropertyName_ok) hlink
    have hsame'' := optionMapM_ok (g := BoundedText.text)
      (fun a b hb => by rw [(BoundedText.new_eq_ok hb).1]) hsemantic
    rw [Option.map_id] at hsame hsame'
    unfold ClusterKey.fromCluster
    dsimp only
    rw [(BoundedText.new_eq_ok hreason).1, (BoundedText.new_eq_ok hfamily).1,
      newObjectTypeName_ok htype, hsame'', show property = key.property from hsame,
      show link = key.link from hsame']
  · rw [(BoundedText.new_eq_ok hphase).1]

theorem mapM_map_eq {α β γ : Type} {f : α → Except PdfvError β} {g : β → γ} {key : α → γ}
    (hf : ∀ a b, f a = .ok b → g b = key a) {l : List α} {r : List β} (h : l.mapM f = .ok r) :
    r.map g = l.map key := by
  induction l generalizing r with
  | nil =>
    cases pure_eq_ok.mp h
    rfl
  | cons a rest ih =>
    rw [List.mapM_cons] at h
    obtain ⟨b, hb, h⟩ := bind_eq_ok.mp h
    obtain ⟨r', hr', h⟩ := bind_eq_ok.mp h
    cases pure_eq_ok.mp h
    rw [List.map_cons, List.map_cons, hf a b hb, ih hr']

section Partition

variable {entries : List UnsupportedRuleParityEntry} {report : UnsupportedRuleClusterReport}

theorem clusterReport_clusters (h : unsupportedRuleClusterReportFromRules entries = .ok report) :
    (collectClusters entries).entries.mapM (fun (key, cluster) => cluster.finish key)
        = .ok report.clusters
      ∧ report.summary = UnsupportedRuleClusterSummary.fromClusters report.clusters := by
  unfold unsupportedRuleClusterReportFromRules at h
  obtain ⟨clusters, hclusters, h⟩ := bind_eq_ok.mp h
  cases pure_eq_ok.mp h
  exact ⟨hclusters, rfl⟩

/-- The keys of the clusters are those of the rules, each once and in order. -/
theorem clusterReport_keys (h : unsupportedRuleClusterReportFromRules entries = .ok report) :
    (report.clusters.map ClusterKey.fromCluster).Pairwise (fun a b => compare a b = .lt)
      ∧ (report.clusters.map ClusterKey.fromCluster).Nodup
      ∧ ∀ key, key ∈ report.clusters.map ClusterKey.fromCluster
          ↔ ∃ entry ∈ entries, ClusterKey.fromRule entry = key := by
  have hkeys : report.clusters.map ClusterKey.fromCluster
      = (collectClusters entries).entries.map Prod.fst :=
    mapM_map_eq (fun _ _ hfinish => (ClusterAccumulator.finish_ok hfinish).1)
      (clusterReport_clusters h).1
  rw [hkeys]
  obtain ⟨hnodup, hmem⟩ := keys_collect ClusterKey.fromRule {} ClusterAccumulator.push entries
  exact ⟨(OrdList.sorted_iff_keys _).mp (collectClusters entries).sorted, hnodup, hmem⟩

/-- A cluster counts the rules of its key and shows the first three of them. -/
theorem clusterReport_counts (h : unsupportedRuleClusterReportFromRules entries = .ok report)
    {cluster : UnsupportedRuleCluster} (hmem : cluster ∈ report.clusters) :
    cluster.ruleCount = saturateU64 (rulesOf (ClusterKey.fromCluster cluster) entries).length
      ∧ cluster.examples = ((rulesOf (ClusterKey.fromCluster cluster) entries).map
          UnsupportedRuleParityEntry.asExample).take 3
      ∧ cluster.releaseBlocking = (ClusterKey.fromCluster cluster).releaseBlocking
      ∧ cluster.expectedPhase.text = (ClusterKey.fromCluster cluster).expectedPhase := by
  obtain ⟨⟨key, collected⟩, hentry, hfinish⟩ := mem_mapM_ok (clusterReport_clusters h).1 hmem
  obtain ⟨hkey, hcount, hexamples, hblocking, hphase⟩ := ClusterAccumulator.finish_ok hfinish
  have hget := OrdMap.mem_entries_iff.mp hentry
  unfold collectClusters at hget
  rw [get?_collect] at hget
  split_ifs at hget
  cases hget
  obtain ⟨hpushed, hshown⟩ := ClusterAccumulator.foldl_push (rulesOf key entries)
  rw [hkey]
  exact ⟨hcount.trans hpushed, hexamples.trans hshown, hblocking, hphase⟩

/-! ## Sums over the clusters -/

theorem saturateU64_sum {α : Type} (f : α → Nat) (items : List α) :
    saturateU64 (items.map fun a => saturateU64 (f a)).sum = saturateU64 (items.map f).sum := by
  induction items with
  | nil => rfl
  | cons a items ih =>
    rw [List.map_cons, List.map_cons, List.sum_cons, List.sum_cons, saturateU64_add, Nat.add_comm,
      ← saturateU64_add, ih, saturateU64_add, Nat.add_comm]

/-- What the summary says of clusters of these sizes. -/
theorem UnsupportedRuleClusterSummary.foldl_add (n : Nat) (clusters : List UnsupportedRuleCluster) :
    clusters.foldl add { totalClusters := n } =
      { totalRules := saturateU64 (clusters.map UnsupportedRuleCluster.ruleCount).sum
        totalClusters := n
        releaseBlockingRules := saturateU64
          ((clusters.filter UnsupportedRuleCluster.releaseBlocking).map
            UnsupportedRuleCluster.ruleCount).sum
        releaseBlockingClusters := saturateU64
          (clusters.filter UnsupportedRuleCluster.releaseBlocking).length } := by
  induction clusters using List.reverseRecOn with
  | nil => rfl
  | append_singleton clusters cluster ih =>
    rw [List.foldl_append, ih, List.filter_append, List.map_append, List.map_append,
      List.sum_append, List.sum_append, List.length_append, List.foldl_cons, List.foldl_nil]
    unfold add
    dsimp only
    by_cases hblocking : cluster.releaseBlocking = true
    · rw [if_pos hblocking, List.filter_cons_of_pos hblocking, saturateU64_add, saturateU64_add,
        saturateU64_add]
      rfl
    · rw [if_neg hblocking, List.filter_cons_of_neg hblocking, saturateU64_add]
      rfl

/-- The clusters of some keys hold the rules of these keys. -/
theorem sum_ruleCount (h : unsupportedRuleClusterReportFromRules entries = .ok report)
    (chosen : ClusterKey → Bool) :
    saturateU64 ((report.clusters.filter fun cluster =>
        chosen (ClusterKey.fromCluster cluster)).map UnsupportedRuleCluster.ruleCount).sum
      = saturateU64 (entries.filter fun entry => chosen (ClusterKey.fromRule entry)).length := by
  obtain ⟨-, hnodup, hmem⟩ := clusterReport_keys h
  let kept := report.clusters.filter fun cluster => chosen (ClusterKey.fromCluster cluster)
  let rules := entries.filter fun entry => chosen (ClusterKey.fromRule entry)
  have hkept : kept.map ClusterKey.fromCluster
      = (report.clusters.map ClusterKey.fromCluster).filter chosen := by
    rw [List.filter_map]
    rfl
  have hcount : kept.map UnsupportedRuleCluster.ruleCount
      = (kept.map ClusterKey.fromCluster).map fun key => saturateU64 (rulesOf key rules).length := by
    rw [List.map_map]
    refine List.map_congr_left fun cluster hcluster => ?_
    obtain ⟨hcluster, hchosen⟩ := List.mem_filter.mp hcluster
    rw [(clusterReport_counts h hcluster).1, Function.comp_apply]
    congr 2
    unfold rulesOf members
    rw [List.filter_filter]
    refine List.filter_congr fun entry _ => ?_
    by_cases hkey : ClusterKey.fromRule entry = ClusterKey.fromCluster cluster
    · simp [hkey, hchosen]
    · simp [hkey]
  have hsum := sum_length_members ClusterKey.fromRule (hnodup.filter chosen) rules (by
    intro entry hentry
    obtain ⟨hentry, hchosen⟩ := List.mem_filter.mp hentry
    exact List.mem_filter.mpr ⟨(hmem _).mpr ⟨entry, hentry, rfl⟩, hchosen⟩)
  rw [← hkept] at hsum
  rw [hcount, saturateU64_sum, hsum]

/-- Every unsupported rule is in exactly one cluster, under its own key; a cluster counts its rules
and shows the first three; and the summary counts the rules, all of them and the blocking ones. -/
theorem clusterReport_partitions (entries : List UnsupportedRuleParityEntry)
    (report : UnsupportedRuleClusterReport)
    (h : unsupportedRuleClusterReportFromRules entries = .ok report) :
    ((report.clusters.map ClusterKey.fromCluster).Pairwise fun a b => compare a b = .lt)
      ∧ (∀ key, key ∈ report.clusters.map ClusterKey.fromCluster
          ↔ ∃ entry ∈ entries, ClusterKey.fromRule entry = key)
      ∧ (∀ cluster ∈ report.clusters,
          cluster.ruleCount = saturateU64 (rulesOf (ClusterKey.fromCluster cluster) entries).length
            ∧ cluster.examples = ((rulesOf (ClusterKey.fromCluster cluster) entries).map
                UnsupportedRuleParityEntry.asExample).take 3)
      ∧ report.summary =
          { totalRules := saturateU64 entries.length
            totalClusters := saturateU64 report.clusters.length
            releaseBlockingRules := saturateU64
              (entries.filter fun entry => (ClusterKey.fromRule entry).releaseBlocking).length
            releaseBlockingClusters := saturateU64 (report.clusters.filter fun cluster =>
              (ClusterKey.fromCluster cluster).releaseBlocking).length } := by
  obtain ⟨hsorted, -, hmem⟩ := clusterReport_keys h
  refine ⟨hsorted, hmem, fun cluster hcluster => ?_, ?_⟩
  · obtain ⟨hcount, hexamples, -, -⟩ := clusterReport_counts h hcluster
    exact ⟨hcount, hexamples⟩
  · have hblocking : report.clusters.filter UnsupportedRuleCluster.releaseBlocking
        = report.clusters.filter fun cluster =>
            (ClusterKey.fromCluster cluster).releaseBlocking :=
      List.filter_congr fun cluster hcluster => (clusterReport_counts h hcluster).2.2.1
    have hall := sum_ruleCount h fun _ => true
    rw [List.filter_true, List.filter_true] at hall
    rw [(clusterReport_clusters h).2]
    unfold UnsupportedRuleClusterSummary.fromClusters
    rw [UnsupportedRuleClusterSummary.foldl_add, hblocking, hall,
      sum_ruleCount h ClusterKey.releaseBlocking]

/-- Rules of two families, one of them blocking. -/
def formerRules : List UnsupportedRuleParityEntry :=
  [⟨⟨"pdfa-1b"⟩, ⟨"PDFA-1B.xml"⟩, ⟨"6.1.2-1"⟩, .family .font, ⟨"missingProperty"⟩,
    ⟨"unknown validation model property isSubset on font"⟩, ⟨"isSubset == true"⟩⟩,
   ⟨⟨"wtpdf-1"⟩, ⟨"WTPDF.xml"⟩, ⟨"8.2-1"⟩, .family .page, ⟨"unsupportedExpression"⟩,
    ⟨"unsupported"⟩, ⟨"a % b"⟩⟩]

theorem exists_ok {α : Type} {x : Except PdfvError α} (h : x.isOk = true) : ∃ a, x = .ok a := by
  cases x with
  | error e => cases h
  | ok a => exact ⟨a, rfl⟩

theorem clusterReport_partitions_two :
    ∃ report, unsupportedRuleClusterReportFromRules formerRules = .ok report
      ∧ report.summary.totalRules = 2 ∧ report.summary.releaseBlockingRules = 1 := by
  obtain ⟨report, hreport⟩ := exists_ok
    (show (unsupportedRuleClusterReportFromRules formerRules).isOk = true by decide +kernel)
  obtain ⟨-, -, -, hsummary⟩ := clusterReport_partitions formerRules report hreport
  have htotal : report.summary.totalRules = saturateU64 formerRules.length :=
    congrArg UnsupportedRuleClusterSummary.totalRules hsummary
  have hblocking : report.summary.releaseBlockingRules = saturateU64
      (formerRules.filter fun entry => (ClusterKey.fromRule entry).releaseBlocking).length :=
    congrArg UnsupportedRuleClusterSummary.releaseBlockingRules hsummary
  exact ⟨report, hreport, htotal.trans (by decide), hblocking.trans (by decide +kernel)⟩

end Partition

/-! ## The burn-down accounts for the difference -/

theorem foldl_last {α β : Type} (f : α → β) {b : β} :
    ∀ (items : List α) (start : β), (∀ a ∈ items, f a = b) → items ≠ [] →
      items.foldl (fun _ a => f a) start = b := by
  intro items start hall hne
  rw [← List.dropLast_append_getLast hne, List.foldl_append]
  exact hall _ (List.getLast_mem hne)

/-- The counts of a report are those of the rules it was made from. -/
theorem previousCounts_get? {before : List UnsupportedRuleParityEntry}
    {previous : UnsupportedRuleClusterReport}
    (h : unsupportedRuleClusterReportFromRules before = .ok previous) (key : ClusterKey) :
    (previousCounts previous).get? key
      = if rulesOf key before = [] then none
        else some (saturateU64 (rulesOf key before).length) := by
  have hcounts : previousCounts previous
      = collect ClusterKey.fromCluster 0 (fun _ cluster => cluster.ruleCount) previous.clusters := rfl
  have hnil : members ClusterKey.fromCluster key previous.clusters = []
      ↔ rulesOf key before = [] := by
    have hmem := (clusterReport_keys h).2.2 key
    unfold rulesOf members
    rw [List.filter_eq_nil_iff, List.filter_eq_nil_iff]
    rw [List.mem_map] at hmem
    simpa using not_congr hmem
  rw [hcounts, get?_collect]
  by_cases hkey : rulesOf key before = []
  · rw [if_pos hkey, if_pos (hnil.mpr hkey)]
  · rw [if_neg hkey, if_neg (mt hnil.mp hkey)]
    refine congrArg some (foldl_last _ _ _ (fun cluster hcluster => ?_) (mt hnil.mp hkey))
    obtain ⟨hcluster, hsame⟩ := List.mem_filter.mp hcluster
    rw [(clusterReport_counts h hcluster).1, of_decide_eq_true hsame]

theorem signedCountDelta_eq {current previous : Nat} (h : current < isizeSize)
    (h' : previous < isizeSize) :
    signedCountDelta current previous = (current : Int) - previous := by
  unfold signedCountDelta
  split <;> omega

instance instTransLargestOrder : Std.TransCmp largestOrder := by
  unfold largestOrder
  have hcount : Std.TransCmp fun a b : RuleBurnDownCluster =>
      compare b.cluster.ruleCount a.cluster.ruleCount :=
    @Std.TransCmp.opposite _ (compareOn fun row : RuleBurnDownCluster => row.cluster.ruleCount) _
  infer_instance

theorem ruleCount_le_of_largestOrder {a b : RuleBurnDownCluster}
    (h : (largestOrder a b).isLE = true) : b.cluster.ruleCount ≤ a.cluster.ruleCount := by
  unfold largestOrder compareLex at h
  by_contra hlt
  have hgt : compare b.cluster.ruleCount a.cluster.ruleCount = .gt :=
    Nat.compare_eq_gt.mpr (by omega)
  dsimp only at h
  rw [hgt] at h
  cases h

/-- The rows ordered by size: the first twenty are the largest. -/
theorem largest_first (rows : List RuleBurnDownCluster) :
    ∃ rest, ((rows.mergeSort fun a b => (largestOrder a b).isLE).take 20 ++ rest).Perm rows
      ∧ ((rows.mergeSort fun a b => (largestOrder a b).isLE).take 20).length = min 20 rows.length
      ∧ ((rows.mergeSort fun a b => (largestOrder a b).isLE).take 20 ++ rest).Pairwise
          fun a b => b.cluster.ruleCount ≤ a.cluster.ruleCount := by
  let sorted := rows.mergeSort fun a b => (largestOrder a b).isLE
  have hsorted : sorted.Pairwise fun a b => (largestOrder a b).isLE = true :=
    List.pairwise_mergeSort (fun _ _ _ => Std.TransCmp.isLE_trans)
      (fun a b => by
        rw [@Std.OrientedCmp.eq_swap _ largestOrder _ b a]
        cases largestOrder a b <;> rfl) rows
  refine ⟨sorted.drop 20, ?_, ?_, ?_⟩
  · rw [List.take_append_drop]
    exact List.mergeSort_perm rows _
  · rw [List.length_take, (List.mergeSort_perm rows _).length_eq]
  · rw [List.take_append_drop]
    exact hsorted.imp ruleCount_le_of_largestOrder

theorem sum_map_sub {α : Type} (f g : α → Nat) (items : List α) :
    (items.map fun a => (f a : Int) - g a).sum
      = ((items.map f).sum : Int) - ((items.map g).sum : Nat) := by
  induction items with
  | nil => rfl
  | cons a items ih =>
    rw [List.map_cons, List.map_cons, List.map_cons, List.sum_cons, List.sum_cons, List.sum_cons, ih]
    omega

section BurnDown

variable {before entries : List UnsupportedRuleParityEntry}
  {previous current : UnsupportedRuleClusterReport}

theorem rulesOf_length_lt {size : Nat} (h : entries.length < size) (key : ClusterKey) :
    (rulesOf key entries).length < size :=
  lt_of_le_of_lt (List.length_filter_le _ _) h

theorem ruleCount_eq (h : unsupportedRuleClusterReportFromRules entries = .ok current)
    (hfit : entries.length < isizeSize) {cluster : UnsupportedRuleCluster}
    (hmem : cluster ∈ current.clusters) :
    cluster.ruleCount = (rulesOf (ClusterKey.fromCluster cluster) entries).length := by
  rw [(clusterReport_counts h hmem).1]
  exact saturateU64_of_lt (lt_trans (rulesOf_length_lt hfit _) (by decide))

/-- A row: the count before of a cluster that was there before, and the change since. -/
theorem burnDownRow_counts (hbefore : unsupportedRuleClusterReportFromRules before = .ok previous)
    (hcurrent : unsupportedRuleClusterReportFromRules entries = .ok current)
    (hfit : before.length < isizeSize) (hfit' : entries.length < isizeSize)
    {cluster : UnsupportedRuleCluster} (hmem : cluster ∈ current.clusters) {key : ClusterKey}
    (hkey : ClusterKey.fromCluster cluster = key) :
    burnDownRow (previousCounts previous) cluster
      = if rulesOf key before = [] then ⟨cluster, none, none⟩
        else ⟨cluster, some (rulesOf key before).length,
          some ((rulesOf key entries).length - (rulesOf key before).length)⟩ := by
  unfold burnDownRow
  dsimp only
  rw [hkey, previousCounts_get? hbefore, ruleCount_eq hcurrent hfit' hmem, hkey]
  by_cases hnew : rulesOf key before = []
  · rw [if_pos hnew, if_pos hnew]
    rfl
  · rw [if_neg hnew, if_neg hnew, saturateU64_of_lt
      (lt_trans (rulesOf_length_lt hfit key) (by decide)), Option.map_some,
      signedCountDelta_eq (rulesOf_length_lt hfit' key) (rulesOf_length_lt hfit key)]

/-- What a row adds to the balance, the whole count for a cluster that is new. -/
theorem burnDownRow_change (hbefore : unsupportedRuleClusterReportFromRules before = .ok previous)
    (hcurrent : unsupportedRuleClusterReportFromRules entries = .ok current)
    (hfit : before.length < isizeSize) (hfit' : entries.length < isizeSize)
    {cluster : UnsupportedRuleCluster} (hmem : cluster ∈ current.clusters) :
    (burnDownRow (previousCounts previous) cluster).deltaRules.getD cluster.ruleCount
      = ((rulesOf (ClusterKey.fromCluster cluster) entries).length : Int)
        - (rulesOf (ClusterKey.fromCluster cluster) before).length := by
  rw [burnDownRow_counts hbefore hcurrent hfit hfit' hmem rfl]
  by_cases hnew : rulesOf (ClusterKey.fromCluster cluster) before = []
  · rw [if_pos hnew, hnew, ruleCount_eq hcurrent hfit' hmem, List.length_nil]
    exact (sub_zero _).symm
  · rw [if_neg hnew, Option.getD_some]

/-- The changes of the rows add up to the rules now less those before under a key of now. -/
theorem sum_change (hbefore : unsupportedRuleClusterReportFromRules before = .ok previous)
    (hcurrent : unsupportedRuleClusterReportFromRules entries = .ok current)
    (hfit : before.length < isizeSize) (hfit' : entries.length < isizeSize) :
    ((current.clusters.map (burnDownRow (previousCounts previous))).map fun row =>
        row.deltaRules.getD row.cluster.ruleCount).sum
      = (entries.length : Int) - (before.filter fun entry => decide
          (ClusterKey.fromRule entry ∈ current.clusters.map ClusterKey.fromCluster)).length := by
  obtain ⟨-, hnodup, hmem⟩ := clusterReport_keys hcurrent
  let keys := current.clusters.map ClusterKey.fromCluster
  let kept := before.filter fun entry => decide (ClusterKey.fromRule entry ∈ keys)
  have hrows : ((current.clusters.map (burnDownRow (previousCounts previous))).map fun row =>
      row.deltaRules.getD row.cluster.ruleCount)
      = keys.map fun key => ((rulesOf key entries).length : Int) - (rulesOf key kept).length := by
    rw [List.map_map, List.map_map]
    refine List.map_congr_left fun cluster hcluster => ?_
    have hsame : rulesOf (ClusterKey.fromCluster cluster) kept
        = rulesOf (ClusterKey.fromCluster cluster) before := by
      unfold rulesOf members
      rw [List.filter_filter]
      refine List.filter_congr fun entry _ => ?_
      by_cases hkey : ClusterKey.fromRule entry = ClusterKey.fromCluster cluster
      · simp only [hkey, decide_true, Bool.true_and, decide_eq_true_eq]
        exact List.mem_map_of_mem hcluster
      · simp [hkey]
    rw [Function.comp_apply, Function.comp_apply, hsame]
    exact burnDownRow_change hbefore hcurrent hfit hfit' hcluster
  have hnow := sum_length_members ClusterKey.fromRule hnodup entries fun entry hentry =>
    (hmem _).mpr ⟨entry, hentry, rfl⟩
  have hthen := sum_length_members ClusterKey.fromRule hnodup kept fun entry hentry =>
    of_decide_eq_true (List.mem_filter.mp hentry).2
  have hsub := sum_map_sub (fun key => (rulesOf key entries).length)
    (fun key => (rulesOf key kept).length) keys
  rw [hrows, hsub]
  exact congrArg₂ (fun now old : Nat => (now : Int) - old) hnow hthen

/-- A burn-down has a row for every cluster of now, with the count before and the change of a cluster
that was there before. The changes, with the new clusters counted whole, less the clusters that are
gone, are the difference of the two numbers of rules; and the largest clusters are the largest. -/
theorem burnDown_accounts (before entries : List UnsupportedRuleParityEntry)
    (previous current : UnsupportedRuleClusterReport) (report : RuleBurnDownReport)
    (hbefore : unsupportedRuleClusterReportFromRules before = .ok previous)
    (hcurrent : unsupportedRuleClusterReportFromRules entries = .ok current)
    (hfit : before.length < isizeSize) (hfit' : entries.length < isizeSize)
    (hreport : ruleBurnDownReportFromClusters current (some previous) = report) :
    report.clusters.map RuleBurnDownCluster.cluster = current.clusters
      ∧ (∀ row ∈ report.clusters, ∀ key, ClusterKey.fromCluster row.cluster = key →
          row = if rulesOf key before = [] then ⟨row.cluster, none, none⟩
            else ⟨row.cluster, some (rulesOf key before).length,
              some ((rulesOf key entries).length - (rulesOf key before).length)⟩)
      ∧ (report.clusters.map fun row => row.deltaRules.getD row.cluster.ruleCount).sum
          - ((previous.clusters.filter fun cluster => !decide (ClusterKey.fromCluster cluster
              ∈ current.clusters.map ClusterKey.fromCluster)).map
            UnsupportedRuleCluster.ruleCount).sum
        = (entries.length : Int) - before.length
      ∧ ∃ rest, (report.largestClusters ++ rest).Perm report.clusters
          ∧ report.largestClusters.length = min 20 report.clusters.length
          ∧ (report.largestClusters ++ rest).Pairwise
              fun a b => b.cluster.ruleCount ≤ a.cluster.ruleCount := by
  subst hreport
  refine ⟨?_, fun row hrow key hkey => ?_, ?_, largest_first _⟩
  · unfold ruleBurnDownReportFromClusters
    dsimp only
    rw [List.map_map]
    exact List.map_id _
  · obtain ⟨cluster, hcluster, rfl⟩ := List.mem_map.mp hrow
    exact burnDownRow_counts hbefore hcurrent hfit hfit' hcluster hkey
  · have hgone := sum_ruleCount hbefore fun key =>
      !decide (key ∈ current.clusters.map ClusterKey.fromCluster)
    have hsplit := (filter_perm_append_not (fun entry => decide (ClusterKey.fromRule entry
      ∈ current.clusters.map ClusterKey.fromCluster)) before).length_eq
    rw [List.length_append] at hsplit
    rw [show (ruleBurnDownReportFromClusters current (some previous)).clusters
      = current.clusters.map (burnDownRow (previousCounts previous)) from rfl,
      sum_change hbefore hcurrent hfit hfit']
    -- no count here is large enough to be cut off
    have hsizes : isizeSize < u64Size := by decide
    unfold saturateU64 at hgone
    omega

/-- Three rules, one of them one of the former. -/
def laterRules : List UnsupportedRuleParityEntry :=
  [⟨⟨"pdfa-1b"⟩, ⟨"PDFA-1B.xml"⟩, ⟨"6.1.2-1"⟩, .family .font, ⟨"missingProperty"⟩,
    ⟨"unknown validation model property isSubset on font"⟩, ⟨"isSubset == true"⟩⟩,
   ⟨⟨"pdfa-2b"⟩, ⟨"PDFA-2B.xml"⟩, ⟨"6.1.3-1"⟩, .family .font, ⟨"missingProperty"⟩,
    ⟨"unknown validation model property isSubset on font"⟩, ⟨"isSubset == false"⟩⟩,
   ⟨⟨"pdfua-1"⟩, ⟨"PDFUA-1.xml"⟩, ⟨"7.1-1"⟩, .family .operator, ⟨"missingSemanticFamily"⟩,
    ⟨"unregistered validation model family"⟩, ⟨"isTagged"⟩⟩]

theorem burnDown_accounts_three :
    ∃ previous current,
      unsupportedRuleClusterReportFromRules formerRules = .ok previous
        ∧ unsupportedRuleClusterReportFromRules laterRules = .ok current
        ∧ ((ruleBurnDownReportFromClusters current (some previous)).clusters.map fun row =>
              row.deltaRules.getD row.cluster.ruleCount).sum
            - ((previous.clusters.filter fun cluster => !decide (ClusterKey.fromCluster cluster
                ∈ current.clusters.map ClusterKey.fromCluster)).map
              UnsupportedRuleCluster.ruleCount).sum
          = (3 : Int) - 2 := by
  obtain ⟨previous, hbefore⟩ := exists_ok
    (show (unsupportedRuleClusterReportFromRules formerRules).isOk = true by decide +kernel)
  obtain ⟨current, hcurrent⟩ := exists_ok
    (show (unsupportedRuleClusterReportFromRules laterRules).isOk = true by decide +kernel)
  exact ⟨previous, current, hbefore, hcurrent,
    (burnDown_accounts formerRules laterRules previous current _ hbefore hcurrent (by decide)
      (by decide) rfl).2.2.1⟩

end BurnDown

end Pdfv
