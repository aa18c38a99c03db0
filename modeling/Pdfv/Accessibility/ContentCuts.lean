import Pdfv.Accessibility.Attribution
import Pdfv.Content.Cuts
/-!
# Pages whose content is cut into streams

The content of a page is one stream, or the streams of an array, which together hold the same tokens.
The source collects facts, uses of resources, spans and associations from one stream after the other.
`contents_sameCollected_iff` says for which cuts the page gives the same as with one stream.
-/

namespace Pdfv

open Loop Fallible

/-! ## What is collected of a page -/

/-- What a span says apart from its property list and its location. -/
structure SpanView where
  tag : PdfName
  mcid : Option Int
  depth : Nat
  hasText : Bool
  hasImage : Bool
deriving DecidableEq

def MarkedContentSpan.view (span : MarkedContentSpan) : SpanView :=
  ⟨span.tag, span.mcid, span.nestingDepth, span.hasText, span.hasImage⟩

/-- An association without the stream and the location of its span. -/
def AccessibilityMarkedContent.unlocated (record : AccessibilityMarkedContent) :
    AccessibilityMarkedContent :=
  { record with stream := directStreamKey, location := .unknown }

/-- How the identifier of a span is found on a page. -/
def mcidReader (doc : ModelDocument) (page : Dictionary) : McidReader := fun readings =>
  readings.1.or ((readings.2.1.bind (mcidFromObject doc)).or
    (readings.2.2.bind fun name =>
      (OrdList.lookup name (pageProperties doc page)).bind (mcidFromValue doc)))

/-- The association of a span that says this, its location aside. -/
def SpanRecord.association (parentTree : NumberTree) (graph : AccessibilityGraph) (page : PageContent)
    (record : SpanRecord) : AccessibilityMarkedContent :=
  let node := record.resolved.bind (nodeForMcid parentTree graph page)
  { node, pageOrdinal := page.ordinal, stream := directStreamKey, tag := utf8Lossy record.tag.bytes,
    mcid := record.resolved, hasText := record.hasText,
    hasImage := record.hasImage
      || (node.bind fun node => graph.nodes[node]?).elim false fun node =>
        node.normalizedRole = "Figure",
    location := .unknown }

def SpanRecord.view (record : SpanRecord) : SpanView :=
  ⟨record.tag, record.mcid, record.depth, record.hasText, record.hasImage⟩

/-- The content streams of a page hold the given contents. -/
structure HoldsContents (crates : Crates) (doc : ModelDocument) (limits : ResourceLimits)
    (page : PageContent) (contents : List (StreamContent limits)) : Prop where
  streams : List.Forall₂ (fun (entry : KeyedStream × Nat) content =>
      entry.1.stream.decodedBytes crates limits = .ok content.bytes ∧ content.source = entry.1.key ∧
      content.locationPath = s!"root/page[{page.ordinal}]/contentStream[{entry.2}]")
    (contentStreams doc page.dictionary).zipIdx contents

section Page

variable {crates : Crates} {doc : ModelDocument} {limits : ResourceLimits} {parentTree : NumberTree}
  {page : PageContent}

theorem spanAssociation_unlocated (graph : AccessibilityGraph) (stream : ObjectKey)
    (span : MarkedContentSpan) :
    (spanAssociation doc parentTree graph page (pageProperties doc page.dictionary) stream
        span).unlocated
      = (span.record (mcidReader doc page.dictionary)).association parentTree graph page :=
  rfl

/-- A record is decided by what it says of its span and by its association. -/
theorem SpanRecord.eq_of_view (parentTree : NumberTree) (graph : AccessibilityGraph)
    (page : PageContent) (a b : SpanRecord) (hview : a.view = b.view)
    (hassociation : a.association parentTree graph page = b.association parentTree graph page) :
    a = b := by
  have hresolved : a.resolved = b.resolved :=
    congrArg AccessibilityMarkedContent.mcid hassociation
  cases a
  cases b
  simp only [SpanRecord.view, SpanView.mk.injEq] at hview
  obtain ⟨rfl, rfl, rfl, rfl, rfl⟩ := hview
  cases hresolved
  rfl

/-- The associations of streams that hold contents. -/
theorem collectStreams_contents {start graph : AccessibilityGraph} (hnodes : graph.nodes = start.nodes)
    {entries : List (KeyedStream × Nat)} {contents : List (StreamContent limits)}
    (h : List.Forall₂ (fun (entry : KeyedStream × Nat) content =>
      entry.1.stream.decodedBytes crates limits = .ok content.bytes ∧ content.source = entry.1.key ∧
      content.locationPath = s!"root/page[{page.ordinal}]/contentStream[{entry.2}]")
      entries contents) :
    (entries.foldl (collectStreamAssociations doc parentTree crates limits page)
        graph).markedContent.map AccessibilityMarkedContent.unlocated
      = graph.markedContent.map AccessibilityMarkedContent.unlocated
        ++ (contents.flatMap fun content => content.summary.markedContent.map
            (MarkedContentSpan.record (mcidReader doc page.dictionary))).map
          (SpanRecord.association parentTree start page) := by
  induction h generalizing graph with
  | nil => exact (List.append_nil _).symm
  | @cons entry content entries contents hentry _ ih =>
    obtain ⟨hdecoded, hsource, hpath⟩ := hentry
    have hsummary := content.summarised
    rw [hsource, hpath] at hsummary
    obtain ⟨next, hnext, hnodes', hmarked⟩ : ∃ next,
        collectStreamAssociations doc parentTree crates limits page graph entry = next
          ∧ next.nodes = start.nodes
          ∧ next.markedContent = graph.markedContent ++ content.summary.markedContent.map
            (spanAssociation doc parentTree graph page (pageProperties doc page.dictionary)
              entry.1.key) := by
      unfold collectStreamAssociations
      rw [hdecoded]
      dsimp only
      rw [hsummary]
      exact ⟨_, rfl, hnodes, rfl⟩
    rw [List.foldl_cons, hnext, ih hnodes', hmarked, List.map_append, List.flatMap_cons,
      List.map_append, List.append_assoc, List.map_map, List.map_map]
    congr 2
    refine List.map_congr_left fun span _ => ?_
    rw [Function.comp_apply, spanAssociation_congr hnodes]
    exact spanAssociation_unlocated start _ span

theorem HoldsContents.associations {contents : List (StreamContent limits)}
    (h : HoldsContents crates doc limits page contents) (parentTree : NumberTree)
    (graph : AccessibilityGraph) :
    (collectContentAssociations doc parentTree crates limits [page]
        graph).markedContent.map AccessibilityMarkedContent.unlocated
      = graph.markedContent.map AccessibilityMarkedContent.unlocated
        ++ (contents.flatMap fun content => content.summary.markedContent.map
            (MarkedContentSpan.record (mcidReader doc page.dictionary))).map
          (SpanRecord.association parentTree graph page) :=
  collectStreams_contents rfl h.streams

end Page

/-! ## The same page with another content -/

/-- Two pages of two documents differ in what `/Contents` holds only: the associations of spans read the
same of them. -/
structure SameSurroundings (doc cutDoc : ModelDocument) (page cutPage : PageContent) : Prop where
  key : cutPage.key = page.key
  ordinal : cutPage.ordinal = page.ordinal
  structParents : integerFromDictionary cutPage.dictionary "StructParents"
    = integerFromDictionary page.dictionary "StructParents"
  properties : pageProperties cutDoc cutPage.dictionary = pageProperties doc page.dictionary
  objects : mcidFromObject cutDoc = mcidFromObject doc
  values : mcidFromValue cutDoc = mcidFromValue doc

/-- So do two pages of one document with the same resources and the same entry in the parent tree. -/
theorem SameSurroundings.of_entries {doc : ModelDocument} {page cutPage : PageContent}
    (hkey : cutPage.key = page.key) (hordinal : cutPage.ordinal = page.ordinal)
    (hparents : cutPage.dictionary.get "StructParents" = page.dictionary.get "StructParents")
    (hresources : cutPage.dictionary.get "Resources" = page.dictionary.get "Resources") :
    SameSurroundings doc doc page cutPage := by
  refine ⟨hkey, hordinal, ?_, ?_, rfl, rfl⟩
  · unfold integerFromDictionary
    rw [hparents]
  · unfold pageProperties ModelDocument.dictionaryFromEntry
    rw [hresources]

section Cut

variable {limits : ResourceLimits} (content : CutContent limits) (crates : Crates)
  (doc cutDoc : ModelDocument) (page cutPage : PageContent) (parentTree : NumberTree)
  (graph : AccessibilityGraph)

/-- What is collected of a page is the same with its content in one stream and with the content cut into
several, locations aside. -/
structure SameCollected : Prop where
  facts : content.whole.summary.facts.map OperatorFact.unlocated
    = content.pieces.flatMap fun piece => piece.summary.facts.map OperatorFact.unlocated
  uses : content.whole.summary.resourceUses.map ResourceUse.unlocated
    = content.pieces.flatMap fun piece => piece.summary.resourceUses.map ResourceUse.unlocated
  spans : content.whole.summary.markedContent.map MarkedContentSpan.view
    = content.pieces.flatMap fun piece => piece.summary.markedContent.map MarkedContentSpan.view
  associations :
    (collectContentAssociations doc parentTree crates limits [page]
        graph).markedContent.map AccessibilityMarkedContent.unlocated
      = (collectContentAssociations cutDoc parentTree crates limits [cutPage]
        graph).markedContent.map AccessibilityMarkedContent.unlocated

variable {crates doc cutDoc page cutPage}

theorem SameSurroundings.mcidReader_eq (h : SameSurroundings doc cutDoc page cutPage) :
    mcidReader cutDoc cutPage.dictionary = mcidReader doc page.dictionary := by
  unfold mcidReader
  rw [h.properties, h.objects, h.values]

theorem SameSurroundings.association_eq (h : SameSurroundings doc cutDoc page cutPage) :
    SpanRecord.association parentTree graph cutPage = SpanRecord.association parentTree graph page := by
  funext record
  unfold SpanRecord.association nodeForMcid
  rw [h.key, h.ordinal, h.structParents]

/-- What is collected is the same exactly when what is recorded is. -/
theorem sameCollected_iff_records (hsame : SameSurroundings doc cutDoc page cutPage)
    (hwhole : HoldsContents crates doc limits page [content.whole])
    (hpieces : HoldsContents crates cutDoc limits cutPage content.pieces) :
    SameCollected content crates doc cutDoc page cutPage parentTree graph
      ↔ content.SameRecords (mcidReader doc page.dictionary) := by
  have hassociations := hwhole.associations parentTree graph
  have hassociations' := hpieces.associations parentTree graph
  rw [hsame.mcidReader_eq, hsame.association_eq] at hassociations'
  rw [List.flatMap_singleton] at hassociations
  have hview : ∀ spans : List MarkedContentSpan,
      (spans.map (MarkedContentSpan.record (mcidReader doc page.dictionary))).map SpanRecord.view
        = spans.map MarkedContentSpan.view := by
    intro spans
    rw [List.map_map]
    rfl
  constructor
  · rintro ⟨hfacts, huses, hspans, hrecords⟩
    rw [hassociations, hassociations', List.append_cancel_left_eq] at hrecords
    refine ⟨hfacts, huses, Pairing.eq_of_maps
      (SpanRecord.eq_of_view parentTree graph page) ?_ hrecords⟩
    rw [hview, hspans, List.map_flatMap]
    simp only [hview]
  · rintro ⟨hfacts, huses, hspans⟩
    refine ⟨hfacts, huses, ?_, ?_⟩
    · have hviews := congrArg (List.map SpanRecord.view) hspans
      rw [hview, List.map_flatMap] at hviews
      simp only [hview] at hviews
      exact hviews
    · rw [hassociations, hassociations', hspans]

/-- What is collected of a page whose content is cut into streams is the same as with one stream exactly
when the content is cut cleanly. -/
theorem contents_sameCollected_iff (hsame : SameSurroundings doc cutDoc page cutPage)
    (hwhole : HoldsContents crates doc limits page [content.whole])
    (hpieces : HoldsContents crates cutDoc limits cutPage content.pieces) :
    SameCollected content crates doc cutDoc page cutPage parentTree graph
      ↔ content.CutsCleanly (mcidReader doc page.dictionary) := by
  rw [sameCollected_iff_records content parentTree graph hsame hwhole hpieces,
    content.sameRecords_iff]

end Cut

/-! ## Reading pages -/

section Reading

variable (crates : Crates) (doc cutDoc : ModelDocument) (limits : ResourceLimits)
  (page cutPage : PageContent)

/-- The content of a stream of a page that is read to its end within the caps. -/
def readKeyedContent (entry : KeyedStream × Nat) : Option (StreamContent limits) :=
  match entry.1.stream.decodedBytes crates limits with
  | .ok bytes =>
    StreamContent.ofBytes entry.1.key s!"root/page[{page.ordinal}]/contentStream[{entry.2}]" bytes limits
  | .error _ => none

/-- The contents of the streams of a page. -/
def readContents : Option (List (StreamContent limits)) :=
  (contentStreams doc page.dictionary).zipIdx.mapM (readKeyedContent crates limits page)

/-- The content of a page with one stream, and of one whose streams hold the same tokens. -/
def CutContent.ofPages : Option (CutContent limits) :=
  match readContents crates doc limits page, readContents crates cutDoc limits cutPage with
  | some [whole], some pieces =>
    if hcut : whole.tokens = pieces.flatMap StreamContent.tokens then some ⟨whole, pieces, hcut⟩
    else none
  | _, _ => none

variable {crates doc cutDoc limits page cutPage}

theorem HoldsContents.of_read {contents : List (StreamContent limits)}
    (h : readContents crates doc limits page = some contents) :
    HoldsContents crates doc limits page contents := by
  unfold readContents at h
  constructor
  generalize (contentStreams doc page.dictionary).zipIdx = entries at h
  induction entries generalizing contents with
  | nil =>
    cases h
    exact .nil
  | cons entry entries ih =>
    rw [List.mapM_cons] at h
    obtain ⟨content, hcontent, h⟩ := Option.bind_eq_some_iff.mp h
    obtain ⟨rest, hrest, h⟩ := Option.bind_eq_some_iff.mp h
    cases h
    refine .cons ?_ (ih hrest)
    unfold readKeyedContent at hcontent
    split at hcontent
    · rename_i bytes hdecoded
      obtain ⟨hsource, hpath, hbytes⟩ := StreamContent.ofBytes_fields hcontent
      exact ⟨hbytes ▸ hdecoded, hsource, hpath⟩
    · cases hcontent

theorem CutContent.ofPages_holds {content : CutContent limits}
    (h : CutContent.ofPages crates doc cutDoc limits page cutPage = some content) :
    HoldsContents crates doc limits page [content.whole]
      ∧ HoldsContents crates cutDoc limits cutPage content.pieces := by
  unfold CutContent.ofPages at h
  split at h
  · rename_i whole pieces hwhole hpieces
    split_ifs at h
    cases h
    exact ⟨.of_read hwhole, .of_read hpieces⟩
  · cases h

end Reading

/-! ## Two cuts -/

/-- A document with a content in stream 2, and cut into streams 3 and 4. -/
def cutDocument (whole first second : Bytes) : ModelDocument :=
  let objects : List (ObjectKey × CosObject) :=
    [(.ofNumber 2, storedContent whole), (.ofNumber 3, storedContent first),
     (.ofNumber 4, storedContent second)]
  ⟨⟨1, 7⟩, none, objects.foldl (fun stored object =>
    stored.insert object.1 ⟨object.1, 0, object.2⟩) OrdMap.empty, [], []⟩

/-- A page with the given content streams. -/
def contentsPage (numbers : List Nat) : PageContent :=
  ⟨.ofNumber 1, 0, [(PdfName.fromStatic "Contents",
    .array (numbers.map fun number => .reference (.ofNumber number)))]⟩

theorem contentsPage_surroundings (doc : ModelDocument) (numbers others : List Nat) :
    SameSurroundings doc doc (contentsPage numbers) (contentsPage others) :=
  .of_entries rfl rfl rfl rfl

/-- The contents of the two pages of such a document. -/
def cutRun (doc : ModelDocument) : Option (CutContent {}) :=
  CutContent.ofPages Crates.unused doc doc {} (contentsPage [2]) (contentsPage [3, 4])

theorem cutRun_holds {doc : ModelDocument} {content : CutContent {}}
    (h : cutRun doc = some content) :
    HoldsContents Crates.unused doc {} (contentsPage [2]) [content.whole] ∧
      HoldsContents Crates.unused doc {} (contentsPage [3, 4]) content.pieces :=
  CutContent.ofPages_holds h

/-- The operands that are left over at the end of a stream, and how many spans are open there. -/
def StreamContent.leftOpen {limits : ResourceLimits} (content : StreamContent limits) :
    List Operand × Nat :=
  (content.dangling, Brackets.openAfter AppliedOperator.role 0 content.applied)

/-- A content that is cut after a span. -/
def cutAfterSpan : ModelDocument :=
  cutDocument (utf8 "/P BMC (a) Tj EMC /F 9 Tf") (utf8 "/P BMC (a) Tj EMC") (utf8 "/F 9 Tf")

theorem cutAfterSpan_run :
    (cutRun cutAfterSpan).map (fun content => content.pieces.map StreamContent.leftOpen)
      = some [([], 0), ([], 0)] := by
  decide +kernel

/-- The same is collected of both pages. -/
theorem cutAfterSpan_collected : ∃ content : CutContent {},
    cutRun cutAfterSpan = some content ∧
    SameCollected content Crates.unused cutAfterSpan cutAfterSpan (contentsPage [2])
      (contentsPage [3, 4]) ⟨0, [], OrdMap.empty⟩ (untaggedGraph true none) := by
  have hrun := cutAfterSpan_run
  cases hcontent : cutRun cutAfterSpan with
  | none =>
    rw [hcontent] at hrun
    cases hrun
  | some content =>
    rw [hcontent] at hrun
    have hleft : content.pieces.map StreamContent.leftOpen = [([], 0), ([], 0)] :=
      Option.some.inj hrun
    obtain ⟨hone, hcut⟩ := cutRun_holds hcontent
    refine ⟨content, rfl, (contents_sameCollected_iff content _ _
      (contentsPage_surroundings _ _ _) hone hcut).mpr (content.cutsCleanly_of_closed _ ?_)⟩
    intro piece hpiece
    have hpair : piece.leftOpen ∈ [(([] : List Operand), 0), ([], 0)] :=
      hleft ▸ List.mem_map_of_mem hpiece
    have hclosed : piece.leftOpen = ([], 0) := by simpa using hpair
    exact Prod.mk.inj hclosed

/-- A content that is cut in a span, between an operator and its operands. -/
def cutInSpan : ModelDocument :=
  cutDocument (utf8 "/P BMC /F 9 Tf (a) Tj EMC") (utf8 "/P BMC /F 9") (utf8 "Tf (a) Tj EMC")

/-- How many resources a content uses, and which of its spans show text. -/
def StreamContent.usesAndText {limits : ResourceLimits} (content : StreamContent limits) :
    Nat × List Bool :=
  (content.summary.resourceUses.length, content.summary.markedContent.map MarkedContentSpan.hasText)

theorem cutInSpan_run :
    (cutRun cutInSpan).map (fun content =>
      (content.whole.usesAndText, content.pieces.map StreamContent.usesAndText))
      = some ((1, [true]), [(0, [false]), (0, [])]) := by
  decide +kernel

/-- Of the second page neither the use of the font is collected nor the text of the span. -/
theorem cutInSpan_collected : ∃ content : CutContent {},
    cutRun cutInSpan = some content ∧
    HoldsContents Crates.unused cutInSpan {} (contentsPage [2]) [content.whole] ∧
    HoldsContents Crates.unused cutInSpan {} (contentsPage [3, 4]) content.pieces ∧
    SameSurroundings cutInSpan cutInSpan (contentsPage [2]) (contentsPage [3, 4]) ∧
    content.whole.usesAndText = (1, [true]) ∧
    content.pieces.map StreamContent.usesAndText = [(0, [false]), (0, [])] ∧
    ∀ parentTree graph, ¬ SameCollected content Crates.unused cutInSpan cutInSpan (contentsPage [2])
      (contentsPage [3, 4]) parentTree graph := by
  have hrun := cutInSpan_run
  cases hcontent : cutRun cutInSpan with
  | none =>
    rw [hcontent] at hrun
    cases hrun
  | some content =>
    rw [hcontent] at hrun
    obtain ⟨hwhole, hpieces⟩ := Prod.mk.inj (Option.some.inj hrun)
    obtain ⟨hone, hcut⟩ := cutRun_holds hcontent
    refine ⟨content, rfl, hone, hcut, contentsPage_surroundings _ _ _, hwhole, hpieces,
      fun parentTree graph h => ?_⟩
    have huses := congrArg List.length h.uses
    have hcounts : content.pieces.map (fun piece => piece.summary.resourceUses.length) = [0, 0] := by
      have hfirsts := congrArg (List.map Prod.fst) hpieces
      rw [List.map_map] at hfirsts
      exact hfirsts
    have hcount : content.whole.summary.resourceUses.length = 1 := congrArg Prod.fst hwhole
    simp only [List.length_map, List.length_flatMap, hcounts, hcount] at huses
    cases huses

end Pdfv
