import Pdfv.Validation.Facade
/-!
# Verdicts and flavours

A Valid verdict names flavours. `ExplicitVerdict` says what it owes for one of them: the rules that ran
are those the explicit flavour selects, and the run with the explicit flavour is Valid.
`validateReader_valid` says which runs deliver it: all but those of automatic detection without a usable
claim, which run the smoke profile under the default flavour.
-/

namespace Pdfv

open Fallible

/-! ## Built-in profiles -/

section Builtin

variable {sources : ProfileSources}

/-- A profile of the catalog is what its own flavour selects. -/
def ProfileSources.Selects (sources : ProfileSources) (profile : ValidationProfile) : Prop :=
  sources.builtinProfilesFor (.explicit profile.flavour) = .ok [profile]

/-- An explicit flavour selects one profile, and the flavour of that profile selects it again. -/
theorem builtinProfilesFor_explicit {flavour : ValidationFlavour} {profiles : List ValidationProfile}
    (h : sources.builtinProfilesFor (.explicit flavour) = .ok profiles) :
    ∃ profile, profiles = [profile] ∧ sources.Selects profile := by
  obtain ⟨source, hsource, h⟩ := bind_eq_ok.mp h
  obtain ⟨profile, himport, h⟩ := bind_eq_ok.mp h
  cases h
  refine ⟨profile, rfl, ?_⟩
  have himported := himport
  obtain ⟨⟨name, rules⟩, hxml, himport⟩ := bind_eq_ok.mp himport
  obtain ⟨parsed, hparsed, himport⟩ := bind_eq_ok.mp himport
  cases himport
  have hagain := builtinSource_displayed (builtinSourceForFlavour_eq_ok hsource).1 hparsed
  show (builtinSourceForFlavour parsed >>= _) = _
  rw [hagain, ok_bind, himported]
  rfl

/-- A claim selects a profile. -/
def ProfileSources.claimSelects (sources : ProfileSources) (claim : FlavourClaim) : Bool :=
  (sources.builtinProfilesFor (.explicit claim.flavour)).isOk

/-- One claim adds the profile it selects, when it selects one. -/
theorem selectClaim_ok {s s' : List ValidationProfile × List ValidationWarning} {claim : FlavourClaim}
    (h : FlavourDetector.selectClaim sources.builtinProfilesFor s claim = .ok s') :
    (sources.claimSelects claim = true ∧ ∃ profile, s'.1 = s.1 ++ [profile] ∧ sources.Selects profile)
      ∨ (sources.claimSelects claim = false ∧ s'.1 = s.1) := by
  unfold FlavourDetector.selectClaim at h
  unfold ProfileSources.claimSelects
  cases hclaim : sources.builtinProfilesFor (.explicit claim.flavour) with
  | ok selected =>
    rw [hclaim] at h
    cases h
    obtain ⟨profile, rfl, hselects⟩ := builtinProfilesFor_explicit hclaim
    exact .inl ⟨rfl, profile, rfl, hselects⟩
  | error error =>
    rw [hclaim] at h
    obtain ⟨profileId, -, h⟩ := bind_eq_ok.mp h
    obtain ⟨reason, -, h⟩ := bind_eq_ok.mp h
    cases h
    exact .inr ⟨rfl, rfl⟩

/-- The claims select profiles of the catalog, and some profile when one of them does. -/
theorem selectClaims_ok {claims : List FlavourClaim}
    {s s' : List ValidationProfile × List ValidationWarning}
    (h : claims.foldlM (FlavourDetector.selectClaim sources.builtinProfilesFor) s = .ok s') :
    ∃ selected, s'.1 = s.1 ++ selected ∧ (∀ profile ∈ selected, sources.Selects profile)
      ∧ selected.isEmpty = !claims.any sources.claimSelects := by
  induction claims generalizing s with
  | nil =>
    cases h
    exact ⟨[], (List.append_nil _).symm, fun profile hmem => absurd hmem List.not_mem_nil, rfl⟩
  | cons claim claims ih =>
    rw [List.foldlM_cons] at h
    obtain ⟨next, hclaim, h⟩ := bind_eq_ok.mp h
    obtain ⟨selected, happend, hselects, hempty⟩ := ih h
    rcases selectClaim_ok hclaim with ⟨hclaims, profile, hnext, hprofile⟩ | ⟨hclaims, hnext⟩
    · refine ⟨profile :: selected, ?_, ?_, ?_⟩
      · rw [happend, hnext, List.append_assoc]
        rfl
      · intro profile' hmem
        rcases List.mem_cons.mp hmem with rfl | hmem
        · exact hprofile
        · exact hselects profile' hmem
      · rw [List.any_cons, hclaims]
        rfl
    · refine ⟨selected, by rw [happend, hnext], hselects, ?_⟩
      rw [hempty, List.any_cons, hclaims, Bool.false_or]

theorem mem_selectCompatible {profiles : List ValidationProfile} {profile : ValidationProfile}
    (h : profile ∈ (selectCompatibleProfiles profiles).1) : profile ∈ profiles := by
  cases profiles with
  | nil => cases h
  | cons first rest =>
    unfold selectCompatibleProfiles at h
    dsimp only at h
    exact List.mem_of_mem_filter h

end Builtin

/-! ## Metadata -/

section Metadata

variable {crates : Crates} {xml : XmlCrate} {document : ParsedDocument} {limits : ResourceLimits}

/-- Whether missing metadata is reported changes nothing but the warnings. -/
theorem parseDocumentXmp_report {report : Bool} {parsed : XmpParseResult}
    (h : parseDocumentXmp crates xml document limits report = .ok parsed) (report' : Bool) :
    ∃ parsed', parseDocumentXmp crates xml document limits report' = .ok parsed'
      ∧ parsed'.packet = parsed.packet ∧ parsed'.parseFacts = parsed.parseFacts := by
  unfold parseDocumentXmp at h ⊢
  obtain ⟨found, hfound, h⟩ := bind_eq_ok.mp h
  rw [hfound, ok_bind]
  obtain ⟨metadata, warnings⟩ := found
  cases metadata with
  | none =>
    cases h
    exact ⟨_, rfl, rfl, rfl⟩
  | some metadata => exact ⟨parsed, h, rfl, rfl⟩

/-- The metadata of the document claims a flavour that selects a profile. -/
def HasUsableClaim (sources : ProfileSources) (crates : Crates) (xml : XmlCrate)
    (document : ParsedDocument) (limits : ResourceLimits) : Prop :=
  ∃ parsed packet, parseDocumentXmp crates xml document limits true = .ok parsed
    ∧ parsed.packet = some packet ∧ packet.identification.any sources.claimSelects = true

/-- Detection finds the facts of the metadata, and selects profiles of the catalog for a usable claim;
without one it asks for the default. -/
theorem detect_ok {sources : ProfileSources} {default : Option ValidationFlavour}
    {detected : DetectedFlavours}
    (h : FlavourDetector.detect sources.builtinProfilesFor crates xml document default limits
      = .ok detected) :
    ∃ parsed, parseDocumentXmp crates xml document limits true = .ok parsed
      ∧ detected.parseFacts = parsed.parseFacts
      ∧ (HasUsableClaim sources crates xml document limits →
        ∀ profile ∈ detected.profiles, sources.Selects profile)
      ∧ (¬ HasUsableClaim sources crates xml document limits →
        sources.builtinProfilesFor (.auto default) = .ok detected.profiles) := by
  unfold FlavourDetector.detect at h
  obtain ⟨parsed, hparsed, h⟩ := bind_eq_ok.mp h
  refine ⟨parsed, hparsed, ?_⟩
  have husable : ∀ packet, parsed.packet = some packet →
      (HasUsableClaim sources crates xml document limits
        ↔ packet.identification.any sources.claimSelects = true) := by
    intro packet hpacket
    refine ⟨?_, fun hany => ⟨parsed, packet, hparsed, hpacket, hany⟩⟩
    rintro ⟨parsed', packet', hparsed', hpacket', hany⟩
    cases hparsed.symm.trans hparsed'
    cases hpacket.symm.trans hpacket'
    exact hany
  cases hpacket : parsed.packet with
  | none =>
    rw [hpacket] at h
    obtain ⟨fallback, hfallback, h⟩ := bind_eq_ok.mp h
    obtain ⟨profiles, hprofiles, hfallback⟩ := bind_eq_ok.mp hfallback
    cases hfallback
    cases h
    refine ⟨rfl, ?_, fun _ => hprofiles⟩
    rintro ⟨parsed', packet', hparsed', hpacket', -⟩
    cases hparsed.symm.trans hparsed'
    rw [hpacket] at hpacket'
    cases hpacket'
  | some packet =>
    rw [hpacket] at h
    obtain ⟨⟨profiles, warnings⟩, hfold, h⟩ := bind_eq_ok.mp h
    obtain ⟨selected, hprofiles, hselects, hempty⟩ := selectClaims_ok hfold
    have hprofiles : profiles = selected := hprofiles
    subst hprofiles
    dsimp only at h
    rw [husable packet hpacket]
    cases hany : packet.identification.any sources.claimSelects with
    | false =>
      rw [hempty, hany, Bool.not_false, if_pos rfl] at h
      obtain ⟨fallback, hfallback, h⟩ := bind_eq_ok.mp h
      obtain ⟨profiles, hdefault, hfallback⟩ := bind_eq_ok.mp hfallback
      cases hfallback
      cases h
      exact ⟨rfl, fun hfalse => (Bool.false_ne_true hfalse).elim, fun _ => hdefault⟩
    | true =>
      rw [hempty, hany, Bool.not_true, if_neg Bool.false_ne_true] at h
      cases h
      exact ⟨rfl, fun _ profile hmem => hselects profile (mem_selectCompatible hmem),
        fun hnot => absurd rfl hnot⟩

end Metadata

/-! ## Runs -/

section Runs

/-- The element of a `mapM` is mapped to an element of the result. -/
theorem exists_mem_mapM {ε α β : Type} {f : α → Except ε β} {l : List α} {r : List β}
    (h : l.mapM f = .ok r) {a : α} (ha : a ∈ l) : ∃ b ∈ r, f a = .ok b := by
  induction l generalizing r with
  | nil => cases ha
  | cons first rest ih =>
    rw [List.mapM_cons] at h
    obtain ⟨b, hb, h⟩ := bind_eq_ok.mp h
    obtain ⟨more, hmore, h⟩ := bind_eq_ok.mp h
    cases h
    rcases List.mem_cons.mp ha with rfl | ha
    · exact ⟨b, List.mem_cons_self, hb⟩
    · obtain ⟨b', hmem, hb'⟩ := ih hmore ha
      exact ⟨b', List.mem_cons_of_mem _ hmem, hb'⟩

theorem profilesStatus_eq_valid {reports : List ProfileReport} :
    profilesStatus reports = .valid
      ↔ ∀ report ∈ reports, report.unsupportedRules.isEmpty = true ∧ report.isCompliant = true := by
  have hbool : profilesStatus reports = .valid
      ↔ (reports.any fun report => !report.unsupportedRules.isEmpty) = false
        ∧ reports.all ProfileReport.isCompliant = true := by
    unfold profilesStatus
    cases reports.any fun report => !report.unsupportedRules.isEmpty <;>
      cases reports.all ProfileReport.isCompliant <;> simp
  rw [hbool, List.any_eq_false, List.all_eq_true]
  constructor
  · rintro ⟨hsupported, hcompliant⟩ report hmem
    exact ⟨by simpa using hsupported report hmem, hcompliant report hmem⟩
  · intro h
    exact ⟨fun report hmem => by simp [(h report hmem).1], fun report hmem => (h report hmem).2⟩

theorem policyStatus_eq_valid {status : ValidationStatus} {policy : Option PolicyReport} :
    policyStatus status policy = .valid
      ↔ status = .valid ∧ policyStatus .valid policy = .valid := by
  cases policy with
  | none => exact ⟨fun h => ⟨h, rfl⟩, fun h => h.1⟩
  | some report =>
    unfold policyStatus
    cases report.isCompliant <;> cases status <;> simp

variable {services : ValidationServices} {source : Bytes} {name : InputName} {kind : InputKind}
  {clock : TaskClock}

/-- The stages of a run that ends in Valid. -/
structure Validator.ValidStages (validator : Validator) (services : ValidationServices) (source : Bytes)
    (document found : ParsedDocument) (profiles : List ValidationProfile) : Prop where
  parsed : Parser.parseWithOptions ⟨validator.options.resourceLimits, none⟩ services.model.crates source
    validator.options.password = .ok document
  plain : document.isEncrypted = false
  selected : validator.selectProfiles services document = .ok (profiles, found)
  nonempty : profiles ≠ []
  runs : ∃ reports, validator.runProfiles services found.model profiles = .ok reports
    ∧ profilesStatus reports = .valid
  tasks : ∃ features policy, validator.runFeatures services found.model = .ok features
    ∧ validator.runPolicy features = .ok policy ∧ policyStatus .valid policy = .valid

/-- A Valid run went through all stages. -/
theorem Validator.validStages_of_run {validator : Validator} {report : ValidationReport}
    (h : validator.validateReader services source name kind clock = .ok report)
    (hvalid : report.status = .valid) :
    ∃ document found profiles, validator.ValidStages services source document found profiles
      ∧ report.flavours = profiles.map ValidationProfile.flavour := by
  unfold Validator.validateReader at h
  dsimp only at h
  split at h
  · -- a source that cannot be parsed is reported as such
    obtain ⟨message, -, h⟩ := bind_eq_ok.mp h
    cases h
    cases hvalid
  · rename_i document hparsed
    split at h
    · obtain ⟨xmp, -, h⟩ := bind_eq_ok.mp h
      cases h
      cases hvalid
    · rename_i hplain
      rw [Bool.not_eq_true] at hplain
      obtain ⟨⟨profiles, found⟩, hselected, h⟩ := bind_eq_ok.mp h
      dsimp only at h
      split at h
      · cases h
        cases hvalid
      · rename_i hnonempty
        obtain ⟨reports, hreports, h⟩ := bind_eq_ok.mp h
        obtain ⟨features, hfeatures, h⟩ := bind_eq_ok.mp h
        obtain ⟨policy, hpolicy, h⟩ := bind_eq_ok.mp h
        cases h
        obtain ⟨hstatus, hcompliant⟩ := policyStatus_eq_valid.mp hvalid
        rw [List.isEmpty_iff] at hnonempty
        exact ⟨document, found, profiles, ⟨hparsed, hplain, hselected, hnonempty,
          ⟨reports, hreports, hstatus⟩, ⟨features, policy, hfeatures, hpolicy, hcompliant⟩⟩, rfl⟩

/-- Going through all stages makes a Valid run. -/
theorem Validator.ValidStages.run {validator : Validator} {document found : ParsedDocument}
    {profiles : List ValidationProfile}
    (h : validator.ValidStages services source document found profiles) :
    ∃ report, validator.validateReader services source name kind clock = .ok report
      ∧ report.status = .valid := by
  obtain ⟨hparsed, hplain, hselected, hnonempty, ⟨reports, hreports, hstatus⟩,
    ⟨features, policy, hfeatures, hpolicy, hcompliant⟩⟩ := h
  have hsome : profiles.isEmpty = false := by
    rw [← Bool.not_eq_true, List.isEmpty_iff]
    exact hnonempty
  refine ⟨validator.finishReport (name.summary kind (some source.length)) found profiles reports features
    policy clock, ?_, policyStatus_eq_valid.mpr ⟨hstatus, hcompliant⟩⟩
  · unfold Validator.validateReader
    dsimp only
    rw [hparsed]
    dsimp only
    rw [hplain, if_neg Bool.false_ne_true]
    unfold Validator.validateDocument
    rw [hselected, ok_bind]
    dsimp only
    rw [hsome, if_neg Bool.false_ne_true, hreports, ok_bind, hfeatures, ok_bind, hpolicy, ok_bind]
    rfl

end Runs

/-! ## Verdicts -/

section Verdicts

variable {sources : ProfileSources} {services : ValidationServices} {options : ValidationOptions}
  {source : Bytes} {name : InputName} {kind : InputKind} {clock : TaskClock}

/-- The validator with the built-in profiles. -/
def Validator.builtin (sources : ProfileSources) (options : ValidationOptions) : Validator :=
  ⟨options, sources.builtinProfilesFor⟩

/-- The same options with an explicit flavour. -/
def ValidationOptions.withExplicit (options : ValidationOptions) (flavour : ValidationFlavour) :
    ValidationOptions :=
  { options with flavour := .explicit flavour }

/-- What a Valid verdict on a source owes for a flavour, when the profiles of the run are given: those
of the flavour have the rules that the explicit flavour selects, and the run with the explicit flavour
is Valid. -/
structure ExplicitVerdict (sources : ProfileSources) (services : ValidationServices)
    (options : ValidationOptions) (source : Bytes) (name : InputName) (kind : InputKind)
    (clock : TaskClock) (profiles : List ValidationProfile) (flavour : ValidationFlavour) : Prop where
  rules : ∃ profile, sources.builtinProfilesFor (.explicit flavour) = .ok [profile]
    ∧ ∀ run ∈ profiles, run.flavour = flavour → run.rules = profile.rules
  valid : ∃ report, (Validator.builtin sources (options.withExplicit flavour)).validateReader services
    source name kind clock = .ok report ∧ report.status = .valid

/-- Both selections find the same facts in the metadata, and the profiles of an explicit flavour or of a
usable claim are profiles of the catalog. -/
theorem selectProfiles_ok {document found : ParsedDocument} {profiles : List ValidationProfile}
    (hselection : ∀ path, options.flavour ≠ .customProfile path)
    (h : (Validator.builtin sources options).selectProfiles services document = .ok (profiles, found)) :
    ∃ parsed, parseDocumentXmp services.model.crates services.xml document options.resourceLimits false
        = .ok parsed
      ∧ found.model = (document.withMetadata parsed.parseFacts []).model
      ∧ ((∀ default, options.flavour = .auto default → HasUsableClaim sources services.model.crates
          services.xml document options.resourceLimits) → ∀ profile ∈ profiles, sources.Selects profile)
      ∧ ∀ default, options.flavour = .auto default → ¬ HasUsableClaim sources services.model.crates
          services.xml document options.resourceLimits →
        sources.builtinProfilesFor (.auto default) = .ok profiles := by
  unfold Validator.selectProfiles at h
  dsimp only [Validator.builtin] at h
  cases hflavour : options.flavour with
  | auto default =>
    rw [hflavour] at h
    obtain ⟨detected, hdetected, h⟩ := bind_eq_ok.mp h
    cases h
    obtain ⟨parsed, hparsed, hfacts, husable, hdefault⟩ := detect_ok hdetected
    obtain ⟨parsed', hparsed', -, hfacts'⟩ := parseDocumentXmp_report hparsed false
    refine ⟨parsed', hparsed', ?_, fun hall => husable (hall default rfl), ?_⟩
    · rw [hfacts', ← hfacts]
      rfl
    · intro default' heq hnot
      cases heq
      exact hdefault hnot
  | explicit flavour =>
    rw [hflavour] at h
    obtain ⟨parsed, hparsed, h⟩ := bind_eq_ok.mp h
    obtain ⟨selected, hselected, h⟩ := bind_eq_ok.mp h
    cases h
    refine ⟨parsed, hparsed, rfl, fun _ profile hmem => ?_, fun default heq => by cases heq⟩
    obtain ⟨profile', rfl, hselects⟩ := builtinProfilesFor_explicit hselected
    rw [List.mem_singleton] at hmem
    rwa [hmem]
  | customProfile path => exact absurd hflavour (hselection path)

/-- A profile of the catalog that took part in a Valid run makes the explicit run Valid. -/
theorem explicitVerdict_of_selects {document found : ParsedDocument} {profiles : List ValidationProfile}
    (hselection : ∀ path, options.flavour ≠ .customProfile path)
    (hstages : (Validator.builtin sources options).ValidStages services source document found profiles)
    (hselects : ∀ profile ∈ profiles, sources.Selects profile) {profile : ValidationProfile}
    (hprofile : profile ∈ profiles) :
    ExplicitVerdict sources services options source name kind clock profiles profile.flavour := by
  have hown := hselects profile hprofile
  refine ⟨⟨profile, hown, fun run hrun hflavour => ?_⟩, ?_⟩
  · have hsame := hselects run hrun
    unfold ProfileSources.Selects at hsame hown
    rw [hflavour, hown] at hsame
    cases hsame
    rfl
  · obtain ⟨parsed, hparsed, hmodel, -, -⟩ := selectProfiles_ok hselection hstages.selected
    obtain ⟨reports, hreports, hstatus⟩ := hstages.runs
    obtain ⟨report, hmem, hreport⟩ := exists_mem_mapM hreports hprofile
    have hsound := profilesStatus_eq_valid.mp hstatus report hmem
    have hfound : found.model = (document.withMetadata parsed.parseFacts parsed.warnings).model := hmodel
    have hreport : validateProfile services.model found.model options.resourceLimits
        options.maxFailedAssertionsPerRule options.recordPassedAssertions profile = .ok report := hreport
    have hexplicit : (Validator.builtin sources (options.withExplicit profile.flavour)).ValidStages services
        source document (document.withMetadata parsed.parseFacts parsed.warnings) [profile] := by
      refine ⟨hstages.parsed, hstages.plain, ?_, List.cons_ne_nil _ _, ⟨[report], ?_, ?_⟩, ?_⟩
      · show (parseDocumentXmp services.model.crates services.xml document options.resourceLimits false
          >>= _) = _
        rw [hparsed, ok_bind]
        show (sources.builtinProfilesFor (.explicit profile.flavour) >>= _) = _
        rw [hown]
        rfl
      · rw [← hfound]
        show (validateProfile services.model found.model options.resourceLimits
          options.maxFailedAssertionsPerRule options.recordPassedAssertions profile >>= _) = _
        rw [hreport]
        rfl
      · refine profilesStatus_eq_valid.mpr fun report' hmem' => ?_
        rw [List.mem_singleton] at hmem'
        rwa [hmem']
      · rw [← hfound]
        exact hstages.tasks
    exact hexplicit.run

/-- A Valid verdict under an explicit flavour, or under automatic detection with a usable claim, holds of
every flavour it names. Without a usable claim the run is that of the smoke profile under the default
flavour. -/
theorem validateReader_valid (hselection : ∀ path, options.flavour ≠ .customProfile path)
    {report : ValidationReport}
    (hrun : (Validator.builtin sources options).validateReader services source name kind clock
      = .ok report) (hvalid : report.status = .valid) :
    ∃ document found profiles,
      (Validator.builtin sources options).ValidStages services source document found profiles
      ∧ report.flavours = profiles.map ValidationProfile.flavour
      ∧ ((∀ default, options.flavour = .auto default → HasUsableClaim sources services.model.crates
          services.xml document options.resourceLimits) →
        ∀ flavour ∈ report.flavours,
          ExplicitVerdict sources services options source name kind clock profiles flavour)
      ∧ ∀ default, options.flavour = .auto default → ¬ HasUsableClaim sources services.model.crates
          services.xml document options.resourceLimits →
        ∃ flavour, default = some flavour ∧ profiles = [m4Profile flavour] := by
  obtain ⟨document, found, profiles, hstages, hflavours⟩ := Validator.validStages_of_run hrun hvalid
  obtain ⟨-, -, -, hselects, hdefault⟩ := selectProfiles_ok hselection hstages.selected
  refine ⟨document, found, profiles, hstages, hflavours, fun husable flavour hmem => ?_,
    fun default hauto hnot => ?_⟩
  · rw [hflavours] at hmem
    obtain ⟨profile, hprofile, rfl⟩ := List.mem_map.mp hmem
    exact explicitVerdict_of_selects hselection hstages (hselects husable) hprofile
  · have hauto := hdefault default hauto hnot
    cases default with
    | none =>
      cases hauto
      exact absurd rfl hstages.nonempty
    | some flavour =>
      obtain ⟨source, -, h⟩ := bind_eq_ok.mp hauto
      cases h
      exact ⟨flavour, rfl, rfl⟩

end Verdicts

/-! ## A document without metadata -/

/-- PDF/A-1b. -/
def pdfa1b : ValidationFlavour :=
  ⟨⟨"pdfa"⟩, 1, ⟨"b"⟩, Nat.one_pos⟩

/-- The rule of PDF/A-1b on the metadata of the catalog. -/
def metadataRule : Rule where
  id := ⟨"iso-19005-1-6-7-2-1"⟩
  objectType := .family .document
  deferred := false
  description := ⟨"The document catalog dictionary of a conforming file shall contain the Metadata key"⟩
  test := .binary .eq (.property ["hasMetadata"]) (.bool true)
  errorMessage := ⟨"The document catalog dictionary doesn't contain metadata key"⟩
  references := []

/-- The profiles of the catalog, cut down to that rule. -/
def metadataSources : ProfileSources where
  importXml source := .ok (⟨source.id⟩, [metadataRule])
  loadCustom := none

/-- The properties of the document that the rules on it read. -/
def documentProperty (graph : ModelGraph) (object : ModelObjectRef) (name : PropertyName) :
    Except PdfvError ModelValue :=
  match object with
  | .document =>
    if name = "headerOffset" then
      let offset := graph.document.parseFacts.findSome? fun
        | .header offset _ _ => some offset
        | _ => none
      .ok (.number (.ofInt (offset.getD 0)))
    else if name = "encrypted" then
      .ok (.bool (graph.document.parseFacts.any fun
        | .encryption true _ _ _ _ false => true
        | _ => false))
    else if name = "hasCatalog" then .ok (.bool graph.document.catalog.isSome)
    else if name = "hasMetadata" then
      let catalog := graph.document.catalog.bind fun key => graph.document.objects.get? key
      let entries := catalog.bind fun catalog => catalog.object.asDictionary
      .ok (.bool (entries.bind fun entries => entries.get "Metadata").isSome)
    else .error (.profile (.unknownProperty ⟨name⟩))
  | _ => .error (.profile (.unknownProperty ⟨name⟩))

/-- Services with those properties, for documents without metadata. -/
def documentServices : ValidationServices where
  model := { ModelServices.unused with property := documentProperty }
  xml := ⟨fun _ => ⟨[], none⟩, fun _ => ""⟩
  schema _ := []

/-- A document with these entries in the catalog. -/
def catalogSource (entries : String) : Bytes :=
  utf8 ("%PDF-1.4\n1 0 obj<</Type/Catalog" ++ entries ++ ">>endobj\ntrailer<</Root 1 0 R>>\n%%EOF")

/-- Options that leave everything but the flavour at its default. -/
def flavourOptions (flavour : FlavourSelection) : ValidationOptions where
  flavour
  resourceLimits := {}
  password := none
  maxFailedAssertionsPerRule := 10
  recordPassedAssertions := false
  featureSelection := .none
  policy := none

/-- The run on such a document. -/
def catalogRun (flavour : FlavourSelection) (entries : String) : Except PdfvError ValidationReport :=
  (Validator.builtin metadataSources (flavourOptions flavour)).validateReader documentServices
    (catalogSource entries) ⟨none⟩ .memory ⟨0, 0, 0⟩

/-- The status of the run and the flavours it names. -/
def catalogVerdict (flavour : FlavourSelection) (entries : String) :
    Option (ValidationStatus × List ValidationFlavour) :=
  (catalogRun flavour entries).toOption.map fun report => (report.status, report.flavours)

theorem catalogRun_of_verdict {flavour : FlavourSelection} {entries : String} {status : ValidationStatus}
    {flavours : List ValidationFlavour} (h : catalogVerdict flavour entries = some (status, flavours)) :
    ∃ report, catalogRun flavour entries = .ok report ∧ report.status = status
      ∧ report.flavours = flavours := by
  unfold catalogVerdict at h
  cases hrun : catalogRun flavour entries with
  | error e =>
    rw [hrun] at h
    cases h
  | ok report =>
    rw [hrun] at h
    cases h
    exact ⟨report, rfl, rfl, rfl⟩

/-- With an entry for the metadata, the explicit run is Valid. -/
theorem validateReader_valid_explicit : ∃ report profiles,
    catalogRun (.explicit pdfa1b) "/Metadata 1 0 R" = .ok report ∧ pdfa1b ∈ report.flavours
      ∧ ExplicitVerdict metadataSources documentServices (flavourOptions (.explicit pdfa1b))
        (catalogSource "/Metadata 1 0 R") ⟨none⟩ .memory ⟨0, 0, 0⟩ profiles pdfa1b := by
  have hverdict : catalogVerdict (.explicit pdfa1b) "/Metadata 1 0 R" = some (.valid, [pdfa1b]) := by
    decide +kernel
  obtain ⟨report, hrun, hvalid, hflavours⟩ := catalogRun_of_verdict hverdict
  have hmem : pdfa1b ∈ report.flavours := by
    rw [hflavours]
    exact List.mem_cons_self
  have hselection : ∀ path, (flavourOptions (.explicit pdfa1b)).flavour ≠ .customProfile path := by
    intro path h
    cases h
  obtain ⟨document, found, profiles, -, -, hall, -⟩ := validateReader_valid hselection hrun hvalid
  refine ⟨report, profiles, hrun, hmem, hall ?_ pdfa1b hmem⟩
  intro default h
  cases h

/-- Without one, the run under the default flavour PDF/A-1b is Valid and the explicit run is not. -/
theorem validateReader_default_fails : ∃ report,
    catalogRun (.auto (some pdfa1b)) "" = .ok report ∧ report.status = .valid ∧ pdfa1b ∈ report.flavours
      ∧ ∀ profiles, ¬ ExplicitVerdict metadataSources documentServices
        (flavourOptions (.auto (some pdfa1b))) (catalogSource "") ⟨none⟩ .memory ⟨0, 0, 0⟩ profiles
        pdfa1b := by
  have hverdict : catalogVerdict (.auto (some pdfa1b)) "" = some (.valid, [pdfa1b]) := by
    decide +kernel
  have hexplicit : catalogVerdict (.explicit pdfa1b) "" = some (.invalid, [pdfa1b]) := by
    decide +kernel
  obtain ⟨report, hrun, hvalid, hflavours⟩ := catalogRun_of_verdict hverdict
  obtain ⟨report', hrun', hinvalid, -⟩ := catalogRun_of_verdict hexplicit
  refine ⟨report, hrun, hvalid, ?_, fun profiles hverdict => ?_⟩
  · rw [hflavours]
    exact List.mem_cons_self
  · obtain ⟨report'', hrun'', hvalid''⟩ := hverdict.valid
    have hsame : catalogRun (.explicit pdfa1b) "" = .ok report'' := hrun''
    rw [hrun'] at hsame
    cases hsame
    rw [hinvalid] at hvalid''
    cases hvalid''

end Pdfv
