import Pdfv.Profile.Builtin
/-!
# Which flavours select a built-in profile

An explicit flavour is spelled and the catalog is searched for the spelling. The spelling of a WTPDF
flavour has no part in it, and a spelling of more than 128 bytes is an error of its own;
`selectsExactly_iff` says that elsewhere selection is exact.
-/

namespace Pdfv

open Fallible

/-- The flavour is the flavour of a generated profile. -/
def ValidationFlavour.IsGenerated (flavour : ValidationFlavour) : Prop :=
  ∃ source ∈ generatedProfileSources, parseDisplayFlavour source.displayFlavour = .ok flavour

namespace ProfileSources

variable {sources : ProfileSources} {flavour : ValidationFlavour}

/-- The flavour is selected if and only if it is generated: then its own profile is returned, and every
other flavour is refused. -/
structure SelectsExactly (sources : ProfileSources) (flavour : ValidationFlavour) : Prop where
  own : ∀ profiles, sources.builtinProfilesFor (.explicit flavour) = .ok profiles →
    flavour.IsGenerated ∧ ∃ profile, profiles = [profile] ∧ profile.flavour = flavour
  refused : ¬ flavour.IsGenerated →
    sources.builtinProfilesFor (.explicit flavour) = .error (.profile .unsupportedSelection)

/-- The vendored profiles can be imported. -/
def Importable (sources : ProfileSources) : Prop :=
  ∀ source ∈ generatedProfileSources, ∃ imported, sources.importXml source = .ok imported

/-- What the spelling says of the flavour: a WTPDF flavour has part 1, and the spelling of any flavour
fits its limit. -/
structure SpelledInFull (flavour : ValidationFlavour) : Prop where
  part : flavour.family.text = "wtpdf" →
    flavour.conformance.text = "reuse" ∨ flavour.conformance.text = "accessibility" →
    flavour.part = 1
  fits : ∀ value, displayFlavourText flavour = some value → (utf8 value).length ≤ 128

theorem isGenerated_of_source {source : GeneratedProfileSource}
    (h : builtinSourceForFlavour flavour = .ok source) (hnonempty : flavour.conformance.text ≠ "")
    (hspelled : SpelledInFull flavour) :
    source ∈ generatedProfileSources ∧ parseDisplayFlavour source.displayFlavour = .ok flavour := by
  obtain ⟨hmem, htext⟩ := builtinSourceForFlavour_eq_ok h
  refine ⟨hmem, builtinSource_flavour h hnonempty fun hfamily => ?_⟩
  apply hspelled.part hfamily
  -- only the two levels have a spelling
  by_contra hlevel
  rw [not_or] at hlevel
  unfold displayFlavourText at htext
  simp [hfamily, hlevel] at htext

/-- A selected profile carries the flavour that its catalog entry spells. -/
theorem builtinProfilesFor_flavour {profiles : List ValidationProfile}
    (h : sources.builtinProfilesFor (.explicit flavour) = .ok profiles) :
    ∃ source profile, builtinSourceForFlavour flavour = .ok source ∧ profiles = [profile] ∧
      parseDisplayFlavour source.displayFlavour = .ok profile.flavour := by
  obtain ⟨source, hsource, h⟩ := bind_eq_ok.mp h
  obtain ⟨profile, himport, h⟩ := bind_eq_ok.mp h
  cases h
  obtain ⟨⟨name, rules⟩, -, himport⟩ := bind_eq_ok.mp himport
  obtain ⟨parsed, hparsed, himport⟩ := bind_eq_ok.mp himport
  cases himport
  exact ⟨source, _, hsource, rfl, hparsed⟩

/-- A source of the catalog is imported. -/
theorem builtinProfilesFor_source (himport : sources.Importable) {source : GeneratedProfileSource}
    (h : builtinSourceForFlavour flavour = .ok source) :
    ∃ profiles, sources.builtinProfilesFor (.explicit flavour) = .ok profiles := by
  have hmem := (builtinSourceForFlavour_eq_ok h).1
  obtain ⟨⟨name, rules⟩, himported⟩ := himport source hmem
  have hparse : ∀ source ∈ generatedProfileSources,
      (parseDisplayFlavour source.displayFlavour).isOk = true := by
    decide +kernel
  have hparsed := hparse source hmem
  cases hflavour : parseDisplayFlavour source.displayFlavour with
  | error e =>
    rw [hflavour] at hparsed
    cases hparsed
  | ok parsed =>
    refine ⟨[⟨⟨⟨source.id⟩, name, some ⟨"verapdf-generated"⟩⟩, parsed, rules⟩], ?_⟩
    show (builtinSourceForFlavour flavour >>= _) = _
    rw [h, ok_bind]
    unfold importGeneratedProfile
    rw [himported, ok_bind]
    dsimp only
    rw [hflavour]
    rfl

/-- A flavour without a catalog entry is refused, with an error of its own when its spelling is too
long. -/
theorem builtinSource_error (hfits : ∀ value, displayFlavourText flavour = some value →
      (utf8 value).length ≤ 128)
    {e : PdfvError} (h : builtinSourceForFlavour flavour = .error e) :
    e = .profile .unsupportedSelection := by
  unfold builtinSourceForFlavour at h
  rcases bind_eq_error.mp h with hdisplay | ⟨display, -, h⟩
  · unfold displayFlavour at hdisplay
    split at hdisplay
    · rename_i value hvalue
      unfold BoundedText.new at hdisplay
      rw [if_neg (Nat.not_lt.mpr (hfits value hvalue))] at hdisplay
      cases hdisplay
    · cases hdisplay
      rfl
  · split at h
    · cases h
    · cases h
      rfl

/-- The spelling of a WTPDF flavour selects a profile whatever the part. -/
theorem builtinSource_wtpdf (hfamily : flavour.family.text = "wtpdf")
    (hlevel : flavour.conformance.text = "reuse" ∨ flavour.conformance.text = "accessibility") :
    ∃ source, builtinSourceForFlavour flavour = .ok source ∧
      source.displayFlavour = s!"wtpdf-1-0-{flavour.conformance.text}" := by
  have htext : displayFlavourText flavour = some s!"wtpdf-1-0-{flavour.conformance.text}" := by
    unfold displayFlavourText
    simp [hfamily, hlevel]
  unfold builtinSourceForFlavour displayFlavour
  rw [htext]
  rcases hlevel with hlevel | hlevel
  · rw [hlevel]
    exact ⟨⟨"verapdf-wtpdf-1-0-reuse", "wtpdf-1-0-reuse"⟩, by decide +kernel, by decide⟩
  · rw [hlevel]
    exact ⟨⟨"verapdf-wtpdf-1-0-accessibility", "wtpdf-1-0-accessibility"⟩, by decide +kernel,
      by decide⟩

/-- Selection by an explicit flavour is exact for the flavours that are spelled in full, and for no
others. -/
theorem selectsExactly_iff (himport : sources.Importable)
    (hidentifier : Identifier.new flavour.conformance.text = some flavour.conformance) :
    sources.SelectsExactly flavour ↔ SpelledInFull flavour := by
  have hnonempty : flavour.conformance.text ≠ "" := by
    intro hempty
    rw [hempty] at hidentifier
    cases hidentifier
  constructor
  · intro hexact
    refine ⟨fun hfamily hlevel => ?_, fun value hvalue => ?_⟩
    · obtain ⟨source, hsource, hdisplay⟩ := builtinSource_wtpdf hfamily hlevel
      obtain ⟨profiles, hprofiles⟩ := builtinProfilesFor_source himport hsource
      obtain ⟨-, profile, hlist, hflavour⟩ := hexact.own profiles hprofiles
      obtain ⟨source', profile', hsource', hlist', hparsed⟩ := builtinProfilesFor_flavour hprofiles
      rw [hsource] at hsource'
      cases hsource'
      rw [hlist] at hlist'
      cases hlist'
      rw [hdisplay, parseDisplayFlavour_wtpdf hlevel, hflavour] at hparsed
      rw [← Except.ok.inj hparsed]
    · by_contra hlong
      have herror : builtinSourceForFlavour flavour
          = .error (.configuration (.invalidValue "text" ⟨"value exceeds byte limit"⟩)) := by
        have hdisplay : displayFlavour flavour
            = .error (.configuration (.invalidValue "text" ⟨"value exceeds byte limit"⟩)) := by
          unfold displayFlavour
          rw [hvalue]
          exact if_pos (Nat.lt_of_not_le hlong)
        unfold builtinSourceForFlavour
        rw [hdisplay]
        rfl
      have hnot : ¬ flavour.IsGenerated := by
        rintro ⟨source, hmem, hparsed⟩
        rw [builtinSource_displayed hmem hparsed] at herror
        cases herror
      have hrefused := hexact.refused hnot
      change (builtinSourceForFlavour flavour >>= _) = _ at hrefused
      rw [herror] at hrefused
      cases hrefused
  · intro hspelled
    refine ⟨fun profiles hprofiles => ?_, fun hnot => ?_⟩
    · obtain ⟨source, profile, hsource, hlist, hparsed⟩ := builtinProfilesFor_flavour hprofiles
      obtain ⟨hmem, hflavour⟩ := isGenerated_of_source hsource hnonempty hspelled
      rw [hflavour] at hparsed
      exact ⟨⟨source, hmem, hflavour⟩, profile, hlist, (Except.ok.inj hparsed).symm⟩
    · show (builtinSourceForFlavour flavour >>= _) = _
      cases hsource : builtinSourceForFlavour flavour with
      | ok source =>
        obtain ⟨hmem, hflavour⟩ := isGenerated_of_source hsource hnonempty hspelled
        exact absurd ⟨source, hmem, hflavour⟩ hnot
      | error e =>
        rw [builtinSource_error hspelled.fits hsource]
        rfl

/-! ## Two flavours -/

/-- Every profile of the catalog, without rules. -/
def ruleless : ProfileSources where
  importXml source := .ok (⟨source.id⟩, [])
  loadCustom := none

theorem ruleless_importable : ruleless.Importable :=
  fun _ _ => ⟨_, rfl⟩

/-- PDF/UA-2, which the catalog has only with ISO 32005, is refused. -/
theorem selectsExactly_pdfua2 : ruleless.SelectsExactly ⟨⟨"pdfua"⟩, 2, ⟨"none"⟩, Nat.two_pos⟩ :=
  (selectsExactly_iff ruleless_importable (by decide +kernel)).mpr
    ⟨fun hfamily => absurd hfamily (by decide), fun value hvalue => by cases hvalue⟩

/-- WTPDF with the part 2 is taken for part 1. -/
theorem selectsExactly_wtpdf2_fails :
    ¬ ruleless.SelectsExactly ⟨⟨"wtpdf"⟩, 2, ⟨"reuse"⟩, Nat.two_pos⟩ := by
  intro hexact
  have hselected : ruleless.builtinProfilesFor
      (.explicit ⟨⟨"wtpdf"⟩, 2, ⟨"reuse"⟩, Nat.two_pos⟩)
      = .ok [⟨⟨⟨"verapdf-wtpdf-1-0-reuse"⟩, ⟨"verapdf-wtpdf-1-0-reuse"⟩, some ⟨"verapdf-generated"⟩⟩,
          ⟨⟨"wtpdf"⟩, 1, ⟨"reuse"⟩, Nat.one_pos⟩, []⟩] := by
    rfl
  obtain ⟨-, profile, hlist, hflavour⟩ := hexact.own _ hselected
  cases hlist
  cases hflavour

end ProfileSources

end Pdfv
