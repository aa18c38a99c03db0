import Pdfv.Profile.Rules
import Pdfv.Basic.Fallible
/-!
# Built-in profiles

The generated profile catalog, the spelling of flavours, the internal smoke profile and the profile
repository. The vendored profile XML is read by an XML crate, so what it yields is a parameter
(`ProfileSources`).
-/

namespace Pdfv

open Fallible

/-- One generated profile source entry. -/
structure GeneratedProfileSource where
  id : String
  displayFlavour : String
deriving DecidableEq, Repr

/-- `GENERATED_PROFILE_SOURCES`. -/
def generatedProfileSources : List GeneratedProfileSource :=
  [⟨"verapdf-pdfa-1a", "pdfa-1a"⟩, ⟨"verapdf-pdfa-1b", "pdfa-1b"⟩, ⟨"verapdf-pdfa-2a", "pdfa-2a"⟩,
   ⟨"verapdf-pdfa-2b", "pdfa-2b"⟩, ⟨"verapdf-pdfa-2u", "pdfa-2u"⟩, ⟨"verapdf-pdfa-3a", "pdfa-3a"⟩,
   ⟨"verapdf-pdfa-3b", "pdfa-3b"⟩, ⟨"verapdf-pdfa-3u", "pdfa-3u"⟩, ⟨"verapdf-pdfa-4", "pdfa-4"⟩,
   ⟨"verapdf-pdfa-4e", "pdfa-4e"⟩, ⟨"verapdf-pdfa-4f", "pdfa-4f"⟩, ⟨"verapdf-pdfua-1", "pdfua-1"⟩,
   ⟨"verapdf-pdfua-2-iso32005", "pdfua-2-iso32005"⟩,
   ⟨"verapdf-wtpdf-1-0-accessibility", "wtpdf-1-0-accessibility"⟩,
   ⟨"verapdf-wtpdf-1-0-reuse", "wtpdf-1-0-reuse"⟩]

/-- What lies outside the repository's code: the name and the rules that the XML import reads from a
vendored source, and the loader of custom profiles when that feature is enabled. -/
structure ProfileSources where
  importXml : GeneratedProfileSource → Except PdfvError (BoundedText × List Rule)
  loadCustom : Option (String → Except PdfvError ValidationProfile)

/-! ## Flavour spellings -/

/-- The spelling before the length check of `display_flavour`. -/
def displayFlavourText (flavour : ValidationFlavour) : Option String :=
  let conformance := flavour.conformance.text
  if flavour.family.text = "pdfa" then
    if conformance = "none" then some s!"pdfa-{flavour.part}"
    else some s!"pdfa-{flavour.part}{conformance}"
  else if flavour.family.text = "pdfua" && flavour.part = 1 && conformance = "none" then
    some "pdfua-1"
  else if flavour.family.text = "pdfua" && flavour.part = 2 && conformance = "iso32005" then
    some "pdfua-2-iso32005"
  else if flavour.family.text = "wtpdf" && (conformance = "reuse" || conformance = "accessibility")
  then some s!"wtpdf-1-0-{conformance}"
  else none

/-- `display_flavour`. -/
def displayFlavour (flavour : ValidationFlavour) : Except PdfvError BoundedText :=
  match displayFlavourText flavour with
  | some value => BoundedText.new value 128
  | none => .error (.profile .unsupportedSelection)

/-- `builtin_source_for_flavour`. -/
def builtinSourceForFlavour (flavour : ValidationFlavour) :
    Except PdfvError GeneratedProfileSource := do
  let display ← displayFlavour flavour
  match generatedProfileSources.find? fun source => source.displayFlavour = display.text with
  | some source => return source
  | none => .error (.profile .unsupportedSelection)

/-- `str::strip_prefix`. -/
def stripText (start value : String) : Option String :=
  if start.toList.isPrefixOf value.toList then
    some (String.ofList (value.toList.drop start.toList.length))
  else none

/-- A flavour from its parts; `ValidationFlavour::new`. -/
def ValidationFlavour.new (family : String) (part : Nat) (conformance : String) :
    Except PdfvError ValidationFlavour :=
  match Identifier.new family, Identifier.new conformance with
  | some family, some conformance =>
    if h : 0 < part then .ok ⟨family, part, conformance, h⟩
    else .error (.profile (.invalidField "flavour" ⟨"PDF/A part is zero"⟩))
  | _, _ => .error Identifier.policyError

/-- The number spelled by a run of ASCII digits. -/
def decimalValue (digits : List Char) : Nat :=
  digits.foldl (fun n c => n * 10 + (c.toNat - 48)) 0

/-- `str::parse::<u32>`: an optional plus sign and decimal digits. -/
def parseU32 (value : String) : Option Nat :=
  let digits := match value.toList with
    | '+' :: rest => rest
    | cs => cs
  if digits.isEmpty || !digits.all Char.isDigit || u32Size ≤ decimalValue digits then none
  else some (decimalValue digits)

/-- `parse_display_pdfa_flavour`. -/
def parseDisplayPdfaFlavour (rest : String) : Except PdfvError ValidationFlavour :=
  let digits := rest.toList.takeWhile fun c => 48 ≤ c.toNat && c.toNat ≤ 57
  let conformance := rest.toList.drop digits.length
  if digits.isEmpty || decimalValue digits ≥ u32Size then
    .error (.profile (.invalidField "flavour" ⟨"PDF/A part is not numeric"⟩))
  else
    ValidationFlavour.new "pdfa" (decimalValue digits)
      (if conformance.isEmpty then "none" else String.ofList conformance)

/-- `parse_display_flavour`. -/
def parseDisplayFlavour (value : String) : Except PdfvError ValidationFlavour :=
  match stripText "pdfa-" value with
  | some rest => parseDisplayPdfaFlavour rest
  | none =>
    match stripText "pdfua-" value with
    | some rest =>
      if rest = "1" then ValidationFlavour.new "pdfua" 1 "none"
      else if rest = "2-iso32005" then ValidationFlavour.new "pdfua" 2 "iso32005"
      else .error (.profile .unsupportedSelection)
    | none =>
      match stripText "wtpdf-1-0-" value with
      | some level =>
        if level = "reuse" ∨ level = "accessibility" then ValidationFlavour.new "wtpdf" 1 level
        else .error (.profile .unsupportedSelection)
      | none => .error (.profile .unsupportedSelection)

/-! ## The smoke profile -/

/-- `property_expr`. -/
def propertyExpr (name : String) : RuleExpr :=
  .property [name]

/-- `rule`. -/
def builtinRule (id : String) (objectType : Family) (description : String) (left : RuleExpr)
    (op : BinaryOp) (right : RuleExpr) : Rule where
  id := ⟨id⟩
  objectType := .family objectType
  deferred := false
  description := ⟨description⟩
  test := .binary op left right
  errorMessage := ⟨description⟩
  references := []

/-- The ten rules of `m4_profile`. -/
def m4Rules : List Rule :=
  [builtinRule "m0-header-offset-zero" .document "PDF header must start at byte zero"
     (propertyExpr "headerOffset") .eq (.number (.ofInt 0)),
   builtinRule "m0-document-not-encrypted" .document
     "Encrypted documents are not validated in M0"
     (propertyExpr "encrypted") .eq (.bool false),
   builtinRule "m0-catalog-present" .document "Trailer must reference a catalog"
     (propertyExpr "hasCatalog") .eq (.bool true),
   builtinRule "m4-page-contents-present" .page "Page dictionaries must contain contents"
     (propertyExpr "hasContents") .eq (.bool true),
   builtinRule "m4-page-resources-present" .page "Page dictionaries must contain resources"
     (propertyExpr "hasResources") .eq (.bool true),
   builtinRule "m4-font-subtype-present" .font "Font dictionaries must contain a Subtype entry"
     (propertyExpr "hasSubtype") .eq (.bool true),
   builtinRule "m4-annotation-subtype-present" Family.annotation
     "Annotation dictionaries must contain a Subtype entry"
     (propertyExpr "hasSubtype") .eq (.bool true),
   builtinRule "m4-output-intent-profile-present" .outputIntent
     "Output intent dictionaries must contain a destination output profile"
     (propertyExpr "hasDestOutputProfile") .eq (.bool true),
   builtinRule "m4-content-stream-length-non-negative" .contentStream
     "Page content streams must expose a non-negative declared or discovered length"
     (propertyExpr "declaredLength") .ge (.number (.ofInt 0)),
   builtinRule "m0-stream-length-matches" .stream
     "Stream declared length must match discovered length"
     (propertyExpr "lengthMatches") .eq (.bool true)]

/-- `m4_profile`. -/
def m4Profile (flavour : ValidationFlavour) : ValidationProfile where
  identity := ⟨⟨"pdfv-m4"⟩, ⟨"pdfv M4 built-in profile"⟩, some ⟨"0.1.0"⟩⟩
  flavour := flavour
  rules := m4Rules

/-! ## Repositories -/

/-- `ProfileRepository::profiles_for`. -/
abbrev ProfileRepository := FlavourSelection → Except PdfvError (List ValidationProfile)

namespace ProfileSources

variable (sources : ProfileSources)

/-- `import_generated_profile`: the imported rules under the identity and flavour of the source. -/
def importGeneratedProfile (source : GeneratedProfileSource) : Except PdfvError ValidationProfile := do
  let (name, rules) ← sources.importXml source
  let flavour ← parseDisplayFlavour source.displayFlavour
  return ⟨⟨⟨source.id⟩, name, some ⟨"verapdf-generated"⟩⟩, flavour, rules⟩

/-- `BuiltinProfileRepository::profiles_for`. -/
def builtinProfilesFor : ProfileRepository
  | .auto none => .ok []
  | .auto (some flavour) => do
    let _ ← builtinSourceForFlavour flavour
    return [m4Profile flavour]
  | .explicit flavour => do
    let source ← builtinSourceForFlavour flavour
    let profile ← sources.importGeneratedProfile source
    return [profile]
  | .customProfile profilePath =>
    match sources.loadCustom with
    | some load => do
      let profile ← load profilePath
      return [profile]
    | none => .error (.profile .unsupportedSelection)

end ProfileSources

/-- The flavour of a catalog entry selects that entry again. -/
theorem builtinSource_displayed {source : GeneratedProfileSource}
    (h : source ∈ generatedProfileSources) {flavour : ValidationFlavour}
    (hflavour : parseDisplayFlavour source.displayFlavour = .ok flavour) :
    builtinSourceForFlavour flavour = .ok source := by
  have hall : ∀ source ∈ generatedProfileSources,
      (parseDisplayFlavour source.displayFlavour >>= builtinSourceForFlavour) = .ok source := by
    decide +kernel
  have hsource := hall source h
  rw [hflavour] at hsource
  exact hsource

/-! ## Catalog entries and flavours -/

/-- A catalog spelling of a PDF/A flavour: one digit, then a conformance level without digits. -/
def isCatalogPdfa (source : GeneratedProfileSource) : Bool :=
  match source.displayFlavour.toList with
  | 'p' :: 'd' :: 'f' :: 'a' :: '-' :: digit :: level =>
    digit.isDigit && (level.head?.all fun c => !c.isDigit)
      && (parseDisplayFlavour source.displayFlavour).toOption.any fun flavour =>
        flavour.family.text = "pdfa" && flavour.part = decimalValue [digit]
          && flavour.conformance.text = if level.isEmpty then "none" else String.ofList level
  | 'p' :: 'd' :: 'f' :: 'a' :: _ => false
  | _ => true

theorem generatedProfileSources_pdfa {source : GeneratedProfileSource}
    (h : source ∈ generatedProfileSources) : isCatalogPdfa source = true := by
  have hall : ∀ source ∈ generatedProfileSources, isCatalogPdfa source = true := by
    decide +kernel
  exact hall source h

theorem decimalValue_digit {n : Nat} (h : n < 10) : decimalValue [n.digitChar] = n := by
  have hall : ∀ n < 10, decimalValue [Nat.digitChar n] = n := by
    decide
  exact hall n h

/-- A decimal number followed by a level spells one digit followed by letters in one way only. -/
theorem toDigits_append_inj {part : Nat} {conformance level : List Char} {digit : Char}
    (h : Nat.toDigits 10 part ++ conformance = digit :: level)
    (hlevel : ∀ c, level.head? = some c → c.isDigit = false) :
    decimalValue [digit] = part ∧ conformance = level := by
  have hne : Nat.toDigits 10 part ≠ [] := Nat.toDigits_ne_nil
  have hdigits : ∀ c ∈ Nat.toDigits 10 part, c.isDigit := fun c hc =>
    Nat.isDigit_of_mem_toDigits (by decide) (by decide) hc
  obtain ⟨first, more, hlist⟩ := List.exists_cons_of_ne_nil hne
  rw [hlist, List.cons_append, List.cons.injEq] at h
  obtain ⟨rfl, hrest⟩ := h
  cases more with
  | nil =>
    have hlen : (Nat.toDigits 10 part).length ≤ 1 := by
      rw [hlist]
      exact le_refl 1
    have hlt : part < 10 := by
      have := (Nat.length_toDigits_le_iff (n := part) (k := 1) (by decide) (by decide)).mp hlen
      omega
    rw [Nat.toDigits_of_lt_base hlt, List.cons.injEq] at hlist
    rw [← hlist.1]
    exact ⟨decimalValue_digit hlt, hrest⟩
  | cons second more =>
    rw [List.cons_append] at hrest
    have hsecond := hlevel second (by rw [← hrest]; rfl)
    have hdigit := hdigits second (by rw [hlist]; simp)
    rw [hdigit] at hsecond
    cases hsecond

theorem ValidationFlavour.ext_text {a b : ValidationFlavour} (hfamily : a.family.text = b.family.text)
    (hpart : a.part = b.part) (hconformance : a.conformance.text = b.conformance.text) : a = b := by
  obtain ⟨⟨family⟩, part, ⟨conformance⟩, hpos⟩ := a
  obtain ⟨⟨family'⟩, part', ⟨conformance'⟩, hpos'⟩ := b
  dsimp only at hfamily hpart hconformance
  subst hfamily hpart hconformance
  rfl

theorem displayFlavour_eq_ok {flavour : ValidationFlavour} {display : BoundedText}
    (h : displayFlavour flavour = .ok display) : displayFlavourText flavour = some display.text := by
  unfold displayFlavour at h
  split at h
  · rename_i value hvalue
    unfold BoundedText.new at h
    split at h
    · cases h
    · cases h
      exact hvalue
  · cases h

theorem builtinSourceForFlavour_eq_ok {flavour : ValidationFlavour}
    {source : GeneratedProfileSource} (h : builtinSourceForFlavour flavour = .ok source) :
    source ∈ generatedProfileSources
      ∧ displayFlavourText flavour = some source.displayFlavour := by
  unfold builtinSourceForFlavour at h
  obtain ⟨display, hdisplay, h⟩ := bind_eq_ok.mp h
  split at h
  · rename_i found hfound
    cases h
    have hname := List.find?_some hfound
    rw [decide_eq_true_eq] at hname
    rw [displayFlavour_eq_ok hdisplay, hname]
    exact ⟨List.mem_of_find?_eq_some hfound, rfl⟩
  · cases h

/-- The catalog entry found for a PDF/A flavour spells that flavour. -/
theorem catalogPdfa_flavour {source : GeneratedProfileSource} {part : Nat}
    {conformance : List Char} (hmem : source ∈ generatedProfileSources)
    (hspelled : source.displayFlavour.toList
      = "pdfa-".toList ++ (Nat.toDigits 10 part ++ conformance)) :
    ∃ flavour, parseDisplayFlavour source.displayFlavour = .ok flavour
      ∧ flavour.family.text = "pdfa" ∧ flavour.part = part
      ∧ flavour.conformance.text
        = if conformance.isEmpty then "none" else String.ofList conformance := by
  have hshape := generatedProfileSources_pdfa hmem
  obtain ⟨first, more, hfirst⟩ := List.exists_cons_of_ne_nil
    (show Nat.toDigits 10 part ≠ [] from Nat.toDigits_ne_nil)
  have hlist : source.displayFlavour.toList = 'p' :: 'd' :: 'f' :: 'a' :: '-' :: first
      :: (more ++ conformance) := by
    rw [hspelled, hfirst]
    rfl
  unfold isCatalogPdfa at hshape
  rw [hlist] at hshape
  simp only [Bool.and_eq_true] at hshape
  obtain ⟨⟨-, hlevel⟩, hparsed⟩ := hshape
  obtain ⟨hpart, hconformance⟩ := @toDigits_append_inj _ _ (more ++ conformance) _
    (by rw [hfirst, List.cons_append]) (by
      intro c hc
      rw [hc] at hlevel
      simpa using hlevel)
  rw [← hconformance] at hparsed
  cases hflavour : parseDisplayFlavour source.displayFlavour with
  | error e =>
    rw [hflavour] at hparsed
    cases hparsed
  | ok flavour =>
    rw [hflavour] at hparsed
    simp only [Except.toOption, Option.any_some, Bool.and_eq_true, decide_eq_true_eq] at hparsed
    obtain ⟨⟨hfamily, hflavourPart⟩, hflavourConformance⟩ := hparsed
    rw [hpart] at hflavourPart
    exact ⟨flavour, rfl, hfamily, hflavourPart, hflavourConformance⟩

theorem parseDisplayFlavour_pdfua1 :
    parseDisplayFlavour "pdfua-1" = .ok ⟨⟨"pdfua"⟩, 1, ⟨"none"⟩, Nat.one_pos⟩ := by
  decide +kernel

theorem parseDisplayFlavour_pdfua2 :
    parseDisplayFlavour "pdfua-2-iso32005" = .ok ⟨⟨"pdfua"⟩, 2, ⟨"iso32005"⟩, Nat.two_pos⟩ := by
  decide +kernel

theorem parseDisplayFlavour_wtpdf {level : String} (h : level = "reuse" ∨ level = "accessibility") :
    parseDisplayFlavour s!"wtpdf-1-0-{level}" = .ok ⟨⟨"wtpdf"⟩, 1, ⟨level⟩, Nat.one_pos⟩ := by
  rcases h with rfl | rfl
  · decide +kernel
  · decide +kernel

/-- The catalog entry of a flavour spells that flavour. The spelling of a WTPDF flavour drops its
part, so there the part has to be 1. -/
theorem builtinSource_flavour {flavour : ValidationFlavour} {source : GeneratedProfileSource}
    (h : builtinSourceForFlavour flavour = .ok source) (hnonempty : flavour.conformance.text ≠ "")
    (hwtpdf : flavour.family.text = "wtpdf" → flavour.part = 1) :
    parseDisplayFlavour source.displayFlavour = .ok flavour := by
  obtain ⟨hmem, htext⟩ := builtinSourceForFlavour_eq_ok h
  unfold displayFlavourText at htext
  dsimp only at htext
  split_ifs at htext with hpdfa hnone hua1 hua2 hw
  · have hspelled : source.displayFlavour.toList
        = "pdfa-".toList ++ (Nat.toDigits 10 flavour.part ++ []) := by
      rw [← Option.some.inj htext]
      simp [toString, Nat.toList_repr, String.toList_append]
    obtain ⟨parsed, hparsed, hfamily, hpart, hconformance⟩ := catalogPdfa_flavour hmem hspelled
    rw [hparsed, ValidationFlavour.ext_text (hfamily.trans hpdfa.symm) hpart
      (hconformance.trans hnone.symm)]
  · have hspelled : source.displayFlavour.toList
        = "pdfa-".toList ++ (Nat.toDigits 10 flavour.part ++ flavour.conformance.text.toList) := by
      rw [← Option.some.inj htext]
      simp [toString, Nat.toList_repr, String.toList_append]
    obtain ⟨parsed, hparsed, hfamily, hpart, hconformance⟩ := catalogPdfa_flavour hmem hspelled
    have hlevel : flavour.conformance.text.toList.isEmpty = false := by
      rw [List.isEmpty_eq_false_iff]
      intro hnil
      exact hnonempty (String.toList_eq_nil_iff.mp hnil)
    rw [hlevel, if_neg Bool.false_ne_true, String.ofList_toList] at hconformance
    rw [hparsed, ValidationFlavour.ext_text (hfamily.trans hpdfa.symm) hpart hconformance]
  · simp only [Bool.and_eq_true, decide_eq_true_eq] at hua1
    obtain ⟨⟨hfamily, hpart⟩, hconformance⟩ := hua1
    rw [← Option.some.inj htext, parseDisplayFlavour_pdfua1]
    exact congrArg _ (ValidationFlavour.ext_text hfamily.symm hpart.symm hconformance.symm)
  · simp only [Bool.and_eq_true, decide_eq_true_eq] at hua2
    obtain ⟨⟨hfamily, hpart⟩, hconformance⟩ := hua2
    rw [← Option.some.inj htext, parseDisplayFlavour_pdfua2]
    exact congrArg _ (ValidationFlavour.ext_text hfamily.symm hpart.symm hconformance.symm)
  · simp only [Bool.and_eq_true, Bool.or_eq_true, decide_eq_true_eq] at hw
    obtain ⟨hfamily, hlevel⟩ := hw
    rw [← Option.some.inj htext, parseDisplayFlavour_wtpdf hlevel]
    exact congrArg _ (ValidationFlavour.ext_text hfamily.symm (hwtpdf hfamily).symm rfl)

end Pdfv
