import Pdfv.Xmp.Claims
/-!
# What detection selects

The identification claims of a packet are read by separate readers. `SelectsClaims` says what
automatic detection owes for them; `detect_selects_iff` says when it delivers it.
-/

namespace Pdfv

open Fallible

/-! ## What detection owes -/

/-- What a reader found: no claim, a claim, or why the claim is malformed. -/
def claimReading : Except PdfvError (Option FlavourClaim) → List (Except PdfvError FlavourClaim)
  | .ok none => []
  | .ok (some claim) => [.ok claim]
  | .error error => [.error error]

/-- The claimed flavour is in the catalog. -/
def FlavourClaim.isSupported (claim : FlavourClaim) : Bool :=
  (builtinSourceForFlavour claim.flavour).toOption.isSome

/-- A warning carries the claim's displayed flavour, or the catalog name made of it. -/
def FlavourClaim.NamedBy (claim : FlavourClaim) (profileId : Identifier) : Prop :=
  profileId.text = claim.displayFlavour.text
    ∨ profileId.text = "verapdf-" ++ claim.displayFlavour.text

namespace PacketBuilder

variable (b : PacketBuilder)

/-- The identification claims in claim order, each as its own reader reads it. -/
def claimReadings : List (Except PdfvError FlavourClaim) :=
  claimReading b.pdfaClaim ++ claimReading b.pdfuaClaim
    ++ b.declarations.flatMap fun property => claimReading (wtpdfClaim property)

/-- The well-formed claims, the first of each displayed flavour. -/
def wellFormedClaims : List FlavourClaim :=
  retainDistinct [] (b.claimReadings.filterMap Except.toOption)

/-- The error of a claim that is malformed. -/
def malformedReading : Except PdfvError FlavourClaim → Option PdfvError
  | .ok _ => none
  | .error error => some error

/-- Why the malformed claims are malformed. -/
def malformedClaims : List PdfvError :=
  b.claimReadings.filterMap malformedReading

/-- The well-formed claims of flavours in the catalog. -/
def supportedClaims : List FlavourClaim :=
  b.wellFormedClaims.filter FlavourClaim.isSupported

/-- The supported claims of the compatibility group of the first. -/
def selectedClaims : List FlavourClaim :=
  b.supportedClaims.filter fun claim =>
    b.supportedClaims.head?.any fun first =>
      compatibilityGroup claim.flavour = compatibilityGroup first.flavour

/-- The flavours to validate against, with the default for a packet without a usable claim. -/
def expectedFlavours (default : Option ValidationFlavour) : List ValidationFlavour :=
  if b.selectedClaims.isEmpty then default.toList else b.selectedClaims.map FlavourClaim.flavour

/-- What detection owes for the packet: exactly the flavours of the selected claims or else the
default, a warning for every claim that is not selected, and a warning when the default is used. -/
structure SelectsClaims (default : Option ValidationFlavour)
    (detected : DetectedFlavours) : Prop where
  flavours : detected.profiles.map ValidationProfile.flavour = b.expectedFlavours default
  malformed : ∀ error ∈ b.malformedClaims,
    .autoDetection (packetErrorReason error) ∈ detected.warnings
  unselected : ∀ claim ∈ b.wellFormedClaims, claim ∉ b.selectedClaims →
    ∃ profileId reason, claim.NamedBy profileId
      ∧ .incompatibleProfile profileId reason ∈ detected.warnings
  fallback : b.selectedClaims = [] → ∃ message, .autoDetection message ∈ detected.warnings

/-- The packet is accepted: no claim is malformed, and every declared prefix is an identifier. -/
def Accepted : Prop :=
  b.malformedClaims = []
    ∧ ∀ entry ∈ b.namespaces.entries, ∃ identifier, identifierAllowEmpty entry.1 = .ok identifier

/-- Refusing the packet loses nothing: at most one claim is malformed, and the others name the
flavour that is the default. -/
def OnlyNamesDefault (default : Option ValidationFlavour) : Prop :=
  b.malformedClaims.length ≤ 1 ∧ ∀ claim ∈ b.wellFormedClaims, default = some claim.flavour

end PacketBuilder

/-! ## Readers -/

theorem Identifier.new_eq_some {value : String} {identifier : Identifier}
    (h : Identifier.new value = some identifier) :
    identifier.text = value ∧ value ≠ "" ∧ (utf8 value).all isIdentifierByte = true := by
  unfold Identifier.new at h
  dsimp only at h
  split_ifs at h with hbad
  simp only [Bool.or_eq_true, not_or, Bool.not_eq_true', Bool.not_eq_true] at hbad
  obtain ⟨⟨hempty, -⟩, hall⟩ := hbad
  rw [← Option.some.inj h]
  refine ⟨rfl, ?_, by simpa using hall⟩
  rintro rfl
  cases hempty

theorem utf8_eq_nil {value : String} (h : utf8 value = []) : value = "" := by
  rw [← String.toList_eq_nil_iff]
  by_contra hne
  obtain ⟨c, cs, hcs⟩ := List.exists_cons_of_ne_nil hne
  have hlen := congrArg List.length h
  unfold utf8 at hlen
  rw [hcs, List.flatMap_cons, List.length_append, String.length_utf8EncodeChar] at hlen
  have hpos := c.utf8Size_pos
  simp only [List.length_nil] at hlen
  omega

theorem newIdentifier_eq_ok {value : String} (hne : value ≠ "")
    (hlen : (utf8 value).length ≤ maxIdentifierBytes)
    (hall : (utf8 value).all isIdentifierByte = true) : newIdentifier value = .ok ⟨value⟩ := by
  have hempty : (utf8 value).isEmpty = false := by
    rw [List.isEmpty_eq_false_iff]
    exact fun hnil => hne (utf8_eq_nil hnil)
  have hnew : Identifier.new value = some ⟨value⟩ := by
    unfold Identifier.new
    dsimp only
    rw [hempty, hall, if_neg]
    simp [Nat.not_lt.mpr hlen]
  unfold newIdentifier
  rw [hnew]

theorem newIdentifier_error {value : String} {e : PdfvError} (h : newIdentifier value = .error e) :
    e = Identifier.policyError := by
  unfold newIdentifier at h
  split at h
  · cases h
  · cases h
    rfl

theorem ValidationFlavour.new_eq_ok {family conformance : String} {part : Nat}
    {flavour : ValidationFlavour} (h : ValidationFlavour.new family part conformance = .ok flavour) :
    flavour.family.text = family ∧ flavour.part = part ∧ flavour.conformance.text = conformance
      ∧ conformance ≠ "" ∧ (utf8 conformance).all isIdentifierByte = true := by
  unfold ValidationFlavour.new at h
  split at h
  · rename_i newFamily newConformance hfamily hconformance
    split at h
    · cases h
      obtain ⟨hname, -, -⟩ := Identifier.new_eq_some hfamily
      obtain ⟨hlevel, hne, hall⟩ := Identifier.new_eq_some hconformance
      exact ⟨hname, rfl, hlevel, hne, hall⟩
    · cases h
  · cases h

theorem utf8_digit {c : Char} (h : c.isDigit = true) :
    (String.utf8EncodeChar c).all isIdentifierByte = true := by
  have hall : ∀ n < 58, 48 ≤ n →
      (String.utf8EncodeChar (Char.ofNat n)).all isIdentifierByte = true := by
    decide
  rw [Char.isDigit, Bool.and_eq_true, decide_eq_true_eq, decide_eq_true_eq] at h
  obtain ⟨hlow, hhigh⟩ := h
  have hlow : 48 ≤ c.toNat := UInt32.le_iff_toNat_le.mp hlow
  have hhigh : c.toNat ≤ 57 := UInt32.le_iff_toNat_le.mp hhigh
  have hbyte := hall c.toNat (by omega) hlow
  rwa [Char.ofNat_toNat] at hbyte

theorem utf8_toString (n : Nat) : (utf8 (toString n)).all isIdentifierByte = true := by
  unfold utf8
  rw [List.all_flatMap, List.all_eq_true]
  intro c hc
  rw [show (toString n).toList = Nat.toDigits 10 n from Nat.toList_repr] at hc
  exact utf8_digit (Nat.isDigit_of_mem_toDigits (by decide) (by decide) hc)

/-- A displayed flavour is made of identifier characters. -/
theorem displayFlavourText_bytes {flavour : ValidationFlavour} {value : String}
    (h : displayFlavourText flavour = some value)
    (hconformance : (utf8 flavour.conformance.text).all isIdentifierByte = true) :
    value ≠ "" ∧ (utf8 value).all isIdentifierByte = true := by
  have hpdfa : ∀ rest, (utf8 rest).all isIdentifierByte = true →
      "pdfa-" ++ toString flavour.part ++ rest ≠ ""
        ∧ (utf8 ("pdfa-" ++ toString flavour.part ++ rest)).all isIdentifierByte = true := by
    intro rest hrest
    constructor
    · intro hempty
      have hlist := congrArg String.toList hempty
      rw [String.toList_append, String.toList_append] at hlist
      cases hlist
    · rw [utf8_append, utf8_append, List.all_append, List.all_append, utf8_toString, hrest]
      rfl
  unfold displayFlavourText at h
  dsimp only at h
  split_ifs at h with hfamily hnone hua1 hua2 hw
  · have hplain := hpdfa "" rfl
    rw [String.append_empty] at hplain
    rw [← Option.some.inj h]
    exact hplain
  · rw [← Option.some.inj h]
    exact hpdfa flavour.conformance.text hconformance
  · rw [← Option.some.inj h]
    decide +kernel
  · rw [← Option.some.inj h]
    decide +kernel
  · simp only [Bool.and_eq_true, Bool.or_eq_true, decide_eq_true_eq] at hw
    rw [← Option.some.inj h]
    rcases hw.2 with hlevel | hlevel
    · rw [hlevel]
      decide +kernel
    · rw [hlevel]
      decide +kernel

/-! ## Claims -/

/-- What a claim records of its flavour. -/
structure FlavourClaim.Displayed (claim : FlavourClaim) : Prop where
  display : Pdfv.displayFlavour claim.flavour = .ok claim.displayFlavour
  identifier : newIdentifier claim.displayFlavour.text = .ok ⟨claim.displayFlavour.text⟩
  conformance : claim.flavour.conformance.text ≠ ""
  wtpdf : claim.flavour.family.text = "wtpdf" → claim.flavour.part = 1

theorem displayFlavour_identifier {flavour : ValidationFlavour} {display : BoundedText}
    (h : displayFlavour flavour = .ok display)
    (hconformance : (utf8 flavour.conformance.text).all isIdentifierByte = true) :
    newIdentifier display.text = .ok ⟨display.text⟩ := by
  obtain ⟨hne, hall⟩ := displayFlavourText_bytes (displayFlavour_eq_ok h) hconformance
  have hlen : (utf8 display.text).length ≤ maxIdentifierBytes := by
    unfold displayFlavour at h
    rw [displayFlavour_eq_ok h] at h
    exact (BoundedText.new_eq_ok h).2
  exact newIdentifier_eq_ok hne hlen hall

section Reading

variable {kind : XmpIdentificationKind} {flavour : ValidationFlavour} {property : XmpProperty}
  {conformance rev : Option XmpProperty}

theorem claimFromProperty_displayed {claim : FlavourClaim} {family level : String} {part : Nat}
    (hflavour : ValidationFlavour.new family part level = .ok flavour)
    (hwtpdf : family = "wtpdf" → part = 1)
    (h : claimFromProperty kind flavour property conformance rev = .ok claim) :
    claim.Displayed := by
  unfold claimFromProperty at h
  obtain ⟨claimed, -, h⟩ := bind_eq_ok.mp h
  obtain ⟨display, hdisplay, h⟩ := bind_eq_ok.mp h
  cases h
  obtain ⟨hfamily, hpart, hlevel, hne, hall⟩ := ValidationFlavour.new_eq_ok hflavour
  rw [← hlevel] at hne hall
  refine ⟨hdisplay, displayFlavour_identifier hdisplay hall, hne, ?_⟩
  intro hname
  exact hpart.trans (hwtpdf (hfamily.symm.trans hname))

theorem claimFromProperty_error {e : PdfvError}
    (h : claimFromProperty kind flavour property conformance rev = .error e) :
    (conformance.isSome ∧ e = Identifier.policyError) ∨ displayFlavour flavour = .error e := by
  unfold claimFromProperty at h
  rcases bind_eq_error.mp h with hclaimed | ⟨claimed, -, h⟩
  · left
    cases conformance with
    | none => cases hclaimed
    | some level =>
      refine ⟨rfl, ?_⟩
      rcases bind_eq_error.mp hclaimed with hnew | ⟨identifier, -, hpure⟩
      · exact newIdentifier_error hnew
      · cases hpure
  · right
    rcases bind_eq_error.mp h with hdisplay | ⟨display, -, hpure⟩
    · exact hdisplay
    · cases hpure

end Reading

/-- The errors of a part that is no positive number. -/
def partErrors (field : String) : List PdfvError :=
  [.profile (.invalidField field ⟨"XMP identification part is not numeric"⟩),
   .profile (.invalidField field ⟨"XMP identification part is zero"⟩)]

/-- The errors of a malformed PDF/A claim. -/
def pdfaErrors : List PdfvError :=
  partErrors "PDF/A part"
    ++ [Identifier.policyError, .configuration (.invalidValue "text" ⟨"value exceeds byte limit"⟩)]

/-- The errors of a malformed PDF/UA claim. -/
def pdfuaErrors : List PdfvError :=
  partErrors "PDF/UA part" ++ [.profile .unsupportedSelection]

theorem parseNonzeroPart_error {value field : String} {e : PdfvError}
    (h : parseNonzeroPart value field = .error e) : e ∈ partErrors field := by
  unfold parseNonzeroPart at h
  split at h
  · cases h
    exact List.mem_cons_self
  · split at h
    · cases h
      exact List.mem_cons_of_mem _ List.mem_cons_self
    · cases h

theorem parseNonzeroPart_eq_ok {value field : String} {number : Nat}
    (h : parseNonzeroPart value field = .ok number) : 0 < number := by
  unfold parseNonzeroPart at h
  split at h
  · cases h
  · split at h
    · cases h
    · cases h
      omega

theorem ValidationFlavour.new_error {family conformance : String} {part : Nat} {e : PdfvError}
    (hpart : 0 < part) (h : ValidationFlavour.new family part conformance = .error e) :
    e = Identifier.policyError := by
  unfold ValidationFlavour.new at h
  split at h
  · rw [dif_pos hpart] at h
    cases h
  · cases h
    rfl

theorem displayFlavour_pdfa_error {flavour : ValidationFlavour} {e : PdfvError}
    (hfamily : flavour.family.text = "pdfa") (h : displayFlavour flavour = .error e) :
    e = .configuration (.invalidValue "text" ⟨"value exceeds byte limit"⟩) := by
  have hbounded : ∀ value, BoundedText.new value 128 = .error e →
      e = .configuration (.invalidValue "text" ⟨"value exceeds byte limit"⟩) := by
    intro value hvalue
    unfold BoundedText.new at hvalue
    split at hvalue
    · cases hvalue
      rfl
    · cases hvalue
  unfold displayFlavour displayFlavourText at h
  simp only [hfamily, if_true] at h
  split at h
  · rename_i value hvalue
    exact hbounded value h
  · rename_i hnone
    split at hnone
    · cases hnone
    · cases hnone

theorem displayFlavour_pdfua_error {flavour : ValidationFlavour} {e : PdfvError}
    (hfamily : flavour.family.text = "pdfua") (h : displayFlavour flavour = .error e) :
    e = .profile .unsupportedSelection := by
  have hshort : ∀ value ∈ ["pdfua-1", "pdfua-2-iso32005"],
      BoundedText.new value 128 = .ok ⟨value⟩ := by
    decide +kernel
  unfold displayFlavour at h
  split at h
  · rename_i value hvalue
    have hmem : value ∈ ["pdfua-1", "pdfua-2-iso32005"] := by
      unfold displayFlavourText at hvalue
      dsimp only at hvalue
      rw [hfamily, if_neg (by decide)] at hvalue
      split_ifs at hvalue with hua1 hua2 hw
      · cases hvalue
        decide
      · cases hvalue
        decide
      · rw [Bool.and_eq_true] at hw
        exact absurd hw.1 (by decide)
    rw [hshort value hmem] at h
    cases h
  · cases h
    rfl

theorem ValidationFlavour.new_of_identifiers {family conformance : String} {part : Nat}
    {newFamily newConformance : Identifier} (hfamily : Identifier.new family = some newFamily)
    (hconformance : Identifier.new conformance = some newConformance) (hpart : 0 < part) :
    ValidationFlavour.new family part conformance
      = .ok ⟨newFamily, part, newConformance, hpart⟩ := by
  unfold ValidationFlavour.new
  rw [hfamily, hconformance]
  exact dif_pos hpart

namespace PacketBuilder

variable {b : PacketBuilder}

theorem pdfaClaim_displayed {claim : FlavourClaim} (h : b.pdfaClaim = .ok (some claim)) :
    claim.Displayed := by
  unfold pdfaClaim at h
  split at h
  · cases h
  · obtain ⟨number, -, h⟩ := bind_eq_ok.mp h
    obtain ⟨flavour, hflavour, h⟩ := bind_eq_ok.mp h
    obtain ⟨found, hclaim, h⟩ := bind_eq_ok.mp h
    cases h
    exact claimFromProperty_displayed hflavour (fun hname => absurd hname (by decide)) hclaim

theorem pdfaClaim_error {e : PdfvError} (h : b.pdfaClaim = .error e) : e ∈ pdfaErrors := by
  unfold pdfaClaim at h
  split at h
  · cases h
  · rcases bind_eq_error.mp h with hpart | ⟨number, hnumber, h⟩
    · exact List.mem_append_left _ (parseNonzeroPart_error hpart)
    · rcases bind_eq_error.mp h with hflavour | ⟨flavour, hflavour, h⟩
      · rw [ValidationFlavour.new_error (parseNonzeroPart_eq_ok hnumber) hflavour]
        decide
      · rcases bind_eq_error.mp h with hclaim | ⟨claim, -, hpure⟩
        · rcases claimFromProperty_error hclaim with ⟨-, rfl⟩ | hdisplay
          · decide
          · rw [displayFlavour_pdfa_error (ValidationFlavour.new_eq_ok hflavour).1 hdisplay]
            decide
        · cases hpure

theorem pdfuaClaim_displayed {claim : FlavourClaim} (h : b.pdfuaClaim = .ok (some claim)) :
    claim.Displayed := by
  unfold pdfuaClaim at h
  split at h
  · cases h
  · obtain ⟨number, -, h⟩ := bind_eq_ok.mp h
    obtain ⟨flavour, hflavour, h⟩ := bind_eq_ok.mp h
    obtain ⟨found, hclaim, h⟩ := bind_eq_ok.mp h
    cases h
    exact claimFromProperty_displayed hflavour (fun hname => absurd hname (by decide)) hclaim

theorem pdfuaClaim_error {e : PdfvError} (h : b.pdfuaClaim = .error e) : e ∈ pdfuaErrors := by
  unfold pdfuaClaim at h
  split at h
  · cases h
  · rcases bind_eq_error.mp h with hpart | ⟨number, hnumber, h⟩
    · exact List.mem_append_left _ (parseNonzeroPart_error hpart)
    · rcases bind_eq_error.mp h with hflavour | ⟨flavour, hflavour, h⟩
      · have hlevel : Identifier.new (if number = 2 then "iso32005" else "none")
            = some ⟨if number = 2 then "iso32005" else "none"⟩ := by
          split
          · decide +kernel
          · decide +kernel
        have hfamily : Identifier.new "pdfua" = some ⟨"pdfua"⟩ := by
          decide +kernel
        rw [ValidationFlavour.new_of_identifiers hfamily hlevel
          (parseNonzeroPart_eq_ok hnumber)] at hflavour
        cases hflavour
      · rcases bind_eq_error.mp h with hclaim | ⟨claim, -, hpure⟩
        · rcases claimFromProperty_error hclaim with ⟨hsome, -⟩ | hdisplay
          · cases hsome
          · rw [displayFlavour_pdfua_error (ValidationFlavour.new_eq_ok hflavour).1 hdisplay]
            decide
        · cases hpure

/-- A WTPDF declaration is never malformed. -/
theorem wtpdfClaim_ok (property : XmpProperty) : ∃ claim, wtpdfClaim property = .ok claim := by
  have hlevels : ∀ level ∈ ["accessibility", "reuse"],
      (ValidationFlavour.new "wtpdf" 1 level >>= displayFlavour)
        = .ok ⟨"wtpdf-1-0-" ++ level⟩ := by
    decide +kernel
  unfold wtpdfClaim
  split
  · exact ⟨none, rfl⟩
  · rename_i level hlevel
    have hmem : level ∈ ["accessibility", "reuse"] := by
      unfold wtpdfLevel at hlevel
      split_ifs at hlevel
      · cases hlevel
        decide
      · cases hlevel
        decide
    obtain ⟨flavour, hflavour, hdisplay⟩ := bind_eq_ok.mp (hlevels level hmem)
    rw [hflavour, ok_bind]
    unfold claimFromProperty
    rw [hdisplay]
    exact ⟨_, rfl⟩

theorem wtpdfClaim_displayed {property : XmpProperty} {claim : FlavourClaim}
    (h : wtpdfClaim property = .ok (some claim)) : claim.Displayed := by
  unfold wtpdfClaim at h
  split at h
  · cases h
  · obtain ⟨flavour, hflavour, h⟩ := bind_eq_ok.mp h
    obtain ⟨found, hclaim, h⟩ := bind_eq_ok.mp h
    cases h
    exact claimFromProperty_displayed hflavour (fun _ => rfl) hclaim

theorem mem_retainDistinct {claim : FlavourClaim} {claims : List FlavourClaim} :
    ∀ {seen : List String}, claim ∈ retainDistinct seen claims → claim ∈ claims := by
  induction claims with
  | nil =>
    intro seen h
    exact h
  | cons first rest ih =>
    intro seen h
    unfold retainDistinct at h
    split at h
    · exact List.mem_cons_of_mem _ (ih h)
    · rcases List.mem_cons.mp h with rfl | h
      · exact List.mem_cons_self
      · exact List.mem_cons_of_mem _ (ih h)

/-- The declarations are read one by one, and none of them is malformed. -/
theorem wtpdfClaims_mapM (properties : List XmpProperty) :
    ∃ claims, properties.mapM wtpdfClaim = .ok claims
      ∧ (properties.flatMap fun property => claimReading (wtpdfClaim property))
        = (claims.filterMap id).map .ok := by
  induction properties with
  | nil => exact ⟨[], rfl, rfl⟩
  | cons property rest ih =>
    obtain ⟨claims, hclaims, hreadings⟩ := ih
    obtain ⟨claim, hclaim⟩ := wtpdfClaim_ok property
    refine ⟨claim :: claims, ?_, ?_⟩
    · rw [List.mapM_cons, hclaim, hclaims]
      rfl
    · rw [List.flatMap_cons, hreadings, hclaim]
      cases claim with
      | none => rfl
      | some claim => rfl

theorem wtpdfClaims_eq (b : PacketBuilder) : ∃ claims, b.wtpdfClaims = .ok claims
    ∧ (b.declarations.flatMap fun property => claimReading (wtpdfClaim property))
      = claims.map .ok := by
  obtain ⟨claims, hclaims, hreadings⟩ := wtpdfClaims_mapM b.declarations
  refine ⟨claims.filterMap id, ?_, hreadings⟩
  unfold wtpdfClaims
  rw [hclaims]
  rfl

theorem filterMap_toOption_ok (claims : List FlavourClaim) :
    ((claims.map .ok : List (Except PdfvError FlavourClaim)).filterMap Except.toOption)
      = claims := by
  induction claims with
  | nil => rfl
  | cons claim rest ih => exact congrArg (claim :: ·) ih

theorem filterMap_malformed_ok (claims : List FlavourClaim) :
    ((claims.map .ok : List (Except PdfvError FlavourClaim)).filterMap malformedReading) = [] := by
  induction claims with
  | nil => rfl
  | cons claim rest ih => exact ih

/-- The claims of a packet without a malformed one are the well-formed ones; otherwise the first
malformed claim is the error. -/
theorem claims_eq (b : PacketBuilder) :
    b.claims = match b.malformedClaims with
      | [] => .ok b.wellFormedClaims
      | error :: _ => .error error := by
  obtain ⟨wtpdf, hwtpdf, hreadings⟩ := b.wtpdfClaims_eq
  unfold claims malformedClaims wellFormedClaims claimReadings
  rw [hwtpdf, hreadings, List.filterMap_append, List.filterMap_append, List.filterMap_append,
    List.filterMap_append, filterMap_toOption_ok, filterMap_malformed_ok, List.append_nil]
  cases hpdfa : b.pdfaClaim with
  | error e => rfl
  | ok pdfa =>
    cases hpdfua : b.pdfuaClaim with
    | error e => cases pdfa <;> rfl
    | ok pdfua => cases pdfa <;> cases pdfua <;> rfl

theorem mem_claimReading {reading : Except PdfvError FlavourClaim}
    {read : Except PdfvError (Option FlavourClaim)} (h : reading ∈ claimReading read) :
    (∃ claim, read = .ok (some claim) ∧ reading = .ok claim)
      ∨ ∃ e, read = .error e ∧ reading = .error e := by
  cases read with
  | error e =>
    rw [List.mem_singleton.mp h]
    exact .inr ⟨e, rfl, rfl⟩
  | ok claim =>
    cases claim with
    | none => cases h
    | some claim =>
      rw [List.mem_singleton.mp h]
      exact .inl ⟨claim, rfl, rfl⟩

theorem claim_of_mem_claimReadings {claim : FlavourClaim} (h : .ok claim ∈ b.claimReadings) :
    claim.Displayed := by
  unfold claimReadings at h
  rcases List.mem_append.mp h with h | h
  · rcases List.mem_append.mp h with h | h
    · rcases mem_claimReading h with ⟨claim', hread, heq⟩ | ⟨e, -, heq⟩
      · cases heq
        exact pdfaClaim_displayed hread
      · cases heq
    · rcases mem_claimReading h with ⟨claim', hread, heq⟩ | ⟨e, -, heq⟩
      · cases heq
        exact pdfuaClaim_displayed hread
      · cases heq
  · obtain ⟨property, -, h⟩ := List.mem_flatMap.mp h
    rcases mem_claimReading h with ⟨claim', hread, heq⟩ | ⟨e, -, heq⟩
    · cases heq
      exact wtpdfClaim_displayed hread
    · cases heq

theorem wellFormedClaims_displayed {claim : FlavourClaim} (h : claim ∈ b.wellFormedClaims) :
    claim.Displayed := by
  obtain ⟨reading, hreading, hclaim⟩ := List.mem_filterMap.mp (mem_retainDistinct h)
  cases reading with
  | error e => cases hclaim
  | ok claim' =>
    cases hclaim
    exact claim_of_mem_claimReadings hreading

/-- Only the PDF/A claim and the PDF/UA claim can be malformed. -/
theorem malformedClaims_eq (b : PacketBuilder) : ∃ pdfa pdfua,
    b.malformedClaims = pdfa ++ pdfua ∧ pdfa.length ≤ 1 ∧ pdfua.length ≤ 1
      ∧ (∀ e ∈ pdfa, e ∈ pdfaErrors) ∧ ∀ e ∈ pdfua, e ∈ pdfuaErrors := by
  have hone : ∀ read : Except PdfvError (Option FlavourClaim),
      ((claimReading read).filterMap malformedReading).length ≤ 1 := by
    intro read
    refine (List.length_filterMap_le _ _).trans ?_
    cases read with
    | error e => exact le_refl 1
    | ok claim =>
      cases claim with
      | none => exact Nat.zero_le 1
      | some claim => exact le_refl 1
  have hread : ∀ (read : Except PdfvError (Option FlavourClaim)) (errors : List PdfvError),
      (∀ e, read = .error e → e ∈ errors) →
      ∀ e ∈ (claimReading read).filterMap malformedReading, e ∈ errors := by
    intro read errors herrors e he
    obtain ⟨reading, hmem, hmalformed⟩ := List.mem_filterMap.mp he
    rcases mem_claimReading hmem with ⟨claim, -, rfl⟩ | ⟨e', hread, rfl⟩
    · cases hmalformed
    · cases hmalformed
      exact herrors e hread
  obtain ⟨wtpdf, -, hreadings⟩ := b.wtpdfClaims_eq
  refine ⟨(claimReading b.pdfaClaim).filterMap malformedReading,
    (claimReading b.pdfuaClaim).filterMap malformedReading, ?_, hone _, hone _,
    hread _ _ fun e => pdfaClaim_error, hread _ _ fun e => pdfuaClaim_error⟩
  unfold malformedClaims claimReadings
  rw [hreadings, List.filterMap_append, List.filterMap_append, filterMap_malformed_ok,
    List.append_nil]

/-- The reasons for which malformed PDF/A claims are refused. -/
def pdfaReasons : List BoundedText :=
  [⟨"profile error: invalid profile field PDF/A part: XMP identification part is not numeric"⟩,
   ⟨"profile error: invalid profile field PDF/A part: XMP identification part is zero"⟩,
   ⟨"configuration error: invalid configuration value identifier: identifier violates byte or charset policy"⟩,
   ⟨"configuration error: invalid configuration value text: value exceeds byte limit"⟩]

/-- The reasons for which malformed PDF/UA claims are refused. -/
def pdfuaReasons : List BoundedText :=
  [⟨"profile error: invalid profile field PDF/UA part: XMP identification part is not numeric"⟩,
   ⟨"profile error: invalid profile field PDF/UA part: XMP identification part is zero"⟩,
   ⟨"profile error: unsupported profile selection"⟩]

/-- A text is not refused as hostile when none of the words occurs in its characters. -/
theorem not_isHostile {text : String} {chars : List Char} (h : String.ofList chars = text)
    (hwords : (["DTD", "entity", "forbidden"].all fun word =>
      (Search.findWindow word.toList chars).isNone) = true) :
    (malformedFact ⟨text⟩).isHostile = false := by
  subst h
  have hne : ∀ word ∈ ["DTD", "entity", "forbidden"], word.isEmpty = false := by
    decide +kernel
  have hfound : (["DTD", "entity", "forbidden"].any fun word =>
      (findText (String.ofList chars) word).isSome) = false := by
    rw [List.any_eq_false]
    intro word hword
    have hnone := Option.isNone_iff_eq_none.mp (List.all_eq_true.mp hwords word hword)
    unfold findText
    rw [hne word hword, String.toList_ofList, hnone]
    simp
  unfold malformedFact
  rw [if_neg (by rw [hfound]; exact Bool.false_ne_true)]
  rfl

/-- No malformed claim is refused as hostile, and two of them are refused for different reasons. -/
theorem claimErrors_reasons :
    (∀ e ∈ pdfaErrors ++ pdfuaErrors, (malformedFact (packetErrorReason e)).isHostile = false)
      ∧ ∀ e ∈ pdfaErrors, ∀ e' ∈ pdfuaErrors, packetErrorReason e ≠ packetErrorReason e' := by
  -- one text at a time
  have hmap : pdfaErrors.map packetErrorReason = pdfaReasons := by
    unfold pdfaErrors partErrors pdfaReasons
    simp only [List.cons_append, List.nil_append, List.map_cons, List.map_nil, List.cons.injEq]
    refine ⟨?_, ?_, ?_, ?_, trivial⟩
    · decide +kernel
    · decide +kernel
    · decide +kernel
    · decide +kernel
  have hmap' : pdfuaErrors.map packetErrorReason = pdfuaReasons := by
    unfold pdfuaErrors partErrors pdfuaReasons
    simp only [List.cons_append, List.nil_append, List.map_cons, List.map_nil, List.cons.injEq]
    refine ⟨?_, ?_, ?_, trivial⟩
    · decide +kernel
    · decide +kernel
    · decide +kernel
  have hhostile : ∀ reason ∈ pdfaReasons ++ pdfuaReasons,
      (malformedFact reason).isHostile = false := by
    unfold pdfaReasons pdfuaReasons
    simp only [List.cons_append, List.nil_append, List.forall_mem_cons, List.not_mem_nil,
      false_implies, implies_true, and_true]
    refine ⟨?_, ?_, ?_, ?_, ?_, ?_, ?_⟩
    all_goals exact not_isHostile rfl (by decide +kernel)
  have hdiffer : ∀ reason ∈ pdfaReasons, ∀ reason' ∈ pdfuaReasons, reason ≠ reason' := by
    decide +kernel
  have hpdfa : ∀ e ∈ pdfaErrors, packetErrorReason e ∈ pdfaReasons := fun e he =>
    hmap ▸ List.mem_map_of_mem he
  have hpdfua : ∀ e ∈ pdfuaErrors, packetErrorReason e ∈ pdfuaReasons := fun e he =>
    hmap' ▸ List.mem_map_of_mem he
  refine ⟨fun e he => hhostile _ ?_, fun e he e' he' =>
    hdiffer _ (hpdfa e he) _ (hpdfua e' he')⟩
  exact List.mem_append.mpr ((List.mem_append.mp he).imp (hpdfa e) (hpdfua e))

/-! ## The packet -/

theorem identifierAllowEmpty_error {value : String} {e : PdfvError}
    (h : identifierAllowEmpty value = .error e) : e = Identifier.policyError := by
  unfold identifierAllowEmpty at h
  split at h
  · cases h
  · exact newIdentifier_error h

theorem namespaceBindings_ok_iff : (∃ namespaces, b.namespaceBindings = .ok namespaces)
    ↔ ∀ entry ∈ b.namespaces.entries,
      ∃ identifier, identifierAllowEmpty entry.1 = .ok identifier := by
  unfold namespaceBindings
  rw [mapM_ok_iff]
  apply forall₂_congr
  intro entry _
  constructor
  · rintro ⟨binding, h⟩
    obtain ⟨identifier, hid, -⟩ := bind_eq_ok.mp h
    exact ⟨identifier, hid⟩
  · rintro ⟨identifier, hid⟩
    rw [hid]
    exact ⟨_, rfl⟩

/-- An accepted packet carries its well-formed claims. -/
theorem finish_of_accepted (h : b.Accepted) :
    ∃ packet, b.finish = .ok packet ∧ packet.identification = b.wellFormedClaims := by
  obtain ⟨hclaims, hprefixes⟩ := h
  obtain ⟨namespaces, hnamespaces⟩ := namespaceBindings_ok_iff.mpr hprefixes
  unfold finish
  rw [b.claims_eq, hclaims, hnamespaces]
  exact ⟨_, rfl, rfl⟩

/-- A packet that is not accepted is refused for its first malformed claim, or for a prefix. -/
theorem finish_of_not_accepted (h : ¬ b.Accepted) :
    ∃ e ∈ pdfaErrors ++ pdfuaErrors, b.finish = .error e
      ∧ ∀ first rest, b.malformedClaims = first :: rest → e = first := by
  unfold finish
  rw [b.claims_eq]
  cases hclaims : b.malformedClaims with
  | cons first rest =>
    obtain ⟨pdfa, pdfua, heq, -, -, hpdfa, hpdfua⟩ := b.malformedClaims_eq
    have hmem : first ∈ pdfa ++ pdfua := by
      rw [← heq, hclaims]
      exact List.mem_cons_self
    refine ⟨first, ?_, rfl, ?_⟩
    · rcases List.mem_append.mp hmem with hfirst | hfirst
      · exact List.mem_append_left _ (hpdfa first hfirst)
      · exact List.mem_append_right _ (hpdfua first hfirst)
    · intro first' rest' hcons
      exact (List.cons.inj hcons).1
  | nil =>
    cases hnamespaces : b.namespaceBindings with
    | error e =>
      obtain ⟨entry, -, hentry⟩ := mapM_error hnamespaces
      have hpolicy : e = Identifier.policyError := by
        rcases bind_eq_error.mp hentry with hid | ⟨identifier, -, hpure⟩
        · exact identifierAllowEmpty_error hid
        · cases hpure
      rw [hpolicy]
      exact ⟨_, by decide, rfl, fun first rest hcons => by cases hcons⟩
    | ok namespaces =>
      exact absurd ⟨hclaims, namespaceBindings_ok_iff.mp ⟨namespaces, hnamespaces⟩⟩ h

end PacketBuilder

/-! ## Reading the document -/

/-- The catalog's metadata stream is a packet whose events the builder takes in. -/
def HasPacket (crates : Crates) (xml : XmlCrate) (document : ParsedDocument)
    (limits : ResourceLimits) (b : PacketBuilder) : Prop :=
  ∃ key bytes, catalogXmpBytes crates document limits = .ok (some (key, bytes), [])
    ∧ (document.isEncrypted && !looksLikeXml bytes) = false
    ∧ xml.readPacket key bytes limits = .ok b

/-- The vendored sources are imported. -/
def ProfileSources.ImportsCatalog (sources : ProfileSources) : Prop :=
  ∀ source ∈ generatedProfileSources, ∃ imported, sources.importXml source = .ok imported

section Detection

variable {crates : Crates} {xml : XmlCrate} {document : ParsedDocument} {limits : ResourceLimits}
  {b : PacketBuilder} {sources : ProfileSources}

theorem parseDocumentXmp_accepted (h : HasPacket crates xml document limits b) (hb : b.Accepted)
    (report : Bool) : ∃ packet,
      parseDocumentXmp crates xml document limits report = .ok (readResult packet limits)
        ∧ packet.identification = b.wellFormedClaims := by
  obtain ⟨key, bytes, hbytes, hplain, hread⟩ := h
  obtain ⟨packet, hpacket, hclaims⟩ := PacketBuilder.finish_of_accepted hb
  refine ⟨packet, ?_, hclaims⟩
  have hparse : xml.parsePacket key bytes limits = .ok packet := by
    unfold XmlCrate.parsePacket
    rw [hread, ok_bind, hpacket]
  unfold parseDocumentXmp
  rw [hbytes, ok_bind]
  dsimp only
  rw [hplain, hparse]
  rfl

/-- The error is one of the parser. -/
def PdfvError.isParse : PdfvError → Bool
  | parse _ => true
  | _ => false

theorem parseDocumentXmp_refused (h : HasPacket crates xml document limits b) (hb : ¬ b.Accepted)
    (report : Bool) : ∃ key e,
      parseDocumentXmp crates xml document limits report = .ok (rejectedPacket key e)
        ∧ ∀ first rest, b.malformedClaims = first :: rest → e = first := by
  obtain ⟨key, bytes, hbytes, hplain, hread⟩ := h
  obtain ⟨e, hmem, hfinish, hfirst⟩ := PacketBuilder.finish_of_not_accepted hb
  refine ⟨key, e, ?_, hfirst⟩
  have hparse : xml.parsePacket key bytes limits = .error e := by
    unfold XmlCrate.parsePacket
    rw [hread, ok_bind, hfinish]
  have hlimit : ∀ limit, e ≠ .parse (.limitExceeded limit) := by
    intro limit heq
    have hall : ∀ e ∈ pdfaErrors ++ pdfuaErrors, e.isParse = false := by
      decide
    have := hall e hmem
    rw [heq] at this
    cases this
  unfold parseDocumentXmp
  rw [hbytes, ok_bind]
  dsimp only
  rw [hplain, if_neg Bool.false_ne_true, hparse]
  split
  · rename_i heq
    cases heq
  · rename_i limit heq
    exact absurd (Except.error.inj heq) (hlimit limit)
  · rename_i heq
    rw [Except.error.inj heq]
    rfl

/-! ## Selecting profiles -/

theorem generatedProfileSources_id {source : GeneratedProfileSource}
    (h : source ∈ generatedProfileSources) : source.id = "verapdf-" ++ source.displayFlavour := by
  have hall : ∀ source ∈ generatedProfileSources,
      source.id = "verapdf-" ++ source.displayFlavour := by
    decide +kernel
  exact hall source h

/-- The profile was selected for the claim. -/
structure SelectedFor (profile : ValidationProfile) (claim : FlavourClaim) : Prop where
  flavour : profile.flavour = claim.flavour
  id : profile.identity.id.text = "verapdf-" ++ claim.displayFlavour.text

theorem builtinProfilesFor_supported (himports : sources.ImportsCatalog) {claim : FlavourClaim}
    (hclaim : claim.Displayed) (h : claim.isSupported = true) :
    ∃ profile, sources.builtinProfilesFor (.explicit claim.flavour) = .ok [profile]
      ∧ SelectedFor profile claim := by
  unfold FlavourClaim.isSupported at h
  cases hsource : builtinSourceForFlavour claim.flavour with
  | error e =>
    rw [hsource] at h
    cases h
  | ok source =>
    obtain ⟨hmem, htext⟩ := builtinSourceForFlavour_eq_ok hsource
    obtain ⟨⟨name, rules⟩, himport⟩ := himports source hmem
    have hflavour := builtinSource_flavour hsource hclaim.conformance hclaim.wtpdf
    have hdisplay : source.displayFlavour = claim.displayFlavour.text :=
      Option.some.inj (htext.symm.trans (displayFlavour_eq_ok hclaim.display))
    refine ⟨⟨⟨⟨source.id⟩, name, some ⟨"verapdf-generated"⟩⟩, claim.flavour, rules⟩, ?_, rfl, ?_⟩
    · show (builtinSourceForFlavour claim.flavour >>= _) = _
      rw [hsource, ok_bind]
      unfold ProfileSources.importGeneratedProfile
      rw [himport, ok_bind, hflavour]
      rfl
    · rw [generatedProfileSources_id hmem, hdisplay]

theorem builtinProfilesFor_unsupported {claim : FlavourClaim} (hclaim : claim.Displayed)
    (h : claim.isSupported = false) :
    sources.builtinProfilesFor (.explicit claim.flavour)
      = .error (.profile .unsupportedSelection) := by
  have hsource : builtinSourceForFlavour claim.flavour = .error (.profile .unsupportedSelection) := by
    unfold FlavourClaim.isSupported at h
    unfold builtinSourceForFlavour at h ⊢
    rw [hclaim.display, ok_bind] at h ⊢
    split at h
    · cases h
    · rfl
  show (builtinSourceForFlavour claim.flavour >>= _) = _
  rw [hsource]
  rfl

/-- The warning that a claim of a flavour outside the catalog leaves. -/
def unsupportedWarning (claim : FlavourClaim) : ValidationWarning :=
  .incompatibleProfile ⟨claim.displayFlavour.text⟩
    ⟨(PdfvError.profile .unsupportedSelection).display⟩

theorem selectClaim_supported {claim : FlavourClaim} {profile : ValidationProfile}
    (h : sources.builtinProfilesFor (.explicit claim.flavour) = .ok [profile])
    (s : List ValidationProfile × List ValidationWarning) :
    FlavourDetector.selectClaim sources.builtinProfilesFor s claim
      = .ok (s.1 ++ [profile], s.2) := by
  unfold FlavourDetector.selectClaim
  rw [h]

theorem selectClaim_unsupported {claim : FlavourClaim} (hclaim : claim.Displayed)
    (h : claim.isSupported = false) (s : List ValidationProfile × List ValidationWarning) :
    FlavourDetector.selectClaim sources.builtinProfilesFor s claim
      = .ok (s.1, s.2 ++ [unsupportedWarning claim]) := by
  have hshort : BoundedText.new (PdfvError.profile .unsupportedSelection).display 512
      = .ok ⟨(PdfvError.profile .unsupportedSelection).display⟩ := by
    decide +kernel
  unfold FlavourDetector.selectClaim
  rw [builtinProfilesFor_unsupported hclaim h]
  dsimp only
  rw [hclaim.identifier, ok_bind, hshort]
  rfl

/-- Selecting the claims yields one profile for each supported claim and one warning for each other
claim. -/
theorem selectClaims_eq (himports : sources.ImportsCatalog) {claims : List FlavourClaim}
    (hclaims : ∀ claim ∈ claims, claim.Displayed) (profiles : List ValidationProfile)
    (warnings : List ValidationWarning) : ∃ selected,
    claims.foldlM (FlavourDetector.selectClaim sources.builtinProfilesFor) (profiles, warnings)
      = .ok (profiles ++ selected, warnings
          ++ (claims.filter fun claim => !claim.isSupported).map unsupportedWarning)
      ∧ List.Forall₂ SelectedFor selected (claims.filter FlavourClaim.isSupported) := by
  induction claims generalizing profiles warnings with
  | nil =>
    refine ⟨[], ?_, List.Forall₂.nil⟩
    simp [pure, Except.pure]
  | cons claim rest ih =>
    have hclaim := hclaims claim List.mem_cons_self
    have hrest : ∀ claim ∈ rest, claim.Displayed := fun claim' hclaim' =>
      hclaims claim' (List.mem_cons_of_mem _ hclaim')
    rw [List.foldlM_cons]
    by_cases hsupported : claim.isSupported = true
    · obtain ⟨profile, hprofile, hselected⟩ := builtinProfilesFor_supported himports hclaim hsupported
      obtain ⟨selected, hfold, hforall⟩ := ih hrest (profiles ++ [profile]) warnings
      refine ⟨profile :: selected, ?_, ?_⟩
      · rw [selectClaim_supported hprofile, ok_bind, hfold, List.append_assoc,
          List.filter_cons_of_neg (by simp [hsupported])]
        rfl
      · rw [List.filter_cons_of_pos hsupported]
        exact List.Forall₂.cons hselected hforall
    · obtain ⟨selected, hfold, hforall⟩ := ih hrest profiles (warnings ++ [unsupportedWarning claim])
      refine ⟨selected, ?_, ?_⟩
      · rw [selectClaim_unsupported hclaim (Bool.not_eq_true _ ▸ hsupported), ok_bind, hfold,
          List.append_assoc, List.filter_cons_of_pos (by simp [hsupported])]
        rfl
      · rw [List.filter_cons_of_neg hsupported]
        exact hforall

theorem builtinProfilesFor_auto {default : Option ValidationFlavour}
    {profiles : List ValidationProfile}
    (h : sources.builtinProfilesFor (.auto default) = .ok profiles) :
    profiles.map ValidationProfile.flavour = default.toList := by
  cases default with
  | none =>
    cases h
    rfl
  | some flavour =>
    obtain ⟨source, -, h⟩ := bind_eq_ok.mp h
    cases h
    rfl

theorem selectedFor_flavours {selected : List ValidationProfile} {claims : List FlavourClaim}
    (h : List.Forall₂ SelectedFor selected claims) :
    selected.map ValidationProfile.flavour = claims.map FlavourClaim.flavour := by
  induction h with
  | nil => rfl
  | cons hfirst _ ih =>
    rw [List.map_cons, List.map_cons, hfirst.flavour, ih]

theorem exists_selectedFor {selected : List ValidationProfile} {claims : List FlavourClaim}
    (h : List.Forall₂ SelectedFor selected claims) {claim : FlavourClaim} (hclaim : claim ∈ claims) :
    ∃ profile ∈ selected, SelectedFor profile claim := by
  induction h with
  | nil => cases hclaim
  | cons hfirst _ ih =>
    rcases List.mem_cons.mp hclaim with rfl | hclaim
    · exact ⟨_, List.mem_cons_self, hfirst⟩
    · obtain ⟨profile, hprofile, hselected⟩ := ih hclaim
      exact ⟨profile, List.mem_cons_of_mem _ hprofile, hselected⟩

/-- A claim that is not supported leaves its warning. -/
theorem unsupportedWarning_mem {claim : FlavourClaim} (h : claim ∈ b.wellFormedClaims)
    (hnot : claim ∉ b.supportedClaims) :
    unsupportedWarning claim
      ∈ (b.wellFormedClaims.filter fun claim => !claim.isSupported).map unsupportedWarning := by
  apply List.mem_map_of_mem
  rw [List.mem_filter]
  refine ⟨h, ?_⟩
  by_contra hsupported
  rw [Bool.not_eq_true, Bool.not_eq_false'] at hsupported
  exact hnot (List.mem_filter.mpr ⟨h, hsupported⟩)

/-- What detection returns for the profiles selected and the warnings left by the claims. -/
theorem detect_eq {default : Option ValidationFlavour} {profiles selected : List ValidationProfile}
    {packet : XmpPacket} {warnings : List ValidationWarning}
    (hparse : parseDocumentXmp crates xml document limits true = .ok (readResult packet limits))
    (hfold : packet.identification.foldlM
      (FlavourDetector.selectClaim sources.builtinProfilesFor)
        ([], (readResult packet limits).warnings) = .ok (selected, warnings))
    (hdefault : sources.builtinProfilesFor (.auto default) = .ok profiles) :
    FlavourDetector.detect sources.builtinProfilesFor crates xml document default limits
      = .ok (if selected.isEmpty then
          ⟨some packet, profiles, (readResult packet limits).parseFacts,
            .autoDetection ⟨"XMP metadata contains no supported claims"⟩ :: warnings⟩
        else
          ⟨some packet, (selectCompatibleProfiles selected).1,
            (readResult packet limits).parseFacts,
            warnings ++ (selectCompatibleProfiles selected).2⟩) := by
  unfold FlavourDetector.detect
  rw [hparse, ok_bind]
  show (packet.identification.foldlM _ _ >>= _) = _
  rw [hfold, ok_bind]
  cases selected with
  | nil =>
    show (FlavourDetector.fallback _ _ _ >>= _) = _
    unfold FlavourDetector.fallback
    rw [hdefault]
    rfl
  | cons first rest => rfl

/-- The profiles of the first one's group are those of the selected claims, and each other supported
claim leaves its warning. -/
theorem selectCompatibleProfiles_spec {selected : List ValidationProfile}
    (h : List.Forall₂ SelectedFor selected b.supportedClaims) :
    (selectCompatibleProfiles selected).1.map ValidationProfile.flavour
        = b.selectedClaims.map FlavourClaim.flavour
      ∧ ∀ claim ∈ b.supportedClaims, claim ∉ b.selectedClaims → ∃ profileId reason,
        claim.NamedBy profileId
          ∧ .incompatibleProfile profileId reason ∈ (selectCompatibleProfiles selected).2 := by
  unfold PacketBuilder.selectedClaims
  generalize b.supportedClaims = supported at h ⊢
  cases h with
  | nil => exact ⟨rfl, fun claim hclaim => by cases hclaim⟩
  | @cons profile claim profiles claims hfirst hrest =>
    have hsame : ∀ profile' claim', SelectedFor profile' claim' →
        (decide (compatibilityGroup profile'.flavour = compatibilityGroup profile.flavour)
          = decide (compatibilityGroup claim'.flavour = compatibilityGroup claim.flavour)) := by
      intro profile' claim' hselected
      rw [hselected.flavour, hfirst.flavour]
    constructor
    · refine selectedFor_flavours (List.rel_filter ?_ (List.Forall₂.cons hfirst hrest))
      intro profile' claim' hselected
      show decide _ = true ↔ decide _ = true
      rw [hsame profile' claim' hselected]
    · intro claim' hclaim' hnot
      obtain ⟨profile', hprofile', hselected⟩ :=
        exists_selectedFor (List.Forall₂.cons hfirst hrest) hclaim'
      refine ⟨profile'.identity.id, incompatibleReason, .inr hselected.id, ?_⟩
      apply List.mem_map_of_mem (f := fun profile : ValidationProfile =>
        ValidationWarning.incompatibleProfile profile.identity.id incompatibleReason)
      rw [List.mem_filter]
      refine ⟨hprofile', ?_⟩
      by_contra hgroup
      apply hnot
      rw [List.mem_filter]
      refine ⟨hclaim', ?_⟩
      show decide _ = true
      rw [← hsame profile' claim' hselected]
      simpa using hgroup

/-- For an accepted packet detection delivers what it owes. -/
theorem detect_accepted {default : Option ValidationFlavour} {profiles : List ValidationProfile}
    (hpacket : HasPacket crates xml document limits b) (hb : b.Accepted)
    (himports : sources.ImportsCatalog)
    (hdefault : sources.builtinProfilesFor (.auto default) = .ok profiles) : ∃ detected,
    FlavourDetector.detect sources.builtinProfilesFor crates xml document default limits
      = .ok detected ∧ b.SelectsClaims default detected := by
  obtain ⟨packet, hparse, hclaims⟩ := parseDocumentXmp_accepted hpacket hb true
  obtain ⟨selected, hfold, hforall⟩ := selectClaims_eq himports
    (fun claim hclaim => PacketBuilder.wellFormedClaims_displayed hclaim) []
    (readResult packet limits).warnings
  rw [List.nil_append, ← hclaims] at hfold
  refine ⟨_, detect_eq hparse hfold hdefault, ?_⟩
  rw [hclaims]
  change List.Forall₂ SelectedFor selected b.supportedClaims at hforall
  obtain ⟨hflavours, hincompatible⟩ := selectCompatibleProfiles_spec hforall
  have hnone : ∀ e ∈ b.malformedClaims, ValidationWarning.autoDetection (packetErrorReason e)
      ∈ ([] : List ValidationWarning) := by
    rw [hb.1]
    intro e he
    cases he
  cases selected with
  | nil =>
    have hsupported : b.supportedClaims = [] := List.forall₂_nil_left_iff.mp hforall
    have hselected : b.selectedClaims = [] := by
      unfold PacketBuilder.selectedClaims
      rw [hsupported]
      rfl
    refine ⟨?_, fun e he => List.not_mem_nil.elim (hnone e he), ?_, ?_⟩
    · unfold PacketBuilder.expectedFlavours
      rw [hselected]
      exact builtinProfilesFor_auto hdefault
    · intro claim hclaim _
      refine ⟨_, _, .inl rfl, List.mem_cons_of_mem _ (List.mem_append_right _
        (unsupportedWarning_mem hclaim ?_))⟩
      rw [hsupported]
      exact List.not_mem_nil
    · intro _
      exact ⟨_, List.mem_cons_self⟩
  | cons first rest =>
    have hne : b.selectedClaims ≠ [] := by
      intro hnil
      cases hsupported : b.supportedClaims with
      | nil =>
        rw [hsupported] at hforall
        cases hforall
      | cons claim claims =>
        have hmem : claim ∈ b.selectedClaims := by
          unfold PacketBuilder.selectedClaims
          rw [hsupported, List.mem_filter]
          exact ⟨List.mem_cons_self, decide_eq_true rfl⟩
        rw [hnil] at hmem
        cases hmem
    refine ⟨?_, fun e he => List.not_mem_nil.elim (hnone e he), ?_, ?_⟩
    · unfold PacketBuilder.expectedFlavours
      rw [List.isEmpty_eq_false_iff.mpr hne]
      exact hflavours
    · intro claim hclaim hnot
      by_cases hsupported : claim ∈ b.supportedClaims
      · obtain ⟨profileId, reason, hnamed, hmem⟩ := hincompatible claim hsupported hnot
        exact ⟨profileId, reason, hnamed, List.mem_append_right _ hmem⟩
      · exact ⟨_, _, .inl rfl, List.mem_append_left _ (List.mem_append_right _
          (unsupportedWarning_mem hclaim hsupported))⟩
    · intro hnil
      exact absurd hnil hne

/-- For a refused packet detection returns the default and the one reason of the refusal. -/
theorem detect_refused {default : Option ValidationFlavour} {profiles : List ValidationProfile}
    (hpacket : HasPacket crates xml document limits b) (hb : ¬ b.Accepted)
    (hdefault : sources.builtinProfilesFor (.auto default) = .ok profiles) : ∃ detected e,
    FlavourDetector.detect sources.builtinProfilesFor crates xml document default limits
      = .ok detected
      ∧ detected.profiles = profiles
      ∧ detected.warnings = [.autoDetection (packetErrorReason e)]
      ∧ ∀ first rest, b.malformedClaims = first :: rest → e = first := by
  obtain ⟨key, e, hparse, hfirst⟩ := parseDocumentXmp_refused hpacket hb true
  refine ⟨⟨none, profiles, (rejectedPacket key e).parseFacts, (rejectedPacket key e).warnings⟩, e,
    ?_, rfl, rfl, hfirst⟩
  unfold FlavourDetector.detect FlavourDetector.fallback
  rw [hparse, ok_bind]
  show ((sources.builtinProfilesFor (.auto default) >>= _) >>= _) = _
  rw [hdefault]
  rfl

theorem retainDistinct_nodup (seen : List String) (claims : List FlavourClaim) :
    (retainDistinct seen claims).Pairwise
        (fun a b => a.displayFlavour.text ≠ b.displayFlavour.text)
      ∧ ∀ claim ∈ retainDistinct seen claims, claim.displayFlavour.text ∉ seen := by
  induction claims generalizing seen with
  | nil => exact ⟨List.Pairwise.nil, fun claim hclaim => by cases hclaim⟩
  | cons first rest ih =>
    unfold retainDistinct
    split
    · exact ih seen
    · rename_i hnew
      obtain ⟨hpairwise, hseen⟩ := ih (first.displayFlavour.text :: seen)
      constructor
      · refine List.Pairwise.cons ?_ hpairwise
        intro claim hclaim heq
        exact hseen claim hclaim (heq ▸ List.mem_cons_self)
      · intro claim hclaim
        rcases List.mem_cons.mp hclaim with rfl | hclaim
        · exact hnew
        · intro hmem
          exact hseen claim hclaim (List.mem_cons_of_mem _ hmem)

/-- Claims of one flavour are displayed alike, so at most one of them is kept. -/
theorem wellFormedClaims_of_default {flavour : ValidationFlavour}
    (h : ∀ claim ∈ b.wellFormedClaims, claim.flavour = flavour) :
    b.wellFormedClaims = [] ∨ ∃ claim, b.wellFormedClaims = [claim] := by
  have hpairwise := (retainDistinct_nodup [] (b.claimReadings.filterMap Except.toOption)).1
  change b.wellFormedClaims.Pairwise _ at hpairwise
  cases hclaims : b.wellFormedClaims with
  | nil => exact .inl rfl
  | cons first rest =>
    cases rest with
    | nil => exact .inr ⟨first, rfl⟩
    | cons second rest =>
      have hfirst : first ∈ b.wellFormedClaims := by
        rw [hclaims]
        exact List.mem_cons_self
      have hsecond : second ∈ b.wellFormedClaims := by
        rw [hclaims]
        exact List.mem_cons_of_mem _ List.mem_cons_self
      have hdisplay := (PacketBuilder.wellFormedClaims_displayed hfirst).display
      rw [h first hfirst, ← h second hsecond,
        (PacketBuilder.wellFormedClaims_displayed hsecond).display] at hdisplay
      rw [hclaims] at hpairwise
      have hne := (List.pairwise_cons.mp hpairwise).1 second List.mem_cons_self
      exact absurd (congrArg BoundedText.text (Except.ok.inj hdisplay)).symm hne

/-- One well-formed claim of a flavour in the catalog is selected. -/
theorem selectedClaims_single {claim : FlavourClaim} (h : b.wellFormedClaims = [claim])
    (hsupported : claim.isSupported = true) : b.selectedClaims = [claim] := by
  unfold PacketBuilder.selectedClaims PacketBuilder.supportedClaims
  rw [h, List.filter_cons_of_pos hsupported]
  simp

/-- A refused packet gets what detection owes exactly when nothing but the default is lost. -/
theorem refused_selects_iff {default : Option ValidationFlavour} {detected : DetectedFlavours}
    {profiles : List ValidationProfile} {e : PdfvError}
    (hdefault : sources.builtinProfilesFor (.auto default) = .ok profiles)
    (hprofiles : detected.profiles = profiles)
    (hwarnings : detected.warnings = [.autoDetection (packetErrorReason e)])
    (hfirst : ∀ first rest, b.malformedClaims = first :: rest → e = first) :
    b.SelectsClaims default detected ↔ b.OnlyNamesDefault default := by
  have hmapped : detected.profiles.map ValidationProfile.flavour = default.toList := by
    rw [hprofiles]
    exact builtinProfilesFor_auto hdefault
  constructor
  · intro h
    constructor
    · obtain ⟨pdfa, pdfua, hmalformed, hone, hone', hpdfa, hpdfua⟩ := b.malformedClaims_eq
      rw [hmalformed, List.length_append]
      by_contra hmany
      obtain ⟨e₁, hpdfaEq⟩ := List.length_eq_one_iff.mp (show pdfa.length = 1 by omega)
      obtain ⟨e₂, hpdfuaEq⟩ := List.length_eq_one_iff.mp (show pdfua.length = 1 by omega)
      rw [hpdfaEq, hpdfuaEq] at hmalformed
      have hreason := h.malformed e₂ (by rw [hmalformed]; simp)
      rw [hwarnings, List.mem_singleton, hfirst e₁ [e₂] hmalformed] at hreason
      refine PacketBuilder.claimErrors_reasons.2 _ (hpdfa e₁ (by rw [hpdfaEq]; simp)) _
        (hpdfua e₂ (by rw [hpdfuaEq]; simp)) ?_
      exact (ValidationWarning.autoDetection.inj hreason).symm
    · intro claim hclaim
      by_cases hselected : claim ∈ b.selectedClaims
      · have hflavours := h.flavours
        unfold PacketBuilder.expectedFlavours at hflavours
        rw [hmapped, if_neg (by simpa using List.ne_nil_of_mem hselected)] at hflavours
        have hmem : claim.flavour ∈ default.toList := by
          rw [hflavours]
          exact List.mem_map_of_mem hselected
        exact Option.mem_toList.mp hmem
      · obtain ⟨profileId, reason, -, hwarned⟩ := h.unselected claim hclaim hselected
        rw [hwarnings, List.mem_singleton] at hwarned
        cases hwarned
  · rintro ⟨hmalformed, hdefaults⟩
    have hreason : ∀ error ∈ b.malformedClaims,
        ValidationWarning.autoDetection (packetErrorReason error) ∈ detected.warnings := by
      intro error herror
      obtain ⟨first, rest, hcons⟩ := List.exists_cons_of_ne_nil (List.ne_nil_of_mem herror)
      rw [hcons, List.length_cons] at hmalformed
      have hrest : rest = [] := List.length_eq_zero_iff.mp (by omega)
      rw [hcons, hrest, List.mem_singleton] at herror
      rw [hwarnings, herror, hfirst first rest hcons]
      exact List.mem_cons_self
    have hfallback : ∃ message, ValidationWarning.autoDetection message ∈ detected.warnings :=
      ⟨_, by rw [hwarnings]; exact List.mem_cons_self⟩
    have hsingle : b.wellFormedClaims = [] ∨ ∃ claim, b.wellFormedClaims = [claim]
        ∧ default = some claim.flavour := by
      cases hclaims : b.wellFormedClaims with
      | nil => exact .inl rfl
      | cons claim rest =>
        have hclaim := hdefaults claim (by rw [hclaims]; exact List.mem_cons_self)
        have hsame : ∀ claim' ∈ b.wellFormedClaims, claim'.flavour = claim.flavour := by
          intro claim' hclaim'
          exact Option.some.inj ((hdefaults claim' hclaim').symm.trans hclaim)
        rcases wellFormedClaims_of_default hsame with hnil | ⟨only, honly⟩
        · rw [hnil] at hclaims
          cases hclaims
        · rw [hclaims] at honly
          exact .inr ⟨claim, by rw [(List.cons.inj honly).2], hclaim⟩
    rcases hsingle with hnil | ⟨claim, hone, hdefaultEq⟩
    · have hselected : b.selectedClaims = [] := by
        unfold PacketBuilder.selectedClaims PacketBuilder.supportedClaims
        rw [hnil]
        rfl
      refine ⟨?_, hreason, ?_, fun _ => hfallback⟩
      · unfold PacketBuilder.expectedFlavours
        rw [hselected]
        exact hmapped
      · rw [hnil]
        intro claim hclaim
        cases hclaim
    · have hsupported : claim.isSupported = true := by
        rw [hdefaultEq] at hdefault
        obtain ⟨source, hsource, -⟩ := bind_eq_ok.mp hdefault
        unfold FlavourClaim.isSupported
        rw [hsource]
        rfl
      have hselected := selectedClaims_single hone hsupported
      refine ⟨?_, hreason, ?_, fun _ => hfallback⟩
      · unfold PacketBuilder.expectedFlavours
        rw [hselected, hmapped, hdefaultEq]
        rfl
      · rw [hone, hselected]
        intro claim' hclaim' hnot
        exact absurd hclaim' hnot

/-- Detection selects what the claims of the packet ask for exactly when the packet is accepted, or
when refusing it loses nothing but the name of the default. -/
theorem detect_selects_iff {default : Option ValidationFlavour} {profiles : List ValidationProfile}
    (hpacket : HasPacket crates xml document limits b) (himports : sources.ImportsCatalog)
    (hdefault : sources.builtinProfilesFor (.auto default) = .ok profiles) :
    (∃ detected,
      FlavourDetector.detect sources.builtinProfilesFor crates xml document default limits
        = .ok detected ∧ b.SelectsClaims default detected)
      ↔ b.Accepted ∨ b.OnlyNamesDefault default := by
  by_cases hb : b.Accepted
  · constructor
    · intro _
      exact .inl hb
    · intro _
      exact detect_accepted hpacket hb himports hdefault
  · obtain ⟨detected, e, hdetect, hprofiles, hwarnings, hfirst⟩ :=
      detect_refused hpacket hb hdefault
    have hiff := refused_selects_iff hdefault hprofiles hwarnings hfirst
    constructor
    · rintro ⟨detected', hdetect', hselects⟩
      rw [hdetect] at hdetect'
      cases hdetect'
      exact .inr (hiff.mp hselects)
    · rintro (haccepted | honly)
      · exact absurd haccepted hb
      · exact ⟨detected, hdetect, hiff.mpr honly⟩

end Detection

/-! ## Two packets -/

/-- A document whose catalog refers to this metadata stream. -/
def metadataDocument (metadata : Bytes) : ParsedDocument where
  version := ⟨1, 7⟩
  catalog := some (.ofNumber 1)
  objects := ObjectStore.insertObject
    (ObjectStore.insertObject OrdMap.empty
      ⟨.ofNumber 1, 9, .dictionary [(PdfName.fromStatic "Metadata", .reference (.ofNumber 2))]⟩)
    ⟨.ofNumber 2, 60, .stream {
      dictionary := []
      rawRange := ⟨0, metadata.length⟩
      declaredLength := none
      discoveredLength := metadata.length
      filters := []
      decodeParams := []
      rawSource := metadata
      streamKeywordCrlfCompliant := true
      endstreamKeywordEolCompliant := true }⟩
  trailers := []
  parseFacts := []
  warnings := []

/-- A packet that claims the given PDF/A part and PDF/UA-1. -/
def twoClaimsXmp (pdfaPart : String) : String :=
  "<d xmlns:a=\"http://www.aiim.org/pdfa/ns/id/\" xmlns:u=\"http://www.aiim.org/pdfua/ns/id/\""
    ++ " a:part=\"" ++ pdfaPart ++ "\" u:part=\"1\"/>"

/-- What the XML reader delivers for that packet. -/
def twoClaimsReader (pdfaPart : String) : XmlCrate where
  read _ := ⟨[.empty ⟨"d", [⟨"xmlns:a", pdfAIdNs⟩, ⟨"xmlns:u", pdfUaIdNs⟩, ⟨"a:part", pdfaPart⟩,
    ⟨"u:part", "1"⟩], none⟩], none⟩
  utf8Error _ := "invalid utf-8"

/-- Sources that yield profiles without rules. -/
def emptySources : ProfileSources where
  importXml source := .ok (⟨source.id⟩, [])
  loadCustom := none

theorem emptySources_imports : emptySources.ImportsCatalog :=
  fun _ _ => ⟨_, rfl⟩

/-- The document with that packet. -/
def twoClaimsDocument (pdfaPart : String) : ParsedDocument :=
  metadataDocument (utf8 (twoClaimsXmp pdfaPart))

theorem twoClaims_bytes : ∀ part ∈ ["4", "1b"],
    catalogXmpBytes Crates.unused (twoClaimsDocument part) {}
      = .ok (some (.ofNumber 2, utf8 (twoClaimsXmp part)), []) := by
  decide +kernel

theorem twoClaims_hasPacket {part : String} (h : part ∈ ["4", "1b"]) {b : PacketBuilder}
    (hread : (twoClaimsReader part).readPacket (.ofNumber 2) (utf8 (twoClaimsXmp part)) {} = .ok b) :
    HasPacket Crates.unused (twoClaimsReader part) (twoClaimsDocument part) {} b :=
  ⟨_, _, twoClaims_bytes part h, rfl, hread⟩

theorem twoClaims_four_run : (match (twoClaimsReader "4").readPacket (.ofNumber 2)
      (utf8 (twoClaimsXmp "4")) {} with
    | .ok _ => true
    | .error _ => false) = true := by
  decide +kernel

/-- PDF/A-4 beside PDF/UA-1, which belongs to another group. -/
theorem detect_selects_iff_twoClaims : ∃ b,
    HasPacket Crates.unused (twoClaimsReader "4") (twoClaimsDocument "4") {} b
      ∧ ((∃ detected, FlavourDetector.detect emptySources.builtinProfilesFor Crates.unused
          (twoClaimsReader "4") (twoClaimsDocument "4") none {} = .ok detected
            ∧ b.SelectsClaims none detected)
        ↔ b.Accepted ∨ b.OnlyNamesDefault none) := by
  have hrun := twoClaims_four_run
  split at hrun
  · rename_i b hread
    have hpacket := twoClaims_hasPacket (by decide) hread
    exact ⟨b, hpacket, detect_selects_iff hpacket emptySources_imports rfl⟩
  · cases hrun

theorem twoClaims_broken_run : (match (twoClaimsReader "1b").readPacket (.ofNumber 2)
      (utf8 (twoClaimsXmp "1b")) {},
      FlavourDetector.detect emptySources.builtinProfilesFor Crates.unused
        (twoClaimsReader "1b") (twoClaimsDocument "1b") none {} with
    | .ok b, .ok detected => detected.profiles.isEmpty && !(b.expectedFlavours none).isEmpty
    | _, _ => false) = true := by
  decide +kernel

/-- A PDF/A part that is no number beside a well-formed PDF/UA-1 claim: nothing is selected. -/
theorem detect_malformedPart_counterexample : ∃ b detected,
    HasPacket Crates.unused (twoClaimsReader "1b") (twoClaimsDocument "1b") {} b
      ∧ FlavourDetector.detect emptySources.builtinProfilesFor Crates.unused
        (twoClaimsReader "1b") (twoClaimsDocument "1b") none {} = .ok detected
      ∧ ¬ b.SelectsClaims none detected := by
  have hrun := twoClaims_broken_run
  split at hrun
  · rename_i b detected hread hdetect
    refine ⟨b, detected, twoClaims_hasPacket (by decide) hread, hdetect, ?_⟩
    intro hselects
    rw [Bool.and_eq_true, List.isEmpty_iff] at hrun
    have hflavours := hselects.flavours
    rw [hrun.1] at hflavours
    rw [← hflavours] at hrun
    cases hrun.2
  · cases hrun

end Pdfv
