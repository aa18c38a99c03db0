import Pdfv.Accessibility.TextStrings
import Pdfv.Basic.Display
import Pdfv.Basic.LossyText
import Pdfv.Profile.Builtin
import Pdfv.Xmp.WrittenDates
/-!
# Dates in the Info dictionary and in XMP

An Info date and its XMP property are compared by their first fourteen digits.
`xmpInfoDateMatch_instants_iff` says when these tell whether the two dates are the same instant.
-/

namespace Pdfv

/-! ## Reading the two dates -/

/-- `object_direct_text`. -/
def CosObject.objectDirectText : CosObject → Option String
  | .name value => some (utf8Lossy value.bytes)
  | .string value => some (utf8Lossy value.bytes)
  | .integer value => some (toString value)
  | .real value => some (Double.finite value).display
  | .boolean value => some (if value then "true" else "false")
  | .reference key => some s!"{key.number} {key.generation} R"
  | .null | .array _ | .dictionary _ | .stream _ => none

/-- `XMP_NS_XMP`. -/
def xmpNsXmp : String :=
  "http://ns.adobe.com/xap/1.0/"

/-- `XmpRdfPropertyView`. -/
structure XmpRdfPropertyView where
  namespaceUri : BoundedText
  namePrefix : Identifier
  name : Identifier
  value : Option BoundedText
  arrayKind : Option Identifier
  xmlLang : Option BoundedText

/-- The RDF property of a fact, if it is about the object. -/
def ParseFact.rdfProperty (object : Option ObjectKey) : ParseFact → Option XmpRdfPropertyView
  | .xmp factObject (.rdfProperty namespaceUri namePrefix name value arrayKind xmlLang) =>
    if object.any (· ≠ factObject) then none
    else some ⟨namespaceUri, namePrefix, name, value, arrayKind, xmlLang⟩
  | _ => none

/-- `normalized_date_digits`. -/
def normalizedDateDigits (value : String) : String :=
  String.ofList (((((stripText "D:" value).getD value).toList).filter Char.isDigit).take 14)

namespace ModelDocument

variable (doc : ModelDocument)

/-- `xmp_rdf_properties`. -/
def xmpRdfProperties (object : Option ObjectKey) : List XmpRdfPropertyView :=
  doc.parseFacts.filterMap (ParseFact.rdfProperty object)

/-- `xmp_property_values`. -/
def xmpPropertyValues (object : Option ObjectKey) (namespaceUri name : String) :
    List XmpRdfPropertyView :=
  (doc.xmpRdfProperties object).filter fun property =>
    property.namespaceUri.text = namespaceUri && property.name.text = name && property.value.isSome

/-- The first value of an XMP property. -/
def firstXmpValue (object : Option ObjectKey) (namespaceUri name : String) : Option String :=
  (doc.xmpPropertyValues object namespaceUri name).findSome? fun property =>
    property.value.map BoundedText.text

/-- `xmp_info_date_match`. -/
def xmpInfoDateMatch (object : Option ObjectKey) (infoKey xmpName : String) : ModelValue :=
  match (doc.documentInfoValue infoKey).bind CosObject.objectDirectText with
  | none => .null
  | some infoDate =>
    match doc.firstXmpValue object xmpNsXmp xmpName with
    | none => .bool false
    | some xmpDate => .bool (normalizedDateDigits infoDate = normalizedDateDigits xmpDate)

end ModelDocument

/-! ## The digits of the two texts -/

namespace WrittenDate

variable (d : WrittenDate)

/-- The digits of the PDF date. -/
theorem digits_pdfText :
    ((stripText "D:" d.pdfText).getD d.pdfText).toList.filter Char.isDigit
      = d.numbers.flatMap (numeral 2) := by
  have hstrip : stripText "D:" d.pdfText = some (String.ofList (numeral 4 d.civil.year
      ++ d.written.flatMap (numeral 2) ++ d.offset.pdfText)) := by
    unfold stripText pdfText
    rw [String.toList_ofList, String.toList_ofList]
    rfl
  have hwritten : (d.written.flatMap (numeral 2)).filter Char.isDigit
      = d.written.flatMap (numeral 2) := by
    rw [List.filter_flatMap]
    simp
  rw [hstrip, Option.getD_some, String.toList_ofList, List.filter_append, List.filter_append,
    filter_numeral, hwritten, d.offset.filter_pdfText, numeral_four]
  unfold numbers
  rw [List.flatMap_append, List.flatMap_append, List.append_assoc]

/-- The digits of the XMP date. -/
theorem digits_xmpText :
    ((stripText "D:" d.xmpText).getD d.xmpText).toList.filter Char.isDigit
      = d.numbers.flatMap (numeral 2) := by
  obtain ⟨first, others, hyear⟩ :=
    List.exists_cons_of_length_eq_add_one (length_numeral 4 d.civil.year)
  have hfirst : first.isDigit = true := isDigit_numeral first (hyear ▸ List.mem_cons_self)
  have hstrip : stripText "D:" d.xmpText = none := by
    unfold stripText xmpText
    rw [String.toList_ofList, String.toList_ofList, hyear, if_neg]
    intro hprefix
    have hletter : 'D' = first := by
      have h := List.isPrefixOf_iff_prefix.mp hprefix
      exact (List.cons_prefix_cons.mp h).1
    rw [← hletter] at hfirst
    cases hfirst
  rw [hstrip, Option.getD_none]
  unfold xmpText
  rw [String.toList_ofList, List.filter_append, List.filter_append, filter_numeral,
    filter_separated _ (by decide) _ (by rw [length_written]; exact d.precision_le),
    d.offset.filter_xmpText, numeral_four]
  unfold numbers
  rw [List.flatMap_append, List.flatMap_append, List.append_assoc]

end WrittenDate

/-- The model compares what the two dates spell. -/
theorem xmpInfoDateMatch_written (doc : ModelDocument) (object : Option ObjectKey)
    (infoKey xmpName : String) (info xmp : WrittenDate)
    (hinfo : doc.documentInfoValue infoKey = some (.string ⟨utf8 info.pdfText⟩))
    (hxmp : doc.firstXmpValue object xmpNsXmp xmpName = some xmp.xmpText) :
    doc.xmpInfoDateMatch object infoKey xmpName = .bool true ↔ info.SpellsAs xmp := by
  have hread : (CosObject.string ⟨utf8 info.pdfText⟩).objectDirectText = some info.pdfText :=
    congrArg some (utf8Lossy_utf8_ascii info.pdfText_ascii)
  unfold ModelDocument.xmpInfoDateMatch
  rw [hinfo, hxmp, Option.bind_some, hread]
  dsimp only
  rw [ModelValue.bool.injEq, decide_eq_true_iff]
  unfold normalizedDateDigits
  rw [info.digits_pdfText, xmp.digits_xmpText, String.ofList_inj, info.take_digits_eq_iff]

/-! ## Dates and instants -/

/-- The digits tell whether two dates are one instant: dates that are written alike, dates that spell
different fields and are different instants, and dates of which one has its offset read as fields of
the other that make up for the difference. -/
def WrittenDate.DigitsTell (info xmp : WrittenDate) : Prop :=
  info.WrittenAlike xmp
    ∨ (¬ info.SpellsAs xmp ∧ info.instant ≠ xmp.instant)
    ∨ (info.SpellsAs xmp
      ∧ (info.precision < xmp.precision ∧ info.MadeUpBy xmp
        ∨ xmp.precision < info.precision ∧ xmp.MadeUpBy info))

theorem WrittenDate.SpellsAs.symm {d e : WrittenDate} (h : d.SpellsAs e) : e.SpellsAs d :=
  ⟨h.1.symm, h.2.symm⟩

theorem WrittenDate.digitsTell_iff (info xmp : WrittenDate) :
    (info.SpellsAs xmp ↔ info.instant = xmp.instant) ↔ info.DigitsTell xmp := by
  unfold DigitsTell
  by_cases hspells : info.SpellsAs xmp
  · have hinstant : info.instant = xmp.instant ↔ info.WrittenAlike xmp
        ∨ (info.precision < xmp.precision ∧ info.MadeUpBy xmp
          ∨ xmp.precision < info.precision ∧ xmp.MadeUpBy info) := by
      rcases Nat.lt_trichotomy info.precision xmp.precision with hless | hsame | hmore
      · rw [hspells.madeUp_iff hless]
        have hnot : ¬ info.WrittenAlike xmp := fun halike => hless.ne halike.1
        simp [hnot, hless, hless.not_gt]
      · rw [hspells.instant_iff hsame]
        simp [hsame]
      · rw [eq_comm, hspells.symm.madeUp_iff hmore]
        have hnot : ¬ info.WrittenAlike xmp := fun halike => hmore.ne' halike.1
        simp [hnot, hmore, hmore.not_gt]
    rw [hinstant]
    simp [hspells]
  · have hnot : info.WrittenAlike xmp → info.instant ≠ xmp.instant := fun halike heq =>
      hspells (halike.spellsAs_iff.mpr heq)
    simp only [hspells, false_iff, not_false_eq_true, true_and, false_and, or_false]
    exact ⟨.inr, fun h => h.elim hnot id⟩

/-- The model says that an Info date and an XMP date match exactly when they are one instant, if and
only if their digits tell. -/
theorem xmpInfoDateMatch_instants_iff (doc : ModelDocument) (object : Option ObjectKey)
    (infoKey xmpName : String) (info xmp : WrittenDate)
    (hinfo : doc.documentInfoValue infoKey = some (.string ⟨utf8 info.pdfText⟩))
    (hxmp : doc.firstXmpValue object xmpNsXmp xmpName = some xmp.xmpText) :
    (doc.xmpInfoDateMatch object infoKey xmpName = .bool true ↔ info.instant = xmp.instant)
      ↔ info.DigitsTell xmp := by
  rw [xmpInfoDateMatch_written doc object infoKey xmpName info xmp hinfo hxmp]
  exact info.digitsTell_iff xmp

/-- A document with a creation date in the Info dictionary and in XMP. -/
def createdDocument (info xmp : WrittenDate) : ModelDocument where
  version := ⟨1, 4⟩
  catalog := none
  objects := OrdMap.empty
  trailers := [⟨[(PdfName.fromStatic "Info", .dictionary
    [(PdfName.fromStatic "CreationDate", .string ⟨utf8 info.pdfText⟩)])], 0⟩]
  parseFacts := [.xmp .first
    (.rdfProperty ⟨xmpNsXmp⟩ ⟨"xmp"⟩ ⟨"CreateDate"⟩ (some ⟨xmp.xmpText⟩) none none)]

/-- A second after noon on the first day of 2020, or noon itself. -/
def newYearNoon (second : Fin 2) : Calendar.Civil :=
  ⟨2020, 1, 1, 12, 0, second.val⟩

/-- A date to the second. -/
def toTheSecond (second : Fin 2) (offset : WrittenOffset) : WrittenDate where
  civil := newYearNoon second
  precision := 5
  offset := offset
  valid := by revert second; decide
  year_lt := (by decide : 2020 < 10000)
  precision_le := by decide
  defaults := rfl

/-- A date to the minute. -/
def toTheMinute (offset : WrittenOffset) : WrittenDate where
  civil := newYearNoon 0
  precision := 4
  offset := offset
  valid := by decide
  year_lt := by decide
  precision_le := by decide
  defaults := rfl

/-- The offset of one hour ahead of UTC. -/
def oneHourAhead : WrittenOffset :=
  .numeric false 1 0

theorem createdDocument_info (info xmp : WrittenDate) :
    (createdDocument info xmp).documentInfoValue "CreationDate" = some (.string ⟨utf8 info.pdfText⟩) :=
  rfl

theorem createdDocument_xmp (info xmp : WrittenDate) :
    (createdDocument info xmp).firstXmpValue none xmpNsXmp "CreateDate" = some xmp.xmpText := by
  unfold ModelDocument.firstXmpValue ModelDocument.xmpPropertyValues ModelDocument.xmpRdfProperties
    createdDocument
  simp [ParseFact.rdfProperty]

/-- What the model says of the creation dates. -/
def createdMatch (info xmp : WrittenDate) : ModelValue :=
  (createdDocument info xmp).xmpInfoDateMatch none "CreationDate" "CreateDate"

theorem createdMatch_iff (info xmp : WrittenDate) :
    createdMatch info xmp = .bool true ↔ info.SpellsAs xmp :=
  xmpInfoDateMatch_written _ none _ _ info xmp (createdDocument_info info xmp)
    (createdDocument_xmp info xmp)

/-- Noon one hour ahead of UTC matches noon in UTC; a second after noon matches noon one hour ahead,
whose offset gives the second; and noon to the second does not match noon to the minute. -/
theorem noon_createdMatch :
    ((toTheSecond 0 oneHourAhead).pdfText = "D:20200101120000+01'00'"
        ∧ (toTheSecond 0 .utc).xmpText = "2020-01-01T12:00:00Z"
        ∧ createdMatch (toTheSecond 0 oneHourAhead) (toTheSecond 0 .utc) = .bool true
        ∧ (toTheSecond 0 oneHourAhead).instant ≠ (toTheSecond 0 .utc).instant)
      ∧ ((toTheSecond 1 .absent).pdfText = "D:20200101120001"
        ∧ (toTheMinute oneHourAhead).xmpText = "2020-01-01T12:00+01:00"
        ∧ createdMatch (toTheSecond 1 .absent) (toTheMinute oneHourAhead) = .bool true
        ∧ (toTheSecond 1 .absent).instant ≠ (toTheMinute oneHourAhead).instant)
      ∧ ((toTheSecond 0 .utc).pdfText = "D:20200101120000Z"
        ∧ (toTheMinute .utc).xmpText = "2020-01-01T12:00Z"
        ∧ createdMatch (toTheSecond 0 .utc) (toTheMinute .utc) ≠ .bool true
        ∧ (toTheSecond 0 .utc).instant = (toTheMinute .utc).instant) := by
  refine ⟨⟨by decide, by decide, ?_, ?_⟩, ⟨by decide, by decide, ?_, ?_⟩, by decide, by decide, ?_,
    rfl⟩
  · exact (createdMatch_iff _ _).mpr ⟨rfl, rfl⟩
  · show ((newYearNoon 0).seconds : Int) - 60 * 60 ≠ (newYearNoon 0).seconds - 60 * 0
    omega
  · exact (createdMatch_iff _ _).mpr ⟨rfl, rfl⟩
  · have hday : (newYearNoon 1).dayNumber = (newYearNoon 0).dayNumber := by
      unfold Calendar.Civil.dayNumber Calendar.Civil.dayOfYear newYearNoon
      dsimp only
    have hfirst : (newYearNoon 0).secondOfDay = 43200 := rfl
    have hsecond : (newYearNoon 1).secondOfDay = 43201 := rfl
    show ((newYearNoon 1).seconds : Int) - 60 * 0 ≠ (newYearNoon 0).seconds - 60 * 60
    unfold Calendar.Civil.seconds
    omega
  · exact fun h => absurd ((createdMatch_iff _ _).mp h).2 (by decide)

/-- Noon and a second after noon, both one hour ahead of UTC: the digits tell. -/
theorem secondAfterNoon_instants :
    (createdMatch (toTheSecond 0 oneHourAhead) (toTheSecond 1 oneHourAhead) = .bool true
        ↔ (toTheSecond 0 oneHourAhead).instant = (toTheSecond 1 oneHourAhead).instant)
      ∧ (toTheSecond 0 oneHourAhead).WrittenAlike (toTheSecond 1 oneHourAhead) :=
  have halike : (toTheSecond 0 oneHourAhead).WrittenAlike (toTheSecond 1 oneHourAhead) :=
    ⟨rfl, rfl, .inl rfl⟩
  ⟨(xmpInfoDateMatch_instants_iff _ none _ _ _ _ (createdDocument_info _ _)
    (createdDocument_xmp _ _)).mpr (.inl halike), halike⟩

end Pdfv
