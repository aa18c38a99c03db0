import Pdfv.Core.Errors
import Pdfv.Basic.Double
import Mathlib.Data.List.Nodup
/-!
# Rules and profiles

The families of the validation model, rule expressions, rules, profiles and flavours. A registered
family is a constructor of `Family`; a rule may also name a type that no family has.
-/

namespace Pdfv

/-- A family registered in the default model registry. -/
inductive Family where
  | document
  | catalog
  | metadata
  | page
  | pageTree
  | resource
  | names
  | outline
  | destination
  | acroForm
  | optionalContentProperties
  | permissions
  | font
  | fontDescriptor
  | fontProgram
  | cMap
  | embeddedFontFile
  | image
  | xObject
  | formXObject
  | postScriptXObject
  | contentStream
  | operator
  | markedContent
  | inlineImage
  | resourceUse
  | undefinedOperator
  | annotation
  | action
  | formField
  | fileSpec
  | colorSpace
  | iccProfile
  | extGState
  | pattern
  | shading
  | function
  | accessibilityDocument
  | structureTreeRoot
  | structureElement
  | textChunk
  | imageChunk
  | accessibilityAnnotation
  | artifact
  | table
  | list
  | heading
  | link
  | signature
  | security
  | outputIntent
  | stream
  | object
deriving DecidableEq, Repr

namespace Family

/-- The registered name. -/
def text : Family → String
  | document => "document"
  | catalog => "catalog"
  | metadata => "metadata"
  | page => "page"
  | pageTree => "pageTree"
  | resource => "resource"
  | names => "names"
  | outline => "outline"
  | destination => "destination"
  | acroForm => "acroForm"
  | optionalContentProperties => "optionalContentProperties"
  | permissions => "permissions"
  | font => "font"
  | fontDescriptor => "fontDescriptor"
  | fontProgram => "fontProgram"
  | cMap => "cMap"
  | embeddedFontFile => "embeddedFontFile"
  | image => "image"
  | xObject => "xObject"
  | formXObject => "formXObject"
  | postScriptXObject => "postScriptXObject"
  | contentStream => "contentStream"
  | operator => "operator"
  | markedContent => "markedContent"
  | inlineImage => "inlineImage"
  | resourceUse => "resourceUse"
  | undefinedOperator => "undefinedOperator"
  | annotation => "annotation"
  | action => "action"
  | formField => "formField"
  | fileSpec => "fileSpec"
  | colorSpace => "colorSpace"
  | iccProfile => "iccProfile"
  | extGState => "extGState"
  | pattern => "pattern"
  | shading => "shading"
  | function => "function"
  | accessibilityDocument => "accessibilityDocument"
  | structureTreeRoot => "structureTreeRoot"
  | structureElement => "structureElement"
  | textChunk => "textChunk"
  | imageChunk => "imageChunk"
  | accessibilityAnnotation => "accessibilityAnnotation"
  | artifact => "artifact"
  | table => "table"
  | list => "list"
  | heading => "heading"
  | link => "link"
  | signature => "signature"
  | security => "security"
  | outputIntent => "outputIntent"
  | stream => "stream"
  | object => "object"

/-- The registered families, in the order of the registry. -/
def all : List Family :=
  [document, catalog, metadata, page, pageTree, resource, names, outline, destination, acroForm,
   optionalContentProperties, permissions, font, fontDescriptor, fontProgram, cMap,
   embeddedFontFile, image, xObject, formXObject, postScriptXObject, contentStream, operator,
   markedContent, inlineImage, resourceUse, undefinedOperator, annotation, action, formField,
   fileSpec, colorSpace, iccProfile, extGState, pattern, shading, function, accessibilityDocument,
   structureTreeRoot, structureElement, textChunk, imageChunk, accessibilityAnnotation, artifact,
   table, list, heading, link, signature, security, outputIntent, stream, object]

/-- The family registered under a name. -/
def ofText (name : String) : Option Family :=
  all.find? fun family => family.text = name

theorem mem_all (family : Family) : family ∈ all := by
  cases family <;> decide

theorem texts_nodup : (all.map text).Nodup := by
  decide

theorem ofText_text (family : Family) : ofText family.text = some family := by
  cases hfind : ofText family.text with
  | none =>
    have hnone := List.find?_eq_none.mp hfind family (mem_all family)
    simp at hnone
  | some found =>
    unfold ofText at hfind
    have htext : found.text = family.text := by
      simpa using List.find?_some hfind
    rw [List.inj_on_of_nodup_map texts_nodup (mem_all found) (mem_all family) htext]

end Family

/-- Validation model object type name: a registered family, or a name no family has. -/
inductive ObjectTypeName where
  | family (family : Family)
  | unregistered (name : String) (h : Family.ofText name = none)
deriving DecidableEq

namespace ObjectTypeName

/-- The type with a given name. -/
def ofText (name : String) : ObjectTypeName :=
  match h : Family.ofText name with
  | some found => family found
  | none => unregistered name h

/-- The name. -/
def text : ObjectTypeName → String
  | family found => found.text
  | unregistered name _ => name

theorem text_injective {a b : ObjectTypeName} (h : a.text = b.text) : a = b := by
  cases a with
  | family found =>
    cases b with
    | family other =>
      have hfound := congrArg Family.ofText h
      simp only [text, Family.ofText_text, Option.some.injEq] at hfound
      rw [hfound]
    | unregistered name hname =>
      have hfound := congrArg Family.ofText h
      simp only [text, Family.ofText_text, hname] at hfound
      cases hfound
  | unregistered name hname =>
    cases b with
    | family other =>
      have hfound := congrArg Family.ofText h
      simp only [text, Family.ofText_text, hname] at hfound
      cases hfound
    | unregistered other hother =>
      cases h
      rfl

end ObjectTypeName

/-- A property or link name. -/
abbrev PropertyName := String

/-- Property path: links followed by the terminal property. -/
abbrev PropertyPath := List PropertyName

/-- Unary expression operator. -/
inductive UnaryOp where
  | not
deriving DecidableEq, Repr

/-- Binary expression operator. -/
inductive BinaryOp where
  | eq
  | ne
  | le
  | ge
  | lt
  | gt
  | and
  | or
  | bitAnd
  | shr
  | add
  | sub
  | mul
  | div
  | rem
deriving DecidableEq, Repr

/-- Bounded built-in function. -/
inductive BuiltinFunction where
  | hasParseFact
  | size
  | isEmpty
  | contains
  | all
  | exists
  | matches
  | split
  | filterEquals
  | filterNotEquals
  | filterMatches
  | filterNotMatches
  | slice
  | indexOf
  | findIndexEquals
  | search
  | abs
deriving DecidableEq, Repr

/-- Bounded rule expression. -/
inductive RuleExpr where
  | bool (value : Bool)
  | number (value : Double)
  | string (value : BoundedText)
  | null
  | property (path : PropertyPath)
  | unary (op : UnaryOp) (expr : RuleExpr)
  | binary (op : BinaryOp) (left right : RuleExpr)
  | conditional (condition whenTrue whenFalse : RuleExpr)
  | call (function : BuiltinFunction) (args : List RuleExpr)
  | unsupported (fragment reason : BoundedText)

/-- `matches!(rule.test, RuleExpr::Unsupported { .. })`. -/
def RuleExpr.isUnsupported : RuleExpr → Bool
  | .unsupported _ _ => true
  | _ => false

/-- Specification citation associated with a rule. -/
structure SpecReference where
  specification : BoundedText
  clause : BoundedText
deriving DecidableEq, Repr

/-- Validation rule. -/
structure Rule where
  id : Identifier
  objectType : ObjectTypeName
  deferred : Bool
  description : BoundedText
  test : RuleExpr
  errorMessage : BoundedText
  references : List SpecReference

/-- Profile identity. -/
structure ProfileIdentity where
  id : Identifier
  name : BoundedText
  version : Option Identifier
deriving DecidableEq, Repr

/-- Validation flavour identifier; the part is not zero. -/
structure ValidationFlavour where
  family : Identifier
  part : Nat
  conformance : Identifier
  part_pos : 0 < part
deriving Repr

theorem ValidationFlavour.eq_iff (a b : ValidationFlavour) :
    a.family = b.family ∧ a.part = b.part ∧ a.conformance = b.conformance ↔ a = b := by
  constructor
  · intro h
    obtain ⟨hfamily, hpart, hconformance⟩ := h
    cases a
    cases b
    simp_all
  · intro h
    rw [h]
    exact ⟨rfl, rfl, rfl⟩

instance : DecidableEq ValidationFlavour := fun a b =>
  decidable_of_iff _ (ValidationFlavour.eq_iff a b)

/-- Immutable validation profile. -/
structure ValidationProfile where
  identity : ProfileIdentity
  flavour : ValidationFlavour
  rules : List Rule

/-- Flavour/profile selection policy. -/
inductive FlavourSelection where
  | auto (default : Option ValidationFlavour)
  | explicit (flavour : ValidationFlavour)
  | customProfile (profilePath : String)
deriving DecidableEq, Repr

end Pdfv
