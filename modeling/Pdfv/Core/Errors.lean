import Pdfv.Core.Types
/-!
# Errors of the library

The errors that profile selection, validation, metadata repair and the report writers return, with
the texts they display. A report error is an XML one: the others come from JSON and from the sink.
-/

namespace Pdfv

/-- Profile-specific error. -/
inductive ProfileError where
  | unsupportedSelection
  | invalidField (field : String) (reason : BoundedText)
  | budgetExceeded (budget : String)
  | unknownProperty (property : BoundedText)
  | typeMismatch (message : BoundedText)
  | unsupportedRule (reason : BoundedText)
  | invalidXml (reason : BoundedText)
deriving DecidableEq, Repr

/-- Validation-specific error. -/
inductive ValidationError where
  | subsystemUnavailable (subsystem : String)
  | limitExceeded (limit : String)
deriving DecidableEq, Repr

/-- Feature policy error. -/
inductive PolicyError where
  | invalidField (field : String) (reason : BoundedText)
  | evaluation (reason : BoundedText)
deriving DecidableEq, Repr

/-- Metadata repair error. -/
inductive RepairError where
  | invalidField (field : String) (reason : BoundedText)
  | failed (reason : BoundedText)
deriving DecidableEq, Repr

/-- Reporting-specific error. -/
inductive ReportError where
  | xml (message : BoundedText)
deriving DecidableEq, Repr

/-- Configuration-specific error. -/
inductive ConfigError where
  | invalidValue (field : String) (reason : BoundedText)
deriving DecidableEq, Repr

/-- Top-level error. -/
inductive PdfvError where
  | io (path : Option PathBuf) (source : IoError)
  | parse (error : ParseError)
  | profile (error : ProfileError)
  | validation (error : ValidationError)
  | policy (error : PolicyError)
  | repair (error : RepairError)
  | report (error : ReportError)
  | configuration (error : ConfigError)
deriving DecidableEq, Repr

namespace ParseError

/-- The displayed text. -/
def display : ParseError → String
  | limitExceeded limit => s!"resource limit exceeded: {limit}"
  | arithmeticOverflow context => s!"arithmetic overflow while parsing {context}"
  | malformed message => s!"malformed PDF syntax: {message.text}"
  | missingObject message => s!"missing PDF object: {message.text}"
  | unsupportedFilter filter => s!"unsupported stream filter: {filter.text}"
  | streamDecode message => s!"stream decode failed: {message.text}"

end ParseError

namespace ProfileError

/-- The displayed text. -/
def display : ProfileError → String
  | unsupportedSelection => "unsupported profile selection"
  | invalidField field reason => s!"invalid profile field {field}: {reason.text}"
  | budgetExceeded budget => s!"rule evaluation budget exceeded: {budget}"
  | unknownProperty property => s!"unknown model property {property.text}"
  | typeMismatch message => s!"rule expression type mismatch: {message.text}"
  | unsupportedRule reason => s!"unsupported rule expression: {reason.text}"
  | invalidXml reason => s!"invalid profile XML: {reason.text}"

end ProfileError

namespace ValidationError

/-- The displayed text. -/
def display : ValidationError → String
  | subsystemUnavailable subsystem => s!"validation subsystem is unavailable: {subsystem}"
  | limitExceeded limit => s!"validation traversal limit exceeded: {limit}"

end ValidationError

namespace PolicyError

/-- The displayed text. -/
def display : PolicyError → String
  | invalidField field reason => s!"invalid policy field {field}: {reason.text}"
  | evaluation reason => s!"policy rule could not be evaluated: {reason.text}"

end PolicyError

namespace RepairError

/-- The displayed text. -/
def display : RepairError → String
  | invalidField field reason => s!"invalid repair field {field}: {reason.text}"
  | failed reason => s!"metadata repair failed: {reason.text}"

end RepairError

namespace ReportError

/-- The displayed text. -/
def display : ReportError → String
  | xml message => s!"XML serialization failed: {message.text}"

end ReportError

namespace ConfigError

/-- The displayed text. -/
def display : ConfigError → String
  | invalidValue field reason => s!"invalid configuration value {field}: {reason.text}"

end ConfigError

/-- `format_optional_path`. -/
def formatOptionalPath : Option PathBuf → String
  | some path => s!" at {path.display}"
  | none => ""

namespace PdfvError

/-- The displayed text. -/
def display : PdfvError → String
  | io path source => s!"I/O error{formatOptionalPath path}: {source.text}"
  | parse error => s!"parse error: {error.display}"
  | profile error => s!"profile error: {error.display}"
  | validation error => s!"validation error: {error.display}"
  | policy error => s!"policy error: {error.display}"
  | repair error => s!"repair error: {error.display}"
  | report error => s!"report error: {error.display}"
  | configuration error => s!"configuration error: {error.display}"

/-- The limit error of the validation traversal. -/
def limit (name : String) : PdfvError :=
  .validation (.limitExceeded name)

end PdfvError

/-- The error of `Identifier::new`. -/
def Identifier.policyError : PdfvError :=
  .configuration (.invalidValue "identifier" ⟨"identifier violates byte or charset policy"⟩)

/-- `BoundedText::new`: the byte limit is checked. -/
def BoundedText.new (value : String) (maxBytes : Nat) : Except PdfvError BoundedText :=
  if (utf8 value).length > maxBytes then
    .error (.configuration (.invalidValue "text" ⟨"value exceeds byte limit"⟩))
  else .ok ⟨value⟩

theorem BoundedText.new_eq_ok {value : String} {maxBytes : Nat} {text : BoundedText}
    (h : BoundedText.new value maxBytes = .ok text) :
    text = ⟨value⟩ ∧ (utf8 value).length ≤ maxBytes := by
  unfold BoundedText.new at h
  split at h
  · cases h
  · cases h
    exact ⟨rfl, by omega⟩

/-- `Identifier::new` with the error of the source. -/
def newIdentifier (value : String) : Except PdfvError Identifier :=
  match Identifier.new value with
  | some identifier => .ok identifier
  | none => .error Identifier.policyError

/-- `ProfileError::InvalidXml`. -/
def invalidXml (reason : BoundedText) : PdfvError :=
  .profile (.invalidXml reason)

end Pdfv
