import Pdfv.Basic.Search
import Pdfv.Basic.Trim
/-!
# Bytes and text

The parser works on raw bytes (`Vec<u8>`, `&[u8]`). A buffer is a `List UInt8`; Rust strings are
Lean strings, and `utf8` is their `as_bytes`. `utf8Lossy` is `String::from_utf8_lossy`: every
maximal invalid prefix of a sequence becomes one U+FFFD.
-/

namespace Pdfv

/-- What is said of the members of a list is decided along the list, also where the whole type is
finite, as `Char` is. -/
instance (priority := 1100) decidableForallMem {α : Type} (p : α → Prop) [DecidablePred p]
    (values : List α) : Decidable (∀ x ∈ values, p x) :=
  List.decidableBAll p values

/-- A byte buffer. -/
abbrev Bytes := List UInt8

/-- `str::as_bytes`: the UTF-8 bytes of a text. -/
def utf8 (s : String) : Bytes :=
  s.toList.flatMap String.utf8EncodeChar

theorem utf8_append (a b : String) : utf8 (a ++ b) = utf8 a ++ utf8 b := by
  unfold utf8
  rw [String.toList_append, List.flatMap_append]

theorem utf8_ofList (chars : List Char) :
    utf8 (String.ofList chars) = chars.flatMap String.utf8EncodeChar := by
  unfold utf8
  rw [String.toList_ofList]

/-- The bytes of a text that is given by its characters. -/
theorem utf8_eq_flatMap {s : String} {chars : List Char} (h : String.ofList chars = s) :
    utf8 s = chars.flatMap String.utf8EncodeChar := by
  subst h
  exact utf8_ofList chars

/-- `u8::is_ascii_digit`. -/
def isDigit (b : UInt8) : Bool :=
  48 ≤ b && b ≤ 57

/-- The value of an ASCII digit. -/
def digitValue (b : UInt8) : Nat :=
  b.toNat - 48

/-- The number a run of ASCII digits spells, most significant digit first. -/
def digitsValue (ds : Bytes) : Nat :=
  ds.foldl (fun n b => n * 10 + digitValue b) 0

/-- PDF white space: NUL, TAB, LF, FF, CR and SP. -/
def isWs (b : UInt8) : Bool :=
  b = 0 || b = 9 || b = 10 || b = 12 || b = 13 || b = 32

/-- `u8::is_ascii_whitespace`: TAB, LF, FF, CR and SP. -/
def isAsciiWhitespace (b : UInt8) : Bool :=
  b = 9 || b = 10 || b = 12 || b = 13 || b = 32

/-- PDF delimiters: `( ) < > [ ] { } / %`. -/
def isDelimiter (b : UInt8) : Bool :=
  b = 40 || b = 41 || b = 60 || b = 62 || b = 91 || b = 93 || b = 123 || b = 125 || b = 47 || b = 37

/-- An end-of-line byte, LF or CR. -/
def isEol (b : UInt8) : Bool :=
  b = 10 || b = 13

/-- One hexadecimal digit, upper or lower case. -/
def decodeHexDigit (b : UInt8) : Option UInt8 :=
  if 48 ≤ b && b ≤ 57 then some (b - 48)
  else if 97 ≤ b && b ≤ 102 then some (b - 97 + 10)
  else if 65 ≤ b && b ≤ 70 then some (b - 65 + 10)
  else none

/-- Two hexadecimal digits. Both nibbles are below 16, so the saturating arithmetic of the source
never saturates. -/
def decodeHexPair (high low : UInt8) : Option UInt8 := do
  let high ← decodeHexDigit high
  let low ← decodeHexDigit low
  return high * 16 + low

/-- `slice.get(start..end)`: nothing when the range is reversed or leaves the buffer. -/
def subrange (bytes : Bytes) (start stop : Nat) : Option Bytes :=
  if start ≤ stop ∧ stop ≤ bytes.length then some ((bytes.drop start).take (stop - start)) else none

/-! ## Text -/

/-- `char::is_whitespace`: the Unicode property White_Space. -/
def isWhitespace (c : Char) : Bool :=
  let n := c.toNat
  (9 ≤ n && n ≤ 13) || n = 0x20 || n = 0x85 || n = 0xA0 || n = 0x1680 || (0x2000 ≤ n && n ≤ 0x200A)
    || n = 0x2028 || n = 0x2029 || n = 0x202F || n = 0x205F || n = 0x3000

/-- `str::trim`. -/
def trimText (value : String) : String :=
  String.ofList (Trim.trim isWhitespace value.toList)

/-! ## Plain search -/

/-- `find_bytes`: the first occurrence at or after `start`, as `windows(n).position(..)` finds it. -/
def findBytes (haystack needle : Bytes) (start : Nat) : Option Nat :=
  if start ≤ haystack.length then
    (Search.findWindow needle (haystack.drop start)).map (start + ·)
  else none

/-! ## Lossy UTF-8 -/

/-- A continuation byte `80..BF`. -/
def isCont (b : UInt8) : Bool :=
  128 ≤ b && b ≤ 191

/-- The second bytes that may follow a three-byte lead. -/
def second3 (lead b : UInt8) : Bool :=
  if lead = 0xE0 then 0xA0 ≤ b && b ≤ 0xBF
  else if lead = 0xED then 0x80 ≤ b && b ≤ 0x9F
  else isCont b

/-- The second bytes that may follow a four-byte lead. -/
def second4 (lead b : UInt8) : Bool :=
  if lead = 0xF0 then 0x90 ≤ b && b ≤ 0xBF
  else if lead = 0xF4 then 0x80 ≤ b && b ≤ 0x8F
  else isCont b

/-- The six low bits of a continuation byte. -/
def contBits (b : UInt8) : Nat :=
  b.toNat % 64

/-- The replacement character U+FFFD. -/
def replacement : Char :=
  Char.ofNat 0xFFFD

/-- One step of `from_utf8_lossy` after the lead byte `b0`: the character and how many of the
following bytes it takes. A truncated or invalid sequence yields U+FFFD and keeps the first byte
that does not belong to it. -/
def utf8Step (b0 : UInt8) (rest : Bytes) : Char × Nat :=
  if b0 < 128 then (Char.ofNat b0.toNat, 0)
  else if 0xC2 ≤ b0 && b0 ≤ 0xDF then
    match rest with
    | b1 :: _ =>
      if isCont b1 then (Char.ofNat (b0.toNat % 32 * 64 + contBits b1), 1) else (replacement, 0)
    | [] => (replacement, 0)
  else if 0xE0 ≤ b0 && b0 ≤ 0xEF then
    match rest with
    | b1 :: b2 :: _ =>
      if second3 b0 b1 then
        if isCont b2 then
          (Char.ofNat ((b0.toNat % 16 * 64 + contBits b1) * 64 + contBits b2), 2)
        else (replacement, 1)
      else (replacement, 0)
    | [b1] => (replacement, if second3 b0 b1 then 1 else 0)
    | [] => (replacement, 0)
  else if 0xF0 ≤ b0 && b0 ≤ 0xF4 then
    match rest with
    | b1 :: b2 :: b3 :: _ =>
      if second4 b0 b1 then
        if isCont b2 then
          if isCont b3 then
            (Char.ofNat (((b0.toNat % 8 * 64 + contBits b1) * 64 + contBits b2) * 64
              + contBits b3), 3)
          else (replacement, 2)
        else (replacement, 1)
      else (replacement, 0)
    | [b1, b2] => (replacement, if second4 b0 b1 then if isCont b2 then 2 else 1 else 0)
    | [b1] => (replacement, if second4 b0 b1 then 1 else 0)
    | [] => (replacement, 0)
  else (replacement, 0)

/-- The characters of `from_utf8_lossy`; the fuel is the number of bytes left. -/
def utf8LossyChars : Nat → Bytes → List Char
  | 0, _ => []
  | _, [] => []
  | fuel + 1, b0 :: rest =>
    let (c, used) := utf8Step b0 rest
    c :: utf8LossyChars fuel (rest.drop used)

/-- `String::from_utf8_lossy`. -/
def utf8Lossy (bytes : Bytes) : String :=
  String.ofList (utf8LossyChars bytes.length bytes)

end Pdfv
