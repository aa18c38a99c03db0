import Pdfv.Basic.Numerals
import Pdfv.Parser.Filters
import Mathlib.Data.List.MinMax
/-!
# LZW encoding

An LZW encoder for PDF (`lzwEncode`): it takes the longest entry of its table that the rest of the
data begins with, adds that entry with the byte after it to the table, and writes the number of the
entry with a number of bits that depends on the size of the table. A code is a number with its width;
codes are packed most significant bit first.
-/

namespace Pdfv

open Positional

/-! ## Bits -/

/-- The bytes of a list of bits, the last byte filled up with zero bits. -/
def packBits : List Nat → Bytes
  | a :: b :: c :: d :: e :: f :: g :: h :: bits =>
    UInt8.ofNat (value 2 [a, b, c, d, e, f, g, h]) :: packBits bits
  | [] => []
  | bits => [UInt8.ofNat (value 2 (bits ++ List.replicate (8 - bits.length) 0))]

/-- A code: its width in bits and its number. -/
abbrev LzwCode := Nat × Nat

/-- The bits of a list of codes. -/
def codeBits (codes : List LzwCode) : List Nat :=
  codes.flatMap fun code => digits 2 code.1 code.2

/-! ## The encoder -/

/-- What an encoder and a decoder have to agree on. -/
structure LzwScheme where
  /-- The width of the next code when the table has the given size. -/
  width : Nat → Nat
  /-- Whether the last number, which no byte of the data follows, adds an entry to the table. -/
  countsLast : Bool

/-- The longest entry that the data begins with, and its number. -/
def longestMatch (table : List Bytes) (input : Bytes) : Bytes × Nat :=
  ((table.zipIdx.filter fun entry => entry.1.isPrefixOf input).argmax fun entry =>
    entry.1.length).getD ([], 0)

/-- Clear codes in a row; the first one has the width for the table that it clears. -/
def clearCodes (scheme : LzwScheme) : Nat → Nat → List LzwCode
  | _, 0 => []
  | size, count + 1 => (scheme.width size, 256) :: clearCodes scheme 258 count

/-- How many clear codes stand before a number, or before the end of the data: as many as chosen, and
one more when the table is full and a number follows. -/
def clearsBefore (clears : Nat → Nat) (index : Nat) (table : List Bytes) (input : Bytes) : Nat :=
  clears index + if table.length = 4096 ∧ input ≠ [] then 1 else 0

/-- The table after clear codes. -/
def clearedTable (table : List Bytes) (count : Nat) : List Bytes :=
  if count = 0 then table else initialLzwDictionary

/-- The table after a number: its entry with the next byte of the data is added. -/
def grownTable (scheme : LzwScheme) (table : List Bytes) (entry rest : Bytes) : List Bytes :=
  if rest = [] ∧ !scheme.countsLast then table else table ++ [entry ++ rest.take 1]

/-- The codes after the initial clear code; `clears` chooses the clear codes before each number. -/
def lzwCodes (scheme : LzwScheme) (clears : Nat → Nat) :
    Nat → Nat → List Bytes → Bytes → List LzwCode
  | 0, _, _, _ => []
  | fuel + 1, index, table, input =>
    let count := clearsBefore clears index table input
    let cleared := clearedTable table count
    clearCodes scheme table.length count ++
      if input = [] then [(scheme.width cleared.length, 257)]
      else
        let (entry, number) := longestMatch cleared input
        let rest := input.drop entry.length
        (scheme.width cleared.length, number) ::
          lzwCodes scheme clears fuel (index + 1) (grownTable scheme cleared entry rest) rest

/-- The encoder. -/
def lzwEncode (scheme : LzwScheme) (clears : Nat → Nat) (input : Bytes) : Bytes :=
  packBits (codeBits ((9, 256) ::
    lzwCodes scheme clears (input.length + 1) 0 initialLzwDictionary input))

/-- The scheme of PDF. The width grows with the entries 512, 1024 and 2048, or one code early. -/
def lzwScheme (earlyChange : Nat) : LzwScheme where
  width size := 9 + [512, 1024, 2048].countP fun bound => bound < size + min earlyChange 1
  countsLast := true

/-- The scheme in which the width grows when the table has 512, 1024 and 2048 entries, or one code
early, and the last number adds none. -/
def earlierScheme (earlyChange : Nat) : LzwScheme where
  width size := 9 + [512, 1024, 2048].countP fun bound => bound ≤ size + min earlyChange 1
  countsLast := false

end Pdfv
