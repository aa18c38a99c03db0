import Pdfv.Cos.Object
/-!
# Source storage

The parser reads its input through a `SourceStorage`: the whole source in memory, or a temporary
spill file that is read with seek and read. `SourceStorage.reader` collects the read operations
that the token readers use; `streamSource` is the one operation whose result shows which of the two
representations is in use.
-/

namespace Pdfv

/-- Parser-owned storage for source bytes. The spill file is given by its contents. -/
inductive SourceStorage where
  | memory (bytes : Bytes)
  | spillFile (file : Bytes) (len : Nat)

/-- `SPILL_SEARCH_CHUNK_BYTES`. -/
def spillSearchChunkBytes : Nat := 8192

/-- `read_exact_at`: exactly `count` bytes from `offset`, or an error at the end of the file. -/
def readExactAt (file : Bytes) (count offset : Nat) : Except ParseError Bytes :=
  match subrange file offset (offset + count) with
  | some bytes => .ok bytes
  | none => .error (.bad "failed to read spill file")

/-- The last `overlap` bytes of a buffer. -/
def keepLast (overlap : Nat) (bytes : Bytes) : Bytes :=
  bytes.drop (bytes.length - overlap)

/-- The loop of `find_bytes_in_spill_file`: `carried` holds the bytes kept from the chunks before
`pos`. The fuel bounds the number of chunks; every chunk has at least one byte. -/
def spillSearchLoop (file needle : Bytes) (stop : Nat) : Nat → Nat → Bytes → Option Nat
  | 0, _, _ => none
  | fuel + 1, pos, carried =>
    if pos < stop then
      let readLen := min (stop - pos) spillSearchChunkBytes
      match readExactAt file readLen pos with
      | .error _ => none
      | .ok chunk =>
        let searchBase := pos - carried.length
        let window := carried ++ chunk
        match findBytes window needle 0 with
        | some relative => some (searchBase + relative)
        | none =>
          let kept := if window.length > needle.length - 1 then keepLast (needle.length - 1) window
            else window
          spillSearchLoop file needle stop fuel (pos + readLen) kept
    else none

/-- `find_bytes_in_spill_file`. -/
def findBytesInSpillFile (file needle : Bytes) (start stop : Nat) : Option Nat :=
  spillSearchLoop file needle stop (stop - start + 1) start []

namespace SourceStorage

/-- `SourceStorage::len`. -/
def len : SourceStorage → Nat
  | memory bytes => bytes.length
  | spillFile _ len => len

/-- `SourceStorage::slice`. -/
def slice (storage : SourceStorage) (start stop : Nat) : Except ParseError Bytes :=
  if start > stop ∨ stop > storage.len then .error (.bad "byte range out of bounds")
  else
    match storage with
    | memory bytes =>
      match subrange bytes start stop with
      | some bytes => .ok bytes
      | none => .error (.bad "byte range out of bounds")
    | spillFile file _ => readExactAt file (stop - start) start

/-- `SourceStorage::byte`. -/
def byte (storage : SourceStorage) (pos : Nat) : Option UInt8 :=
  if pos ≥ storage.len then none
  else
    match storage with
    | memory bytes => bytes[pos]?
    | spillFile file _ =>
      match readExactAt file 1 pos with
      | .ok bytes => bytes.head?
      | .error _ => none

/-- `SourceStorage::starts_with`. -/
def startsWith (storage : SourceStorage) (pos : Nat) (expected : Bytes) : Bool :=
  match storage.slice pos (pos + expected.length) with
  | .ok bytes => bytes = expected
  | .error _ => false

/-- `SourceStorage::find_bytes`. -/
def findBytes (storage : SourceStorage) (needle : Bytes) (start stop : Nat) : Option Nat :=
  if needle = [] ∨ start > stop ∨ stop > storage.len then none
  else
    match storage with
    | memory _ =>
      match storage.slice start stop with
      | .ok bytes => (Pdfv.findBytes bytes needle 0).map (start + ·)
      | .error _ => none
    | spillFile file _ => findBytesInSpillFile file needle start stop

/-- `SourceStorage::stream_source`: the buffer that holds the stream bytes and their range in it.
The memory source shares the whole input; the spill file copies the range. -/
def streamSource (storage : SourceStorage) (start stop : Nat) :
    Except ParseError (Bytes × StreamRange) :=
  match storage with
  | memory bytes => .ok (bytes, ⟨start, stop⟩)
  | spillFile _ _ => do
    let bytes ← storage.slice start stop
    return (bytes, ⟨0, bytes.length⟩)

/-- `SourceStorage::from_source`: sources above the threshold are spilled. -/
def fromSource (source : Bytes) (memoryThreshold : Nat) : SourceStorage :=
  if source.length ≤ memoryThreshold then memory source else spillFile source source.length

end SourceStorage

/-- The read operations of a source, which is all that the token readers use. Past the end there
is no byte. -/
structure ByteSource where
  len : Nat
  byte : Nat → Option UInt8
  slice : Nat → Nat → Except ParseError Bytes
  startsWith : Nat → Bytes → Bool
  findBytes : Bytes → Nat → Nat → Option Nat
  lt_len : ∀ pos b, byte pos = some b → pos < len

theorem SourceStorage.byte_lt {storage : SourceStorage} {pos : Nat} {b : UInt8}
    (h : storage.byte pos = some b) : pos < storage.len := by
  by_contra hge
  unfold SourceStorage.byte at h
  rw [if_pos (by omega)] at h
  cases h

/-- The read operations of a storage. -/
def SourceStorage.reader (storage : SourceStorage) : ByteSource where
  len := storage.len
  byte := storage.byte
  slice := storage.slice
  startsWith := storage.startsWith
  findBytes := storage.findBytes
  lt_len _ _ h := storage.byte_lt h

end Pdfv
