import RunnelMoe.ManifestFacts

/-! Page tables. The bytes of a table are checked against the digest in its object
record before any of them is read, and every field of the header is then compared with
the record; what is left are the hashes of the pages, one after another. -/
namespace RunnelMoe.Format
open Readers Results StoreErrors Words PageSpecs Slices

def pageTableMagic : Bytes := text "RMOAPG1\n"
def pageTableHeaderBytes : Nat := 64

structure PageTable where
  bytes : Bytes
  pageSize : Nat
  objectLength : Nat
  pageCount : Nat
  objectDigest : Digest
  deriving DecidableEq, Repr

def slice (bytes : Bytes) (offset length : Nat) : Bytes := (bytes.drop offset).take length

def fromLeBytes : Bytes → Nat
  | [] => 0
  | b::rest => b.toNat + 256 * fromLeBytes rest

def readU32 (bytes : Bytes) (offset : Nat) : Nat := fromLeBytes (slice bytes offset 4)
def readU64 (bytes : Bytes) (offset : Nat) : Nat := fromLeBytes (slice bytes offset 8)

def digestFromBytes (bytes : Bytes) : Option Digest :=
  if width : bytes.length = 32 then some ⟨bytes,width⟩ else none

def pageTableError {A : Type} (record : ObjectRecord) (problem : String) : Except FormatError A :=
  .error (.pageTable record.digest problem)

def PageTable.pageHash (table : PageTable) (index : Nat) : Option Bytes := do
  if index ≥ table.pageCount then none
  else
    let start ← checkedMul index 32
    let offset ← checkedAdd start pageTableHeaderBytes
    let last ← checkedAdd offset 32
    if last ≤ table.bytes.length then some (slice table.bytes offset 32) else none

section Parsing
variable (sha256 : Bytes → Digest)

def PageTable.parseVerified (record : ObjectRecord) (bytes : Bytes) : Except FormatError PageTable := do
  let actualLength := bytes.length
  if actualLength ≠ record.pageTableLength then
    .error (.blobLengthMismatch "page table" record.pageTable record.pageTableLength actualLength)
  else if sha256 bytes ≠ record.pageTable then
    .error (.blobDigestMismatch "page table" record.pageTable (sha256 bytes))
  else if actualLength < pageTableHeaderBytes then pageTableError record "header is truncated"
  else if slice bytes 0 8 ≠ pageTableMagic then pageTableError record "magic does not equal RMOAPG1\\n"
  else if readU32 bytes 8 ≠ 1 then pageTableError record "version is not 1"
  else if readU32 bytes 12 ≠ record.pageSize then pageTableError record "page size does not match the manifest"
  else if readU64 bytes 16 ≠ record.length then pageTableError record "object length does not match the manifest"
  else
    let expectedPageCount ← Format.pageCount record.length record.pageSize
    if readU64 bytes 24 ≠ expectedPageCount then
      pageTableError record "page count does not equal ceil(length / page_size)"
    else
      let headerDigest ← okOr (.arithmeticOverflow "page-table object digest") (digestFromBytes (slice bytes 32 32))
      if headerDigest ≠ record.digest then pageTableError record "object digest does not match the manifest"
      else
        let expectedLength ← okOr (.arithmeticOverflow "page-table parsed byte length")
          ((checkedMul expectedPageCount 32).bind (fun hashBytes => checkedAdd hashBytes 64))
        if actualLength ≠ expectedLength then pageTableError record "byte length does not match its page count"
        else .ok ⟨bytes,record.pageSize,record.length,expectedPageCount,record.digest⟩

def parseWithExpectedId (bytes : Bytes) (limits : Limits) (expected : Digest) : Except FormatError Manifest := do
  let manifest ← parseWithLimits sha256 bytes limits
  if manifest.artifactId ≠ expected then .error (.artifactIdMismatch expected manifest.artifactId) else .ok manifest

variable {sha256}

structure Tabled (record : ObjectRecord) (bytes : Bytes) (table : PageTable) : Prop where
  retained : table.bytes = bytes
  pageSize : table.pageSize = record.pageSize
  objectLength : table.objectLength = record.length
  objectDigest : table.objectDigest = record.digest
  pageCount : Format.pageCount record.length record.pageSize = .ok table.pageCount
  length : bytes.length = table.pageCount * 32 + 64
  fits : table.pageCount * 32 + 64 < modulus

theorem parsedTable {record : ObjectRecord} {bytes : Bytes} {table : PageTable}
    (ok : PageTable.parseVerified sha256 record bytes = .ok table) : Tabled record bytes table := by
  obtain ⟨-,ok⟩ := guardOk.mp ok
  obtain ⟨-,ok⟩ := guardOk.mp ok
  obtain ⟨-,ok⟩ := guardOk.mp ok
  obtain ⟨-,ok⟩ := guardOk.mp ok
  obtain ⟨-,ok⟩ := guardOk.mp ok
  obtain ⟨-,ok⟩ := guardOk.mp ok
  obtain ⟨-,ok⟩ := guardOk.mp ok
  obtain ⟨count,counted,ok⟩ := bindOk.mp ok
  obtain ⟨-,ok⟩ := guardOk.mp ok
  obtain ⟨_,-,ok⟩ := bindOk.mp ok
  obtain ⟨-,ok⟩ := guardOk.mp ok
  obtain ⟨expected,summed,ok⟩ := bindOk.mp ok
  obtain ⟨exact_,ok⟩ := guardOk.mp ok
  cases ok
  obtain ⟨hashBytes,product,sum⟩ := Option.bind_eq_some_iff.mp (okOrOk.mp summed)
  obtain ⟨-,rfl⟩ := checkedMulSome.mp product
  obtain ⟨fits,rfl⟩ := checkedAddSome.mp sum
  exact ⟨rfl,rfl,rfl,rfl,counted,not_not.mp exact_,fits⟩

end Parsing

section Entries
variable {record : ObjectRecord} {bytes : Bytes} {table : PageTable}

theorem sliceExtract (bytes : Bytes) (offset length : Nat) : slice bytes offset length = bytes.extract offset (offset + length) := by
  rw [slice,List.extract,Nat.add_sub_cancel_left]

theorem hashNone (table : PageTable) {index : Nat} (above : table.pageCount ≤ index) : table.pageHash index = none := by
  unfold PageTable.pageHash
  rw [if_pos above]

theorem hashSome (tabled : Tabled record bytes table) {index : Nat} (below : index < table.pageCount) :
    table.pageHash index = some (bytes.extract (index * 32 + 64) (index * 32 + 96)) := by
  have fits := tabled.fits
  have length := tabled.length
  unfold PageTable.pageHash pageTableHeaderBytes
  rw [if_neg (Nat.not_le.mpr below),checkedMulSome.mpr ⟨by omega,rfl⟩]
  simp only [Option.bind_eq_bind,Option.bind_some]
  rw [checkedAddSome.mpr ⟨by omega,rfl⟩]
  simp only [Option.bind_some]
  rw [checkedAddSome.mpr ⟨by omega,rfl⟩]
  simp only [Option.bind_some]
  rw [tabled.retained,if_pos (by omega),sliceExtract]

theorem countExact {length pageSize count : Nat} (ok : Format.pageCount length pageSize = .ok count) :
    0 < pageSize ∧ count = (length + (pageSize - 1)) / pageSize ∧ length + (pageSize - 1) < modulus := by
  obtain ⟨rounding,less,ok⟩ := bindOk.mp ok
  obtain ⟨positive,rfl⟩ := checkedSubSome.mp (okOrOk.mp less)
  obtain ⟨rounded,sum,rfl⟩ := Option.map_eq_some_iff.mp (okOrOk.mp ok)
  obtain ⟨fits,rfl⟩ := checkedAddSome.mp sum
  exact ⟨positive,rfl,fits⟩

theorem pageStarts (tabled : Tabled record bytes table) (index : Nat) :
    index < table.pageCount ↔ index * record.pageSize < record.length := by
  obtain ⟨positive,same,-⟩ := countExact tabled.pageCount
  rw [same]
  exact pageWithin positive index record.length

end Entries

/- An object of two pages. Two tensors fill it, and the second one lies across the boundary of the pages. -/

def pagedObject : Bytes := List.replicate 65532 0 ++ [1,2,3,4,5,6,7,8]

def pagedRecord : ObjectRecord := ⟨pagedDigest,65540,65536,pagedTableDigest,128⟩

def pagedHead : TensorRecord := ⟨.f32Le,1,8,pagedDigest,65532,text "lm_head",[2]⟩

def pagedManifest : Manifest := {tinyManifest with
  objects := [pagedRecord]
  tensors := [⟨.f32Le,0,65532,pagedDigest,0,text "embedding",[16383]⟩,pagedHead]}

def pagedTable : Bytes :=
  pageTableMagic ++ [1,0,0,0] ++ [0,0,1,0] ++ [4,0,1,0,0,0,0,0] ++ [2,0,0,0,0,0,0,0] ++ pagedDigest.bytes ++
    firstDigest.bytes ++ lastDigest.bytes

def tinyTable : Bytes :=
  pageTableMagic ++ [1,0,0,0] ++ [0,0,1,0] ++ [8,0,0,0,0,0,0,0] ++ [1,0,0,0,0,0,0,0] ++ eightDigest.bytes ++ eightDigest.bytes

def pagedPages : PageTable := ⟨pagedTable,65536,65540,2,pagedDigest⟩

theorem pagedLength : pagedObject.length = 65540 := by
  rw [pagedObject,List.length_append,List.length_replicate]
  rfl

theorem pagedTail : pagedObject.drop 65532 = [1,2,3,4,5,6,7,8] := List.drop_left' List.length_replicate

theorem pagedParsed : PageTable.parseVerified knownSha pagedRecord pagedTable = .ok pagedPages := by decide +kernel

end RunnelMoe.Format
