import RunnelMoe.CasReads

/-! Opening an imported artifact and reading its pages. An open artifact keeps the
manifest, the page tables and the inodes of its objects; a page is handed out only when
its bytes have the hash that the table names. -/
namespace RunnelMoe.Cas
open Readers Results StoreErrors Words Format PageSpecs Scripts

structure RetainedObject where
  descriptor : ObjectRecord
  inode : Nat
  pageTable : PageTable
  deriving DecidableEq, Repr

structure StoredArtifact where
  manifest : Manifest
  objects : List RetainedObject
  deriving DecidableEq, Repr

structure ObjectPage where
  key : PageKey
  offset : Nat
  length : Nat
  fingerprint : Digest
  object : RetainedObject
  deriving DecidableEq, Repr

def tableHash (table : PageTable) (index : Nat) : Option Digest := (table.pageHash index).bind digestFromBytes

def ObjectPage.forObject (object : RetainedObject) (index : Nat) : Result ObjectPage := do
  let pageCount := object.pageTable.pageCount
  if index ≥ pageCount then failed (.pageOutOfRange index pageCount)
  else
    let pageSize := object.descriptor.pageSize
    let offset ← orFail (.arithmeticOverflow "computing a page offset") (checkedMul pageSize index)
    let remaining ← orFail (.invariant "validated page offset exceeds object length")
      (checkedSub object.descriptor.length offset)
    let hash ← orFail (.invariant "verified page table omitted an in-range page hash") (tableHash object.pageTable index)
    .ok ⟨⟨object.descriptor.digest,pageSize,index⟩,offset,min remaining pageSize,hash,object⟩

def validateSpecification (page : ObjectPage) : Result Unit := do
  let object := page.object
  let pageSize := object.descriptor.pageSize
  if page.key.object ≠ object.descriptor.digest ∨ page.key.pageSize ≠ pageSize ∨
      object.pageTable.objectDigest ≠ object.descriptor.digest ∨ object.pageTable.pageSize ≠ pageSize ∨
      object.pageTable.objectLength ≠ object.descriptor.length then failed (.integrity "page specification")
  else
    let expectedOffset ← orFail (.arithmeticOverflow "validating a page offset") (checkedMul pageSize page.key.index)
    let remaining ← orFail (.integrity "page specification") (checkedSub object.descriptor.length expectedOffset)
    let retainedHash ← orFail (.pageOutOfRange page.key.index object.pageTable.pageCount)
      (tableHash object.pageTable page.key.index)
    if page.offset ≠ expectedOffset ∨ page.length ≠ min remaining pageSize ∨ page.fingerprint ≠ retainedHash then
      failed (.integrity "page specification")
    else .ok ()

section Reading
variable (sha256 : Bytes → Digest) (s : Seen)

def readPage (page : ObjectPage) : Result Bytes := do
  validateSpecification page
  let content := s.content page.object.inode
  let expectedLength := page.object.descriptor.length
  if content.length ≠ expectedLength then failed (.lengthMismatch "object" expectedLength content.length)
  else
    let bytes ← readExactAt content page.offset page.length "page"
    if sha256 bytes ≠ page.fingerprint then failed (.integrity "page") else .ok bytes

def openRecord (objects : List RetainedObject) (descriptor : ObjectRecord) : Result (List RetainedObject) := do
  let tableInode ← openRegularLeaf s (.digest .pageTable) (digestName descriptor.pageTable) "page table"
    descriptor.pageTableLength
  let bytes ← readExactAt (s.content tableInode) 0 descriptor.pageTableLength "page table"
  let pageTable ← liftFormat (PageTable.parseVerified sha256 descriptor bytes)
  let inode ← openRegularLeaf s (.digest .object) (digestName descriptor.digest) "object" descriptor.length
  if objects.any (fun object => object.descriptor.digest = descriptor.digest) then
    failed (.invariant "validated manifest contained a duplicate object")
  else .ok (objects ++ [⟨descriptor,inode,pageTable⟩])

def manifestLengthForOpen (artifactId : Digest) : Result Nat := do
  let entries ← digestEntries s .manifest
  orFail (.missing "manifest") ((entries.find? (fun entry => entry.name = digestName artifactId)).map LeafEntry.length)

def openArtifact (artifactId : Digest) (limits : Limits) : Result StoredArtifact := do
  let length ← manifestLengthForOpen s artifactId
  let inode ← openDigest s .manifest artifactId length
  let limits ← liftFormat limits.validate
  let manifestBytes ← readBoundedAt (s.content inode) limits.manifestBytes "manifest"
  let manifest ← liftFormat (parseWithExpectedId sha256 manifestBytes limits artifactId)
  let objects ← manifest.objects.foldlM (openRecord sha256 s) []
  .ok ⟨manifest,objects⟩

def readObject (object : RetainedObject) : Result (List Bytes) :=
  collect (fun index => do
    let page ← ObjectPage.forObject object index
    readPage sha256 s page) (List.range object.pageTable.pageCount)

def readArtifact (artifactId : Digest) (limits : Limits) : Result (List (List Bytes)) := do
  let artifact ← openArtifact sha256 s artifactId limits
  collect (readObject sha256 s) artifact.objects

end Reading

end RunnelMoe.Cas
