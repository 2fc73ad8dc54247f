import RunnelMoe.KeyedSum
import RunnelMoe.PageTables

/-! Artifacts that are verified as a whole and held in memory. The bytes of an object are
cut into pages and every page is compared with the table before the object is kept. -/
namespace RunnelMoe.Format
open Readers Results StoreErrors Words PageSpecs Slices KeyedSum
open Std (ExtTreeMap)

instance digestTransOrd : Std.TransOrd Digest := inferInstance

structure ArtifactBytes where
  manifest : Bytes
  objects : ExtTreeMap Digest Bytes
  pageTables : ExtTreeMap Digest Bytes

structure VerifiedObject where
  bytes : Bytes
  pageTable : PageTable
  deriving DecidableEq, Repr

structure Artifact where
  manifest : Manifest
  objects : ExtTreeMap Digest VerifiedObject
  retainedPayloadBytes : Nat

def addEagerBytes (total : Nat) (record : ObjectRecord) : Except FormatError Nat :=
  okOr (.arithmeticOverflow "eager artifact memory accounting")
    ((checkedAdd total record.length).bind (checkedAdd · record.pageTableLength))

def requiredEagerBytes (manifest : Manifest) : Except FormatError Nat :=
  manifest.objects.foldlM addEagerBytes manifest.canonicalBytes.length

def ensureEagerBudget (manifest : Manifest) (limits : Limits) : Except FormatError Unit := do
  let required ← requiredEagerBytes manifest
  if required > limits.eagerMemoryBytes then .error (.memoryBudgetExceeded required limits.eagerMemoryBytes)
  else .ok ()

section Eager
variable (sha256 : Bytes → Digest)

def PageTable.verifyChunk (table : PageTable) (record : ObjectRecord) (_ : Unit) (row : Bytes × Nat) :
    Except FormatError Unit :=
  if table.pageHash row.2 ≠ some (sha256 row.1).bytes then .error (.pageHashMismatch record.digest row.2) else .ok ()

def PageTable.verifyObject (table : PageTable) (record : ObjectRecord) (bytes : Bytes) : Except FormatError Unit :=
  let actualLength := bytes.length
  if actualLength ≠ record.length then
    .error (.blobLengthMismatch "object" record.digest record.length actualLength)
  else if sha256 bytes ≠ record.digest then .error (.blobDigestMismatch "object" record.digest (sha256 bytes))
  else if table.objectDigest ≠ record.digest ∨ table.objectLength ≠ record.length ∨ table.pageSize ≠ record.pageSize then
    pageTableError record "verified table is for a different object record"
  else (chunks table.pageSize bytes).zipIdx.foldlM (table.verifyChunk sha256 record) ()

structure Loading where
  objectBytes : ExtTreeMap Digest Bytes
  pageTableBytes : ExtTreeMap Digest Bytes
  objects : ExtTreeMap Digest VerifiedObject

def Loading.verifyRecord (loading : Loading) (record : ObjectRecord) : Except FormatError Loading := do
  let tableBytes ← okOr (.missingBlob "page table" record.pageTable) loading.pageTableBytes[record.pageTable]?
  let pageTable ← PageTable.parseVerified sha256 record tableBytes
  let bytes ← okOr (.missingBlob "object" record.digest) loading.objectBytes[record.digest]?
  pageTable.verifyObject sha256 record bytes
  .ok ⟨loading.objectBytes.erase record.digest,loading.pageTableBytes.erase record.pageTable,
    loading.objects.insert record.digest ⟨bytes,pageTable⟩⟩

def verifyLoaded (manifest : Manifest) (objectBytes pageTableBytes : ExtTreeMap Digest Bytes) (limits : Limits) :
    Except FormatError Artifact := do
  ensureEagerBudget manifest limits
  let loaded ← manifest.objects.foldlM (Loading.verifyRecord sha256) ⟨objectBytes,pageTableBytes,∅⟩
  let retainedPayloadBytes ← requiredEagerBytes manifest
  .ok ⟨manifest,loaded.objects,retainedPayloadBytes⟩

def fromBytesInternal (parts : ArtifactBytes) (limits : Limits) (expected : Option Digest) : Except FormatError Artifact := do
  let limits ← limits.validate
  let manifest ← match expected with
    | some expected => parseWithExpectedId sha256 parts.manifest limits expected
    | none => parseWithLimits sha256 parts.manifest limits
  ensureEagerBudget manifest limits
  verifyLoaded sha256 manifest parts.objects parts.pageTables limits

def fromBytes (parts : ArtifactBytes) (limits : Limits) : Except FormatError Artifact :=
  fromBytesInternal sha256 parts limits none

end Eager

def Artifact.tensorBytes (artifact : Artifact) (id : Nat) : Option Bytes := do
  let descriptor ← artifact.manifest.tensors[id]?
  if descriptor.id ≠ id then none
  else
    let object ← artifact.objects[descriptor.object]?
    let last ← checkedAdd descriptor.offset descriptor.length
    if last ≤ object.bytes.length then some (object.bytes.extract descriptor.offset last) else none

structure Genuine (sha256 : Bytes → Digest) (record : ObjectRecord) (table : PageTable) (bytes : Bytes) : Prop where
  length : bytes.length = record.length
  digest : sha256 bytes = record.digest
  pages : ∀ i < table.pageCount, table.pageHash i =
    some (sha256 (bytes.extract (i * record.pageSize) (min ((i + 1) * record.pageSize) record.length))).bytes

section Kept
variable {sha256 : Bytes → Digest} {record : ObjectRecord} {tableBytes bytes : Bytes} {table : PageTable}

theorem chunksGenuine (tabled : Tabled record tableBytes table) (length : bytes.length = record.length) :
    (chunks record.pageSize bytes).zipIdx.foldlM (table.verifyChunk sha256 record) () = .ok () ↔
      ∀ i < table.pageCount, table.pageHash i =
        some (sha256 (bytes.extract (i * record.pageSize) (min ((i + 1) * record.pageSize) record.length))).bytes := by
  obtain ⟨positive,-,-⟩ := countExact tabled.pageCount
  have check (row : Bytes × Nat) : table.verifyChunk sha256 record () row = .ok () ↔
      table.pageHash row.2 = some (sha256 row.1).bytes := by
    rw [PageTable.verifyChunk,guardOk,not_not,and_iff_left rfl]
  rw [checksAll (fun row _ => check row)]
  constructor
  · intro all i below
    have inside := (pageStarts tabled i).mp below
    refine all (_,i) (List.mk_mem_zipIdx_iff_getElem?.mpr ?_)
    rw [chunkAt positive,length,if_pos inside]
  · intro all row member
    have found := List.mk_mem_zipIdx_iff_getElem?.mp member
    rw [chunkAt positive,length] at found
    split at found
    · rename_i inside
      rw [← Option.some.inj found]
      exact all row.2 ((pageStarts tabled row.2).mpr inside)
    · contradiction

theorem eagerGenuine (tabled : Tabled record tableBytes table) :
    table.verifyObject sha256 record bytes = .ok () ↔ Genuine sha256 record table bytes := by
  have matching : ¬(table.objectDigest ≠ record.digest ∨ table.objectLength ≠ record.length ∨
      table.pageSize ≠ record.pageSize) := by
    simp only [tabled.objectDigest,tabled.objectLength,tabled.pageSize,ne_eq,not_true,or_self,not_false_eq_true]
  unfold PageTable.verifyObject
  simp only [if_neg matching,guardOk,not_not]
  rw [tabled.pageSize]
  constructor
  · rintro ⟨length,digest,chunks⟩
    exact ⟨length,digest,(chunksGenuine tabled length).mp chunks⟩
  · intro genuine
    exact ⟨genuine.length,genuine.digest,(chunksGenuine tabled genuine.length).mpr genuine.pages⟩

structure Kept (sha256 : Bytes → Digest) (parts : ArtifactBytes) (record : ObjectRecord) (object : VerifiedObject) : Prop where
  bytes : parts.objects[record.digest]? = some object.bytes
  table : ∃ tableBytes, parts.pageTables[record.pageTable]? = some tableBytes ∧
    PageTable.parseVerified sha256 record tableBytes = .ok object.pageTable
  genuine : Genuine sha256 record object.pageTable object.bytes

def Loading.Offers (loading : Loading) (parts : ArtifactBytes) (record : ObjectRecord) : Prop :=
  loading.objectBytes[record.digest]? = parts.objects[record.digest]? ∧
    loading.pageTableBytes[record.pageTable]? = parts.pageTables[record.pageTable]?

theorem recordKept {loading next : Loading} {parts : ArtifactBytes} (ok : loading.verifyRecord sha256 record = .ok next)
    (offers : loading.Offers parts record) : ∃ object, Kept sha256 parts record object ∧
      next = ⟨loading.objectBytes.erase record.digest,loading.pageTableBytes.erase record.pageTable,
        loading.objects.insert record.digest object⟩ := by
  obtain ⟨tableBytes,table,ok⟩ := bindOk.mp ok
  obtain ⟨pageTable,parsed,ok⟩ := bindOk.mp ok
  obtain ⟨bytes,found,ok⟩ := bindOk.mp ok
  obtain ⟨_,verified,ok⟩ := bindOk.mp ok
  cases ok
  have taken := offers.1.symm.trans (okOrOk.mp found)
  have tabled := offers.2.symm.trans (okOrOk.mp table)
  exact ⟨⟨bytes,pageTable⟩,⟨taken,⟨tableBytes,tabled,parsed⟩,(eagerGenuine (parsedTable parsed)).mp verified⟩,rfl⟩

theorem recordsKept {parts : ArtifactBytes} {records : List ObjectRecord}
    (distinct : (records.map ObjectRecord.digest).Nodup) (tables : (records.map ObjectRecord.pageTable).Nodup)
    {loading done : Loading} (offers : ∀ record ∈ records, loading.Offers parts record)
    (ok : records.foldlM (Loading.verifyRecord sha256) loading = .ok done) :
    (∀ record ∈ records, ∃ object, done.objects[record.digest]? = some object ∧ Kept sha256 parts record object) ∧
      ∀ digest ∉ records.map ObjectRecord.digest, done.objects[digest]? = loading.objects[digest]? := by
  induction records generalizing loading with
  | nil =>
    cases foldNil.mp ok
    exact ⟨nofun,fun _ _ => rfl⟩
  | cons first rest ih =>
    obtain ⟨fresh,distinct⟩ := List.nodup_cons.mp distinct
    obtain ⟨unshared,tables⟩ := List.nodup_cons.mp tables
    obtain ⟨next,one,later⟩ := foldCons.mp ok
    obtain ⟨object,kept,rfl⟩ := recordKept one (offers first List.mem_cons_self)
    have offers : ∀ record ∈ rest, Loading.Offers ⟨loading.objectBytes.erase first.digest,
        loading.pageTableBytes.erase first.pageTable,loading.objects.insert first.digest object⟩ parts record := by
      intro record member
      obtain ⟨bytes,table⟩ := offers record (List.mem_cons_of_mem _ member)
      have other : record.digest ≠ first.digest := fun same => fresh (List.mem_map.mpr ⟨record,member,same⟩)
      have another : record.pageTable ≠ first.pageTable := fun same => unshared (List.mem_map.mpr ⟨record,member,same⟩)
      refine ⟨Eq.trans ?_ bytes,Eq.trans ?_ table⟩
      · rw [getErase,if_neg other]
      · rw [getErase,if_neg another]
    obtain ⟨each,frame⟩ := ih distinct tables offers later
    constructor
    · intro record member
      rcases List.mem_cons.mp member with rfl | inside
      · refine ⟨object,?_,kept⟩
        rw [frame _ fresh,getInsertSame]
      · exact each record inside
    · intro digest absent
      obtain ⟨other,outside⟩ := not_or.mp (mt List.mem_cons.mpr absent)
      rw [frame digest outside,getInsertOther _ _ other]

theorem artifactKept {parts : ArtifactBytes} {limits : Limits} {artifact : Artifact}
    (ok : fromBytes sha256 parts limits = .ok artifact) :
    (∃ bound, limits.validate = .ok bound ∧ parseWithLimits sha256 parts.manifest bound = .ok artifact.manifest) ∧
      ∀ record ∈ artifact.manifest.objects, ∃ object, artifact.objects[record.digest]? = some object ∧
        Kept sha256 parts record object := by
  obtain ⟨bound,bounded,ok⟩ := bindOk.mp ok
  obtain ⟨manifest,parsed,ok⟩ := bindOk.mp ok
  obtain ⟨_,-,ok⟩ := bindOk.mp ok
  obtain ⟨_,-,ok⟩ := bindOk.mp ok
  obtain ⟨loaded,folded,ok⟩ := bindOk.mp ok
  obtain ⟨_,-,ok⟩ := bindOk.mp ok
  cases ok
  have valid := parsedValid parsed
  exact ⟨⟨bound,bounded,parsed⟩,(recordsKept valid.digests valid.tables (fun _ _ => ⟨rfl,rfl⟩) folded).1⟩

end Kept

theorem pagedRead : ∃ manifest,
    parseWithLimits knownSha (canonicalTree (manifestTree pagedManifest)) Limits.default = .ok manifest ∧
      manifest.objects = [pagedRecord] ∧ manifest.tensors = pagedManifest.tensors ∧
        manifest.artifactId = pagedManifestDigest ∧ ensureEagerBudget manifest Limits.default = .ok () ∧
          (requiredEagerBytes manifest).toOption.isSome :=
  okAny (by decide +kernel)

theorem pagedGenuine : Genuine knownSha pagedRecord pagedPages pagedObject := by
  refine ⟨pagedLength,(knownLength pagedLength).trans (by decide),fun i below => ?_⟩
  have ends : min ((i + 1) * pagedRecord.pageSize) pagedRecord.length ≤ pagedObject.length :=
    (Nat.min_le_right ..).trans (Nat.le_of_eq pagedLength.symm)
  rw [knownLength (extractLength ends)]
  have pages : i = 0 ∨ i = 1 := Nat.le_one_iff_eq_zero_or_eq_one.mp (Nat.le_of_lt_succ below)
  rcases pages with rfl | rfl <;> decide +kernel

end RunnelMoe.Format
