import RunnelMoe.CasFiles
import RunnelMoe.CasReads

/-! Import of an artifact: page tables first, then objects, then the manifest. Every
blob is staged, verified, synchronized and published without replacing a leaf. The
calls stand in the order of the source; the transaction lock makes them one after
another, and a check may end an operation at any of the places where the source
looks at its control token or where a read may fail. -/
namespace RunnelMoe.Cas
open Readers Results StoreErrors Words Format PageSpecs Scripts Script

def lift {A : Type} (result : Result A) : Task A := .done result

def check : Task Unit := perform Call.check
def capacity : Task Nat := perform Call.capacity
def randomBytes : Task Bytes := perform Call.random
def sourceManifestBytes (supplied : Bytes) (maximum : Nat) : Task Bytes := perform (Call.manifestBytes supplied maximum)
def openSource (kind : BlobKind) (digest : Digest) : Task Unit := perform (Call.openSource kind digest)
def sourceLength (kind : BlobKind) (digest : Digest) : Task Nat := perform (Call.sourceLength kind digest)
def readSource (kind : BlobKind) (digest : Digest) (offset length : Nat) : Task Bytes :=
  perform (Call.readSource kind digest offset length)
def createNewLeaf (name : Name) : Task Nat := perform (Call.create name)
def truncate (inode length : Nat) : Task Unit := perform (Call.truncate inode length)
def writeAllAt (inode offset : Nat) (bytes : Bytes) : Task Unit := perform (Call.write inode offset bytes)
def unlinkLeaf (place : Place) (name : Name) : Task Unit := perform (Call.unlink place name)
def renameNoreplace (name : Name) (kind : BlobKind) (target : Name) : Task RenameNoReplace :=
  perform (Call.rename name kind target)
def linkNoreplace (name : Name) (kind : BlobKind) (target : Name) : Task Unit := perform (Call.link name kind target)
def syncStageFile (inode : Nat) : Task Unit := perform (Call.syncFile inode)
def syncPlace (place : Place) : Task Unit := perform (Call.syncDir place)

def peek {A : Type} (read : Seen → Result A) : Task A := do
  check
  reading (fun s => read s.seen)

inductive Publication where
  | published
  | reused
  deriving DecidableEq, Repr

structure ImportReceipt where
  artifactId : Digest
  publishedBlobs : Nat
  reusedBlobs : Nat
  publishedBytes : Nat
  deriving DecidableEq, Repr

def syncDigestDir (kind : BlobKind) : Task Unit := syncPlace (.digest kind)

def syncStaging : Task Unit := syncPlace .staging

def unlinkStage (token : ResumeToken) : Task Unit := unlinkLeaf .staging ⟨token.stageName⟩

def confirmed (kind : String) (sync : Task Unit) : Task Unit := do
  match ← sync.attempt with
  | .ok _ => pure ()
  | .error .panic => fail .panic
  | .error (.failed _) => fail (.failed (.publishedButDurabilityUnconfirmed kind))

def confirmDigestDurability (kind : BlobKind) : Task Unit := confirmed kind.errorName (syncDigestDir kind)

def confirmStagingDurability (kind : BlobKind) : Task Unit := confirmed kind.errorName syncStaging

def confirmBlobDurability (kind : BlobKind) : Task Unit := do
  confirmDigestDurability kind
  confirmStagingDurability kind

def confirmCommittedDurability : Task Unit := do
  confirmed "manifest" (syncDigestDir .pageTable)
  confirmed "manifest" (syncDigestDir .object)
  confirmed "manifest" syncStaging
  confirmed "manifest" (syncDigestDir .manifest)

def finishLinkPublication (token : ResumeToken) (kind : BlobKind) : Task Unit := do
  confirmDigestDurability kind
  let _ ← (unlinkStage token).attempt
  confirmStagingDurability kind

def finishReusedStage (token : ResumeToken) (kind : BlobKind) : Task Unit := do
  confirmDigestDurability kind
  match ← (unlinkStage token).attempt with
  | .ok _ => confirmStagingDurability kind
  | .error stop => do
    let _ ← syncStaging.attempt
    fail stop

-- A failed cleanup still synchronizes the names it has removed; a panic does not come back.
def abandonCleanup (stagingModified : Bool) (stop : Stop) : Task Bool :=
  if stagingModified ∧ stop ≠ .panic then do
    let _ ← syncStaging.attempt
    fail stop
  else fail stop

def cleanupStage (wanted : Blob → Bool) (stagingModified : Bool) (entry : LeafEntry) : Task Bool :=
  match ResumeToken.fromStageName entry.name.bytes with
  | .error stop => abandonCleanup stagingModified stop
  | .ok token =>
    if wanted (tokenBlob token) then do
      match ← (unlinkStage token).attempt with
      | .ok _ => pure true
      | .error stop => abandonCleanup stagingModified stop
    else pure stagingModified

def cleanupStages (wanted : Blob → Bool) : Task Unit := do
  let entries ← peek stageEntries
  let _ ← entries.foldlM (cleanupStage wanted) false
  pure ()

def cleanupMatchingStages (blob : Blob) : Task Unit := cleanupStages (fun found => found = blob)

def cleanupCommittedStages (manifest : Manifest) : Task Unit :=
  cleanupStages (fun found => (artifactBlobs manifest manifest.canonicalBytes.length).contains found)

def stageCreateAttempts : Nat := 16

def lowerHex (bytes : Bytes) : Bytes := bytes.flatMap hexPair

def createStage (blob : Blob) : Nat → Task (ResumeToken × Nat)
  | 0 => fail (.failed (.alreadyExists "staging file"))
  | attempts + 1 => do
    let random ← randomBytes
    let token ← lift (ResumeToken.new blob.kind blob.digest blob.length (lowerHex random))
    match ← (createNewLeaf ⟨token.stageName⟩).attempt with
    | .ok inode =>
      match ← syncStaging.attempt with
      | .ok _ => pure (token,inode)
      | .error stop => do
        let _ ← (unlinkStage token).attempt
        let _ ← syncStaging.attempt
        fail stop
    | .error (.failed (.alreadyExists _)) => createStage blob attempts
    | .error stop => fail stop

def openOrCreateStage (blob : Blob) : Option ResumeToken → Task (ResumeToken × Nat)
  | some token => do
    lift (token.validateFor blob.kind blob.digest blob.length)
    let inode ← peek (fun s => openStage s token)
    pure (token,inode)
  | none => createStage blob stageCreateAttempts

def copyOps (blob : Blob) (stage : Nat) : CopyOps Task where
  check := check
  lift := lift
  sourceLength := sourceLength blob.kind blob.digest
  stageLength := peek (fun s => .ok (s.content stage).length)
  readStage position length := peek (fun s => readExactAt (s.content stage) position length "staging prefix")
  readSource := readSource blob.kind blob.digest
  writeStage := writeAllAt stage
  truncateStage := truncate stage

def CasConfig.buffer (config : CasConfig) : CopyBuffer :=
  ⟨config.copyBufferBytes,Nat.lt_of_lt_of_le (by decide) config.bufferRange.1⟩

section Copy
variable (sha256 : Bytes → Digest) (config : CasConfig)

def copyAndRehash (blob : Blob) (stage : Nat) : Option Nat → Bool → Task Unit :=
  (copyOps blob stage).copyAndRehash (wholeHasher sha256) config.buffer blob.kind blob.digest blob.length

section Publish
variable (blob : Blob) (verify : Bytes → Result Unit)

def verifyBlob (inode : Nat) : Task Unit := do
  peek (fun s => verifyDigest sha256 (s.content inode) blob.digest blob.length blob.kind.errorName)
  peek (fun s => verify (s.content inode))

def openFinal : Task Nat := peek (fun s => openDigest s blob.kind blob.digest blob.length)

-- An answer other than that the leaf exists leaves open whether the call took effect.
def ambiguousError : Stop → Option Stop
  | .failed (.alreadyExists _) => none
  | stop => some stop

def openUnpublished (ambiguous : Option Stop) : Task Nat := do
  match ← (openFinal blob).attempt with
  | .ok inode => pure inode
  | .error (.failed (.missing kind)) => fail (ambiguous.getD (.failed (.missing kind)))
  | .error stop => fail stop

def resolveAmbiguous (token : ResumeToken) (final : Nat) : Task Publication := do
  match ← (peek (fun s => openStage s token)).attempt with
  | .ok stage => do
    check
    if final = stage then do
      finishLinkPublication token blob.kind
      pure .published
    else do
      finishReusedStage token blob.kind
      pure .reused
  | .error (.failed (.missing _)) => do
    confirmBlobDurability blob.kind
    pure .published
  | .error stop => fail stop

def resolvePublication (token : ResumeToken) (ambiguous : Option Stop) : Task Publication := do
  let final ← openUnpublished blob ambiguous
  verifyBlob sha256 blob verify final
  if ambiguous.isSome then resolveAmbiguous blob token final
  else do
    finishReusedStage token blob.kind
    pure .reused

def publishStage (token : ResumeToken) : Task Publication := do
  match ← (renameNoreplace ⟨token.stageName⟩ blob.kind (digestName blob.digest)).attempt with
  | .ok .published => do
    confirmBlobDurability blob.kind
    pure .published
  | .ok .unsupported => do
    check
    match ← (linkNoreplace ⟨token.stageName⟩ blob.kind (digestName blob.digest)).attempt with
    | .ok _ => do
      finishLinkPublication token blob.kind
      pure .published
    | .error stop => resolvePublication sha256 blob verify token (ambiguousError stop)
  | .error stop => resolvePublication sha256 blob verify token (ambiguousError stop)

def reuseBlob (final : Nat) : Task Publication := do
  verifyBlob sha256 blob verify final
  confirmDigestDurability blob.kind
  cleanupMatchingStages blob
  confirmStagingDurability blob.kind
  pure .reused

def stageBlob (objectPageSize : Option Nat) (resume : Option ResumeToken) : Task Publication := do
  let staged ← openOrCreateStage blob resume
  copyAndRehash sha256 config blob staged.2 objectPageSize resume.isSome
  verifyBlob sha256 blob verify staged.2
  syncStageFile staged.2
  check
  publishStage sha256 blob verify staged.1

def ensureBlob (objectPageSize : Option Nat) (resume : Option ResumeToken) : Task Publication := do
  match ← (openFinal blob).attempt with
  | .ok final => reuseBlob sha256 blob verify final
  | .error (.failed (.missing _)) => stageBlob sha256 config blob verify objectPageSize resume
  | .error stop => fail stop

end Publish

structure Counts where
  publishedBlobs : Nat
  reusedBlobs : Nat
  publishedBytes : Nat
  deriving DecidableEq, Repr

def accountPublication (publication : Publication) (length : Nat) (counts : Counts) : Result Counts :=
  match publication with
  | .published => do
    let blobs ← orFail (.arithmeticOverflow "counting published blobs") (checkedAdd counts.publishedBlobs 1)
    let bytes ← orFail (.arithmeticOverflow "counting published bytes") (checkedAdd counts.publishedBytes length)
    .ok {counts with publishedBlobs := blobs, publishedBytes := bytes}
  | .reused => do
    let blobs ← orFail (.arithmeticOverflow "counting reused blobs") (checkedAdd counts.reusedBlobs 1)
    .ok {counts with reusedBlobs := blobs}

def verifyTable (record : ObjectRecord) (content : Bytes) : Result Unit := do
  let bytes ← readExactAt content 0 record.pageTableLength "page table"
  let _ ← liftFormat (PageTable.parseVerified sha256 record bytes)
  .ok ()

def verifyManifest (manifestLength : Nat) (limits : Limits) (expectedId : Digest) (content : Bytes) : Result Unit := do
  let bytes ← readExactAt content 0 manifestLength "manifest"
  let _ ← liftFormat (parseWithExpectedId sha256 bytes limits expectedId)
  .ok ()

def importTable (resumes : List ResumeToken) (progress : Counts × List (Digest × PageTable)) (record : ObjectRecord) :
    Task (Counts × List (Digest × PageTable)) := do
  check
  openSource .pageTable record.pageTable
  let publication ← ensureBlob sha256 config (tableBlob record) (verifyTable sha256 record) none
    (resumeFor resumes .pageTable record.pageTable)
  let counts ← lift (accountPublication publication record.pageTableLength progress.1)
  let table ← peek (fun s => readTable sha256 s record)
  pure (counts,(record.digest,table)::progress.2)

def importObject (resumes : List ResumeToken) (tables : List (Digest × PageTable)) (counts : Counts)
    (record : ObjectRecord) : Task Counts := do
  check
  match tables.find? (fun row => row.1 = record.digest) with
  | none => fail (.failed (.invariant "verified page table disappeared from import plan"))
  | some row => do
    openSource .object record.digest
    let publication ← ensureBlob sha256 config (objectBlob record)
      (fun content => verifyObject sha256 content record row.2) (some record.pageSize)
      (resumeFor resumes .object record.digest)
    lift (accountPublication publication record.length counts)

def usage (unit : Nat) : Task DiskUsage := do
  let used ← peek usedBytes
  let available ← capacity
  let usage : DiskUsage := ⟨used.1,used.2,available,unit⟩
  let _ ← lift usage.checkedTotalBytes
  pure usage

variable (unit : Nat)

def preflightImport (blobs : List Blob) (resumes : List ResumeToken) : Task Unit := do
  let usage ← usage unit
  let additional ← peek (fun s => plannedBytes s usage blobs resumes)
  lift (config.diskBudget.preflight usage additional)

def importPlanned (manifest : Manifest) (manifestLength : Nat) (limits : Limits) (resumes : List ResumeToken) :
    Task ImportReceipt := do
  let progress ← manifest.objects.foldlM (importTable sha256 config resumes) (⟨0,0,0⟩,[])
  let counts ← manifest.objects.foldlM (importObject sha256 config resumes progress.2) progress.1
  check
  let publication ← ensureBlob sha256 config (manifestBlob manifest manifestLength)
    (verifyManifest sha256 manifestLength limits manifest.artifactId) none
    (resumeFor resumes .manifest manifest.artifactId)
  let counts ← lift (accountPublication publication manifestLength counts)
  pure ⟨manifest.artifactId,counts.publishedBlobs,counts.reusedBlobs,counts.publishedBytes⟩

def importFresh (manifest : Manifest) (manifestLength : Nat) (limits : Limits) (tokens : List ResumeToken) :
    Task ImportReceipt := do
  let blobs := artifactBlobs manifest manifestLength
  let resumes ← peek (fun s => validateResumes s blobs tokens)
  preflightImport config unit blobs resumes
  importPlanned sha256 config manifest manifestLength limits resumes

def importCommitted (manifest : Manifest) (inode : Nat) : Task ImportReceipt := do
  let reused ← peek (fun s => verifyCommitted sha256 s manifest inode)
  cleanupCommittedStages manifest
  confirmCommittedDurability
  pure ⟨manifest.artifactId,0,reused,0⟩

-- The manifest of a source does not change while it is imported: its bytes are supplied once.
def importWithResumes (supplied : Bytes) (expectedId : Digest) (limits : Limits) (tokens : List ResumeToken) :
    Task ImportReceipt := do
  check
  let limits ← lift (liftFormat limits.validate)
  let manifestBytes ← sourceManifestBytes supplied limits.manifestBytes
  let manifest ← lift (liftFormat (parseWithExpectedId sha256 manifestBytes limits expectedId))
  check
  let _ ← usage unit
  match ← (openFinal (manifestBlob manifest manifestBytes.length)).attempt with
  | .ok inode => importCommitted sha256 manifest inode
  | .error _ => importFresh sha256 config unit manifest manifestBytes.length limits tokens

end Copy

end RunnelMoe.Cas
