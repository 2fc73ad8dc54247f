import RunnelMoe.CasImport

/-! Garbage collection. The plan is a function of the state before the first change:
every manifest is read and its references are verified, and only leaves that no
manifest names become candidates. The sweep then unlinks the candidates in order. -/
namespace RunnelMoe.Cas
open Readers Results StoreErrors Words Format PageSpecs Scripts Script

structure GcPolicy where
  dryRun : Bool
  removeStaging : Bool
  deriving DecidableEq, Repr

structure GcReport where
  candidateBlobs : Nat
  candidateBytes : Nat
  deletedBlobs : Nat
  deletedBytes : Nat
  dryRun : Bool
  deriving DecidableEq, Repr

inductive DeleteKind where
  | digest (kind : BlobKind)
  | stage
  deriving DecidableEq, Repr

def DeleteKind.place : DeleteKind → Place
  | .digest kind => .digest kind
  | .stage => .staging

structure DeleteCandidate where
  kind : DeleteKind
  name : Name
  inode : Nat
  reclaimBytes : Nat
  allocatedBytes : Nat
  deriving DecidableEq, Repr

def parseDigestName (name : Name) (kind : String) : Result Digest :=
  orFail (.unsafeLayout kind) (digestFromStr (digestStart ++ name.bytes)).toOption

structure Live where
  objects : List Digest
  tables : List Digest

section Plan
variable (sha256 : Bytes → Digest) (s : Seen)

def markManifest (limits : Limits) (live : Live) (entry : LeafEntry) : Result Live := do
  let artifactId ← parseDigestName entry.name "manifest"
  let inode ← openDigest s .manifest artifactId entry.length
  let bytes ← readBoundedAt (s.content inode) limits.manifestBytes "manifest"
  let manifest ← liftFormat (parseWithExpectedId sha256 bytes limits artifactId)
  verifyManifestReferences sha256 s manifest
  .ok ⟨live.objects ++ manifest.objects.map ObjectRecord.digest,live.tables ++ manifest.objects.map ObjectRecord.pageTable⟩

def planUnreferenced (kind : BlobKind) (live : List Digest) (output : List DeleteCandidate) (entry : LeafEntry) :
    Result (List DeleteCandidate) := do
  let digest ← parseDigestName entry.name kind.errorName
  let inode ← openDigest s kind digest entry.length
  verifyDigest sha256 (s.content inode) digest entry.length kind.errorName
  if live.contains digest then .ok output
  else .ok (output ++ [⟨.digest kind,entry.name,entry.inode,0,entry.chargedBytes⟩])

def planStage (output : List DeleteCandidate) (entry : LeafEntry) : Result (List DeleteCandidate) := do
  let _ ← ResumeToken.fromStageName entry.name.bytes
  .ok (output ++ [⟨.stage,entry.name,entry.inode,0,entry.chargedBytes⟩])

def planStages (policy : GcPolicy) (stages : List LeafEntry) (output : List DeleteCandidate) :
    Result (List DeleteCandidate) :=
  if policy.removeStaging then stages.foldlM planStage output else .ok output

def isCandidate (candidates : List DeleteCandidate) (kind : DeleteKind) (entry : LeafEntry) : Bool :=
  candidates.any (fun candidate => candidate.kind = kind ∧ candidate.name = entry.name)

-- The blocks of an inode are freed with the last of its names, if no name of it is kept.
def reclaimed (retained : List Nat) : List DeleteCandidate → List DeleteCandidate
  | [] => []
  | candidate::rest =>
    (if retained.contains candidate.inode ∨ rest.any (fun later => later.inode = candidate.inode) then candidate
      else {candidate with reclaimBytes := candidate.allocatedBytes})::reclaimed retained rest

def assignReclaimBytes (candidates : List DeleteCandidate) (manifests objects tables stages : List LeafEntry) :
    Result (List DeleteCandidate) :=
  let kept (kind : DeleteKind) (entries : List LeafEntry) :=
    (entries.filter (fun entry => !isCandidate candidates kind entry)).map LeafEntry.inode
  let retained := manifests.map LeafEntry.inode ++ kept (.digest .object) objects ++ kept (.digest .pageTable) tables ++
    kept .stage stages
  if candidates.any (fun candidate => !retained.contains candidate.inode && candidates.any (fun other =>
      other.inode = candidate.inode ∧ other.allocatedBytes ≠ candidate.allocatedBytes)) then
    failed (.invariant "hard links reported inconsistent allocated bytes")
  else .ok (reclaimed retained candidates)

def gcPlan (policy : GcPolicy) (limits : Limits) : Result (List DeleteCandidate) := do
  let manifestEntries ← digestEntries s .manifest
  let objectEntries ← digestEntries s .object
  let tableEntries ← digestEntries s .pageTable
  let stages ← stageEntries s
  let live ← manifestEntries.foldlM (markManifest sha256 s limits) ⟨[],[]⟩
  let candidates ← objectEntries.foldlM (planUnreferenced sha256 s .object live.objects) []
  let candidates ← tableEntries.foldlM (planUnreferenced sha256 s .pageTable live.tables) candidates
  let candidates ← planStages policy stages candidates
  assignReclaimBytes candidates manifestEntries objectEntries tableEntries stages

end Plan

def candidateBytes (candidates : List DeleteCandidate) : Result Nat :=
  candidates.foldlM (fun total candidate => orFail (.arithmeticOverflow "summing garbage-collection candidate bytes")
    (checkedAdd total candidate.reclaimBytes)) 0

structure Sweep where
  report : GcReport
  modified : List BlobKind
  stagingModified : Bool
  deriving DecidableEq, Repr

def Sweep.marked (sweep : Sweep) : DeleteKind → Sweep
  | .digest kind => {sweep with modified := kind::sweep.modified}
  | .stage => {sweep with stagingModified := true}

def Sweep.counted (sweep : Sweep) (candidate : DeleteCandidate) : Result Sweep := do
  let blobs ← orFail (.arithmeticOverflow "counting deleted garbage-collection blobs")
    (checkedAdd sweep.report.deletedBlobs 1)
  let bytes ← orFail (.arithmeticOverflow "counting deleted garbage-collection bytes")
    (checkedAdd sweep.report.deletedBytes candidate.reclaimBytes)
  .ok {sweep with report := {sweep.report with deletedBlobs := blobs, deletedBytes := bytes}}

def syncKeepingFirst (first : Option Stop) (sync : Task Unit) : Task (Option Stop) := do
  match ← sync.attempt with
  | .ok _ => pure first
  | .error stop => pure (some (first.getD stop))

def syncGcStaging (sweep : Sweep) (first : Option Stop) : Task (Option Stop) :=
  if sweep.stagingModified then syncKeepingFirst first syncStaging else pure first

def syncGcDirectories (sweep : Sweep) : Task Unit := do
  let kinds := [BlobKind.manifest,.pageTable,.object].filter sweep.modified.contains
  let first ← kinds.foldlM (fun first kind => syncKeepingFirst first (syncDigestDir kind)) none
  match ← syncGcStaging sweep first with
  | none => pure ()
  | some stop => fail stop

def abandonSweep (sweep : Sweep) (stop : Stop) : Task Sweep := do
  syncGcDirectories sweep
  fail stop

def unlinkCandidate (candidate : DeleteCandidate) : Task Unit := do
  check
  unlinkLeaf candidate.kind.place candidate.name

def sweepStep (sweep : Sweep) (candidate : DeleteCandidate) : Task Sweep := do
  match ← (unlinkCandidate candidate).attempt with
  | .error stop => abandonSweep sweep stop
  | .ok _ =>
    match (sweep.marked candidate.kind).counted candidate with
    | .error stop => abandonSweep (sweep.marked candidate.kind) stop
    | .ok counted => pure counted

section Gc
variable (sha256 : Bytes → Digest) (unit : Nat)

def gcPrepare (policy : GcPolicy) (limits : Limits) : Task (List DeleteCandidate × GcReport) := do
  check
  let limits ← lift (liftFormat limits.validate)
  check
  let _ ← usage unit
  let candidates ← peek (fun s => gcPlan sha256 s policy limits)
  let bytes ← lift (candidateBytes candidates)
  check
  pure (candidates,⟨candidates.length,bytes,0,0,policy.dryRun⟩)

def gcSweep (candidates : List DeleteCandidate) (report : GcReport) : Task GcReport := do
  let sweep ← candidates.foldlM sweepStep ⟨report,[],false⟩
  syncGcDirectories sweep
  pure sweep.report

def gcFinish (policy : GcPolicy) (plan : List DeleteCandidate × GcReport) : Task GcReport :=
  if policy.dryRun then pure plan.2 else gcSweep plan.1 plan.2

def gc (policy : GcPolicy) (limits : Limits) : Task GcReport := do
  let plan ← gcPrepare sha256 unit policy limits
  gcFinish policy plan

end Gc

end RunnelMoe.Cas
