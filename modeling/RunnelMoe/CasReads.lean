import Mathlib.Algebra.BigOperators.Group.Finset.Basic
import RunnelMoe.DiskModel
import RunnelMoe.PageTables

/-! What a store is asked without changing it. All reads between two changes see one
state, so a run of them is one function of the state; the content of a file stands for
the open file. Device numbers are equal inside a store and are left out. -/
namespace RunnelMoe.Cas
open Std (ExtTreeMap)
open Readers Results StoreErrors Words Format PageSpecs Scripts

def liftFormat {A : Type} : Except FormatError A → Result A
  | .ok a => .ok a
  | .error error => failed (.format error)

structure DiskBudget where
  maxBytes : Nat
  reserveBytes : Nat
  positive : 0 < maxBytes
  fits : maxBytes < modulus

structure DiskUsage where
  finalBytes : Nat
  stagingBytes : Nat
  availableBytes : Nat
  allocationUnit : Nat
  deriving DecidableEq, Repr

namespace DiskUsage

def checkedTotalBytes (usage : DiskUsage) : Result Nat :=
  orFail (.arithmeticOverflow "summing CAS disk usage") (checkedAdd usage.finalBytes usage.stagingBytes)

def roundUp (usage : DiskUsage) (bytes : Nat) : Result Nat :=
  let unit := max usage.allocationUnit 1
  let remainder := bytes % unit
  if remainder = 0 then .ok bytes
  else orFail (.arithmeticOverflow "rounding planned disk allocation") (checkedAdd bytes (unit - remainder))

end DiskUsage

def DiskBudget.preflight (budget : DiskBudget) (usage : DiskUsage) (additionalBytes : Nat) : Result Unit := do
  let total ← usage.checkedTotalBytes
  let required ← orFail (.arithmeticOverflow "adding CAS disk usage") (checkedAdd total additionalBytes)
  if required > budget.maxBytes then failed (.budgetExceeded required budget.maxBytes)
  else if additionalBytes > usage.availableBytes - budget.reserveBytes then
    failed (.filesystemReserve additionalBytes usage.availableBytes budget.reserveBytes)
  else .ok ()

def minCopyBufferBytes : Nat := 4 * 1024
def maxCopyBufferBytes : Nat := 2 * 1024 * 1024

structure CasConfig where
  diskBudget : DiskBudget
  copyBufferBytes : Nat
  bufferRange : minCopyBufferBytes ≤ copyBufferBytes ∧ copyBufferBytes ≤ maxCopyBufferBytes

def maxDirectoryEntries : Nat := 131072

structure LeafEntry where
  name : Name
  length : Nat
  chargedBytes : Nat
  inode : Nat
  deriving DecidableEq, Repr

def readNames (s : Seen) (place : Place) (kind : String) : Result (List Name) :=
  let names := (s.names place).toList.map Prod.fst
  if names.any (fun name => !utf8 name.bytes) then failed (.unsafeLayout kind)
  else if names.length > maxDirectoryEntries then
    failed (.resourceExhausted "directory entries" (maxDirectoryEntries + 1) maxDirectoryEntries)
  else .ok names

def isDigestName (name : Name) : Bool := isLowerHex name.bytes 64

def openForeign {A : Type} (place : Place) (reading writing : Option Nat) (kind operation : String) : Result A :=
  match place,reading,writing with
  | .digest _,some errorKind,_ | .staging,_,some errorKind => failed (.io operation errorKind)
  | .digest _,none,_ | .staging,_,none => failed (.unsafeLayout kind)

def openEntry (s : Seen) (place : Place) (kind : String) (name : Name) : Result LeafEntry :=
  match s.entry place name with
  | some (.file inode) => do
    let chargedBytes ← orFail (.arithmeticOverflow "accounting allocated CAS blocks")
      (checkedMul (s.inodes inode).blocks 512)
    .ok ⟨name,(s.content inode).length,chargedBytes,inode⟩
  | some (.foreign reading writing) => openForeign place reading writing kind "opening CAS entry"
  | none => failed (.unsafeLayout kind)

def digestEntry (s : Seen) (kind : BlobKind) (name : Name) : Result LeafEntry :=
  if !isDigestName name then failed (.unsafeLayout kind.errorName)
  else openEntry s (.digest kind) kind.errorName name

def digestEntries (s : Seen) (kind : BlobKind) : Result (List LeafEntry) := do
  let names ← readNames s (.digest kind) kind.errorName
  collect (digestEntry s kind) names

def stageEntry (s : Seen) (name : Name) : Result LeafEntry :=
  match ResumeToken.fromStageName name.bytes with
  | .error .panic => .error .panic
  | .error (.failed _) => failed (.unsafeLayout "staging file")
  | .ok _ => openEntry s .staging "staging file" name

def stageEntries (s : Seen) : Result (List LeafEntry) := do
  let names ← readNames s .staging "staging directory"
  collect (stageEntry s) names

-- An inode is charged at the first of its names.
def chargeEntry (context : String) (charged : Finset Nat × Nat) (entry : LeafEntry) : Result (Finset Nat × Nat) :=
  if entry.inode ∈ charged.1 then .ok charged
  else do
    let bytes ← orFail (.arithmeticOverflow context) (checkedAdd charged.2 entry.chargedBytes)
    .ok (insert entry.inode charged.1,bytes)

def usedBytes (s : Seen) : Result (Nat × Nat) := do
  let final ← [BlobKind.manifest,.pageTable,.object].foldlM (fun charged kind => do
    let entries ← digestEntries s kind
    entries.foldlM (chargeEntry "summing final CAS bytes") charged) (∅,0)
  let stages ← stageEntries s
  let staged ← stages.foldlM (chargeEntry "summing staged CAS bytes") (final.1,0)
  .ok (final.2,staged.2)

def openLeaf (s : Seen) (place : Place) (name : Name) (kind operation : String) : Result Nat :=
  match s.entry place name with
  | none => failed (.missing kind)
  | some (.foreign reading writing) => openForeign place reading writing kind operation
  | some (.file inode) => .ok inode

def openRegularLeaf (s : Seen) (place : Place) (name : Name) (kind : String) (expectedLength : Nat) : Result Nat := do
  let inode ← openLeaf s place name kind "opening retained entry"
  if (s.content inode).length ≠ expectedLength then
    failed (.lengthMismatch kind expectedLength (s.content inode).length)
  else .ok inode

def openDigest (s : Seen) (kind : BlobKind) (digest : Digest) (expectedLength : Nat) : Result Nat :=
  openRegularLeaf s (.digest kind) (digestName digest) kind.errorName expectedLength

def openStage (s : Seen) (token : ResumeToken) : Result Nat :=
  openLeaf s .staging ⟨token.stageName⟩ "staging file" "opening staged data"

def readExactAt (content : Bytes) (offset length : Nat) (kind : String) : Result Bytes :=
  if content.length - offset < length then failed (.lengthMismatch kind length (content.length - offset))
  else .ok (slice content offset length)

def readBoundedAt (content : Bytes) (maximum : Nat) (kind : String) : Result Bytes :=
  if content.length > maximum then failed (.resourceExhausted kind content.length maximum)
  else readExactAt content 0 content.length kind

section Verification
variable (sha256 : Bytes → Digest)

def verifyDigest (content : Bytes) (digest : Digest) (expectedLength : Nat) (kind : String) : Result Unit :=
  if content.length ≠ expectedLength then failed (.lengthMismatch kind expectedLength content.length)
  else if sha256 content ≠ digest then failed (.integrity kind)
  else .ok ()

def verifyPage (content : Bytes) (record : ObjectRecord) (table : PageTable) (pageIndex : Nat) : Result Unit := do
  let offset ← orFail (.arithmeticOverflow "computing an object page offset") (checkedMul pageIndex record.pageSize)
  let length := min (record.length - offset) record.pageSize
  let bytes ← readExactAt content offset length "object page"
  if table.pageHash pageIndex ≠ some (sha256 bytes).bytes then failed (.integrity "object page") else .ok ()

def verifyObject (content : Bytes) (record : ObjectRecord) (table : PageTable) : Result Unit := do
  if table.objectDigest ≠ record.digest ∨ table.objectLength ≠ record.length ∨ table.pageSize ≠ record.pageSize then
    failed (.integrity "page table")
  else
    verifyDigest sha256 content record.digest record.length "object"
    (List.range table.pageCount).foldlM (fun _ pageIndex => verifyPage sha256 content record table pageIndex) ()

def readTable (s : Seen) (record : ObjectRecord) : Result PageTable := do
  let inode ← openDigest s .pageTable record.pageTable record.pageTableLength
  let bytes ← readExactAt (s.content inode) 0 record.pageTableLength "page table"
  liftFormat (PageTable.parseVerified sha256 record bytes)

def verifyRecord (s : Seen) (record : ObjectRecord) : Result Unit := do
  let table ← readTable sha256 s record
  let inode ← openDigest s .object record.digest record.length
  verifyObject sha256 (s.content inode) record table

def verifyManifestReferences (s : Seen) (manifest : Manifest) : Result Unit :=
  manifest.objects.foldlM (fun _ record => verifyRecord sha256 s record) ()

def verifyCommitted (s : Seen) (manifest : Manifest) (inode : Nat) : Result Nat := do
  verifyDigest sha256 (s.content inode) manifest.artifactId manifest.canonicalBytes.length "manifest"
  verifyManifestReferences sha256 s manifest
  orFail (.arithmeticOverflow "counting committed blobs")
    ((checkedMul manifest.objects.length 2).bind (fun doubled => checkedAdd doubled 1))

end Verification

structure Blob where
  kind : BlobKind
  digest : Digest
  length : Nat
  deriving DecidableEq, Repr

def tableBlob (record : ObjectRecord) : Blob := ⟨.pageTable,record.pageTable,record.pageTableLength⟩
def objectBlob (record : ObjectRecord) : Blob := ⟨.object,record.digest,record.length⟩
def manifestBlob (manifest : Manifest) (manifestLength : Nat) : Blob := ⟨.manifest,manifest.artifactId,manifestLength⟩

def artifactBlobs (manifest : Manifest) (manifestLength : Nat) : List Blob :=
  manifestBlob manifest manifestLength :: manifest.objects.flatMap (fun record => [tableBlob record,objectBlob record])

def tokenBlob (token : ResumeToken) : Blob := ⟨token.kind,token.digest,token.expectedLength⟩

-- The rows are those of a map from kinds and digests; the last one of a key counts.
def declaredLength (blobs : List Blob) (kind : BlobKind) (digest : Digest) : Option Nat :=
  (blobs.reverse.find? (fun blob => blob.kind = kind ∧ blob.digest = digest)).map Blob.length

def resumeFor (resumes : List ResumeToken) (kind : BlobKind) (digest : Digest) : Option ResumeToken :=
  resumes.find? (fun token => token.kind = kind ∧ token.digest = digest)

def stageNamed (stages : List LeafEntry) (token : ResumeToken) : Option LeafEntry :=
  stages.find? (fun entry => entry.name = ⟨token.stageName⟩)

def validateResume (blobs : List Blob) (stages : List LeafEntry) (resumes : List ResumeToken) (token : ResumeToken) :
    Result (List ResumeToken) := do
  let expectedLength ← orFail (.resumeMismatch "artifact") (declaredLength blobs token.kind token.digest)
  token.validateFor token.kind token.digest expectedLength
  let entry ← orFail (.missing "staging file") (stageNamed stages token)
  if entry.length > expectedLength then failed (.resumeMismatch "length")
  else if (resumeFor resumes token.kind token.digest).isSome then failed .invalidResumeToken
  else .ok (resumes ++ [token])

def validateResumes (s : Seen) (blobs : List Blob) (tokens : List ResumeToken) : Result (List ResumeToken) := do
  let stages ← stageEntries s
  tokens.foldlM (validateResume blobs stages) []

def stagedBytes (stages : List LeafEntry) (resumes : List ResumeToken) (blob : Blob) : Nat :=
  (((resumeFor resumes blob.kind blob.digest).bind (stageNamed stages)).map LeafEntry.chargedBytes).getD 0

def planBlob (s : Seen) (usage : DiskUsage) (stages : List LeafEntry) (resumes : List ResumeToken) (additional : Nat)
    (blob : Blob) : Result Nat :=
  match openDigest s blob.kind blob.digest blob.length with
  | .ok _ => .ok additional
  | .error (.failed (.missing _)) => do
    let planned ← usage.roundUp blob.length
    orFail (.arithmeticOverflow "summing planned CAS allocation")
      (checkedAdd additional (planned - stagedBytes stages resumes blob))
  | .error stop => .error stop

def plannedBytes (s : Seen) (usage : DiskUsage) (blobs : List Blob) (resumes : List ResumeToken) : Result Nat := do
  let stages ← stageEntries s
  blobs.foldlM (planBlob s usage stages resumes) 0

section Listing
variable {s : Seen} {place : Place} {kind : String} {name : Name} {entry : LeafEntry}

theorem foreignFails {A : Type} (place : Place) (reading writing : Option Nat) (kind operation : String) :
    ∃ error, (openForeign place reading writing kind operation : Result A) = failed error := by
  unfold openForeign
  split <;> exact ⟨_,rfl⟩

theorem entryOpened (ok : openEntry s place kind name = .ok entry) : entry.name = name ∧
    s.entry place name = some (.file entry.inode) ∧ entry.length = (s.content entry.inode).length ∧
    entry.chargedBytes = (s.inodes entry.inode).blocks * 512 := by
  unfold openEntry at ok
  split at ok
  · rename_i inode found
    obtain ⟨charged,product,last⟩ := bindOk.mp ok
    cases last
    have exact : charged = (s.inodes inode).blocks * 512 := by
      have some := orFailOk.mp product
      unfold checkedMul at some
      split at some
      · exact (Option.some.inj some).symm
      · contradiction
    exact ⟨rfl,found,rfl,exact⟩
  · obtain ⟨error,fails⟩ := foreignFails place _ _ kind _
    cases fails.symm.trans ok
  · contradiction

theorem stageOpened (ok : stageEntry s name = .ok entry) :
    openEntry s .staging "staging file" name = .ok entry ∧ ∃ token, ResumeToken.fromStageName name.bytes = .ok token := by
  unfold stageEntry at ok
  split at ok
  · contradiction
  · contradiction
  · rename_i token read
    exact ⟨ok,token,read⟩

theorem digestOpened {kind : BlobKind} (ok : digestEntry s kind name = .ok entry) :
    openEntry s (.digest kind) kind.errorName name = .ok entry ∧ isDigestName name = true := by
  obtain ⟨named,ok⟩ := guardOk.mp ok
  exact ⟨ok,by simpa using named⟩

variable {names : List Name} {entries : List LeafEntry}

theorem namesOk :
    readNames s place kind = .ok names ↔ names = (s.names place).toList.map Prod.fst ∧
      (∀ name ∈ names, utf8 name.bytes = true) ∧ names.length ≤ maxDirectoryEntries := by
  constructor
  · intro ok
    obtain ⟨texts,ok⟩ := guardOk.mp ok
    obtain ⟨few,ok⟩ := guardOk.mp ok
    cases ok
    refine ⟨rfl,fun name member => ?_,Nat.le_of_not_lt few⟩
    by_contra bad
    exact texts (List.any_eq_true.mpr ⟨name,member,by simpa using bad⟩)
  · rintro ⟨rfl,texts,few⟩
    refine guardOk.mpr ⟨fun bad => ?_,guardOk.mpr ⟨Nat.not_lt_of_le few,rfl⟩⟩
    obtain ⟨name,member,bad⟩ := List.any_eq_true.mp bad
    rw [texts name member] at bad
    contradiction

theorem namesRead (ok : readNames s place kind = .ok names) :
    names = (s.names place).toList.map Prod.fst := (namesOk.mp ok).1

theorem namesListed (ok : readNames s place kind = .ok names) (name : Name) :
    s.entry place name = none ∨ name ∈ names := by
  rw [namesRead ok]
  cases found : s.entry place name with
  | none => exact .inl rfl
  | some leaf => exact .inr (List.mem_map_of_mem (KeyedSum.memToList.mpr found))

theorem collectNames {read : Name → Result LeafEntry} (keeps : ∀ name entry, read name = .ok entry → entry.name = name)
    (ok : collect read names = .ok entries) :
    entries.map LeafEntry.name = names := by
  have pairs := collectOk.mp ok
  induction pairs with
  | nil => rfl
  | cons first _ ih =>
    rw [List.map_cons,keeps _ _ first]
    exact congrArg _ (ih (collectOk.mpr ‹_›))

theorem stageListed (ok : stageEntries s = .ok entries) (name : Name) :
    s.entry .staging name = none ∨ name ∈ entries.map LeafEntry.name := by
  obtain ⟨names,read,collected⟩ := bindOk.mp ok
  rw [collectNames (fun _ _ opened => (entryOpened (stageOpened opened).1).1) collected]
  exact namesListed read name

theorem digestListed {kind : BlobKind} (ok : digestEntries s kind = .ok entries) (name : Name) :
    s.entry (.digest kind) name = none ∨ name ∈ entries.map LeafEntry.name := by
  obtain ⟨names,read,collected⟩ := bindOk.mp ok
  rw [collectNames (fun _ _ opened => (entryOpened (digestOpened opened).1).1) collected]
  exact namesListed read name

theorem digestEach {kind : BlobKind} (ok : digestEntries s kind = .ok entries)
    (member : entry ∈ entries) : s.entry (.digest kind) entry.name = some (.file entry.inode) := by
  obtain ⟨names,read,collected⟩ := bindOk.mp ok
  obtain ⟨name,-,opened⟩ := collectMem collected member
  obtain ⟨same,found,-⟩ := entryOpened (digestOpened opened).1
  rw [same]
  exact found

theorem stageEach (ok : stageEntries s = .ok entries) (member : entry ∈ entries) :
    s.entry .staging entry.name = some (.file entry.inode) := by
  obtain ⟨names,read,collected⟩ := bindOk.mp ok
  obtain ⟨name,-,opened⟩ := collectMem collected member
  obtain ⟨same,found,-⟩ := entryOpened (stageOpened opened).1
  rw [same]
  exact found

theorem leafOpened {operation : String} {i : Nat} (ok : openLeaf s place name kind operation = .ok i) :
    s.entry place name = some (.file i) := by
  unfold openLeaf at ok
  split at ok
  · contradiction
  · obtain ⟨error,fails⟩ := foreignFails place _ _ kind operation
    cases fails.symm.trans ok
  · rename_i found
    cases ok
    exact found

theorem regularOpened {i expectedLength : Nat} (ok : openRegularLeaf s place name kind expectedLength = .ok i) :
    s.entry place name = some (.file i) ∧ (s.content i).length = expectedLength := by
  obtain ⟨inode,found,ok⟩ := bindOk.mp ok
  obtain ⟨long,ok⟩ := guardOk.mp ok
  cases ok
  exact ⟨leafOpened found,not_not.mp long⟩

end Listing

theorem exactRead {content bytes : Bytes} {length : Nat} {kind : String} (long : content.length = length)
    (ok : readExactAt content 0 length kind = .ok bytes) : bytes = content := by
  obtain ⟨-,ok⟩ := guardOk.mp ok
  cases ok
  rw [slice,List.drop_zero,← long,List.take_length]

theorem liftOk {A : Type} {result : Except FormatError A} {a : A} (ok : liftFormat result = .ok a) : result = .ok a := by
  cases result with
  | error error => cases ok
  | ok b =>
    cases ok
    rfl

theorem boundedRead {content bytes : Bytes} {maximum : Nat} {kind : String}
    (ok : readBoundedAt content maximum kind = .ok bytes) : bytes = content :=
  exactRead rfl (guardOk.mp ok).2

end RunnelMoe.Cas
