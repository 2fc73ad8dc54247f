import RunnelMoe.CasPlays
import RunnelMoe.CasSweep

/-! After a garbage collection, wherever it was stopped, every artifact that could be
opened and read before can be opened and read, with the same bytes. A reader sees only
names and files, and every name it follows from a manifest is one the sweep spares. -/
namespace RunnelMoe.Cas
open Std (ExtTreeMap)
open Readers Results StoreErrors Words Format PageSpecs Scripts Script

section Reading
variable {a b : Seen}

theorem sameContent (inodes : b.inodes = a.inodes) : b.content = a.content := by
  funext i
  rw [Seen.content,Seen.content,inodes]

theorem sameEntries (inodes : b.inodes = a.inodes) {kind : BlobKind} (names : b.names (.digest kind) = a.names (.digest kind)) :
    digestEntries b kind = digestEntries a kind := by
  have each : digestEntry b kind = digestEntry a kind := by
    funext name
    simp only [digestEntry,openEntry,Seen.entry,Seen.content,names,inodes]
  simp only [digestEntries,readNames,names,each]

theorem sameLeaf (inodes : b.inodes = a.inodes) {place : Place} {name : Name} (entry : b.entry place name = a.entry place name)
    (kind : String) (expectedLength : Nat) :
    openRegularLeaf b place name kind expectedLength = openRegularLeaf a place name kind expectedLength := by
  rw [openRegularLeaf,openRegularLeaf,openLeaf,openLeaf,entry,sameContent inodes]

variable {sha256 : Bytes → Digest}

theorem sameRecord (inodes : b.inodes = a.inodes) {record : ObjectRecord}
    (table : b.entry (.digest .pageTable) (digestName record.pageTable) = a.entry (.digest .pageTable) (digestName record.pageTable))
    (object : b.entry (.digest .object) (digestName record.digest) = a.entry (.digest .object) (digestName record.digest))
    (objects : List RetainedObject) : openRecord sha256 b objects record = openRecord sha256 a objects record := by
  simp only [openRecord,sameLeaf inodes table,sameLeaf inodes object,Seen.content,inodes]

theorem sameArtifact (inodes : b.inodes = a.inodes)
    (names : b.names (.digest .manifest) = a.names (.digest .manifest)) {artifactId : Digest} {limits : Limits}
    {artifact : StoredArtifact} (opened : openArtifact sha256 a artifactId limits = .ok artifact)
    (references : ∀ record ∈ artifact.manifest.objects,
      b.entry (.digest .pageTable) (digestName record.pageTable) = a.entry (.digest .pageTable) (digestName record.pageTable) ∧
      b.entry (.digest .object) (digestName record.digest) = a.entry (.digest .object) (digestName record.digest)) :
    openArtifact sha256 b artifactId limits = .ok artifact := by
  have entry : b.entry (.digest .manifest) (digestName artifactId) = a.entry (.digest .manifest) (digestName artifactId) := by
    rw [Seen.entry,Seen.entry,names]
  have length : manifestLengthForOpen b artifactId = manifestLengthForOpen a artifactId := by
    rw [manifestLengthForOpen,manifestLengthForOpen,sameEntries inodes names]
  obtain ⟨size,found,rest⟩ := bindOk.mp opened
  obtain ⟨i,leaf,rest⟩ := bindOk.mp rest
  obtain ⟨bound,valid,rest⟩ := bindOk.mp rest
  obtain ⟨bytes,read,rest⟩ := bindOk.mp rest
  obtain ⟨manifest,parsed,rest⟩ := bindOk.mp rest
  obtain ⟨objects,kept,rest⟩ := bindOk.mp rest
  cases rest
  refine bindOk.mpr ⟨size,length.trans found,bindOk.mpr ⟨i,(sameLeaf inodes entry _ _).trans leaf,?_⟩⟩
  refine bindOk.mpr ⟨bound,valid,bindOk.mpr ⟨bytes,?_,bindOk.mpr ⟨manifest,parsed,bindOk.mpr ⟨objects,?_,rfl⟩⟩⟩⟩
  · rw [Seen.content,inodes]
    exact read
  · refine (foldSame (fun record member objects => ?_)).trans kept
    obtain ⟨table,object⟩ := references record member
    exact sameRecord inodes table object objects

theorem openedRoot {s : Store} {artifactId : Digest} {limits : Limits} {artifact : StoredArtifact}
    (opened : openArtifact sha256 s.seen artifactId limits = .ok artifact) :
    ∃ bound, Rooted sha256 s bound (digestName artifactId) artifact.manifest := by
  obtain ⟨size,found,rest⟩ := bindOk.mp opened
  obtain ⟨i,leaf,rest⟩ := bindOk.mp rest
  obtain ⟨bound,valid,rest⟩ := bindOk.mp rest
  obtain ⟨bytes,read,rest⟩ := bindOk.mp rest
  obtain ⟨manifest,parsed,rest⟩ := bindOk.mp rest
  obtain ⟨objects,-,rest⟩ := bindOk.mp rest
  cases rest
  have content := boundedRead read
  subst content
  exact ⟨bound,i,(regularOpened leaf).1,(expectedParsed (liftOk parsed)).1⟩

theorem sameReads (inodes : b.inodes = a.inodes) (object : RetainedObject) :
    readObject sha256 b object = readObject sha256 a object := by
  have page : readPage sha256 b = readPage sha256 a := by
    funext page
    rw [readPage,readPage,sameContent inodes]
  rw [readObject,readObject,page]

end Reading

section Faults
variable {sha256 : Bytes → Digest} {limits : Limits} {s : Store} {policy : GcPolicy} {candidates : List DeleteCandidate}

variable (sha256 limits s) in
inductive Blocked : Prop where
  | badName {kind : BlobKind} {name : Name} (present : s.entry .visible (.digest kind) name ≠ none)
      (unnamed : ∀ digest, name ≠ digestName digest)
  | foreign {place : Place} {name : Name} {reading writing : Option Nat}
      (found : s.entry .visible place name = some (.foreign reading writing))
  | badRoot {name : Name} {i : Nat} (found : s.entry .visible (.digest .manifest) name = some (.file i))
      (malformed : ∀ m, parseWithLimits sha256 (s.content i) limits ≠ .ok m)
  | missing {root : Name} {m : Manifest} {record : ObjectRecord} {kind : BlobKind} (rooted : Rooted sha256 s limits root m)
      (member : record ∈ m.objects) (leaf : kind ≠ .manifest)
      (absent : s.entry .visible (.digest kind) (digestName (referenced kind record)) = none)
  | badTable {root : Name} {m : Manifest} {record : ObjectRecord} {i : Nat} (rooted : Rooted sha256 s limits root m)
      (member : record ∈ m.objects) (found : s.entry .visible (.digest .pageTable) (digestName record.pageTable) = some (.file i))
      (corrupt : ∀ table, PageTable.parseVerified sha256 record (s.content i) ≠ .ok table)
  | badObject {root : Name} {m : Manifest} {record : ObjectRecord} {i : Nat} (rooted : Rooted sha256 s limits root m)
      (member : record ∈ m.objects) (found : s.entry .visible (.digest .object) (digestName record.digest) = some (.file i))
      (corrupt : (s.content i).length ≠ record.length ∨ sha256 (s.content i) ≠ record.digest)
  | badPage {root : Name} {m : Manifest} {record : ObjectRecord} {table : PageTable} {i j index : Nat}
      (rooted : Rooted sha256 s limits root m) (member : record ∈ m.objects)
      (tabled : s.entry .visible (.digest .pageTable) (digestName record.pageTable) = some (.file i))
      (parsed : PageTable.parseVerified sha256 record (s.content i) = .ok table)
      (found : s.entry .visible (.digest .object) (digestName record.digest) = some (.file j))
      (inside : index < table.pageCount) (corrupt : verifyPage sha256 (s.content j) record table index ≠ .ok ())
  | mismatch {kind : BlobKind} {digest : Digest} {i : Nat}
      (found : s.entry .visible (.digest kind) (digestName digest) = some (.file i)) (differs : sha256 (s.content i) ≠ digest)
  | badStage {name : Name} (present : s.entry .visible .staging name ≠ none)
      (malformed : ∀ token, ResumeToken.fromStageName name.bytes ≠ .ok token)

theorem rootsVerified {entries : List LeafEntry} {live : Live} (listed : digestEntries s.seen .manifest = .ok entries)
    (marked : entries.foldlM (markManifest sha256 s.seen limits) ⟨[],[]⟩ = .ok live) {name : Name} {i : Nat}
    (found : s.entry .visible (.digest .manifest) name = some (.file i)) :
    ∃ m, parseWithLimits sha256 (s.content i) limits = .ok m ∧ name = digestName (sha256 (s.content i)) ∧
      ∀ record ∈ m.objects, verifyRecord sha256 s.seen record = .ok () := by
  have present : s.seen.entry (.digest .manifest) name ≠ none := fun none => nomatch none.symm.trans found
  obtain ⟨entry,inside,rfl⟩ := List.mem_map.mp ((digestListed listed name).resolve_left present)
  obtain ⟨_,_,one⟩ := foldEach marked inside
  obtain ⟨m,⟨j,here,parsed⟩,named,verified,-⟩ := markedManifest one
  cases here.symm.trans found
  exact ⟨m,parsed,(parsedIdentity parsed).1 ▸ named,verified⟩

theorem leavesVerified {kind : BlobKind} {entries : List LeafEntry} {live : List Digest} {output : List DeleteCandidate}
    (listed : digestEntries s.seen kind = .ok entries)
    (planned : entries.foldlM (planUnreferenced sha256 s.seen kind live) output = .ok candidates) {name : Name} {i : Nat}
    (found : s.entry .visible (.digest kind) name = some (.file i)) : name = digestName (sha256 (s.content i)) := by
  have present : s.seen.entry (.digest kind) name ≠ none := fun none => nomatch none.symm.trans found
  obtain ⟨entry,inside,rfl⟩ := List.mem_map.mp ((digestListed listed name).resolve_left present)
  obtain ⟨_,_,one⟩ := foldEach planned inside
  obtain ⟨j,_,named,here,rfl,-⟩ := plannedLeaf one
  cases here.symm.trans found
  exact named

theorem plannedClear (ok : gcPlan sha256 s.seen policy limits = .ok candidates) : ¬Blocked sha256 limits s := by
  simp only [gcPlan,bindOk] at ok
  obtain ⟨manifests,manifestsListed,objects,objectsListed,tables,tablesListed,stages,stagesListed,live,marked,
    first,objectsPlanned,second,tablesPlanned,-⟩ := ok
  have roots {name : Name} {i : Nat} (found : s.entry .visible (.digest .manifest) name = some (.file i)) :=
    rootsVerified manifestsListed marked found
  have listed (kind : BlobKind) : ∃ entries, digestEntries s.seen kind = .ok entries := by
    cases kind with
    | manifest => exact ⟨_,manifestsListed⟩
    | object => exact ⟨_,objectsListed⟩
    | pageTable => exact ⟨_,tablesListed⟩
  have file (kind : BlobKind) (name : Name) (present : s.entry .visible (.digest kind) name ≠ none) :
      ∃ i, s.entry .visible (.digest kind) name = some (.file i) := by
    obtain ⟨entries,all⟩ := listed kind
    obtain ⟨entry,inside,rfl⟩ := List.mem_map.mp ((digestListed all name).resolve_left present)
    exact ⟨_,digestEach all inside⟩
  have named (kind : BlobKind) {name : Name} {i : Nat} (found : s.entry .visible (.digest kind) name = some (.file i)) :
      name = digestName (sha256 (s.content i)) := by
    cases kind with
    | manifest =>
      obtain ⟨m,-,named,-⟩ := roots found
      exact named
    | object => exact leavesVerified objectsListed objectsPlanned found
    | pageTable => exact leavesVerified tablesListed tablesPlanned found
  have references {root : Name} {m : Manifest} {record : ObjectRecord} (rooted : Rooted sha256 s limits root m)
      (member : record ∈ m.objects) : verifyRecord sha256 s.seen record = .ok () := by
    obtain ⟨i,found,parsed⟩ := rooted
    obtain ⟨_,same,-,verified⟩ := roots found
    cases parsed.symm.trans same
    exact verified record member
  intro blocked
  cases blocked with
  | @badName kind name present unnamed =>
    obtain ⟨i,found⟩ := file kind name present
    exact unnamed _ (named kind found)
  | @foreign place name reading writing found =>
    have present : s.entry .visible place name ≠ none := fun none => nomatch none.symm.trans found
    cases place with
    | digest kind =>
      obtain ⟨i,here⟩ := file kind name present
      cases here.symm.trans found
    | staging =>
      obtain ⟨entry,inside,rfl⟩ := List.mem_map.mp ((stageListed stagesListed name).resolve_left present)
      have here : s.entry .visible .staging entry.name = some (.file entry.inode) := stageEach stagesListed inside
      cases here.symm.trans found
  | badRoot found malformed =>
    obtain ⟨m,parsed,-⟩ := roots found
    exact malformed m parsed
  | @missing _ _ record kind rooted member leaf absent =>
    obtain ⟨i,j,_,tabled,-,found,-⟩ := recordVerified (references rooted member)
    cases kind with
    | manifest => contradiction
    | object => cases absent.symm.trans found
    | pageTable => cases absent.symm.trans tabled
  | badTable rooted member found corrupt =>
    obtain ⟨i,j,table,tabled,parsed,-⟩ := recordVerified (references rooted member)
    cases found.symm.trans tabled
    exact corrupt table parsed
  | badObject rooted member found corrupt =>
    obtain ⟨i,j,_,-,-,here,long,same,-⟩ := recordVerified (references rooted member)
    cases found.symm.trans here
    rcases corrupt with wrong | wrong
    · exact wrong long
    · exact wrong same
  | badPage rooted member tabled parsed found inside corrupt =>
    obtain ⟨i,j,table,there,same,here,-,-,pages⟩ := recordVerified (references rooted member)
    cases found.symm.trans here
    cases tabled.symm.trans there
    cases parsed.symm.trans same
    exact corrupt (pages _ inside)
  | @mismatch kind digest i found differs => exact differs (digestNameInjective (named kind found)).symm
  | @badStage name present malformed =>
    obtain ⟨names,read,collected⟩ := bindOk.mp stagesListed
    obtain ⟨entry,-,opened⟩ := collectEach collected ((namesListed read name).resolve_left present)
    obtain ⟨-,token,ok⟩ := stageOpened opened
    exact malformed token ok

end Faults

section Collected
variable {fs : FileSystem} {sha256 : Bytes → Digest} {policy : GcPolicy} {s t : Store}
  {candidates done : List DeleteCandidate}

variable {limits : Limits}

theorem sweptReference (plan : PlanFor sha256 s policy candidates) (among : done <+: candidates) (swept : Swept s done t)
    {kind : BlobKind} (leaf : kind ≠ .manifest) {root : Name} {m : Manifest}
    (rooted : Rooted sha256 s limits root m) {record : ObjectRecord} (member : record ∈ m.objects) :
    t.entry .visible (.digest kind) (digestName (referenced kind record)) =
      s.entry .visible (.digest kind) (digestName (referenced kind record)) := by
  refine swept.kept _ _ (fun candidate inside same => ?_)
  rcases plan.only candidate (among.subset inside) with ⟨other,-,ofKind,-,free⟩ | ⟨-,ofKind,-⟩
  · rw [ofKind] at same
    cases Place.digest.inj same.1
    exact (unreferencedIff leaf).mp free root limits m record rooted member same.2
  · rw [ofKind] at same
    cases same.1

theorem sweptReads (plan : PlanFor sha256 s policy candidates) (among : done <+: candidates) (swept : Swept s done t)
    {artifactId : Digest} {pages : List (List Bytes)}
    (read : readArtifact sha256 s.seen artifactId limits = .ok pages) :
    readArtifact sha256 t.seen artifactId limits = .ok pages := by
  obtain ⟨artifact,opened,read⟩ := bindOk.mp read
  obtain ⟨bound,rooted⟩ := openedRoot opened
  have inodes : t.seen.inodes = s.seen.inodes := swept.inodes
  have names : t.seen.names (.digest .manifest) = s.seen.names (.digest .manifest) := by
    apply ExtTreeMap.ext_getElem?
    exact sweptManifest plan among swept
  refine bindOk.mpr ⟨artifact,sameArtifact inodes names opened (fun record member => ⟨?_,?_⟩),?_⟩
  · have apart : BlobKind.pageTable ≠ .manifest := nofun
    exact sweptReference plan among swept apart rooted member
  · have apart : BlobKind.object ≠ .manifest := nofun
    exact sweptReference plan among swept apart rooted member
  · have same : readObject sha256 t.seen = readObject sha256 s.seen := funext (sameReads inodes)
    rw [same]
    exact read

theorem sweptAbsent (swept : Swept s done t) {place : Place} {name : Name} (absent : s.entry .visible place name = none) :
    t.entry .visible place name = none := by
  by_cases removed : ∃ candidate ∈ done, candidate.kind.place = place ∧ candidate.name = name
  · obtain ⟨candidate,member,rfl,rfl⟩ := removed
    exact swept.gone candidate member
  · rw [swept.kept place name (fun candidate member same => removed ⟨candidate,member,same⟩)]
    exact absent

theorem sweepsTrail (trail : Trails (Sweeps fs sha256 policy s candidates) s t) :
    ∃ removed, removed <+: candidates ∧ Swept s removed t := by
  cases trail with
  | refl => exact ⟨[],List.nil_prefix,sweptNone s⟩
  | tail _ last => exact last.2

theorem prepareRuns {unit : Nat} {out : Option (Result (List DeleteCandidate × GcReport))}
    (runs : Runs (Happens fs) (gcPrepare sha256 unit policy limits) s out t) :
    t = s ∧ ∀ plan, out = some (.ok plan) → Prepared sha256 policy s limits plan := by
  have quiet : Does (Happens fs) (fun _ _ => False) _ (gcPrepare sha256 unit policy limits) s := gcPrepareDoes
  obtain ⟨trail,ended⟩ := doesRuns quiet runs
  refine ⟨?_,fun plan ok => (ended plan ok).2⟩
  cases trail with
  | refl => rfl
  | tail _ wrong => exact wrong.elim

def planReport (policy : GcPolicy) (plan : List DeleteCandidate) : GcReport :=
  ⟨plan.length,(plan.map DeleteCandidate.reclaimBytes).sum,0,0,policy.dryRun⟩

theorem gcRuns {unit : Nat} {out : Option (Result GcReport)}
    (runs : Runs (Happens fs) (gc sha256 unit policy limits) s out t) :
    (t = s ∧ ∀ report, out ≠ some (.ok report)) ∨ ∃ plan, gcPlan sha256 s.seen policy limits = .ok plan ∧
      (policy.dryRun = true ∧ t = s ∧ (∀ report, out = some (.ok report) → report = planReport policy plan) ∨
        policy.dryRun = false ∧ Runs (Happens fs) (gcSweep plan (planReport policy plan)) s out t) := by
  rcases runsBind runs with ⟨⟨plan,report⟩,m,prepared,finished⟩ | ⟨prepared,rfl⟩ | ⟨stop,prepared,rfl⟩
  · obtain ⟨rfl,ready⟩ := prepareRuns prepared
    have ready := ready _ rfl
    have same : report = planReport policy plan := ready.report
    subst same
    refine .inr ⟨plan,ready.planned,?_⟩
    unfold gcFinish at finished
    split at finished
    · rename_i dry
      cases finished with
      | stopped => exact .inl ⟨dry,rfl,nofun⟩
      | done => exact .inl ⟨dry,rfl,fun report same => (Except.ok.inj (Option.some.inj same)).symm⟩
    · rename_i live
      exact .inr ⟨by simpa using live,finished⟩
  · exact .inl ⟨(prepareRuns prepared).1,nofun⟩
  · exact .inl ⟨(prepareRuns prepared).1,nofun⟩

theorem sweepRuns {report : GcReport} {out : Option (Result GcReport)} (planned : PlanFor sha256 s policy candidates)
    (runs : Runs (Happens fs) (gcSweep candidates report) s out t) :
    ∃ removed, removed <+: candidates ∧ Swept s removed t ∧ ∀ last, out = some (.ok last) → removed = candidates ∧
      last = report.after candidates := by
  obtain ⟨trail,ended⟩ := doesRuns (gcSweepDoes planned report) runs
  by_cases complete : ∃ last, out = some (.ok last)
  · obtain ⟨last,rfl⟩ := complete
    obtain ⟨swept,rfl⟩ := ended last rfl
    exact ⟨candidates,List.prefix_refl _,swept,fun other same => ⟨rfl,(Except.ok.inj (Option.some.inj same)).symm⟩⟩
  · obtain ⟨removed,among,swept⟩ := sweepsTrail trail
    exact ⟨removed,among,swept,fun last ok => absurd ⟨last,ok⟩ complete⟩

theorem sweptFree (planned : PlanFor sha256 s policy candidates) (swept : Swept s candidates t) {kind : BlobKind} {name : Name}
    (leaf : kind ≠ .manifest) (free : Unreferenced sha256 s kind name) : t.entry .visible (.digest kind) name = none := by
  by_cases present : s.entry .visible (.digest kind) name = none
  · exact sweptAbsent swept present
  · obtain ⟨candidate,member,ofKind,named⟩ := planned.all kind name leaf present free
    have gone := swept.gone candidate member
    rw [ofKind,named] at gone
    exact gone

variable (fs) in
def Cancelled (call : Call) (s : Store) (answer : Result (Value call)) (t : Store) : Prop :=
  Happens fs call s answer t ∧ (call = .check → ∃ stop, answer = .error stop)

theorem prepareHeeds (sha256 : Bytes → Digest) (unit : Nat) (policy : GcPolicy) (limits : Limits) :
    Heeds (· = Call.check) (gcPrepare sha256 unit policy limits) := by
  have last {A : Type} (a : A) : Heeds (· = Call.check) (check >>= fun _ => pure a : Task A) ∧
      ∀ b, (check >>= fun _ => pure a : Task A) ≠ .done (.ok b) := heedsLast (· = Call.check) rfl a
  refine (heedsBind (fun _ => heedsBind (fun valid => heedsBind (fun _ => heedsBind (fun _ => ?_) _) _) _) _).1
  exact heedsBind (fun candidates => heedsBind (fun bytes => last _) _) _

theorem cancelledRuns {unit : Nat} {rest : Task (List DeleteCandidate × GcReport)} {u : Store}
    (reached : Reaches (Happens fs) (gcPrepare sha256 unit policy limits) s rest u)
    (unfinished : ∀ plan, rest ≠ .done (.ok plan)) {out : Option (Result GcReport)}
    (runs : Runs (Cancelled fs) (rest >>= gcFinish policy) u out t) : t = s ∧ ∀ report, out ≠ some (.ok report) := by
  have quiet : Does (Happens fs) (fun _ _ => False) _ (gcPrepare sha256 unit policy limits) s := gcPrepareDoes
  obtain ⟨trail,quiet⟩ := doesReaches quiet reached
  have still {last : Store} {early : Option (Result (List DeleteCandidate × GcReport))}
      (runs : Runs (Cancelled fs) rest u early last) : last = s := by
    have whole := trail.trans (doesRuns quiet (runsMono (fun _ _ _ _ acted => acted.1) runs)).1
    cases whole with
    | refl => rfl
    | tail _ wrong => exact wrong.elim
  rcases runsBind runs with ⟨plan,m,prepared,-⟩ | ⟨prepared,rfl⟩ | ⟨stop,prepared,rfl⟩
  · have heeds := heedsReaches (prepareHeeds sha256 unit policy limits) reached
    exact absurd rfl (heedsRuns (fun _ _ _ _ watched acted => acted.2 watched) heeds unfinished prepared plan)
  · exact ⟨still prepared,nofun⟩
  · exact ⟨still prepared,nofun⟩

end Collected

/- One artifact with its files and one object that no manifest refers to; without the page table, a store that is torn. -/

def stocked (manifest : Bytes) : Store :=
  let files : List Bytes := [manifest,tinyTable,[1,2,3,4,5,6,7,8]]
  let empty : Store := {Store.empty with inodes := fun inode => ⟨files.getD inode [1,2,3],true,8⟩, next := 4}
  ((empty.bound (.digest .manifest) (digestName tinyManifestDigest) (.file 0)).bound
    (.digest .object) (digestName eightDigest) (.file 2)).bound (.digest .object) (digestName threeDigest) (.file 3)

theorem stockedContent (manifest : Bytes) : (stocked manifest).content 0 = manifest := rfl

def torn : Store := stocked (canonicalTree (manifestTree tinyManifest))

def loose : Store := torn.bound (.digest .pageTable) (digestName tinyTableDigest) (.file 1)

theorem tinyObjects : (value _ tinyAccepted).objects = tinyManifest.objects := by decide +kernel

theorem looseRooted {limits : Limits} {root : Name} {m : Manifest} (rooted : Rooted knownSha loose limits root m) :
    m = value _ tinyAccepted := by
  obtain ⟨i,found,parsed⟩ := rooted
  have single : loose.entry .visible (.digest .manifest) root =
      ((∅ : ExtTreeMap Name Leaf).insert (digestName tinyManifestDigest) (.file 0))[root]? := rfl
  have content : loose.content 0 = canonicalTree (manifestTree tinyManifest) := stockedContent _
  rw [single,ExtTreeMap.getElem?_insert] at found
  split at found
  · cases found
    rw [content] at parsed
    exact limitsAgree knownSha _ limits Limits.default m _ parsed (valueOk tinyAccepted)
  · cases found

def looseSwept : Task GcReport := gc knownSha 4096 ⟨false,false⟩ Limits.default

end RunnelMoe.Cas
