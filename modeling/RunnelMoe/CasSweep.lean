import RunnelMoe.CasCollect
import RunnelMoe.CasOpen
import RunnelMoe.CasSteps
import RunnelMoe.ManifestUnique

/-! What a garbage collection removes. A plan exists only when every manifest has been
read and all its references have been verified, and it names exactly the objects and
page tables that no manifest refers to; the sweep then takes the names of the plan away
one after another, so that whatever could be read before can be read after it. -/
namespace RunnelMoe.Cas
open Readers Results StoreErrors Words Format PageSpecs Scripts Script

theorem digestNamed {name : Name} {kind : String} {digest : Digest} (ok : parseDigestName name kind = .ok digest) :
    name = digestName digest := by
  have found := orFailOk.mp ok
  cases parsed : digestFromStr (digestStart ++ name.bytes) with
  | error error =>
    rw [parsed] at found
    contradiction
  | ok other =>
    rw [parsed] at found
    cases found
    have same := digestRead parsed
    rw [displayDigest] at same
    cases name
    exact congrArg Name.mk (List.append_cancel_left same)

section Plan
variable {sha256 : Bytes → Digest} {s : Store} {limits : Limits} {policy : GcPolicy}

variable (sha256 s) in
def Rooted (limits : Limits) (name : Name) (m : Manifest) : Prop :=
  ∃ i, s.entry .visible (.digest .manifest) name = some (.file i) ∧
    parseWithLimits sha256 (s.content i) limits = .ok m

def referenced : BlobKind → ObjectRecord → Digest
  | .object, record => record.digest
  | _, record => record.pageTable

def Live.digests (live : Live) : BlobKind → List Digest
  | .object => live.objects
  | _ => live.tables

variable {live : Live} {entries : List LeafEntry} {kind : BlobKind} {candidates : List DeleteCandidate}

theorem recordVerified {record : ObjectRecord} (ok : verifyRecord sha256 s.seen record = .ok ()) :
    ∃ i j table, s.entry .visible (.digest .pageTable) (digestName record.pageTable) = some (.file i) ∧
      PageTable.parseVerified sha256 record (s.content i) = .ok table ∧
      s.entry .visible (.digest .object) (digestName record.digest) = some (.file j) ∧
      (s.content j).length = record.length ∧ sha256 (s.content j) = record.digest ∧
      ∀ index < table.pageCount, verifyPage sha256 (s.content j) record table index = .ok () := by
  obtain ⟨table,read,ok⟩ := bindOk.mp ok
  obtain ⟨i,tabled,read⟩ := bindOk.mp read
  obtain ⟨bytes,filled,parsed⟩ := bindOk.mp read
  obtain ⟨found,long⟩ := regularOpened tabled
  have whole := exactRead long filled
  subst whole
  obtain ⟨j,opened,ok⟩ := bindOk.mp ok
  obtain ⟨-,ok⟩ := guardOk.mp ok
  obtain ⟨_,hashed,pages⟩ := bindOk.mp ok
  obtain ⟨sized,hashed⟩ := guardOk.mp hashed
  obtain ⟨same,-⟩ := guardOk.mp hashed
  refine ⟨i,j,table,found,liftOk parsed,(regularOpened opened).1,not_not.mp sized,not_not.mp same,fun index inside => ?_⟩
  obtain ⟨_,_,one⟩ := foldEach pages (List.mem_range.mpr inside)
  exact one

theorem markedManifest {next : Live} {entry : LeafEntry} (ok : markManifest sha256 s.seen limits live entry = .ok next) :
    ∃ m, Rooted sha256 s limits entry.name m ∧ entry.name = digestName m.artifactId ∧
      (∀ record ∈ m.objects, verifyRecord sha256 s.seen record = .ok ()) ∧
      ∀ kind, next.digests kind = live.digests kind ++ m.objects.map (referenced kind) := by
  obtain ⟨artifactId,named,ok⟩ := bindOk.mp ok
  obtain ⟨i,opened,ok⟩ := bindOk.mp ok
  obtain ⟨bytes,read,ok⟩ := bindOk.mp ok
  obtain ⟨m,parsed,ok⟩ := bindOk.mp ok
  obtain ⟨_,verified,ok⟩ := bindOk.mp ok
  cases ok
  have content := boundedRead read
  subst content
  obtain ⟨accepted,rfl,-⟩ := expectedParsed (liftOk parsed)
  refine ⟨m,⟨i,?_,accepted⟩,digestNamed named,fun record member => ?_,fun kind => ?_⟩
  · rw [digestNamed named]
    exact (regularOpened opened).1
  · obtain ⟨_,_,one⟩ := foldEach verified member
    exact one
  · cases kind <;> rfl

theorem liveDigests (kind : BlobKind) (ok : entries.foldlM (markManifest sha256 s.seen limits) ⟨[],[]⟩ = .ok live) :
    (∀ entry ∈ entries, ∃ m, Rooted sha256 s limits entry.name m ∧
      ∀ record ∈ m.objects, referenced kind record ∈ live.digests kind) ∧
    ∀ digest ∈ live.digests kind, ∃ name m, Rooted sha256 s limits name m ∧
      ∃ record ∈ m.objects, digest = referenced kind record := by
  have step (before : Live) (entry : LeafEntry) (next : Live)
      (marked : markManifest sha256 s.seen limits before entry = .ok next) :
      ∃ digests, next.digests kind = before.digests kind ++ digests ∧
        ∃ m, Rooted sha256 s limits entry.name m ∧ digests = m.objects.map (referenced kind) := by
    obtain ⟨m,rooted,-,-,grown⟩ := markedManifest marked
    exact ⟨_,grown kind,m,rooted,rfl⟩
  obtain ⟨-,each,origin⟩ := foldAppend (fun live => live.digests kind) step ok
  refine ⟨fun entry member => ?_,fun digest member => ?_⟩
  · obtain ⟨_,⟨m,rooted,rfl⟩,all⟩ := each entry member
    exact ⟨m,rooted,fun record inside => all _ (List.mem_map_of_mem inside)⟩
  · rcases origin digest member with before | ⟨entry,-,_,⟨m,rooted,rfl⟩,inside⟩
    · cases kind <;> contradiction
    · obtain ⟨record,among,rfl⟩ := List.mem_map.mp inside
      exact ⟨entry.name,m,rooted,record,among,rfl⟩

theorem unreferencedIff (leaf : kind ≠ .manifest) {name : Name} : Unreferenced sha256 s kind name ↔
    ∀ root limits m record, Rooted sha256 s limits root m → record ∈ m.objects →
      name ≠ digestName (referenced kind record) := by
  constructor
  · intro free root limits m record rooted member
    obtain ⟨i,found,parsed⟩ := rooted
    obtain ⟨object,pageTable⟩ := free root i limits m record found parsed member
    cases kind with
    | manifest => contradiction
    | object => exact object rfl
    | pageTable => exact pageTable rfl
  · intro apart root i limits m record found parsed member
    have here := apart root limits m record ⟨i,found,parsed⟩ member
    exact ⟨fun same => by subst same; exact here,fun same => by subst same; exact here⟩

theorem liveUnreferenced (leaf : kind ≠ .manifest) (listed : digestEntries s.seen .manifest = .ok entries)
    (ok : entries.foldlM (markManifest sha256 s.seen limits) ⟨[],[]⟩ = .ok live) {digest : Digest} :
    digest ∉ live.digests kind ↔ Unreferenced sha256 s kind (digestName digest) := by
  obtain ⟨marked,refers⟩ := liveDigests kind ok
  rw [unreferencedIff leaf]
  constructor
  · intro fresh root other m record rooted member same
    obtain ⟨i,found,parsed⟩ := rooted
    have entry : root ∈ entries.map LeafEntry.name := by
      rcases digestListed listed root with none | inside
      · cases none.symm.trans found
      · exact inside
    obtain ⟨row,inside,rfl⟩ := List.mem_map.mp entry
    obtain ⟨m',⟨j,here,read⟩,all⟩ := marked row inside
    cases here.symm.trans found
    cases limitsAgree sha256 _ limits other m' m read parsed
    rw [digestNameInjective same] at fresh
    exact fresh (all record member)
  · intro apart member
    obtain ⟨name,m,rooted,record,inside,rfl⟩ := refers digest member
    exact apart name limits m record rooted inside rfl

theorem plannedLeaf {live : List Digest} {output : List DeleteCandidate} {entry : LeafEntry}
    (ok : planUnreferenced sha256 s.seen kind live output entry = .ok candidates) :
    ∃ i digest, entry.name = digestName digest ∧ s.entry .visible (.digest kind) entry.name = some (.file i) ∧
      sha256 (s.content i) = digest ∧ (digest ∈ live ∧ candidates = output ∨
        digest ∉ live ∧ candidates = output ++ [⟨.digest kind,entry.name,entry.inode,0,entry.chargedBytes⟩]) := by
  obtain ⟨digest,named,ok⟩ := bindOk.mp ok
  obtain ⟨i,opened,ok⟩ := bindOk.mp ok
  obtain ⟨_,verified,ok⟩ := bindOk.mp ok
  obtain ⟨-,verified⟩ := guardOk.mp verified
  obtain ⟨same,-⟩ := guardOk.mp verified
  have name := digestNamed named
  have found : s.entry .visible (.digest kind) entry.name = some (.file i) := name ▸ (regularOpened opened).1
  refine ⟨i,digest,name,found,not_not.mp same,?_⟩
  split at ok
  · rename_i inside
    cases ok
    exact .inl ⟨by simpa using inside,rfl⟩
  · rename_i outside
    cases ok
    exact .inr ⟨by simpa using outside,rfl⟩

theorem plannedLeaves {live : List Digest} {output : List DeleteCandidate}
    (ok : entries.foldlM (planUnreferenced sha256 s.seen kind live) output = .ok candidates) :
    (∀ candidate ∈ output, candidate ∈ candidates) ∧
    (∀ entry ∈ entries, ∃ digest, entry.name = digestName digest ∧
      (digest ∉ live → ∃ candidate ∈ candidates, candidate.kind = .digest kind ∧ candidate.name = entry.name)) ∧
    ∀ candidate ∈ candidates, candidate ∈ output ∨ ∃ entry ∈ entries, ∃ digest, digest ∉ live ∧
      entry.name = digestName digest ∧ candidate.kind = .digest kind ∧ candidate.name = entry.name := by
  let Part (entry : LeafEntry) (part : List DeleteCandidate) : Prop := ∃ digest, entry.name = digestName digest ∧
    (digest ∈ live ∧ part = [] ∨ digest ∉ live ∧ part = [⟨.digest kind,entry.name,entry.inode,0,entry.chargedBytes⟩])
  have step (before : List DeleteCandidate) (entry : LeafEntry) (next : List DeleteCandidate)
      (planned : planUnreferenced sha256 s.seen kind live before entry = .ok next) :
      ∃ part, id next = id before ++ part ∧ Part entry part := by
    obtain ⟨_,digest,named,-,-,⟨inside,rfl⟩ | ⟨outside,rfl⟩⟩ := plannedLeaf planned
    · exact ⟨[],(List.append_nil _).symm,digest,named,.inl ⟨inside,rfl⟩⟩
    · exact ⟨_,rfl,digest,named,.inr ⟨outside,rfl⟩⟩
  obtain ⟨kept,each,origin⟩ := foldAppend id step ok
  refine ⟨kept,fun entry member => ?_,fun candidate member => ?_⟩
  · obtain ⟨part,⟨digest,named,⟨inside,-⟩ | ⟨-,rfl⟩⟩,all⟩ := each entry member
    · exact ⟨digest,named,fun outside => absurd inside outside⟩
    · exact ⟨digest,named,fun _ => ⟨_,all _ (List.mem_singleton.mpr rfl),rfl,rfl⟩⟩
  · rcases origin candidate member with before | ⟨entry,among,part,⟨digest,named,⟨-,rfl⟩ | ⟨outside,rfl⟩⟩,here⟩
    · exact .inl before
    · contradiction
    · cases List.mem_singleton.mp here
      exact .inr ⟨entry,among,digest,outside,named,rfl,rfl⟩

theorem plannedStages {output : List DeleteCandidate}
    (ok : planStages policy entries output = .ok candidates) : (∀ candidate ∈ output, candidate ∈ candidates) ∧
    ∀ candidate ∈ candidates, candidate ∈ output ∨
      policy.removeStaging = true ∧ ∃ entry ∈ entries, candidate.kind = .stage ∧ candidate.name = entry.name := by
  have step (before : List DeleteCandidate) (entry : LeafEntry) (next : List DeleteCandidate)
      (planned : planStage before entry = .ok next) : ∃ part, id next = id before ++ part ∧
        part = [(⟨.stage,entry.name,entry.inode,0,entry.chargedBytes⟩ : DeleteCandidate)] := by
    obtain ⟨_,-,planned⟩ := bindOk.mp planned
    cases planned
    exact ⟨_,rfl,rfl⟩
  unfold planStages at ok
  split at ok
  · rename_i removes
    obtain ⟨kept,-,origin⟩ := foldAppend id step ok
    refine ⟨kept,fun candidate member => ?_⟩
    rcases origin candidate member with before | ⟨entry,among,_,rfl,here⟩
    · exact .inl before
    · cases List.mem_singleton.mp here
      exact .inr ⟨removes,entry,among,rfl,rfl⟩
  · cases ok
    exact ⟨fun _ member => member,fun _ member => .inl member⟩

theorem reclaimedNames (retained : List Nat) (candidates : List DeleteCandidate) :
    (reclaimed retained candidates).map (fun candidate => (candidate.kind,candidate.name)) =
      candidates.map (fun candidate => (candidate.kind,candidate.name)) := by
  induction candidates with
  | nil => rfl
  | cons candidate rest ih =>
    rw [reclaimed,List.map_cons,List.map_cons,ih]
    split <;> rfl

theorem assignedNames {assigned : List DeleteCandidate} {manifests objects tables stages : List LeafEntry}
    (ok : assignReclaimBytes candidates manifests objects tables stages = .ok assigned) {kind : DeleteKind} {name : Name} :
    (∃ candidate ∈ assigned, candidate.kind = kind ∧ candidate.name = name) ↔
      ∃ candidate ∈ candidates, candidate.kind = kind ∧ candidate.name = name := by
  have listed (items : List DeleteCandidate) : (∃ candidate ∈ items, candidate.kind = kind ∧ candidate.name = name) ↔
      (kind,name) ∈ items.map (fun candidate => (candidate.kind,candidate.name)) := by
    simp only [List.mem_map,Prod.mk.injEq]
  obtain ⟨-,ok⟩ := guardOk.mp ok
  cases ok
  rw [listed,listed,reclaimedNames]

variable (sha256 s policy) in
structure PlanFor (candidates : List DeleteCandidate) : Prop where
  only : ∀ candidate ∈ candidates,
    (∃ kind, kind ≠ .manifest ∧ candidate.kind = .digest kind ∧
      s.entry .visible (.digest kind) candidate.name ≠ none ∧ Unreferenced sha256 s kind candidate.name) ∨
    (policy.removeStaging = true ∧ candidate.kind = .stage ∧ s.entry .visible .staging candidate.name ≠ none)
  all : ∀ kind name, kind ≠ .manifest → s.entry .visible (.digest kind) name ≠ none → Unreferenced sha256 s kind name →
    ∃ candidate ∈ candidates, candidate.kind = .digest kind ∧ candidate.name = name

theorem planFor (ok : gcPlan sha256 s.seen policy limits = .ok candidates) :
    PlanFor sha256 s policy candidates := by
  obtain ⟨manifests,manifestsListed,ok⟩ := bindOk.mp ok
  obtain ⟨objects,objectsListed,ok⟩ := bindOk.mp ok
  obtain ⟨tables,tablesListed,ok⟩ := bindOk.mp ok
  obtain ⟨stages,stagesListed,ok⟩ := bindOk.mp ok
  obtain ⟨live,marked,ok⟩ := bindOk.mp ok
  obtain ⟨first,objectsPlanned,ok⟩ := bindOk.mp ok
  obtain ⟨second,tablesPlanned,ok⟩ := bindOk.mp ok
  obtain ⟨third,stagesPlanned,assigned⟩ := bindOk.mp ok
  obtain ⟨-,objectsAll,objectsOnly⟩ := plannedLeaves objectsPlanned
  obtain ⟨tablesKept,tablesAll,tablesOnly⟩ := plannedLeaves tablesPlanned
  have free (kind : BlobKind) (leaf : kind ≠ .manifest) (digest : Digest) :
      digest ∉ live.digests kind ↔ Unreferenced sha256 s kind (digestName digest) :=
    liveUnreferenced leaf manifestsListed marked
  have objectFree := free .object nofun
  have tableFree := free .pageTable nofun
  obtain ⟨stagesKept,stagesOnly⟩ := plannedStages stagesPlanned
  have leafOnly (kind : BlobKind) (leaf : kind ≠ .manifest) (candidate : DeleteCandidate) (entries : List LeafEntry)
      (listed : digestEntries s.seen kind = .ok entries) (free : ∃ entry ∈ entries, ∃ digest,
        Unreferenced sha256 s kind (digestName digest) ∧ entry.name = digestName digest ∧ candidate.kind = .digest kind ∧
          candidate.name = entry.name) : ∃ kind, kind ≠ .manifest ∧ candidate.kind = .digest kind ∧
      s.entry .visible (.digest kind) candidate.name ≠ none ∧ Unreferenced sha256 s kind candidate.name := by
    obtain ⟨entry,among,digest,free,named,ofKind,same⟩ := free
    have found : s.entry .visible (.digest kind) entry.name = some (.file entry.inode) := digestEach listed among
    refine ⟨kind,leaf,ofKind,?_,?_⟩
    · rw [same,found]
      nofun
    · rw [same,named]
      exact free
  constructor
  · intro candidate member
    obtain ⟨origin,among,ofKind,named⟩ := (assignedNames assigned).mp ⟨candidate,member,rfl,rfl⟩
    rw [← ofKind,← named]
    rcases stagesOnly origin among with before | ⟨removes,entry,inside,isStage,same⟩
    · refine .inl ?_
      rcases tablesOnly origin before with before | ⟨entry,inside,digest,outside,rest⟩
      · rcases objectsOnly origin before with none | ⟨entry,inside,digest,outside,rest⟩
        · contradiction
        · exact leafOnly .object nofun origin objects objectsListed
            ⟨entry,inside,digest,(objectFree digest).mp outside,rest⟩
      · exact leafOnly .pageTable nofun origin tables tablesListed
          ⟨entry,inside,digest,(tableFree digest).mp outside,rest⟩
    · have found : s.entry .visible .staging entry.name = some (.file entry.inode) := stageEach stagesListed inside
      refine .inr ⟨removes,isStage,?_⟩
      rw [same,found]
      nofun
  · intro kind name leaf present free
    refine (assignedNames assigned).mpr ?_
    have listedName (entries : List LeafEntry) (listed : digestEntries s.seen kind = .ok entries) :
        ∃ entry ∈ entries, entry.name = name :=
      List.mem_map.mp ((digestListed listed name).resolve_left present)
    cases kind with
    | manifest => contradiction
    | object =>
      obtain ⟨entry,inside,rfl⟩ := listedName objects objectsListed
      obtain ⟨digest,named,planned⟩ := objectsAll entry inside
      rw [named] at free
      obtain ⟨candidate,among,same⟩ := planned ((objectFree digest).mpr free)
      exact ⟨candidate,stagesKept _ (tablesKept _ among),same⟩
    | pageTable =>
      obtain ⟨entry,inside,rfl⟩ := listedName tables tablesListed
      obtain ⟨digest,named,planned⟩ := tablesAll entry inside
      rw [named] at free
      obtain ⟨candidate,among,same⟩ := planned ((tableFree digest).mpr free)
      exact ⟨candidate,stagesKept _ among,same⟩

end Plan

structure Swept (s : Store) (removed : List DeleteCandidate) (t : Store) : Prop where
  inodes : t.inodes = s.inodes
  next : t.next = s.next
  gone : ∀ candidate ∈ removed, t.entry .visible candidate.kind.place candidate.name = none
  kept : ∀ place name, (∀ candidate ∈ removed, ¬(candidate.kind.place = place ∧ candidate.name = name)) →
    t.entry .visible place name = s.entry .visible place name

section Sweep
variable {fs : FileSystem} {sha256 : Bytes → Digest} {policy : GcPolicy} {s t u : Store}
  {candidates done : List DeleteCandidate}

theorem sweptNone (s : Store) : Swept s [] s := ⟨rfl,rfl,nofun,fun _ _ _ => rfl⟩

theorem sweptFlush (swept : Swept s done t) (flushes : Flushes t u) : Swept s done u where
  inodes := flushes.inodes.trans swept.inodes
  next := flushes.next.trans swept.next
  gone := fun candidate member => (flushes.visible _ _).trans (swept.gone candidate member)
  kept := fun place name apart => (flushes.visible _ _).trans (swept.kept place name apart)

theorem sweptNext (swept : Swept s done t) (candidate : DeleteCandidate) :
    Swept s (done ++ [candidate]) (t.unbound candidate.kind.place candidate.name) where
  inodes := swept.inodes
  next := swept.next
  gone := fun other member => by
    rw [t.entryUnbound]
    split
    · rfl
    · rename_i apart
      rcases List.mem_append.mp member with before | here
      · exact swept.gone other before
      · cases List.mem_singleton.mp here
        exact absurd ⟨rfl,rfl,rfl⟩ apart
  kept := fun place name apart => by
    rw [t.entryUnbound,if_neg]
    · exact swept.kept place name (fun other member => apart other (List.mem_append_left _ member))
    · rintro ⟨-,rfl,rfl⟩
      exact apart candidate (List.mem_append_right _ (List.mem_singleton.mpr rfl)) ⟨rfl,rfl⟩

theorem sweptManifest (plan : PlanFor sha256 s policy candidates) (among : done <+: candidates) (swept : Swept s done t)
    (name : Name) : t.entry .visible (.digest .manifest) name = s.entry .visible (.digest .manifest) name := by
  refine swept.kept _ name (fun candidate member same => ?_)
  rcases plan.only candidate (among.subset member) with ⟨kind,leaf,ofKind,-⟩ | ⟨-,ofKind,-⟩
  · rw [ofKind] at same
    exact leaf (Place.digest.inj same.1)
  · rw [ofKind] at same
    cases same.1

theorem sweptUnreferenced (plan : PlanFor sha256 s policy candidates) (among : done <+: candidates)
    (swept : Swept s done t) {kind : BlobKind} {name : Name} (free : Unreferenced sha256 s kind name) :
    Unreferenced sha256 t kind name := by
  intro root i limits m record found parsed
  rw [sweptManifest plan among swept] at found
  rw [Store.content,swept.inodes] at parsed
  exact free root i limits m record found parsed

def Collecting (policy : GcPolicy) : Store → Label → Prop
  | _, .flush => True
  | _, .unstage _ => policy.removeStaging = true
  | _, .sweep _ _ => True
  | _, _ => False

variable (fs sha256 policy s candidates) in
def Sweeps (a b : Store) : Prop :=
  Moves fs sha256 (Collecting policy) a b ∧ ∃ done, done <+: candidates ∧ Swept s done b

theorem sweepFlush (among : done <+: candidates) (swept : Swept s done t) (flushes : Flushes t u) :
    Sweeps fs sha256 policy s candidates t u :=
  ⟨⟨.flush,trivial,.flush flushes⟩,done,among,sweptFlush swept flushes⟩

variable {candidate : DeleteCandidate}

theorem sweepUnlink (plan : PlanFor sha256 s policy candidates)
    (among : done ++ [candidate] <+: candidates) (swept : Swept s done t) :
    Sweeps fs sha256 policy s candidates t (t.unbound candidate.kind.place candidate.name) := by
  refine ⟨?_,done ++ [candidate],among,sweptNext swept candidate⟩
  have member : candidate ∈ candidates := among.subset (List.mem_append_right _ (List.mem_singleton.mpr rfl))
  rcases plan.only candidate member with ⟨kind,leaf,ofKind,-,free⟩ | ⟨removes,ofKind,-⟩
  · rw [ofKind]
    have now := sweptUnreferenced plan ((List.prefix_append _ _).trans among) swept free
    exact ⟨.sweep kind candidate.name,trivial,.sweep leaf now⟩
  · rw [ofKind]
    exact ⟨.unstage candidate.name,removes,.unstage candidate.name⟩

theorem unlinkAttemptThen {B : Type} {move : Store → Store → Prop} {post : B → Store → Prop} {place : Place} {name : Name}
    {f : Result Unit → Task B} (cancelled : ∀ stop, Does (Happens fs) move post (f (.error stop)) s)
    (later : ∀ answer t, Happens fs (.unlink place name) s answer t →
      Trails move s t ∧ Does (Happens fs) move post (f answer) t) :
    Does (Happens fs) move post ((do check; unlinkLeaf place name : Task Unit).attempt >>= f) s := by
  intro answer t happens
  obtain ⟨rfl,answers⟩ := happensQuiet rfl happens
  rcases answers with ⟨_,rfl,-⟩ | ⟨stop,-,rfl⟩
  · exact ⟨.refl,later⟩
  · exact ⟨.refl,cancelled stop⟩

section Steps
variable (among : done <+: candidates) (swept : Swept s done t)

include among swept

theorem syncGcDoes (sweep : Sweep) : Does (Happens fs) (Sweeps fs sha256 policy s candidates) (fun _ u => Swept s done u)
    (syncGcDirectories sweep) t := by
  have one (first : Option Stop) (place : Place) (a : Store) (here : Swept s done a) :
      Does (Happens fs) (Sweeps fs sha256 policy s candidates) (fun _ u => Swept s done u)
        (syncKeepingFirst first (syncPlace place)) a := by
    refine doesAttemptThen (fun answer u happens => ?_)
    have flushes := (syncHappens happens).1
    refine ⟨.single (sweepFlush among here flushes),?_⟩
    cases answer with
    | ok _ => exact doesPure (sweptFlush here flushes)
    | error stop => exact doesPure (sweptFlush here flushes)
  have folded : Does (Happens fs) (Sweeps fs sha256 policy s candidates) (fun _ u => Swept s done u)
      (([BlobKind.manifest,.pageTable,.object].filter sweep.modified.contains).foldlM
        (fun first kind => syncKeepingFirst first (syncDigestDir kind)) none) t :=
    doesFold (fun _ _ u => Swept s done u) swept (fun kind _ first a _ _ here => one first (.digest kind) a here)
  refine doesBind folded (fun first a _ here => ?_)
  have last : Does (Happens fs) (Sweeps fs sha256 policy s candidates) (fun _ u => Swept s done u)
      (syncGcStaging sweep first) a := by
    unfold syncGcStaging
    split
    · exact one first .staging a here
    · exact doesPure here
  refine doesBind last (fun first b _ here => ?_)
  cases first with
  | none => exact doesPure here
  | some stop => exact doesFail

theorem abandonSweepDoes {post : Sweep → Store → Prop} (sweep : Sweep) (stop : Stop) :
    Does (Happens fs) (Sweeps fs sha256 policy s candidates) post (abandonSweep sweep stop) t :=
  doesBind (syncGcDoes among swept sweep) (fun _ _ _ _ => doesFail)

end Steps

theorem sweepStepDoes (plan : PlanFor sha256 s policy candidates)
    (among : done ++ [candidate] <+: candidates) (swept : Swept s done t) (sweep : Sweep) :
    Does (Happens fs) (Sweeps fs sha256 policy s candidates)
      (fun next u => Swept s (done ++ [candidate]) u ∧ (sweep.marked candidate.kind).counted candidate = .ok next)
      (sweepStep sweep candidate) t := by
  have before : done <+: candidates := (List.prefix_append _ _).trans among
  refine unlinkAttemptThen (fun stop => abandonSweepDoes before swept sweep stop) (fun answer u happens => ?_)
  obtain ⟨m,flushes,rfl | ⟨rfl,stop,-,rfl⟩⟩ := unlinkHappens happens
  · have first : Sweeps fs sha256 policy s candidates t m := sweepFlush before swept flushes
    have here := sweptFlush swept flushes
    refine ⟨.tail (.single first) (sweepUnlink plan among here),?_⟩
    cases answer with
    | error stop => exact abandonSweepDoes among (sweptNext here candidate) sweep stop
    | ok _ =>
      dsimp only
      split
      · exact abandonSweepDoes among (sweptNext here candidate) _ _
      · rename_i counted
        exact doesPure ⟨sweptNext here candidate,counted⟩
  · exact ⟨.single (sweepFlush before swept flushes),abandonSweepDoes before (sweptFlush swept flushes) sweep stop⟩

def GcReport.after (report : GcReport) (removed : List DeleteCandidate) : GcReport :=
  {report with
    deletedBlobs := report.deletedBlobs + removed.length
    deletedBytes := report.deletedBytes + (removed.map DeleteCandidate.reclaimBytes).sum}

theorem countedAfter {sweep next : Sweep} {report : GcReport}
    (same : sweep.report = report.after done) (ok : (sweep.marked candidate.kind).counted candidate = .ok next) :
    next.report = report.after (done ++ [candidate]) := by
  have marked : (sweep.marked candidate.kind).report = sweep.report := by
    cases candidate.kind <;> rfl
  obtain ⟨blobs,one,ok⟩ := bindOk.mp ok
  obtain ⟨bytes,more,ok⟩ := bindOk.mp ok
  cases ok
  rw [marked] at one more
  obtain ⟨-,rfl⟩ := checkedAddSome.mp (orFailOk.mp one)
  obtain ⟨-,rfl⟩ := checkedAddSome.mp (orFailOk.mp more)
  simp only [marked,same,GcReport.after,List.length_append,List.length_singleton,List.map_append,List.map_cons,
    List.map_nil,List.sum_append,List.sum_singleton,Nat.add_assoc]

theorem sweepFoldDoes (plan : PlanFor sha256 s policy candidates) (report : GcReport) (among : done <+: candidates) :
    Does (Happens fs) (Sweeps fs sha256 policy s candidates) (fun sweep t => Swept s done t ∧ sweep.report = report.after done)
      (done.foldlM sweepStep ⟨report,[],false⟩) s := by
  let Fold (rest : List DeleteCandidate) (sweep : Sweep) (t : Store) : Prop :=
    ∃ removed, done = removed ++ rest ∧ Swept s removed t ∧ sweep.report = report.after removed
  have folded : Does (Happens fs) (Sweeps fs sha256 policy s candidates) (Fold []) (done.foldlM sweepStep ⟨report,[],false⟩) s := by
    refine doesFold Fold ⟨[],rfl,sweptNone s,rfl⟩ (fun candidate rest sweep t _ _ fold => ?_)
    obtain ⟨removed,same,swept,counted⟩ := fold
    have whole : done = (removed ++ [candidate]) ++ rest := by rw [same,List.append_assoc]; rfl
    have first : removed ++ [candidate] <+: candidates := List.IsPrefix.trans ⟨rest,whole.symm⟩ among
    refine doesLoose (sweepStepDoes plan first swept sweep) (fun next u _ after => ?_)
    exact ⟨removed ++ [candidate],whole,after.1,countedAfter counted after.2⟩
  refine doesLoose folded (fun sweep t _ fold => ?_)
  obtain ⟨removed,same,swept,counted⟩ := fold
  rw [List.append_nil] at same
  subst same
  exact ⟨swept,counted⟩

theorem gcSweepDoes (plan : PlanFor sha256 s policy candidates) (report : GcReport) :
    Does (Happens fs) (Sweeps fs sha256 policy s candidates)
      (fun last t => Swept s candidates t ∧ last = report.after candidates) (gcSweep candidates report) s := by
  refine doesBind (sweepFoldDoes plan report (List.prefix_refl _)) (fun sweep t _ done => ?_)
  exact doesBind (syncGcDoes (List.prefix_refl _) done.1 sweep) (fun _ u _ after => doesPure ⟨after,done.2⟩)

variable (sha256 policy s) in
structure Prepared (limits : Limits) (plan : List DeleteCandidate × GcReport) : Prop where
  used : ∃ used, usedBytes s.seen = .ok used ∧ used.1 + used.2 < modulus
  planned : gcPlan sha256 s.seen policy limits = .ok plan.1
  report : plan.2 = ⟨plan.1.length,(plan.1.map DeleteCandidate.reclaimBytes).sum,0,0,policy.dryRun⟩

theorem candidatesSummed {start total : Nat} (ok : candidates.foldlM (fun total candidate =>
    orFail (.arithmeticOverflow "summing garbage-collection candidate bytes") (checkedAdd total candidate.reclaimBytes)) start =
      .ok total) : total = start + (candidates.map DeleteCandidate.reclaimBytes).sum := by
  induction candidates generalizing start with
  | nil => exact foldNil.mp ok
  | cons candidate rest ih =>
    obtain ⟨next,added,later⟩ := foldCons.mp ok
    obtain ⟨-,rfl⟩ := checkedAddSome.mp (orFailOk.mp added)
    rw [ih later,List.map_cons,List.sum_cons,Nat.add_assoc]

theorem gcPrepareDoes {limits : Limits} {unit : Nat} {move : Store → Store → Prop} :
    Does (Happens fs) move (fun plan t => t = s ∧ Prepared sha256 policy s limits plan) (gcPrepare sha256 unit policy limits) s := by
  refine checkThen (liftThen (fun validated valid => ?_))
  cases validatedSame (liftOk valid)
  refine checkThen (usageThen (fun used available found fits => peekThen (fun candidates planned => ?_)))
  refine liftThen (fun bytes summed => checkThen (doesPure ⟨rfl,⟨used,found,fits⟩,planned,?_⟩))
  have total := candidatesSummed summed
  rw [Nat.zero_add] at total
  simp only [total]

end Sweep

end RunnelMoe.Cas
