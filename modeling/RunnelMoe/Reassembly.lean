import RunnelMoe.CasStreams

/-! Tensors put together out of core. The pages that a tensor touches are read one after
another, each is checked against its fingerprint, and what lies outside of the tensor is
cut off. For an artifact that was accepted as a whole this never fails and gives the bytes
that the artifact holds; the tensors of an object, in the order of their offsets, are the
object. -/
namespace RunnelMoe.Cas
open Readers Results StoreErrors Words Format PageSpecs Slices Vectors KeyedSum
open Std (ExtTreeMap)

def StoredArtifact.retained (stored : StoredArtifact) (digest : Digest) : Option RetainedObject :=
  stored.objects.find? (fun object => object.descriptor.digest = digest)

def StoredArtifact.tensorPageSpecs (stored : StoredArtifact) (tensorId : Nat) : Result (List (Result ObjectPage)) := do
  let tensor ← orFail (.missing "tensor descriptor")
    (stored.manifest.tensors[tensorId]?.filter (fun tensor => tensor.id = tensorId))
  let object ← orFail (.invariant "validated tensor names an absent retained object") (stored.retained tensor.object)
  let pageSize := object.descriptor.pageSize
  let endExclusive ← orFail (.arithmeticOverflow "computing a tensor byte range")
    (checkedAdd tensor.offset tensor.length)
  let lastByte ← orFail (.invariant "validated tensor has zero length") (checkedSub endExclusive 1)
  let firstPage := tensor.offset / pageSize
  let lastPage := lastByte / pageSize
  .ok ((List.range' firstPage (lastPage + 1 - firstPage)).map (ObjectPage.forObject object))

/- Errors of the command line: those of the store, and texts. -/
inductive CliError where
  | store (stop : Stop)
  | other (message : String)
  deriving DecidableEq, Repr

def liftStop {A : Type} : Result A → Except CliError A
  | .ok a => .ok a
  | .error stop => .error (.store stop)

def appendIntersection (output : Bytes) (tensor : TensorRecord) (specification : ObjectPage) (page : Bytes) :
    Except CliError Bytes := do
  let tensorEnd ← okOr (.other "tensor range overflow") (checkedAdd tensor.offset tensor.length)
  let pageEnd ← okOr (.other "page range overflow") (checkedAdd specification.offset specification.length)
  let start := max tensor.offset specification.offset
  let last := min tensorEnd pageEnd
  if start ≥ last then .error (.other "tensor page does not intersect tensor range")
  else
    let localStart := start - specification.offset
    let localEnd := last - specification.offset
    if localStart > localEnd ∨ localEnd > page.length then
      .error (.other "verified page is shorter than its specification")
    else .ok (output ++ page.extract localStart localEnd)

def requireTensorLength (tensor : TensorRecord) (bytes : Bytes) : Except CliError Unit :=
  if bytes.length ≠ tensor.length then .error (.other "trimmed tensor bytes have the wrong length") else .ok ()

section Collecting
variable {sha256 : Bytes → Digest} (hasher : Hasher sha256)
variable {contents : Nat → Bytes} (files : ∀ inode, StableFile (contents inode))

def appendPage (tensor : TensorRecord) (output : Bytes) (specification : Result ObjectPage) : Except CliError Bytes := do
  let specification ← liftStop specification
  let page ← liftStop (Streaming.readObserved hasher (files specification.object.inode) specification)
  appendIntersection output tensor specification page

def collectTensor (stored : StoredArtifact) (tensor : TensorRecord) : Except CliError Bytes := do
  let specifications ← liftStop (stored.tensorPageSpecs tensor.id)
  let bytes ← specifications.foldlM (appendPage hasher files tensor) []
  requireTensorLength tensor bytes
  .ok bytes

def addTensor (stored : StoredArtifact) (tensors : ExtTreeMap Nat Bytes) (tensor : TensorRecord) :
    Except CliError (ExtTreeMap Nat Bytes) := do
  let bytes ← collectTensor hasher files stored tensor
  .ok (tensors.insert tensor.id bytes)

def collectSyncTensorBytes (stored : StoredArtifact) : Except CliError (ExtTreeMap Nat Bytes) :=
  stored.manifest.tensors.foldlM (addTensor hasher files stored) ∅

end Collecting

/- The stored form of an artifact: its manifest, its page tables, and files that hold the
bytes of its objects. -/
structure Mirrors (artifact : Artifact) (stored : StoredArtifact) (contents : Nat → Bytes) : Prop where
  manifest : stored.manifest = artifact.manifest
  objects : ∀ record ∈ artifact.manifest.objects, ∀ object, artifact.objects[record.digest]? = some object →
    ∃ inode, stored.retained record.digest = some ⟨record,inode,object.pageTable⟩ ∧ contents inode = object.bytes

section Opening
variable {sha256 : Bytes → Digest} {s : Seen}

/- The files that a store names by the digests of an artifact hold its bytes. -/
structure Stocks (s : Seen) (parts : ArtifactBytes) (manifest : Manifest) : Prop where
  root : ∀ inode, s.entry (.digest .manifest) (digestName manifest.artifactId) = some (.file inode) →
    s.content inode = parts.manifest
  tables : ∀ record ∈ manifest.objects, ∀ inode,
    s.entry (.digest .pageTable) (digestName record.pageTable) = some (.file inode) →
      parts.pageTables[record.pageTable]? = some (s.content inode)
  objects : ∀ record ∈ manifest.objects, ∀ inode,
    s.entry (.digest .object) (digestName record.digest) = some (.file inode) →
      parts.objects[record.digest]? = some (s.content inode)

structure Opened (sha256 : Bytes → Digest) (s : Seen) (object : RetainedObject) : Prop where
  file : s.entry (.digest .object) (digestName object.descriptor.digest) = some (.file object.inode)
  table : ∃ inode, s.entry (.digest .pageTable) (digestName object.descriptor.pageTable) = some (.file inode) ∧
    PageTable.parseVerified sha256 object.descriptor (s.content inode) = .ok object.pageTable

theorem recordOpened {objects next : List RetainedObject} {record : ObjectRecord}
    (ok : openRecord sha256 s objects record = .ok next) : ∃ object, next = objects ++ [object] ∧
      object.descriptor = record ∧ Opened sha256 s object ∧
        objects.find? (fun object => object.descriptor.digest = record.digest) = none := by
  obtain ⟨tableInode,table,ok⟩ := bindOk.mp ok
  obtain ⟨bytes,read,ok⟩ := bindOk.mp ok
  obtain ⟨pageTable,parsed,ok⟩ := bindOk.mp ok
  obtain ⟨inode,object,ok⟩ := bindOk.mp ok
  obtain ⟨fresh,ok⟩ := guardOk.mp ok
  cases ok
  obtain ⟨named,long⟩ := regularOpened table
  cases exactRead long read
  refine ⟨_,rfl,rfl,⟨(regularOpened object).1,tableInode,named,liftOk parsed⟩,?_⟩
  simpa [List.find?_eq_none] using fresh

theorem recordsOpened {records : List ObjectRecord} {objects done : List RetainedObject}
    (ok : records.foldlM (openRecord sha256 s) objects = .ok done) :
    (∃ more, done = objects ++ more) ∧ ∀ record ∈ records, ∃ object, object.descriptor = record ∧ Opened sha256 s object ∧
      done.find? (fun object => object.descriptor.digest = record.digest) = some object := by
  induction records generalizing objects with
  | nil =>
    cases foldNil.mp ok
    exact ⟨⟨[],(List.append_nil _).symm⟩,nofun⟩
  | cons first rest ih =>
    obtain ⟨next,one,later⟩ := foldCons.mp ok
    obtain ⟨object,rfl,described,opened,fresh⟩ := recordOpened one
    obtain ⟨⟨more,rfl⟩,each⟩ := ih later
    refine ⟨⟨object::more,List.append_assoc ..⟩,fun record member => ?_⟩
    rcases List.mem_cons.mp member with rfl | inside
    · refine ⟨object,described,opened,?_⟩
      rw [List.append_assoc,List.find?_append,fresh,Option.none_or,List.singleton_append,List.find?_cons_of_pos]
      rw [described,decide_eq_true_eq]
    · exact each record inside

theorem openedMirrors {parts : ArtifactBytes} {limits other : Limits} {artifact : Artifact} {stored : StoredArtifact}
    (accepted : fromBytes sha256 parts limits = .ok artifact) (stocks : Stocks s parts artifact.manifest)
    (opened : openArtifact sha256 s artifact.manifest.artifactId other = .ok stored) :
    Mirrors artifact stored s.content := by
  obtain ⟨⟨_,-,parsed⟩,kept⟩ := artifactKept accepted
  obtain ⟨_,-,opened⟩ := bindOk.mp opened
  obtain ⟨inode,leaf,opened⟩ := bindOk.mp opened
  obtain ⟨_,-,opened⟩ := bindOk.mp opened
  obtain ⟨bytes,read,opened⟩ := bindOk.mp opened
  obtain ⟨manifest,reparsed,opened⟩ := bindOk.mp opened
  obtain ⟨objects,folded,opened⟩ := bindOk.mp opened
  cases opened
  obtain ⟨again,reparsed,matched⟩ := bindOk.mp (liftOk reparsed)
  cases (guardOk.mp matched).2
  rw [boundedRead read,stocks.root inode (regularOpened leaf).1] at reparsed
  cases limitsAgree sha256 _ _ _ _ _ parsed reparsed
  refine ⟨rfl,fun record known object found => ?_⟩
  obtain ⟨retained,rfl,⟨file,tableInode,table,read⟩,listed⟩ := (recordsOpened folded).2 record known
  obtain ⟨whole,held,taken,⟨tableBytes,tabled,verified⟩,-⟩ := kept retained.descriptor known
  cases Option.some.inj (found.symm.trans held)
  cases Option.some.inj ((stocks.tables _ known tableInode table).symm.trans tabled)
  have tables := Except.ok.inj (read.symm.trans verified)
  refine ⟨retained.inode,?_,Option.some.inj ((stocks.objects _ known retained.inode file).symm.trans taken)⟩
  rw [StoredArtifact.retained,listed,← tables]

end Opening

section Pages
variable {sha256 : Bytes → Digest} {hasher : Hasher sha256} {contents : Nat → Bytes}
variable {files : ∀ inode, StableFile (contents inode)} {record : ObjectRecord} {table : PageTable} {tableBytes : Bytes}
variable {tensor : TensorRecord} {inode : Nat}

theorem intersectionAppended (fits : tensor.offset + tensor.length < modulus) {page : ObjectPage} {content : Bytes}
    (inside : page.offset + page.length ≤ content.length) (room : content.length < modulus)
    (touches : max tensor.offset page.offset < min (tensor.offset + tensor.length) (page.offset + page.length))
    (output : Bytes) :
    appendIntersection output tensor page (content.extract page.offset (page.offset + page.length)) =
      .ok (output ++ content.extract (max tensor.offset page.offset)
        (min (tensor.offset + tensor.length) (page.offset + page.length))) := by
  unfold appendIntersection
  rw [checkedAddSome.mpr ⟨fits,rfl⟩,checkedAddSome.mpr ⟨by omega,rfl⟩]
  simp only [okOr,bind,Except.bind]
  rw [if_neg (by omega),extractLength inside,if_neg (by omega),extractInside (by omega)]
  congr 4 <;> omega

theorem pageFetched {page : ObjectPage} {bytes : Bytes}
    (read : Streaming.readObserved hasher (files page.object.inode) page = .ok bytes) (output : Bytes) :
    appendPage hasher files tensor output (.ok page) = appendIntersection output tensor page bytes := by
  unfold appendPage
  simp only [liftStop,read,bind,Except.bind]

theorem pageAppended (valid : RecordValid record) (tabled : Tabled record tableBytes table)
    (genuine : Genuine sha256 record table (contents inode)) (fits : tensor.offset + tensor.length < modulus)
    (inside : tensor.offset + tensor.length ≤ record.length) {index : Nat}
    (touches : max tensor.offset (index * record.pageSize) < min (tensor.offset + tensor.length) ((index + 1) * record.pageSize))
    (output : Bytes) :
    appendPage hasher files tensor output (ObjectPage.forObject ⟨record,inode,table⟩ index) =
      .ok (output ++ (contents inode).extract (max tensor.offset (index * record.pageSize))
        (min (tensor.offset + tensor.length) ((index + 1) * record.pageSize))) := by
  have starts : index * record.pageSize < record.length := by omega
  have below := (pageStarts tabled index).mpr starts
  have room := roomLeft valid tabled
  have length := genuine.length
  obtain ⟨fingerprint,hash,-⟩ := fingerprintExists tabled below
  obtain ⟨specified,-⟩ := pageSpecified valid tabled below inode hash
  obtain ⟨page,same⟩ : ∃ page, page = pageAt ⟨record,inode,table⟩ index fingerprint := ⟨_,rfl⟩
  have ending : page.offset + page.length = min ((index + 1) * record.pageSize) record.length := by
    rw [same]
    exact pageEnd starts
  have offset : page.offset = index * record.pageSize := by rw [same]; rfl
  have read : Streaming.readObserved hasher (files page.object.inode) page =
      .ok ((contents inode).extract page.offset (page.offset + page.length)) := by
    rw [ending,offset,same]
    exact (pageObserved valid tabled length specified _).mpr ⟨genuine.pages index below,rfl⟩
  have cut : min (tensor.offset + tensor.length) (min ((index + 1) * record.pageSize) record.length) =
      min (tensor.offset + tensor.length) ((index + 1) * record.pageSize) := by omega
  rw [specified,← same,pageFetched read,intersectionAppended fits (by omega) (by omega) (by omega),ending,offset,cut]

end Pages

section Tensors
variable {sha256 : Bytes → Digest} {hasher : Hasher sha256} {contents : Nat → Bytes}
variable {files : ∀ inode, StableFile (contents inode)} {artifact : Artifact} {stored : StoredArtifact}
variable {parts : ArtifactBytes} {limits : Limits} {tensor : TensorRecord}

theorem specificationsListed {object : RetainedObject} (listed : stored.manifest.tensors[tensor.id]? = some tensor)
    (found : stored.retained tensor.object = some object) (positive : 0 < tensor.length)
    (fits : tensor.offset + tensor.length < modulus) :
    stored.tensorPageSpecs tensor.id = .ok ((List.range' (tensor.offset / object.descriptor.pageSize)
      ((tensor.offset + tensor.length - 1) / object.descriptor.pageSize + 1 -
        tensor.offset / object.descriptor.pageSize)).map (ObjectPage.forObject object)) := by
  unfold StoredArtifact.tensorPageSpecs
  rw [listed,Option.filter_some,if_pos (decide_eq_true rfl)]
  simp only [orFail,bind,Except.bind]
  rw [found,checkedAddSome.mpr ⟨fits,rfl⟩]
  simp only
  rw [checkedSubSome.mpr ⟨by omega,rfl⟩]

theorem pageTouches {size first last index : Nat} (positive : 0 < size) (some : first < last)
    (member : index ∈ List.range' (first / size) ((last - 1) / size + 1 - first / size)) :
    max first (index * size) < min last ((index + 1) * size) := by
  obtain ⟨above,below⟩ := List.mem_range'_1.mp member
  have ordered : first / size ≤ (last - 1) / size := Nat.div_le_div_right (by omega)
  have early : first < (index + 1) * size := (Nat.div_lt_iff_lt_mul positive).mp (by omega)
  have late : index * size ≤ last - 1 := (Nat.le_div_iff_mul_le positive).mp (by omega)
  have grows : index * size < (index + 1) * size := Nat.mul_lt_mul_of_pos_right (Nat.lt_succ_self _) positive
  omega

variable {record : ObjectRecord} {object : VerifiedObject}

theorem pagesAppended {table : PageTable} {tableBytes : Bytes} {inode : Nat}
    (valid : RecordValid record) (tabled : Tabled record tableBytes table)
    (genuine : Genuine sha256 record table (contents inode)) (positive : 0 < tensor.length)
    (fits : tensor.offset + tensor.length < modulus) (inside : tensor.offset + tensor.length ≤ record.length) :
    ((List.range' (tensor.offset / record.pageSize) ((tensor.offset + tensor.length - 1) / record.pageSize + 1 -
      tensor.offset / record.pageSize)).map (ObjectPage.forObject ⟨record,inode,table⟩)).foldlM
        (appendPage hasher files tensor) [] =
      .ok ((contents inode).extract tensor.offset (tensor.offset + tensor.length)) := by
  obtain ⟨paged,-,-⟩ := countExact tabled.pageCount
  have some : tensor.offset < tensor.offset + tensor.length := by omega
  rw [List.foldlM_map,foldAppends (fun index member => pageAppended valid tabled genuine fits inside
    (pageTouches paged some member)),List.nil_append,← tiledJoin (contents inode) (pagesTiled paged some),List.map_map]
  rfl

theorem tensorCollected {inode : Nat} (valid : RecordValid record)
    (kept : Kept sha256 parts record object) (retained : stored.retained tensor.object = some ⟨record,inode,object.pageTable⟩)
    (content : contents inode = object.bytes) (listed : stored.manifest.tensors[tensor.id]? = some tensor)
    (positive : 0 < tensor.length) (fits : tensor.offset + tensor.length < modulus)
    (inside : tensor.offset + tensor.length ≤ record.length) :
    collectTensor hasher files stored tensor = .ok (object.bytes.extract tensor.offset (tensor.offset + tensor.length)) := by
  obtain ⟨-,⟨tableBytes,-,parsed⟩,genuine⟩ := kept
  have tabled := parsedTable parsed
  rw [← content] at genuine ⊢
  have length : ((contents inode).extract tensor.offset (tensor.offset + tensor.length)).length = tensor.length := by
    rw [extractLength (by rw [genuine.length]; exact inside),Nat.add_sub_cancel_left]
  unfold collectTensor requireTensorLength
  rw [specificationsListed listed retained positive fits]
  simp only [liftStop,bind,Except.bind,pagesAppended valid tabled genuine positive fits inside,length,ne_eq,not_true,if_false]

theorem tensorHeld (listed : artifact.manifest.tensors[tensor.id]? = some tensor)
    (found : artifact.objects[tensor.object]? = some object) (fits : tensor.offset + tensor.length < modulus)
    (inside : tensor.offset + tensor.length ≤ object.bytes.length) :
    artifact.tensorBytes tensor.id = some (object.bytes.extract tensor.offset (tensor.offset + tensor.length)) := by
  unfold Artifact.tensorBytes
  simp only [listed,found,checkedAddSome.mpr ⟨fits,rfl⟩,Option.bind_eq_bind,Option.bind_some,ne_eq,not_true,if_false,
    if_pos inside]

theorem unknownBytes {id : Nat} (unknown : id ∉ artifact.manifest.tensors.map TensorRecord.id) :
    artifact.tensorBytes id = none := by
  unfold Artifact.tensorBytes
  cases listed : artifact.manifest.tensors[id]? with
  | none => rfl
  | some tensor =>
    have other : tensor.id ≠ id := fun same => unknown (List.mem_map.mpr ⟨tensor,List.mem_of_getElem? listed,same⟩)
    rw [Option.bind_eq_bind,Option.bind_some,if_pos other]

structure Placed (sha256 : Bytes → Digest) (parts : ArtifactBytes) (artifact : Artifact) (tensor : TensorRecord) (record : ObjectRecord)
    (object : VerifiedObject) : Prop where
  listed : artifact.manifest.tensors[tensor.id]? = some tensor
  known : record ∈ artifact.manifest.objects
  named : record.digest = tensor.object
  found : artifact.objects[record.digest]? = some object
  kept : Kept sha256 parts record object
  positive : 0 < tensor.length
  fits : tensor.offset + tensor.length < modulus
  inside : tensor.offset + tensor.length ≤ record.length

theorem tensorFound (accepted : fromBytes sha256 parts limits = .ok artifact)
    (member : tensor ∈ artifact.manifest.tensors) : ∃ record object, Placed sha256 parts artifact tensor record object := by
  obtain ⟨⟨_,-,read⟩,kept⟩ := artifactKept accepted
  obtain ⟨index,listed⟩ := List.mem_iff_getElem?.mp member
  obtain ⟨id,positive,fits,record,known,named,inside⟩ := (parsedValid read).tensors index tensor listed
  obtain ⟨object,found,whole⟩ := kept record known
  exact ⟨record,object,id ▸ listed,known,named,found,whole,positive,fits,inside⟩

theorem heldBytes (held : Placed sha256 parts artifact tensor record object) :
    artifact.tensorBytes tensor.id = some (object.bytes.extract tensor.offset (tensor.offset + tensor.length)) ∧
      (object.bytes.extract tensor.offset (tensor.offset + tensor.length)).length = tensor.length := by
  have length := held.kept.genuine.length
  have inside := held.inside
  refine ⟨tensorHeld held.listed (held.named ▸ held.found) held.fits (by omega),?_⟩
  rw [extractLength (by omega),Nat.add_sub_cancel_left]

theorem heldCollected (manifest : ManifestValid artifact.manifest)
    (held : Placed sha256 parts artifact tensor record object) (retains : Mirrors artifact stored contents) :
    collectTensor hasher files stored tensor = .ok (object.bytes.extract tensor.offset (tensor.offset + tensor.length)) := by
  obtain ⟨inode,retained,content⟩ := retains.objects record held.known object held.found
  exact tensorCollected (manifest.records record held.known) held.kept (held.named ▸ retained) content
    (retains.manifest ▸ held.listed) held.positive held.fits held.inside

theorem allCollected {tensors : List TensorRecord} (each : ∀ tensor ∈ tensors, ∃ bytes,
      artifact.tensorBytes tensor.id = some bytes ∧ collectTensor hasher files stored tensor = .ok bytes)
    (before : ExtTreeMap Nat Bytes) : ∃ after, tensors.foldlM (addTensor hasher files stored) before = .ok after ∧
      ∀ id, after[id]? = if id ∈ tensors.map TensorRecord.id then artifact.tensorBytes id else before[id]? := by
  induction tensors generalizing before with
  | nil => exact ⟨before,rfl,fun _ => rfl⟩
  | cons tensor rest ih =>
    obtain ⟨bytes,held,collected⟩ := each tensor List.mem_cons_self
    obtain ⟨after,done,found⟩ := ih (fun other member => each other (List.mem_cons_of_mem _ member))
      (before.insert tensor.id bytes)
    have first : addTensor hasher files stored before tensor = .ok (before.insert tensor.id bytes) := by
      unfold addTensor
      rw [collected]
      rfl
    refine ⟨after,foldCons.mpr ⟨_,first,done⟩,fun id => ?_⟩
    rw [found id,getInsert,List.map_cons]
    by_cases later : id ∈ rest.map TensorRecord.id
    · rw [if_pos later,if_pos (List.mem_cons_of_mem _ later)]
    · by_cases same : id = tensor.id
      · rw [if_neg later,if_pos same,if_pos (List.mem_cons.mpr (.inl same)),same,held]
      · rw [if_neg later,if_neg same,if_neg (fun member => (List.mem_cons.mp member).elim same later)]

/- The tensors of an object tile it, so their bytes one after another are the object. -/
theorem objectJoined (accepted : fromBytes sha256 parts limits = .ok artifact) (known : record ∈ artifact.manifest.objects)
    (found : artifact.objects[record.digest]? = some object) (length : object.bytes.length = record.length) :
    ((sortByKey TensorRecord.offset (artifact.manifest.tensorsOf record.digest)).filterMap
      (fun tensor => artifact.tensorBytes tensor.id)).flatten = object.bytes := by
  obtain ⟨⟨_,-,read⟩,-⟩ := artifactKept accepted
  have covered := (parsedValid read).covered record known
  have each : ∀ tensor ∈ sortByKey TensorRecord.offset (artifact.manifest.tensorsOf record.digest),
      artifact.tensorBytes tensor.id = some (object.bytes.extract tensor.range.1 tensor.range.2) := by
    intro tensor member
    obtain ⟨listed,same⟩ := List.mem_filter.mp ((sortByKeyPerm _ _).mem_iff.mp member)
    obtain ⟨other,holder,held⟩ := tensorFound accepted listed
    have shared : some holder = some object := by
      rw [← held.found,← found,held.named,of_decide_eq_true same]
    rw [← Option.some.inj shared]
    exact (heldBytes held).1
  have joined := tiledJoin object.bytes covered
  rw [List.map_map,← length,extractWhole] at joined
  rw [List.filterMap_congr each,List.filterMap_eq_map']
  exact joined

end Tensors

theorem tensorsReassembled {sha256 : Bytes → Digest} {parts : ArtifactBytes} {limits : Limits} {artifact : Artifact}
    (accepted : fromBytes sha256 parts limits = .ok artifact) {stored : StoredArtifact} {contents : Nat → Bytes}
    (retains : Mirrors artifact stored contents) (files : ∀ inode, StableFile (contents inode)) (hasher : Hasher sha256) :
    (∀ tensor ∈ artifact.manifest.tensors, ∃ bytes, collectTensor hasher files stored tensor = .ok bytes ∧
      artifact.tensorBytes tensor.id = some bytes ∧ bytes.length = tensor.length) ∧
    (∃ tensors, collectSyncTensorBytes hasher files stored = .ok tensors ∧
      ∀ id, tensors[id]? = artifact.tensorBytes id) ∧
    ∀ record ∈ artifact.manifest.objects, ∃ object, artifact.objects[record.digest]? = some object ∧
      ((sortByKey TensorRecord.offset (artifact.manifest.tensorsOf record.digest)).filterMap
        (fun tensor => artifact.tensorBytes tensor.id)).flatten = object.bytes := by
  obtain ⟨⟨_,-,read⟩,kept⟩ := artifactKept accepted
  have each : ∀ tensor ∈ artifact.manifest.tensors, ∃ bytes, collectTensor hasher files stored tensor = .ok bytes ∧
      artifact.tensorBytes tensor.id = some bytes ∧ bytes.length = tensor.length := by
    intro tensor member
    obtain ⟨record,object,held⟩ := tensorFound accepted member
    exact ⟨_,heldCollected (parsedValid read) held retains,heldBytes held⟩
  refine ⟨each,?_,?_⟩
  · have collects : ∀ tensor ∈ stored.manifest.tensors, ∃ bytes,
        artifact.tensorBytes tensor.id = some bytes ∧ collectTensor hasher files stored tensor = .ok bytes := by
      intro tensor member
      obtain ⟨bytes,collected,held,-⟩ := each tensor (retains.manifest ▸ member)
      exact ⟨bytes,held,collected⟩
    obtain ⟨tensors,collected,found⟩ := allCollected collects ∅
    refine ⟨tensors,collected,fun id => ?_⟩
    rw [found id,retains.manifest]
    split
    · rfl
    · rename_i unknown
      rw [unknownBytes unknown]
      rfl
  · intro record known
    obtain ⟨object,found,whole⟩ := kept record known
    exact ⟨object,found,objectJoined accepted known found whole.genuine.length⟩

def pagedParts : ArtifactBytes where
  manifest := canonicalTree (manifestTree pagedManifest)
  objects := (∅ : ExtTreeMap Digest Bytes).insert pagedDigest pagedObject
  pageTables := (∅ : ExtTreeMap Digest Bytes).insert pagedTableDigest pagedTable

theorem pagedLoaded : ∃ artifact, fromBytes knownSha pagedParts Limits.default = .ok artifact ∧
    artifact.manifest.objects = [pagedRecord] ∧ artifact.manifest.tensors = pagedManifest.tensors ∧
      artifact.manifest.artifactId = pagedManifestDigest ∧
        artifact.objects[pagedDigest]? = some ⟨pagedObject,pagedPages⟩ := by
  obtain ⟨manifest,parsed,objects,tensors,named,within,counted⟩ := pagedRead
  have verified : Loading.verifyRecord knownSha ⟨pagedParts.objects,pagedParts.pageTables,∅⟩ pagedRecord =
      .ok ⟨pagedParts.objects.erase pagedDigest,pagedParts.pageTables.erase pagedTableDigest,
        (∅ : ExtTreeMap Digest VerifiedObject).insert pagedDigest ⟨pagedObject,pagedPages⟩⟩ :=
    bindOk.mpr ⟨pagedTable,okOrOk.mpr (getInsertSame ..),bindOk.mpr ⟨pagedPages,pagedParsed,bindOk.mpr
      ⟨pagedObject,okOrOk.mpr (getInsertSame ..),bindOk.mpr
        ⟨(),(eagerGenuine (parsedTable pagedParsed)).mpr pagedGenuine,rfl⟩⟩⟩⟩
  have loaded := foldCons.mpr ⟨_,verified,foldNil.mpr rfl⟩
  rw [← objects] at loaded
  have whole : verifyLoaded knownSha manifest pagedParts.objects pagedParts.pageTables Limits.default = .ok _ :=
    bindOk.mpr ⟨(),within,bindOk.mpr ⟨_,loaded,bindOk.mpr ⟨_,valueOk counted,rfl⟩⟩⟩
  have accepted : fromBytes knownSha pagedParts Limits.default = .ok _ :=
    bindOk.mpr ⟨Limits.default,rfl,bindOk.mpr ⟨manifest,parsed,bindOk.mpr ⟨(),within,whole⟩⟩⟩
  exact ⟨_,accepted,objects,tensors,named,getInsertSame ..⟩

theorem pagedReassembled : ∃ artifact stored tensors, fromBytes knownSha pagedParts Limits.default = .ok artifact ∧
    Mirrors artifact stored (fun _ => pagedObject) ∧
    collectSyncTensorBytes (wholeHasher knownSha) (fun _ => bytewise pagedObject) stored = .ok tensors ∧
    tensors[pagedHead.id]? = some [1,2,3,4,5,6,7,8] ∧
    ((sortByKey TensorRecord.offset (artifact.manifest.tensorsOf pagedDigest)).filterMap
      (fun tensor => artifact.tensorBytes tensor.id)).flatten = pagedObject := by
  obtain ⟨artifact,loaded,objects,listed,-,found⟩ := pagedLoaded
  have retains : Mirrors artifact ⟨artifact.manifest,[⟨pagedRecord,0,pagedPages⟩]⟩ (fun _ => pagedObject) := by
    refine ⟨rfl,fun record known object held => ?_⟩
    rw [objects] at known
    cases List.mem_singleton.mp known
    cases Option.some.inj (found.symm.trans held)
    exact ⟨0,List.find?_cons_of_pos (decide_eq_true rfl),rfl⟩
  obtain ⟨-,⟨tensors,collected,same⟩,joined⟩ :=
    tensorsReassembled loaded retains (fun _ => bytewise _) (wholeHasher knownSha)
  refine ⟨artifact,_,tensors,loaded,retains,collected,?_,?_⟩
  · have known : artifact.manifest.tensors[pagedHead.id]? = some pagedHead := by
      rw [listed]
      rfl
    have inside : pagedHead.offset + pagedHead.length ≤ pagedObject.length := Nat.le_of_eq pagedLength.symm
    rw [same,tensorHeld known found (by decide) inside,List.extract_eq_take_drop,show pagedHead.offset = 65532 from rfl,pagedTail]
    rfl
  · have known : pagedRecord ∈ artifact.manifest.objects := objects ▸ List.mem_singleton.mpr rfl
    obtain ⟨object,held,whole⟩ := joined pagedRecord known
    cases Option.some.inj (found.symm.trans held)
    exact whole

/- The same artifact in a store, one file for each blob. -/

def threeFiles (manifest object : Bytes) : Seen where
  names
    | .digest .manifest => (∅ : ExtTreeMap Name Leaf).insert (digestName pagedManifestDigest) (.file 0)
    | .digest .pageTable => (∅ : ExtTreeMap Name Leaf).insert (digestName pagedTableDigest) (.file 1)
    | .digest .object => (∅ : ExtTreeMap Name Leaf).insert (digestName pagedDigest) (.file 2)
    | .staging => ∅
  inodes inode := ⟨[manifest,pagedTable].getD inode object,true,1⟩

def pagedStore : Seen := threeFiles pagedParts.manifest pagedObject

theorem pagedContent : pagedStore.content 2 = pagedObject :=
  have third (manifest object : Bytes) : (threeFiles manifest object).content 2 = object := rfl
  third ..

theorem pagedOpens : ∃ manifest, manifest.artifactId = pagedManifestDigest ∧
    openArtifact knownSha pagedStore pagedManifestDigest Limits.default = .ok ⟨manifest,[⟨pagedRecord,2,pagedPages⟩]⟩ := by
  obtain ⟨manifest,parsed,objects,-,named,-⟩ := pagedRead
  have expected : parseWithExpectedId knownSha pagedParts.manifest Limits.default pagedManifestDigest = .ok manifest :=
    bindOk.mpr ⟨manifest,parsed,guardOk.mpr ⟨not_not.mpr named,rfl⟩⟩
  have table : openRegularLeaf pagedStore (.digest .pageTable) (digestName pagedTableDigest) "page table" 128 = .ok 1 := by
    decide +kernel
  have leaf : openLeaf pagedStore (.digest .object) (digestName pagedDigest) "object" "opening retained entry" = .ok 2 := by
    decide +kernel
  have length : (pagedStore.content 2).length = 65540 := by rw [pagedContent,pagedLength]
  have record : openRecord knownSha pagedStore [] pagedRecord = .ok [⟨pagedRecord,2,pagedPages⟩] :=
    bindOk.mpr ⟨1,table,bindOk.mpr ⟨pagedTable,by decide +kernel,bindOk.mpr ⟨pagedPages,congrArg liftFormat pagedParsed,
      bindOk.mpr ⟨2,bindOk.mpr ⟨2,leaf,guardOk.mpr ⟨not_not.mpr length,rfl⟩⟩,rfl⟩⟩⟩⟩
  have records := foldCons.mpr ⟨_,record,foldNil.mpr rfl⟩
  rw [← objects] at records
  exact ⟨manifest,named,bindOk.mpr ⟨864,by decide +kernel,bindOk.mpr ⟨0,by decide +kernel,bindOk.mpr ⟨Limits.default,rfl,
    bindOk.mpr ⟨pagedParts.manifest,by decide +kernel,bindOk.mpr ⟨manifest,congrArg liftFormat expected,
      bindOk.mpr ⟨_,records,rfl⟩⟩⟩⟩⟩⟩⟩

theorem pagedOpened : ∃ artifact stored, stored.objects = [⟨pagedRecord,2,pagedPages⟩] ∧
    Mirrors artifact stored pagedStore.content := by
  obtain ⟨artifact,loaded,objects,-,named,-⟩ := pagedLoaded
  obtain ⟨manifest,-,opened⟩ := pagedOpens
  refine ⟨artifact,_,rfl,openedMirrors loaded ?_ (named.symm ▸ opened)⟩
  constructor
  · intro inode found
    rw [named] at found
    cases (getInsertSame ..).symm.trans found
    rfl
  all_goals
    intro record known inode found
    rw [objects] at known
    cases List.mem_singleton.mp known
    cases (getInsertSame ..).symm.trans found
    exact getInsertSame ..

def lastPage : ObjectPage := ⟨⟨pagedDigest,65536,1⟩,65536,4,lastDigest,⟨pagedRecord,2,pagedPages⟩⟩

theorem lastPageRead : readPage knownSha pagedStore lastPage = .ok [5,6,7,8] := by
  have tail : pagedObject.drop 65536 = [5,6,7,8] := by
    rw [show 65536 = 65532 + 4 from rfl,← List.drop_drop,pagedTail]
    rfl
  have length : (pagedStore.content 2).length = 65540 := by rw [pagedContent,pagedLength]
  have read : readExactAt (pagedStore.content 2) 65536 4 "page" = .ok [5,6,7,8] := by
    rw [readExactAt,length,pagedContent,slice,tail]
    rfl
  exact bindOk.mpr ⟨(),by decide +kernel,guardOk.mpr ⟨not_not.mpr length,bindOk.mpr ⟨_,read,rfl⟩⟩⟩

theorem pagedObserved :
    Streaming.readObserved (wholeHasher knownSha) (bytewise (pagedStore.content 2)) lastPage = .ok [5,6,7,8] :=
  (observedStreamed (s := pagedStore) (by decide)).trans lastPageRead

end RunnelMoe.Cas
