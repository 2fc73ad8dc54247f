import RunnelMoe.Artifacts
import RunnelMoe.CasFiles
import RunnelMoe.CasOpen
import RunnelMoe.ManifestUnique

/-! Verification of retained files piece by piece. A file is hashed through a buffer,
its pages are read and hashed one after another, and a reader checks one page at a time.
The file does not change while it is read, and the control neither cancels nor expires, so
its checks are left out. The loops are shown to be the functions of the whole content that
stand for them elsewhere, and all of them to decide the same of an object. -/
namespace RunnelMoe.Cas
open Readers Results StoreErrors Words Format PageSpecs Slices

namespace Streaming
variable {sha256 : Bytes → Digest} (hasher : Hasher sha256) {content : Bytes} (file : StableFile content)

def hashRetained (expectedLength : Nat) (kind : String) (buffer : CopyBuffer) (offset : Nat) (state : hasher.State) :
    Result hasher.State :=
  if offset < expectedLength then
    let length := min (expectedLength - offset) buffer
    match readExactAt file offset length kind with
    | .error stop => .error stop
    | .ok bytes =>
      match checkedAdd offset length with
      | none => failed (.arithmeticOverflow "hashing retained bytes")
      | some _ => hashRetained expectedLength kind buffer (offset + length) (hasher.update state bytes)
  else .ok state
termination_by expectedLength - offset
decreasing_by
  have := buffer.2
  omega

def verifyDigest (digest : Digest) (expectedLength : Nat) (kind : String) (buffer : CopyBuffer) : Result Unit := do
  let initialLength := content.length
  if initialLength ≠ expectedLength then failed (.lengthMismatch kind expectedLength initialLength)
  else
    let state ← hashRetained hasher file expectedLength kind buffer 0 hasher.new
    let finalLength := content.length
    if finalLength ≠ expectedLength then failed (.lengthMismatch kind expectedLength finalLength)
    else if hasher.finalize state ≠ digest then failed (.integrity kind)
    else .ok ()

def digestBytes (bytes : Bytes) (size : Nat) : Digest :=
  hasher.finalize ((Slices.chunks size bytes).foldl hasher.update hasher.new)

def verifyPage (record : ObjectRecord) (table : PageTable) (buffer : CopyBuffer) (pageIndex : Nat) : Result Unit := do
  let offset ← orFail (.arithmeticOverflow "computing an object page offset") (checkedMul pageIndex record.pageSize)
  let length := min (record.length - offset) record.pageSize
  let bytes ← readExactAt file offset length "object page"
  if table.pageHash pageIndex ≠ some (digestBytes hasher bytes buffer).bytes then failed (.integrity "object page")
  else .ok ()

def verifyObject (record : ObjectRecord) (table : PageTable) (buffer : CopyBuffer) : Result Unit := do
  if table.objectDigest ≠ record.digest ∨ table.objectLength ≠ record.length ∨ table.pageSize ≠ record.pageSize then
    failed (.integrity "page table")
  else
    verifyDigest hasher file record.digest record.length "object" buffer
    (List.range table.pageCount).foldlM (fun _ pageIndex => verifyPage hasher file record table buffer pageIndex) ()

def readObserved (page : ObjectPage) : Result Bytes := do
  validateSpecification page
  let expectedObjectLength := page.object.descriptor.length
  let initialLength := content.length
  if initialLength ≠ expectedObjectLength then failed (.lengthMismatch "object" expectedObjectLength initialLength)
  else
    let bytes ← readExactAt file page.offset page.length "page"
    let finalLength := content.length
    if finalLength ≠ expectedObjectLength then failed (.lengthMismatch "object" expectedObjectLength finalLength)
    else if digestBytes hasher bytes readChunkBytes ≠ page.fingerprint then failed (.integrity "page")
    else .ok bytes

end Streaming

section Streamed
variable {sha256 : Bytes → Digest} {hasher : Hasher sha256} {content : Bytes} {file : StableFile content}
variable {kind : String} {buffer : CopyBuffer} {offset length : Nat} {page : ObjectPage}

theorem readInside (inside : offset + length ≤ content.length) :
    readExactAt content offset length kind = .ok (content.extract offset (offset + length)) := by
  unfold readExactAt
  rw [if_neg (by omega),sliceExtract]

theorem hashedFrom (fits : content.length + 63 < modulus) (inside : offset ≤ content.length)
    {pieces : List Bytes} (fed : pieces.flatten = content.extract 0 offset) :
    ∃ all : List Bytes, Streaming.hashRetained hasher file content.length kind buffer offset
      (pieces.foldl hasher.update hasher.new) = .ok (all.foldl hasher.update hasher.new) ∧ all.flatten = content := by
  induction left : content.length - offset using Nat.strong_induction_on generalizing offset pieces with
  | h left ih =>
    unfold Streaming.hashRetained
    split
    · rename_i more
      have positive := buffer.2
      obtain ⟨length,small⟩ : ∃ length, length = min (content.length - offset) buffer := ⟨_,rfl⟩
      simp only [← small]
      rw [readStreamed (by omega) fits,checkedAddSome.mpr ⟨by omega,rfl⟩]
      have grown : (pieces ++ [content.extract offset (offset + length)]).flatten = content.extract 0 (offset + length) := by
        rw [List.flatten_append,fed,List.flatten_singleton]
        exact extractJoin (Nat.zero_le _) (Nat.le_add_right ..)
      have later := ih _ (by omega) (by omega) grown rfl
      rwa [List.foldl_append] at later
    · rename_i done
      refine ⟨pieces,rfl,?_⟩
      rw [fed,show offset = content.length by omega,extractWhole]

theorem digestStreamed {size : Nat} (positive : 0 < size) (bytes : Bytes) :
    Streaming.digestBytes hasher bytes size = sha256 bytes := by
  rw [Streaming.digestBytes,hasher.streams,chunksFlatten positive]

theorem verifyDigestStreamed {expectedLength : Nat} (fits : expectedLength + 63 < modulus) (digest : Digest) :
    Streaming.verifyDigest hasher file digest expectedLength kind buffer =
      verifyDigest sha256 content digest expectedLength kind := by
  unfold Streaming.verifyDigest verifyDigest
  by_cases long : content.length = expectedLength
  · subst long
    obtain ⟨all,hashed,whole⟩ := @hashedFrom sha256 hasher content file kind buffer 0 fits (Nat.zero_le _) [] rfl
    have hashed : Streaming.hashRetained hasher file content.length kind buffer 0 hasher.new = _ := hashed
    simp only [hashed,bind,Except.bind]
    rw [hasher.streams,whole]
    simp
  · simp only [if_pos long]

theorem validatedInside (ok : validateSpecification page = .ok ()) :
    page.offset + page.length ≤ page.object.descriptor.length := by
  obtain ⟨-,ok⟩ := guardOk.mp ok
  obtain ⟨offset,-,ok⟩ := bindOk.mp ok
  obtain ⟨remaining,less,ok⟩ := bindOk.mp ok
  obtain ⟨_,-,ok⟩ := bindOk.mp ok
  obtain ⟨exact_,-⟩ := guardOk.mp ok
  obtain ⟨below,rfl⟩ := checkedSubSome.mp (orFailOk.mp less)
  simp only [not_or,not_not] at exact_
  omega

theorem observedExact (validated : validateSpecification page = .ok ())
    (length : content.length = page.object.descriptor.length) (fits : page.object.descriptor.length + 63 < modulus)
    {bytes : Bytes} : Streaming.readObserved hasher file page = .ok bytes ↔
      sha256 bytes = page.fingerprint ∧ bytes = content.extract page.offset (page.offset + page.length) := by
  have inside := validatedInside validated
  unfold Streaming.readObserved
  rw [validated]
  simp only [bind,Except.bind,if_neg (not_not.mpr length)]
  rw [readStreamed (by omega) (by omega)]
  simp only [digestStreamed (show 0 < readChunkBytes by decide),failed,guardOk,not_not,Except.ok.injEq]
  constructor
  · rintro ⟨same,rfl⟩
    exact ⟨same,rfl⟩
  · rintro ⟨same,rfl⟩
    exact ⟨same,rfl⟩

theorem observedStreamed {s : Seen} {file : StableFile (s.content page.object.inode)}
    (fits : page.object.descriptor.length + 63 < modulus) :
    Streaming.readObserved hasher file page = readPage sha256 s page := by
  unfold Streaming.readObserved readPage
  cases validated : validateSpecification page with
  | error stop => rfl
  | ok =>
    have inside := validatedInside validated
    simp only [bind,Except.bind]
    by_cases length : (s.content page.object.inode).length = page.object.descriptor.length
    · rw [if_neg (not_not.mpr length),if_neg (not_not.mpr length),readStreamed (by omega) (by omega),readInside (by omega)]
      simp only [if_neg (not_not.mpr length),digestStreamed (show 0 < readChunkBytes by decide)]
    · rw [if_pos length,if_pos length]

end Streamed

section Pages
variable {sha256 : Bytes → Digest} {hasher : Hasher sha256} {content : Bytes} {file : StableFile content}
variable {buffer : CopyBuffer} {record : ObjectRecord} {tableBytes : Bytes} {table : PageTable} {index : Nat}

theorem pageEnd (inside : index * record.pageSize < record.length) :
    index * record.pageSize + min (record.length - index * record.pageSize) record.pageSize =
      min ((index + 1) * record.pageSize) record.length := by
  rw [Nat.succ_mul]
  omega

def pageAt (object : RetainedObject) (index : Nat) (fingerprint : Digest) : ObjectPage where
  key := ⟨object.descriptor.digest,object.descriptor.pageSize,index⟩
  offset := index * object.descriptor.pageSize
  length := min (object.descriptor.length - index * object.descriptor.pageSize) object.descriptor.pageSize
  fingerprint := fingerprint
  object := object

theorem digestEqual {a b : Digest} : a = b ↔ b.bytes = a.bytes := by
  cases a
  cases b
  rw [Digest.mk.injEq,eq_comm]

theorem fingerprintExists (tabled : Tabled record tableBytes table) (below : index < table.pageCount) :
    ∃ fingerprint, tableHash table index = some fingerprint ∧ table.pageHash index = some fingerprint.bytes := by
  have length := tabled.length
  have width : (tableBytes.extract (index * 32 + 64) (index * 32 + 96)).length = 32 := by
    rw [extractLength (by omega)]
    omega
  refine ⟨⟨_,width⟩,?_,hashSome tabled below⟩
  rw [tableHash,hashSome tabled below,Option.bind_some,digestFromBytes,dif_pos width]

variable (valid : RecordValid record) (tabled : Tabled record tableBytes table)
include valid tabled

theorem roomLeft : record.length + 63 < modulus := by
  obtain ⟨-,-,fits⟩ := countExact tabled.pageCount
  have large : 65536 ≤ record.pageSize := valid.pages.1
  omega

theorem verifyPageStreamed (length : content.length = record.length) (below : index < table.pageCount) :
    Streaming.verifyPage hasher file record table buffer index = verifyPage sha256 content record table index := by
  have room := roomLeft valid tabled
  have inside := (pageStarts tabled index).mp below
  have ending := pageEnd inside
  unfold Streaming.verifyPage verifyPage
  rw [checkedMulSome.mpr ⟨by omega,rfl⟩]
  simp only [orFail,bind,Except.bind]
  rw [readStreamed (by omega) (by omega),readInside (by omega)]
  simp only [digestStreamed buffer.2]

theorem verifyObjectStreamed :
    Streaming.verifyObject hasher file record table buffer = verifyObject sha256 content record table := by
  unfold Streaming.verifyObject verifyObject
  rw [verifyDigestStreamed (roomLeft valid tabled)]
  cases checked : verifyDigest sha256 content record.digest record.length "object" with
  | error stop => rfl
  | ok =>
    have length := not_not.mp (guardOk.mp checked).1
    rw [foldSame (fun index member _ => verifyPageStreamed valid tabled length (List.mem_range.mp member))]

theorem pageGenuine (length : content.length = record.length) (below : index < table.pageCount) :
    verifyPage sha256 content record table index = .ok () ↔ table.pageHash index = some (sha256
      (content.extract (index * record.pageSize) (min ((index + 1) * record.pageSize) record.length))).bytes := by
  have room := roomLeft valid tabled
  have inside := (pageStarts tabled index).mp below
  have ending := pageEnd inside
  unfold verifyPage
  rw [checkedMulSome.mpr ⟨by omega,rfl⟩]
  simp only [orFail,bind,Except.bind]
  rw [readInside (by omega),ending]
  simp only [failed,guardOk,not_not,and_true]

theorem storedGenuine :
    verifyObject sha256 content record table = .ok () ↔ Genuine sha256 record table content := by
  have matching : ¬(table.objectDigest ≠ record.digest ∨ table.objectLength ≠ record.length ∨
      table.pageSize ≠ record.pageSize) := by
    simp only [tabled.objectDigest,tabled.objectLength,tabled.pageSize,ne_eq,not_true,or_self,not_false_eq_true]
  have pages (length : content.length = record.length) : (List.range table.pageCount).foldlM
      (fun _ index => verifyPage sha256 content record table index) () = .ok () ↔ ∀ i ∈ List.range table.pageCount, _ :=
    checksAll (fun index member => pageGenuine valid tabled length (List.mem_range.mp member))
  unfold verifyObject
  rw [if_neg matching]
  constructor
  · intro ok
    obtain ⟨⟨⟩,checked,ok⟩ := bindOk.mp ok
    obtain ⟨length,checked⟩ := guardOk.mp checked
    obtain ⟨digest,-⟩ := guardOk.mp checked
    refine ⟨not_not.mp length,not_not.mp digest,fun i below => ?_⟩
    exact (pages (not_not.mp length)).mp ok i (List.mem_range.mpr below)
  · intro genuine
    refine bindOk.mpr ⟨(),?_,(pages genuine.length).mpr (fun i member => genuine.pages i (List.mem_range.mp member))⟩
    unfold verifyDigest
    rw [if_neg (not_not.mpr genuine.length),if_neg (not_not.mpr genuine.digest)]

theorem pageSpecified (below : index < table.pageCount) (inode : Nat) {fingerprint : Digest}
    (hash : tableHash table index = some fingerprint) :
    ObjectPage.forObject ⟨record,inode,table⟩ index = .ok (pageAt ⟨record,inode,table⟩ index fingerprint) ∧
      validateSpecification (pageAt ⟨record,inode,table⟩ index fingerprint) = .ok () := by
  have room := roomLeft valid tabled
  have inside := (pageStarts tabled index).mp below
  have product : checkedMul record.pageSize index = some (index * record.pageSize) :=
    checkedMulSome.mpr ⟨by rw [Nat.mul_comm]; omega,Nat.mul_comm ..⟩
  have rest : checkedSub record.length (index * record.pageSize) = some (record.length - index * record.pageSize) :=
    checkedSubSome.mpr ⟨by omega,rfl⟩
  constructor
  · unfold ObjectPage.forObject
    simp only [if_neg (Nat.not_le.mpr below),product,rest,hash,orFail,bind,Except.bind]
    rfl
  · unfold validateSpecification pageAt
    simp only [tabled.objectDigest,tabled.objectLength,tabled.pageSize,product,rest,hash,orFail,bind,Except.bind,ne_eq,
      not_true,or_self,if_false]

theorem specifiedBelow (inode : Nat) :
    (∃ page, ObjectPage.forObject ⟨record,inode,table⟩ index = .ok page) ↔ index < table.pageCount := by
  constructor
  · rintro ⟨page,ok⟩
    exact Nat.not_le.mp (guardOk.mp ok).1
  · intro below
    obtain ⟨fingerprint,hash,-⟩ := fingerprintExists tabled below
    exact ⟨_,(pageSpecified valid tabled below inode hash).1⟩

theorem pageObserved (length : content.length = record.length) {inode : Nat} {page : ObjectPage}
    (specified : ObjectPage.forObject ⟨record,inode,table⟩ index = .ok page) (bytes : Bytes) :
    Streaming.readObserved hasher file page = .ok bytes ↔ table.pageHash index = some (sha256 bytes).bytes ∧
      bytes = content.extract (index * record.pageSize) (min ((index + 1) * record.pageSize) record.length) := by
  have room := roomLeft valid tabled
  have below := (specifiedBelow valid tabled inode).mp ⟨page,specified⟩
  have ending := pageEnd ((pageStarts tabled index).mp below)
  obtain ⟨fingerprint,hash,entry⟩ := fingerprintExists tabled below
  obtain ⟨same,validated⟩ := pageSpecified valid tabled below inode hash
  cases Except.ok.inj (specified.symm.trans same)
  rw [observedExact validated length room,entry]
  simp only [pageAt,ending,Option.some.injEq]
  exact and_congr_left' digestEqual

end Pages

theorem verificationsAgree (sha256 : Bytes → Digest) {manifestBytes : Bytes} {limits : Limits} {manifest : Manifest}
    (accepted : parseWithLimits sha256 manifestBytes limits = .ok manifest) {record : ObjectRecord}
    (member : record ∈ manifest.objects) {tableBytes : Bytes} {table : PageTable}
    (parsed : PageTable.parseVerified sha256 record tableBytes = .ok table) (bytes : Bytes) (file : StableFile bytes)
    (hasher : Hasher sha256) (buffer : CopyBuffer) (inode : Nat) :
    (table.verifyObject sha256 record bytes = .ok () ↔
      Streaming.verifyObject hasher file record table buffer = .ok ()) ∧
    (table.verifyObject sha256 record bytes = .ok () ↔
      bytes.length = record.length ∧ sha256 bytes = record.digest ∧
        ∀ i page, ObjectPage.forObject ⟨record,inode,table⟩ i = .ok page →
          ∃ read, Streaming.readObserved hasher file page = .ok read) ∧
    (table.verifyObject sha256 record bytes = .ok () ↔
      bytes.length = record.length ∧ sha256 bytes = record.digest ∧
        ∀ i < table.pageCount, tableBytes.extract (i * 32 + 64) (i * 32 + 96) =
          (sha256 (bytes.extract (i * record.pageSize) (min ((i + 1) * record.pageSize) record.length))).bytes) ∧
    (∀ i, (∃ page, ObjectPage.forObject ⟨record,inode,table⟩ i = .ok page) ↔ i < table.pageCount) ∧
    (∀ i, i < table.pageCount ↔ i * record.pageSize < record.length) ∧
    (∀ i < table.pageCount, table.pageHash i = some (tableBytes.extract (i * 32 + 64) (i * 32 + 96))) ∧
    ∀ i, table.pageCount ≤ i → table.pageHash i = none := by
  have valid := (parsedValid accepted).records record member
  have tabled := parsedTable parsed
  have specified (i : Nat) : _ ↔ i < table.pageCount := specifiedBelow valid tabled inode
  rw [eagerGenuine tabled,verifyObjectStreamed valid tabled,storedGenuine valid tabled]
  refine ⟨Iff.rfl,⟨?_,?_⟩,⟨?_,?_⟩,specified,pageStarts tabled,fun i below => hashSome tabled below,
    fun i above => hashNone table above⟩
  · intro genuine
    refine ⟨genuine.length,genuine.digest,fun i page opened => ?_⟩
    have below := (specified i).mp ⟨page,opened⟩
    exact ⟨_,(pageObserved valid tabled genuine.length opened _).mpr ⟨genuine.pages i below,rfl⟩⟩
  · rintro ⟨length,digest,read⟩
    refine ⟨length,digest,fun i below => ?_⟩
    obtain ⟨page,opened⟩ := (specified i).mpr below
    obtain ⟨_,observed⟩ := read i page opened
    obtain ⟨entry,rfl⟩ := (pageObserved valid tabled length opened _).mp observed
    exact entry
  · intro genuine
    refine ⟨genuine.length,genuine.digest,fun i below => ?_⟩
    have entry := genuine.pages i below
    rw [hashSome tabled below] at entry
    exact Option.some.inj entry
  · rintro ⟨length,digest,entries⟩
    refine ⟨length,digest,fun i below => ?_⟩
    rw [hashSome tabled below,entries i below]

def bytewise (content : Bytes) : StableFile content where
  pread position capacity := content.extract position (position + min capacity 1)
  answers _ capacity := ⟨min capacity 1,Nat.min_le_left ..,rfl⟩
  progress position capacity some inside := by
    intro empty
    have length := congrArg List.length empty
    rw [extractLength (by omega),List.length_nil] at length
    omega

theorem pagedVerified : ∃ manifest, parseWithLimits knownSha (canonicalTree (manifestTree pagedManifest)) Limits.default = .ok manifest ∧
    pagedRecord ∈ manifest.objects ∧ ∃ table, PageTable.parseVerified knownSha pagedRecord pagedTable = .ok table ∧
      Streaming.verifyObject (wholeHasher knownSha) (bytewise pagedObject) pagedRecord table ⟨4096,by decide⟩ = .ok () := by
  obtain ⟨manifest,accepted,objects,-⟩ := pagedRead
  have member : pagedRecord ∈ manifest.objects := objects ▸ List.mem_singleton.mpr rfl
  obtain ⟨streamed,-⟩ := verificationsAgree knownSha accepted member pagedParsed pagedObject (bytewise _)
    (wholeHasher knownSha) ⟨4096,by decide⟩ 0
  exact ⟨manifest,accepted,member,_,pagedParsed,streamed.mp ((eagerGenuine (parsedTable pagedParsed)).mpr pagedGenuine)⟩

end RunnelMoe.Cas
