import RunnelMoe.DiskModel
import RunnelMoe.PageSpecs
import RunnelMoe.Slices

/-! Reads and writes at a position as the source makes them: a loop of calls, each of which
may come back short. The calls go to a source and to a stage; an interrupted call is tried
again. A file that does not change answers every call, and a read of it is the read that
these loops come to. -/
namespace RunnelMoe.Cas
open Readers Results StoreErrors Words Format PageSpecs Slices Scripts Script

def readChunkBytes : Nat := 64 * 1024

def liftStore {A : Type} : Except StoreError A → Result A
  | .ok a => .ok a
  | .error error => failed error

inductive Side where
  | source
  | stage
  deriving DecidableEq, Repr

inductive FileCall where
  | check
  | length (side : Side)
  | pread (side : Side) (position capacity : Nat)
  | pwrite (bytes : Bytes) (position : Nat)
  | truncate (length : Nat)

def FileValue : FileCall → Type
  | .length _ | .pwrite _ _ => Nat
  | .pread _ _ _ => Bytes
  | .check | .truncate _ => Unit

abbrev FileTask (A : Type) := Script Bytes Stop FileValue A

-- The index of the kind among the kinds of input and output errors.
def writeZero : Nat := 23

namespace Files

def check : FileTask Unit := perform FileCall.check
def metadataLenRegular (side : Side) : FileTask Nat := perform (FileCall.length side)
def pread (side : Side) (position capacity : Nat) : FileTask Bytes := perform (FileCall.pread side position capacity)
def pwrite (bytes : Bytes) (position : Nat) : FileTask Nat := perform (FileCall.pwrite bytes position)
def truncate (length : Nat) : FileTask Unit := perform (FileCall.truncate length)
def lift {A : Type} (result : Result A) : FileTask A := .done result

def readFilled (side : Side) (offset length : Nat) (kind : String) (bytes : Bytes) : FileTask Bytes :=
  if bytes.length < length then do
    check
    let chunkEnd := min (readChunkBytes + bytes.length) length
    let position ← lift (orFail (.arithmeticOverflow "computing a positional read offset") (checkedAdd offset bytes.length))
    match ← pread side position (chunkEnd - bytes.length) with
    | [] => fail (.failed (.lengthMismatch kind length bytes.length))
    | first::rest => do
      let _ ← lift (orFail (.arithmeticOverflow "accounting positional read bytes")
        (checkedAdd bytes.length (first::rest).length))
      readFilled side offset length kind (bytes ++ first::rest)
  else pure bytes
termination_by length - bytes.length
decreasing_by
  rw [List.length_append,List.length_cons]
  omega

def readExactAt (side : Side) (offset length : Nat) (kind : String) : FileTask Bytes := do
  check
  let _ ← lift (liftStore (alignedPageBufferBytes length))
  let bytes ← readFilled side offset length kind []
  check
  pure bytes

def writeAllAt (offset : Nat) (bytes : Bytes) : FileTask Unit :=
  if bytes = [] then check
  else do
    check
    let count ← pwrite (bytes.take (min bytes.length readChunkBytes)) offset
    if count = 0 then fail (.failed (.io "writing retained bytes" writeZero))
    else do
      let next ← lift (orFail (.arithmeticOverflow "computing a positional write offset") (checkedAdd offset count))
      writeAllAt next (bytes.drop count)
termination_by bytes.length
decreasing_by
  have := List.length_pos_iff.mpr ‹bytes ≠ []›
  rw [List.length_drop]
  omega

end Files

/- The streaming interface of the hash: what is hashed is what was fed, in order. -/
structure Hasher (sha256 : Bytes → Digest) where
  State : Type
  new : State
  update : State → Bytes → State
  finalize : State → Digest
  streams : ∀ pieces : List Bytes, finalize (pieces.foldl update new) = sha256 pieces.flatten

abbrev CopyBuffer := {bytes : Nat // 0 < bytes}

def wholeHasher (sha256 : Bytes → Digest) : Hasher sha256 where
  State := Bytes
  new := []
  update fed bytes := fed ++ bytes
  finalize := sha256
  streams pieces := by rw [List.foldl_append_eq_append,List.nil_append,List.map_id']

/- What the copy of a blob is made of; the store has its calls for this, and the files have loops of reads and writes. -/
structure CopyOps (m : Type → Type 1) where
  check : m Unit
  lift : {A : Type} → Result A → m A
  sourceLength : m Nat
  stageLength : m Nat
  readStage : Nat → Nat → m Bytes
  readSource : Nat → Nat → m Bytes
  writeStage : Nat → Bytes → m Unit
  truncateStage : Nat → m Unit

namespace CopyOps
variable {m : Type → Type 1} [Monad m] (ops : CopyOps m) {sha256 : Bytes → Digest} (hasher : Hasher sha256) (buffer : CopyBuffer)
  (kind : BlobKind)

def rehash (offset position : Nat) (state : hasher.State) : m (Nat × hasher.State) :=
  if position < offset then do
    ops.check
    let length := min (offset - position) buffer
    let staged ← ops.readStage position length
    let original ← ops.readSource position length
    if staged ≠ original then ops.lift (failed (.integrity "staging prefix"))
    else do
      let _ ← ops.lift (orFail (.arithmeticOverflow "rehashing a staged prefix") (checkedAdd position length))
      rehash offset (position + length) (hasher.update state staged)
  else pure (position,state)
termination_by offset - position
decreasing_by
  have := buffer.2
  omega

def copyRest (expectedLength position : Nat) (state : hasher.State) : m hasher.State :=
  if position < expectedLength then do
    ops.check
    let length := min (expectedLength - position) buffer
    let bytes ← ops.readSource position length
    ops.writeStage position bytes
    let _ ← ops.lift (orFail (.arithmeticOverflow "copying staged bytes") (checkedAdd position length))
    copyRest expectedLength (position + length) (hasher.update state bytes)
  else pure state
termination_by expectedLength - position
decreasing_by
  have := buffer.2
  omega

def cutStage (expectedLength : Nat) (objectPageSize : Option Nat) (resumed : Bool) (offset : Nat) : m Nat :=
  match objectPageSize with
  | none => pure offset
  | some pageSize =>
    if resumed = true ∧ kind = .object ∧ offset < expectedLength then
      if pageSize = 0 then ops.lift (.error .panic)
      else
        let boundary := offset / pageSize * pageSize
        if boundary ≠ offset then do
          ops.truncateStage boundary
          pure boundary
        else pure offset
    else pure offset

def copyAndRehash (digest : Digest) (expectedLength : Nat) (objectPageSize : Option Nat) (resumed : Bool) : m Unit := do
  let sourceLength ← ops.sourceLength
  if sourceLength ≠ expectedLength then ops.lift (failed (.lengthMismatch kind.errorName expectedLength sourceLength))
  else do
    let offset ← ops.stageLength
    if offset > expectedLength then ops.lift (failed (.resumeMismatch "length"))
    else do
      let offset ← cutStage ops kind expectedLength objectPageSize resumed offset
      let (position,state) ← rehash ops hasher buffer offset 0 hasher.new
      let state ← copyRest ops hasher buffer expectedLength position state
      let actualLength ← ops.stageLength
      if actualLength ≠ expectedLength then ops.lift (failed (.lengthMismatch "staging file" expectedLength actualLength))
      else if hasher.finalize state ≠ digest then ops.lift (failed (.integrity kind.errorName))
      else do
        let finalSourceLength ← ops.sourceLength
        if finalSourceLength ≠ expectedLength then
          ops.lift (failed (.lengthMismatch kind.errorName expectedLength finalSourceLength))
        else pure ()

end CopyOps

def Files.copyOps (kind : BlobKind) : CopyOps FileTask where
  check := check
  lift := lift
  sourceLength := metadataLenRegular .source
  stageLength := metadataLenRegular .stage
  readStage position length := readExactAt .stage position length "staging prefix"
  readSource position length := readExactAt .source position length kind.errorName
  writeStage := writeAllAt
  truncateStage := truncate

def sideContent (source stage : Bytes) : Side → Bytes
  | .source => source
  | .stage => stage

-- Positional reads and writes move at least one byte when they can.
def Serves (source : Bytes) : (call : FileCall) → Bytes → Result (FileValue call) → Bytes → Prop
  | .check, s, answer, t => t = s ∧ answer = .ok ()
  | .length side, s, answer, t => t = s ∧ answer = .ok (sideContent source s side).length
  | .pread side position capacity, s, answer, t => t = s ∧ ∃ count ≤ capacity,
    answer = .ok ((sideContent source s side).extract position (position + count)) ∧
      (0 < capacity → position < (sideContent source s side).length → 0 < count)
  | .pwrite bytes position, s, answer, t => ∃ count ≤ bytes.length, (bytes ≠ [] → 0 < count) ∧ answer = .ok count ∧
    t = overwritten s position (bytes.take count)
  | .truncate length, s, answer, t => t = resized s length ∧ answer = .ok ()

-- With faults a call may also fail, and may then still have had its effect.
def Disk (source : Bytes) (faults : Prop) (call : FileCall) (s : Bytes) (answer : Result (FileValue call)) (t : Bytes) : Prop :=
  Serves source call s answer t ∨
    faults ∧ (∃ error, answer = failed error) ∧ (t = s ∨ ∃ good, Serves source call s good t)

abbrev Handles {A : Type} (source : Bytes) (faults good : Prop) (move : Bytes → Bytes → Prop) (post : A → Bytes → Prop) :
    FileTask A → Bytes → Prop := Meets (Disk source faults) move post (fun _ _ => faults ∨ ¬good)

section Steps
variable {source : Bytes} {faults good : Prop} {move : Bytes → Bytes → Prop} {A B : Type} {post : B → Bytes → Prop} {s : Bytes}

theorem servesOk {call : FileCall} {answer : Result (FileValue call)} {t : Bytes} (serves : Serves source call s answer t) :
    ∃ a, answer = .ok a := by
  cases call with
  | check => exact ⟨_,serves.2⟩
  | length side => exact ⟨_,serves.2⟩
  | pread side position capacity =>
    obtain ⟨-,count,-,same,-⟩ := serves
    exact ⟨_,same⟩
  | pwrite bytes position =>
    obtain ⟨count,-,-,same,-⟩ := serves
    exact ⟨_,same⟩
  | truncate length => exact ⟨_,serves.2⟩

theorem servesSome (source : Bytes) (call : FileCall) (s : Bytes) : ∃ answer t, Serves source call s answer t := by
  cases call with
  | check => exact ⟨_,s,rfl,rfl⟩
  | length side => exact ⟨_,s,rfl,rfl⟩
  | pread side position capacity => exact ⟨_,s,rfl,capacity,Nat.le_refl _,rfl,fun some _ => some⟩
  | pwrite bytes position =>
    exact ⟨_,_,bytes.length,Nat.le_refl _,fun some => List.length_pos_iff.mpr some,rfl,rfl⟩
  | truncate length => exact ⟨_,_,rfl,rfl⟩

theorem diskThen {call : FileCall} {f : FileValue call → FileTask B}
    (later : ∀ a t, Serves source call s (.ok a) t →
      Trails move s t ∧ Handles source faults good move post (f a) t) :
    Handles source faults good move post (perform call >>= f) s := by
  refine meetsPerformThen (fun answer t acted => ?_)
  rcases acted with serves | ⟨fault,⟨error,rfl⟩,effect⟩
  · obtain ⟨a,rfl⟩ := servesOk serves
    obtain ⟨trail,meets⟩ := later a t serves
    exact ⟨trail,fun b same => by cases same; exact meets,nofun⟩
  · refine ⟨?_,nofun,fun _ _ => .inl fault⟩
    rcases effect with rfl | ⟨answer,serves⟩
    · exact .refl
    · obtain ⟨a,rfl⟩ := servesOk serves
      exact (later a t serves).1

theorem checkMeets {f : Unit → FileTask B} (later : Handles source faults good move post (f ()) s) :
    Handles source faults good move post (Files.check >>= f) s := by
  refine diskThen (fun _ t serves => ?_)
  obtain ⟨rfl,-⟩ := serves
  exact ⟨.refl,later⟩

variable {side : Side} {position length : Nat}

theorem lengthMeets {content : Bytes} (is : sideContent source s side = content) {f : Nat → FileTask B}
    (later : Handles source faults good move post (f content.length) s) :
    Handles source faults good move post (Files.metadataLenRegular side >>= f) s := by
  subst is
  refine diskThen (fun a t serves => ?_)
  obtain ⟨rfl,same⟩ := serves
  cases same
  exact ⟨.refl,later⟩

theorem liftMeets {result : Result A} {f : A → FileTask B} {a : A} (ok : result = .ok a)
    (later : Handles source faults good move post (f a) s) :
    Handles source faults good move post (Files.lift result >>= f) s := by
  subst ok
  exact later

theorem preadMeets {capacity : Nat} {f : Bytes → FileTask B}
    (later : ∀ count ≤ capacity, (0 < capacity → position < (sideContent source s side).length → 0 < count) →
      Handles source faults good move post (f ((sideContent source s side).extract position (position + count))) s) :
    Handles source faults good move post (Files.pread side position capacity >>= f) s := by
  refine diskThen (fun a t serves => ?_)
  obtain ⟨rfl,count,most,same,progress⟩ := serves
  cases same
  exact ⟨.refl,later count most progress⟩

theorem pwriteMeets {bytes : Bytes} {f : Nat → FileTask B}
    (later : ∀ count ≤ bytes.length, (bytes ≠ [] → 0 < count) →
      Trails move s (overwritten s position (bytes.take count)) ∧
      Handles source faults good move post (f count) (overwritten s position (bytes.take count))) :
    Handles source faults good move post (Files.pwrite bytes position >>= f) s := by
  refine diskThen (fun a t serves => ?_)
  obtain ⟨count,most,progress,same,rfl⟩ := serves
  cases same
  exact later _ most progress

theorem truncateMeets {f : Unit → FileTask B}
    (later : Trails move s (resized s length) ∧ Handles source faults good move post (f ()) (resized s length)) :
    Handles source faults good move post (Files.truncate length >>= f) s := by
  refine diskThen (fun a t serves => ?_)
  obtain ⟨rfl,-⟩ := serves
  exact later

theorem alignedSome {length : Nat} (fits : length + 63 < modulus) :
    ∃ allocation, alignedPageBufferBytes length = .ok allocation := by
  unfold alignedPageBufferBytes pageBufferAlignment
  split
  · exact ⟨0,rfl⟩
  · rw [checkedAddSome.mpr ⟨by omega,rfl⟩]
    exact ⟨_,rfl⟩

theorem readFilledMeets {content : Bytes} (is : sideContent source s side = content) {offset : Nat} {kind : String}
    (inside : good → offset + length ≤ content.length) (fits : good → content.length < modulus) (word : length < modulus)
    {bytes : Bytes} (short : bytes.length ≤ length) (front : bytes <+: content.drop offset) :
    Handles source faults good move (fun out t => t = s ∧ out.length = length ∧ out <+: content.drop offset)
      (Files.readFilled side offset length kind bytes) s := by
  induction left : length - bytes.length using Nat.strong_induction_on generalizing bytes with
  | h left ih =>
    unfold Files.readFilled
    split
    · rename_i more
      refine checkMeets ?_
      cases reached : checkedAdd offset bytes.length with
      | none =>
        refine .inr (fun holds => ?_)
        have := inside holds
        have := fits holds
        have := checkedAddNone.mp reached
        omega
      | some position =>
        obtain ⟨-,rfl⟩ := checkedAddSome.mp reached
        refine preadMeets (fun count most progress => ?_)
        rw [is] at progress ⊢
        have piece : content.extract (offset + bytes.length) (offset + bytes.length + count) <+: content.drop (offset + bytes.length) :=
          List.take_prefix ..
        have counted : (content.extract (offset + bytes.length) (offset + bytes.length + count)).length ≤ count := by
          rw [List.extract,Nat.add_sub_cancel_left]
          exact List.length_take_le ..
        split
        · rename_i empty
          refine .inr (fun holds => ?_)
          have := inside holds
          have room : 0 < min (readChunkBytes + bytes.length) length - bytes.length := by
            unfold readChunkBytes
            omega
          have positive := progress room (by omega)
          have none := congrArg List.length empty
          rw [List.extract,List.length_take,List.length_drop,List.length_nil] at none
          omega
        · rename_i first rest read
          rw [read] at piece counted
          have longer : (bytes ++ first::rest).length = bytes.length + (first::rest).length := List.length_append
          have some : 0 < (first::rest).length := Nat.succ_pos _
          refine liftMeets (orFailOk.mpr (checkedAddSome.mpr ⟨by omega,rfl⟩)) (ih _ (by omega) (by omega) ?_ rfl)
          rw [← List.drop_drop] at piece
          rw [← List.prefix_iff_eq_append.mp front]
          exact (List.prefix_append_right_inj bytes).mpr piece
    · exact ⟨rfl,by omega,front⟩

theorem readWhole {content : Bytes} (is : sideContent source s side = content) {offset : Nat} {kind : String}
    (inside : good → offset + length ≤ content.length) (fits : good → content.length < modulus ∧ length + 63 < modulus)
    (word : length < modulus) :
    Handles source faults good move (fun out t => t = s ∧ out.length = length ∧ out <+: content.drop offset)
      (Files.readExactAt side offset length kind) s := by
  refine checkMeets ?_
  cases aligned : alignedPageBufferBytes length with
  | error error =>
    refine .inr (fun holds => ?_)
    obtain ⟨allocation,fine⟩ := alignedSome (fits holds).2
    cases aligned.symm.trans fine
  | ok allocation =>
    refine liftMeets rfl (meetsBind ?_ (fun out t _ done => checkMeets done))
    exact readFilledMeets is inside (fun holds => (fits holds).1) word (Nat.zero_le _) List.nil_prefix

theorem frontExtract {content bytes : Bytes} {offset : Nat} (long : bytes.length = length) (front : bytes <+: content.drop offset) :
    bytes = content.extract offset (offset + length) := by
  rw [List.extract,Nat.add_sub_cancel_left,← long,← List.prefix_iff_eq_take.mp front]

theorem readMeets {content : Bytes} (is : sideContent source s side = content) {offset : Nat}
    {kind : String} {f : Bytes → FileTask B} (inside : offset + length ≤ content.length) (fits : content.length + 63 < modulus)
    (later : Handles source faults good move post (f (content.extract offset (offset + length))) s) :
    Handles source faults good move post (Files.readExactAt side offset length kind >>= f) s := by
  refine meetsBind (readWhole is (fun _ => inside) (fun _ => ⟨by omega,by omega⟩) (by omega)) (fun out t _ done => ?_)
  obtain ⟨rfl,long,front⟩ := done
  rw [frontExtract long front]
  exact later

end Steps

/- A positional read answers with bytes that stand at its position, at most as many as
asked for, and with none only past the end. -/
structure StableFile (content : Bytes) where
  pread : Nat → Nat → Bytes
  answers : ∀ position capacity, ∃ count ≤ capacity,
    pread position capacity = content.extract position (position + count)
  progress : ∀ position capacity, 0 < capacity → position < content.length → pread position capacity ≠ []

def StableFile.serve {content : Bytes} (file : StableFile content) : (call : FileCall) → Bytes → Result (FileValue call) × Bytes
  | .check, s => (.ok (),s)
  | .length side, s => (.ok (sideContent content s side).length,s)
  | .pread .source position capacity, s => (.ok (file.pread position capacity),s)
  | .pread .stage position capacity, s => (.ok (s.extract position (position + capacity)),s)
  | .pwrite bytes position, s => (.ok bytes.length,overwritten s position bytes)
  | .truncate length, s => (.ok (),resized s length)

def Streaming.readExactAt {content : Bytes} (file : StableFile content) (offset length : Nat) (kind : String) : Result Bytes :=
  (play file.serve (Files.readExactAt .source offset length kind) []).1

section Streamed
variable {content : Bytes} {file : StableFile content} {kind : String} {offset length : Nat}

theorem fileServes (file : StableFile content) (call : FileCall) (s : Bytes) :
    Serves content call s (file.serve call s).1 (file.serve call s).2 := by
  cases call with
  | check => exact ⟨rfl,rfl⟩
  | length side => exact ⟨rfl,rfl⟩
  | pread side position capacity =>
    cases side with
    | source =>
      obtain ⟨count,most,answer⟩ := file.answers position capacity
      refine ⟨rfl,count,most,congrArg Except.ok answer,fun room inside => Nat.pos_of_ne_zero (fun none => ?_)⟩
      refine file.progress position capacity room inside ?_
      rw [answer,none,Nat.add_zero,List.extract,Nat.sub_self,List.take_zero]
    | stage => exact ⟨rfl,capacity,Nat.le_refl _,rfl,fun room _ => room⟩
  | pwrite bytes position =>
    refine ⟨bytes.length,Nat.le_refl _,fun some => List.length_pos_iff.mpr some,rfl,?_⟩
    rw [List.take_length]
    rfl
  | truncate length => exact ⟨rfl,rfl⟩

theorem readStreamed (inside : offset + length ≤ content.length) (fits : content.length + 63 < modulus) :
    Streaming.readExactAt file offset length kind = .ok (content.extract offset (offset + length)) := by
  have served (call : FileCall) (s : Bytes) : Disk content False call s (file.serve call s).1 (file.serve call s).2 :=
    .inl (fileServes file call s)
  have is : sideContent content [] .source = content := rfl
  have runs := playRuns served (Files.readExactAt .source offset length kind) []
  have meets : Meets (Disk content False) (fun _ _ => True) _ _ (Files.readExactAt .source offset length kind) [] :=
    readWhole is (fun _ : True => inside) (fun _ => ⟨by omega,by omega⟩) (by omega)
  obtain ⟨-,ok,wrong⟩ := meetsRuns meets runs
  unfold Streaming.readExactAt
  cases out : (play file.serve (Files.readExactAt .source offset length kind) []).1 with
  | error stop => simpa using wrong stop (congrArg some out)
  | ok bytes =>
    obtain ⟨-,long,front⟩ := ok bytes (congrArg some out)
    rw [frontExtract long front]

end Streamed

end RunnelMoe.Cas
