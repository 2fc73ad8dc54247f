import RunnelMoe.CasPlays
import RunnelMoe.CasSteps
import RunnelMoe.CasStreams

/-! The copy of a source into its stage, down to the positional reads and writes. What a
stage already holds is compared with the source piece by piece before anything is added to
it, so that a copy ends well exactly when the source and the retained part of the stage are
the right ones; wherever a copy is interrupted, it leaves a stage that the next one goes on
with. -/
namespace RunnelMoe.Cas
open Readers Results StoreErrors Words Format PageSpecs Slices Scripts Script

abbrev Files.copyAndRehash {sha256 : Bytes → Digest} (hasher : Hasher sha256) (buffer : CopyBuffer) (kind : BlobKind) :
    Digest → Nat → Option Nat → Bool → FileTask Unit := (copyOps kind).copyAndRehash hasher buffer kind

def Advances (source : Bytes) (cut : Nat) (s t : Bytes) : Prop :=
  cut ≤ s.length ∧ (t = s.take cut ∨ ∃ count, t = s ++ source.extract s.length (s.length + count))

section Steps
variable {source : Bytes} {faults good : Prop} {s : Bytes} {position cut : Nat}

theorem overwrittenEnd (content bytes : Bytes) : overwritten content content.length bytes = content ++ bytes := by
  have past : content.drop (content.length + bytes.length) = [] := List.drop_of_length_le (Nat.le_add_right ..)
  simp only [overwritten,resized,List.take_length,Nat.sub_self,List.replicate_zero,past,List.append_nil]

theorem appendedEnd (inside : position ≤ source.length) (bytes : Bytes) :
    overwritten (source.take position) position bytes = source.take position ++ bytes := by
  have last := overwrittenEnd (source.take position) bytes
  rwa [List.length_take_of_le inside] at last

theorem takeExtract (bytes : Bytes) (position count : Nat) :
    bytes.take position ++ bytes.extract position (position + count) = bytes.take (position + count) := by
  rw [List.take_add,List.extract,Nat.add_sub_cancel_left]

theorem appendAdvances {count : Nat} (inside : position ≤ source.length) (behind : cut ≤ position) :
    Advances source cut (source.take position) (source.take position ++ source.extract position (position + count)) := by
  have size : (source.take position).length = position := List.length_take_of_le inside
  refine ⟨by rw [size]; exact behind,.inr ⟨count,?_⟩⟩
  rw [size]

theorem writeMeets {n : Nat} (inside : position + n ≤ source.length) (fits : source.length < modulus)
    (behind : cut ≤ position) :
    Handles source faults good (Advances source cut) (fun _ t => t = source.take (position + n))
      (Files.writeAllAt position (source.extract position (position + n))) (source.take position) := by
  induction n using Nat.strong_induction_on generalizing position with
  | h n ih =>
    have length : (source.extract position (position + n)).length = n := by
      rw [extractLength inside]
      omega
    unfold Files.writeAllAt
    split
    · rename_i empty
      rw [empty,List.length_nil] at length
      rw [← length,← bindPure Files.check]
      exact checkMeets rfl
    · rename_i some
      refine checkMeets (pwriteMeets (fun count most progress => ?_))
      rw [List.length_take,length] at most
      have written : ((source.extract position (position + n)).take (min (source.extract position (position + n)).length
          readChunkBytes)).take count = source.extract position (position + count) := by
        rw [length,List.take_take,List.extract,List.extract,List.take_take]
        congr 1
        omega
      rw [written,appendedEnd (by omega)]
      refine ⟨.single (appendAdvances (by omega) behind),?_⟩
      have positive : 0 < count := progress (fun none => by
        have short := congrArg List.length none
        rw [List.length_take,length,List.length_nil] at short
        have nonempty := List.length_pos_iff.mpr some
        rw [length] at nonempty
        simp only [readChunkBytes] at short
        omega)
      have rest : (source.extract position (position + n)).drop count =
          source.extract (position + count) (position + count + (n - count)) := by
        rw [List.extract,List.extract,List.drop_take,List.drop_drop]
        congr 1
        omega
      rw [if_neg (Nat.ne_of_gt positive),takeExtract]
      refine liftMeets (orFailOk.mpr (checkedAddSome.mpr ⟨by omega,rfl⟩)) ?_
      rw [rest,show position + n = position + count + (n - count) by omega]
      exact ih (n - count) (by omega) (by omega) (by omega)

end Steps

def Gives {m : Type → Type 1} [Monad m] (Holds : {A : Type} → (A → Bytes → Prop) → m A → Bytes → Prop) {A : Type} (p : m A)
    (s : Bytes) (a : A) (t : Bytes) : Prop :=
  ∀ {B : Type} {post : B → Bytes → Prop} {f : A → m B}, Holds post (f a) t → Holds post (p >>= f) s

/- What the copy needs of its operations, whether they are calls of the store or loops of calls to files. -/
structure CopyLaws {m : Type → Type 1} [Monad m] (ops : CopyOps m) (source : Bytes) (good : Prop) (cut : Nat)
    (Holds : {A : Type} → (A → Bytes → Prop) → m A → Bytes → Prop) : Prop where
  pure {A : Type} {post : A → Bytes → Prop} {a s} (value : post a s) : Holds post (pure a) s
  wrong {A : Type} {post : A → Bytes → Prop} {error s} (bad : ¬good) : Holds post (ops.lift (failed error)) s
  bind {A B : Type} {middle : A → Bytes → Prop} {post : B → Bytes → Prop} {p f s} (first : Holds middle p s)
    (second : ∀ a t, middle a t → Holds post (f a) t) : Holds post (p >>= f) s
  lift {A : Type} {result : Result A} {a s} (ok : result = .ok a) : Gives Holds (ops.lift result) s a s
  check {s} : Gives Holds ops.check s () s
  sourceLength {s} : Gives Holds ops.sourceLength s source.length s
  stageLength {s} : Gives Holds ops.stageLength s s.length s
  readStage {position length s} (inside : position + length ≤ s.length) (fits : s.length + 63 < modulus) :
    Gives Holds (ops.readStage position length) s (s.extract position (position + length)) s
  readSource {position length s} (inside : position + length ≤ source.length) (fits : source.length + 63 < modulus) :
    Gives Holds (ops.readSource position length) s (source.extract position (position + length)) s
  writeStage {position n} (inside : position + n ≤ source.length) (fits : source.length < modulus) (behind : cut ≤ position) :
    Gives Holds (ops.writeStage position (source.extract position (position + n))) (source.take position) ()
      (source.take (position + n))
  truncateStage {s} (below : cut ≤ s.length) : Gives Holds (ops.truncateStage cut) s () (s.take cut)

theorem resizedTake {s : Bytes} {cut : Nat} (below : cut ≤ s.length) : resized s cut = s.take cut := by
  rw [resized,Nat.sub_eq_zero_of_le below,List.replicate_zero,List.append_nil]

theorem fileLaws (source : Bytes) (faults good : Prop) (cut : Nat) (kind : BlobKind) :
    CopyLaws (Files.copyOps kind) source good cut (fun post p s => Handles source faults good (Advances source cut) post p s) where
  pure value := value
  wrong bad := .inr bad
  bind first second := meetsBind first (fun a t _ done => second a t done)
  lift ok := liftMeets ok
  check := checkMeets
  sourceLength := fun later => lengthMeets rfl later
  stageLength := fun later => lengthMeets rfl later
  readStage inside fits := fun later => readMeets rfl inside fits later
  readSource inside fits := fun later => readMeets rfl inside fits later
  writeStage inside fits behind := fun later => meetsBind (writeMeets inside fits behind) (fun _ _ _ done => done ▸ later)
  truncateStage below := fun later => truncateMeets (resizedTake below ▸ ⟨.single ⟨below,.inl rfl⟩,later⟩)

def Plays (source : Bytes) (good : Prop) (stage : Nat) {A : Type} (post : A → Bytes → Prop) (p : Task A) (bytes : Bytes) : Prop :=
  ∀ s : Store, s.content stage = bytes → ∀ out t, play (served (fun _ _ => source)) p s = (out,t) →
    (∀ a, out = .ok a → post a (t.content stage)) ∧ ∀ stop, out = .error stop → ¬good

theorem filledContent (s : Store) (inode : Nat) (content : Bytes) : (s.filled inode content).content inode = content := by
  simp only [Store.filled,Store.withInode,Store.content,if_true]

theorem storeLaws (source : Bytes) (good : Prop) (cut : Nat) (blob : Blob) (stage : Nat) :
    CopyLaws (copyOps blob stage) source good cut (fun post p s => Plays source good stage post p s) where
  pure value := by
    rintro s rfl _ _ ⟨⟩
    exact ⟨fun _ same => by cases same; exact value,nofun⟩
  wrong bad := by
    rintro s rfl _ _ ⟨⟩
    exact ⟨nofun,fun _ _ => bad⟩
  bind first second := by
    intro s same out t played
    rw [playBind] at played
    split at played
    · rename_i a middle done
      exact second a _ ((first s same _ _ done).1 a rfl) middle rfl out t played
    · rename_i stop middle done
      cases played
      exact ⟨nofun,fun _ _ => (first s same _ _ done).2 stop rfl⟩
  lift := by
    rintro _ _ _ _ rfl _ _ _ later
    exact later
  check := fun later => later
  sourceLength := fun later => later
  stageLength := by
    rintro _ _ _ _ later s rfl
    exact later s rfl
  readStage inside fits := by
    rintro _ _ f later s rfl out t played
    change play _ (Script.bind (.done (readExactAt (s.content stage) _ _ _)) f) s = _ at played
    rw [readInside inside] at played
    exact later s rfl out t played
  readSource inside fits := by
    intro _ _ f later s same out t played
    change play _ (Script.bind (.done (readExactAt source _ _ _)) f) s = _ at played
    rw [readInside inside] at played
    exact later s same out t played
  writeStage inside fits behind := by
    intro _ _ f later s same
    refine later (s.filled stage (overwritten (s.content stage) _ _)) ?_
    rw [filledContent,same,appendedEnd (by omega),takeExtract]
  truncateStage below := by
    rintro _ _ f later s rfl
    refine later (s.filled stage (resized (s.content stage) cut)) ?_
    rw [filledContent,resizedTake below]

def cutAt (kind : BlobKind) (expectedLength : Nat) (objectPageSize : Option Nat) (resumed : Bool) (offset : Nat) : Nat :=
  match objectPageSize with
  | none => offset
  | some pageSize =>
    if resumed = true ∧ kind = .object ∧ offset < expectedLength then offset / pageSize * pageSize else offset

structure Matches (sha256 : Bytes → Digest) (source : Bytes) (digest : Digest) (expectedLength cut : Nat) (stage : Bytes) :
    Prop where
  length : source.length = expectedLength
  digest : sha256 source = digest
  short : stage.length ≤ expectedLength
  retained : stage.take cut = source.take cut

theorem cutBelow (kind : BlobKind) (expectedLength : Nat) (objectPageSize : Option Nat) (resumed : Bool) (offset : Nat) :
    cutAt kind expectedLength objectPageSize resumed offset ≤ offset := by
  unfold cutAt
  split
  · exact Nat.le_refl _
  · split
    · exact Nat.div_mul_le_self ..
    · exact Nat.le_refl _

section Laws
variable {m : Type → Type 1} [Monad m] {ops : CopyOps m} {source s stage : Bytes} {good : Prop} {position cut : Nat}
  {Holds : {A : Type} → (A → Bytes → Prop) → m A → Bytes → Prop} {sha256 : Bytes → Digest} {hasher : Hasher sha256}
  {buffer : CopyBuffer} {kind : BlobKind} {digest : Digest} {expectedLength : Nat} {objectPageSize : Option Nat}
  {resumed : Bool}

/- The stage is the same all along; what has been hashed is its part before the position,
which is that of the source. A piece that differs shows that the stage is not a part of
the source. -/
theorem rehashHolds (laws : CopyLaws ops source good cut Holds) (whole : s.length ≤ source.length)
    (fits : source.length + 63 < modulus)
    (need : good → s = source.take s.length) (below : position ≤ s.length) (same : s.take position = source.take position)
    {pieces : List Bytes} (fed : pieces.flatten = s.take position) :
    Holds (fun out t => t = s ∧ s = source.take s.length ∧ out.1 = s.length ∧
      ∃ all : List Bytes, out.2 = all.foldl hasher.update hasher.new ∧ all.flatten = s)
      (ops.rehash hasher buffer s.length position (pieces.foldl hasher.update hasher.new)) s := by
  induction left : s.length - position using Nat.strong_induction_on generalizing position pieces with
  | h left ih =>
    unfold CopyOps.rehash
    split
    · rename_i more
      have positive := buffer.2
      obtain ⟨length,small⟩ : ∃ length, length = min (s.length - position) buffer := ⟨_,rfl⟩
      simp only [← small]
      refine laws.check (laws.readStage (by omega) (by omega) (laws.readSource (by omega) fits ?_))
      by_cases agrees : s.extract position (position + length) = source.extract position (position + length)
      · rw [if_neg (not_not.mpr agrees)]
        refine laws.lift (orFailOk.mpr (checkedAddSome.mpr ⟨by omega,rfl⟩)) ?_
        have further : s.take (position + length) = source.take (position + length) := by
          rw [← takeExtract,← takeExtract,same,agrees]
        have grown : (pieces ++ [s.extract position (position + length)]).flatten = s.take (position + length) := by
          rw [List.flatten_append,fed,List.flatten_singleton,takeExtract]
        have later := ih _ (by omega) (by omega) further grown rfl
        rwa [List.foldl_append] at later
      · rw [if_pos agrees]
        refine laws.wrong (fun holds => agrees ?_)
        have part : (source.extract 0 s.length).extract position (position + length) =
            source.extract position (position + length) := by
          rw [extractInside (by omega),Nat.zero_add,Nat.zero_add]
        have begins : source.extract 0 s.length = s := by
          rw [List.extract,List.drop_zero,Nat.sub_zero,← need holds]
        rwa [begins] at part
    · rename_i done
      have reached : position = s.length := by omega
      subst reached
      rw [List.take_length] at same fed
      exact laws.pure ⟨rfl,same,rfl,pieces,rfl,fed⟩

theorem copyRestHolds (laws : CopyLaws ops source good cut Holds) (fits : source.length + 63 < modulus)
    (behind : cut ≤ position)
    (below : position ≤ source.length) {pieces : List Bytes} (fed : pieces.flatten = source.take position) :
    Holds (fun state t => t = source ∧ ∃ all : List Bytes, state = all.foldl hasher.update hasher.new ∧ all.flatten = source)
      (ops.copyRest hasher buffer source.length position (pieces.foldl hasher.update hasher.new))
      (source.take position) := by
  induction left : source.length - position using Nat.strong_induction_on generalizing position pieces with
  | h left ih =>
    unfold CopyOps.copyRest
    split
    · rename_i more
      have positive := buffer.2
      obtain ⟨length,small⟩ : ∃ length, length = min (source.length - position) buffer := ⟨_,rfl⟩
      simp only [← small]
      refine laws.check (laws.readSource (by omega) fits (laws.writeStage (by omega) (by omega) behind ?_))
      refine laws.lift (orFailOk.mpr (checkedAddSome.mpr ⟨by omega,rfl⟩)) ?_
      have grown : (pieces ++ [source.extract position (position + length)]).flatten = source.take (position + length) := by
        rw [List.flatten_append,fed,List.flatten_singleton,takeExtract]
      have later := ih _ (by omega) (by omega) (by omega) grown rfl
      rwa [List.foldl_append] at later
    · rename_i done
      have reached : position = source.length := by omega
      subst reached
      rw [List.take_length] at fed ⊢
      exact laws.pure ⟨rfl,pieces,rfl,fed⟩

variable (positive : ∀ pageSize, objectPageSize = some pageSize → 0 < pageSize)
  (here : cut = cutAt kind expectedLength objectPageSize resumed stage.length)
include positive here

theorem cutHolds (laws : CopyLaws ops source good cut Holds) :
    Holds (fun offset t => offset = cut ∧ t = stage.take cut)
      (ops.cutStage kind expectedLength objectPageSize resumed stage.length) stage := by
  have below := cutBelow kind expectedLength objectPageSize resumed stage.length
  rw [← here] at below
  have kept (same : cut = stage.length) : Holds (fun offset t => offset = cut ∧ t = stage.take cut)
      (pure stage.length) stage := laws.pure ⟨same.symm,by rw [same,List.take_length]⟩
  unfold CopyOps.cutStage
  unfold cutAt at here
  split
  · exact kept here
  · rename_i pageSize
    have some := positive pageSize rfl
    simp only at here
    split
    · rename_i resumes
      rw [if_pos resumes] at here
      rw [if_neg (Nat.ne_of_gt some),← here]
      by_cases whole : cut = stage.length
      · simp only [if_neg (not_not.mpr whole)]
        exact kept whole
      · simp only [if_pos whole]
        exact laws.truncateStage below (laws.pure ⟨rfl,rfl⟩)
    · rename_i whole
      rw [if_neg whole] at here
      exact kept here

theorem copyHolds (laws : CopyLaws ops source (Matches sha256 source digest expectedLength cut stage) cut Holds)
    (fits : source.length + 63 < modulus) :
    Holds (fun _ t => t = source ∧ Matches sha256 source digest expectedLength cut stage)
      (ops.copyAndRehash hasher buffer kind digest expectedLength objectPageSize resumed) stage := by
  have below := cutBelow kind expectedLength objectPageSize resumed stage.length
  rw [← here] at below
  refine laws.sourceLength ?_
  by_cases long : source.length = expectedLength
  · rw [if_neg (not_not.mpr long)]
    subst long
    refine laws.stageLength ?_
    by_cases short : stage.length ≤ source.length
    · rw [if_neg (Nat.not_lt_of_le short)]
      refine laws.bind (cutHolds positive here laws) (fun offset t done => ?_)
      obtain ⟨rfl,rfl⟩ := done
      have size : (stage.take offset).length = offset := List.length_take_of_le below
      have need (all : Matches sha256 source digest source.length offset stage) :
          stage.take offset = source.take (stage.take offset).length := by
        rw [size]
        exact all.retained
      have start : (stage.take offset).take 0 = source.take 0 := rfl
      have loop : Holds _ (ops.rehash hasher buffer (stage.take offset).length 0 (([] : List Bytes).foldl hasher.update
          hasher.new)) (stage.take offset) := rehashHolds laws (by omega) fits need (Nat.zero_le _) start rfl
      rw [size] at loop
      refine laws.bind loop (fun out t done => ?_)
      obtain ⟨rfl,retained,reached,pieces,hashed,fed⟩ := done
      obtain ⟨position,state⟩ := out
      simp only at reached hashed
      subst reached hashed
      rw [retained] at fed ⊢
      refine laws.bind (copyRestHolds laws fits (Nat.le_refl _) (by omega) fed) (fun state t done => ?_)
      obtain ⟨rfl,all,rfl,whole⟩ := done
      refine laws.stageLength ?_
      rw [if_neg (not_not.mpr rfl),hasher.streams,whole]
      by_cases genuine : sha256 t = digest
      · rw [if_neg (not_not.mpr genuine)]
        refine laws.sourceLength ?_
        rw [if_neg (not_not.mpr rfl)]
        exact laws.pure ⟨rfl,rfl,genuine,short,retained⟩
      · rw [if_pos genuine]
        exact laws.wrong (fun all => genuine all.digest)
    · rw [if_pos (Nat.lt_of_not_le short)]
      exact laws.wrong (fun all => short all.short)
  · rw [if_pos long]
    exact laws.wrong (fun all => long all.length)

end Laws

section Copy
variable {sha256 : Bytes → Digest} {hasher : Hasher sha256} {source : Bytes} {buffer : CopyBuffer} {kind : BlobKind}
  {digest : Digest} {expectedLength : Nat} {objectPageSize : Option Nat} {resumed : Bool} {faults : Prop} {stage : Bytes}

theorem advancesRetain {cut : Nat} {s t : Bytes} (inside : cut ≤ s.length) (trail : Trails (Advances source cut) s t) :
    cut ≤ t.length ∧ t.take cut = s.take cut := by
  induction trail with
  | refl => exact ⟨inside,rfl⟩
  | tail _ step ih =>
    obtain ⟨-,rfl | ⟨count,rfl⟩⟩ := step
    · refine ⟨?_,?_⟩
      · rw [List.length_take_of_le ih.1]
      · rw [List.take_take,Nat.min_self,ih.2]
    · refine ⟨?_,?_⟩
      · rw [List.length_append]
        omega
      · rw [List.take_append_of_le_length ih.1,ih.2]

theorem advancesPrefix {cut : Nat} {s t : Bytes} (begins : s <+: source) (trail : Trails (Advances source cut) s t) :
    t <+: source := by
  induction trail with
  | refl => exact begins
  | @tail before after _ step ih =>
    obtain ⟨-,rfl | ⟨count,rfl⟩⟩ := step
    · exact (List.take_prefix ..).trans ih
    · have whole : before = source.take before.length := List.prefix_iff_eq_take.mp ih
      have grown := takeExtract source before.length count
      rw [← whole] at grown
      rw [grown]
      exact List.take_prefix ..

inductive Left (hasher : Hasher sha256) (source : Bytes) (kind : BlobKind) (digest : Digest) (expectedLength : Nat)
    (objectPageSize : Option Nat) : Bytes → Prop where
  | fresh : Left hasher source kind digest expectedLength objectPageSize []
  | copied {stage last : Bytes} {buffer : CopyBuffer} {resumed : Bool} {out : Option (Result Unit)}
      (earlier : Left hasher source kind digest expectedLength objectPageSize stage)
      (runs : Runs (Disk source True) (Files.copyAndRehash hasher buffer kind digest expectedLength objectPageSize resumed)
        stage out last) : Left hasher source kind digest expectedLength objectPageSize last

variable (positive : ∀ pageSize, objectPageSize = some pageSize → 0 < pageSize) (fits : source.length + 63 < modulus)
include positive fits

theorem copyMeets {cut : Nat} (here : cut = cutAt kind expectedLength objectPageSize resumed stage.length) :
    Handles source faults (Matches sha256 source digest expectedLength cut stage) (Advances source cut)
      (fun _ t => t = source ∧ Matches sha256 source digest expectedLength cut stage)
      (Files.copyAndRehash hasher buffer kind digest expectedLength objectPageSize resumed) stage :=
  copyHolds positive here (fileLaws source faults _ cut kind) fits

/- The copy that an import makes, on a disk that does what it is told, ends as every run on the files that meets no fault. -/
theorem copiesAgree {config : CasConfig} {blob : Blob} {s t : Store} {inode : Nat} {last : Bytes}
    {out ended : Result Unit} (runs : Runs (Disk source False)
      (Files.copyAndRehash hasher buffer blob.kind blob.digest blob.length objectPageSize resumed) (s.content inode)
      (some out) last)
    (played : play (served fun _ _ => source) (copyAndRehash sha256 config blob inode objectPageSize resumed) s = (ended,t)) :
    (ended = .ok () ↔ out = .ok ()) ∧ (out = .ok () → t.content inode = last) := by
  obtain ⟨-,ok,wrong⟩ := meetsRuns (copyMeets positive fits rfl) runs
  obtain ⟨finished,failed⟩ := copyHolds positive rfl (storeLaws source _ _ blob inode) fits s rfl ended t played
  cases out with
  | ok =>
    obtain ⟨same,matched⟩ := ok () rfl
    cases ended with
    | ok => exact ⟨⟨fun _ => rfl,fun _ => rfl⟩,fun _ => (finished () rfl).1.trans same.symm⟩
    | error stop => exact absurd matched (failed stop rfl)
  | error stop =>
    have differs := (wrong stop rfl).resolve_left id
    cases ended with
    | ok => exact absurd (finished () rfl).2 differs
    | error => exact ⟨⟨nofun,nofun⟩,nofun⟩

theorem leftPrefix (left : Left hasher source kind digest expectedLength objectPageSize stage) :
    stage <+: source := by
  induction left with
  | fresh => exact List.nil_prefix
  | copied _ runs ih => exact advancesPrefix ih (meetsRuns (copyMeets positive fits rfl) runs).1

end Copy

-- The size of a file is a signed word.
def maxFileBytes : Nat := 9223372036854775807

theorem copyExact {sha256 : Bytes → Digest} (hasher : Hasher sha256) (source : Bytes) (small : source.length ≤ maxFileBytes)
    (buffer : CopyBuffer) (kind : BlobKind) (digest : Digest) (expectedLength : Nat) (objectPageSize : Option Nat)
    (positive : ∀ pageSize, objectPageSize = some pageSize → 0 < pageSize) (resumed : Bool) (stage : Bytes) :
    let copy := Files.copyAndRehash hasher buffer kind digest expectedLength objectPageSize resumed
    let cut := cutAt kind expectedLength objectPageSize resumed stage.length
    (∃ out last, Runs (Disk source False) copy stage (some out) last) ∧
    (∀ out last, Runs (Disk source False) copy stage (some out) last →
      (out = .ok () ↔ Matches sha256 source digest expectedLength cut stage) ∧ (out = .ok () → last = source)) ∧
    (∀ faults out last, Runs (Disk source faults) copy stage out last →
      last.take cut = stage.take cut ∧ Trails (Advances source cut) stage last) ∧
    (∀ (faults : Prop) (path : Nat → FileTask Unit × Bytes), path 0 = (copy,stage) →
      ¬∀ n, Steps (Disk source faults) (path n).1 (path n).2 (path (n + 1)).1 (path (n + 1)).2) ∧
    (Left hasher source kind digest expectedLength objectPageSize stage →
      (Matches sha256 source digest expectedLength cut stage ↔ source.length = expectedLength ∧ sha256 source = digest)) := by
  intro copy cut
  have fits : source.length + 63 < modulus := by
    unfold maxFileBytes at small
    unfold modulus
    omega
  have below : cut ≤ stage.length := cutBelow ..
  have served (call : FileCall) (s : Bytes) : ∃ answer t, Disk source False call s answer t := by
    obtain ⟨answer,t,serves⟩ := servesSome source call s
    exact ⟨answer,t,.inl serves⟩
  refine ⟨runsEnd served copy stage,fun out last runs => ?_,fun faults out last runs => ?_,fun faults path _ => stepsEnd path,?_⟩
  · obtain ⟨-,ok,wrong⟩ := meetsRuns (copyMeets positive fits rfl) runs
    cases out with
    | ok value =>
      obtain ⟨same,matched⟩ := ok value rfl
      exact ⟨⟨fun _ => matched,fun _ => rfl⟩,fun _ => same⟩
    | error stop =>
      have differs := (wrong stop rfl).resolve_left id
      exact ⟨⟨nofun,fun matched => absurd matched differs⟩,nofun⟩
  · obtain ⟨trail,-⟩ := meetsRuns (copyMeets positive fits rfl) runs
    exact ⟨(advancesRetain below trail).2,trail⟩
  · intro left
    have begins := leftPrefix positive fits left
    refine ⟨fun matched => ⟨matched.length,matched.digest⟩,fun good => ⟨good.1,good.2,?_,?_⟩⟩
    · rw [← good.1]
      exact begins.length_le
    · rw [List.prefix_iff_eq_take.mp begins,List.take_take]
      congr 1
      exact Nat.min_eq_left below

theorem resumedCopy : ∃ last, Runs (Disk [1,2,3,4,5] False)
    (Files.copyAndRehash (wholeHasher knownSha) ⟨2,by decide⟩ .object fiveDigest 5 (some 2) true) [1,2,9] (some (.ok ())) last ∧
      last = [1,2,3,4,5] := by
  obtain ⟨⟨out,last,runs⟩,exact,-⟩ := copyExact (wholeHasher knownSha) [1,2,3,4,5] (by decide) ⟨2,by decide⟩ .object fiveDigest 5
    (some 2) (by rintro _ ⟨⟩; decide) true [1,2,9]
  obtain ⟨accepted,copied⟩ := exact out last runs
  obtain rfl := accepted.mpr ⟨rfl,by decide,by decide,by decide⟩
  exact ⟨last,runs,copied rfl⟩

end RunnelMoe.Cas
