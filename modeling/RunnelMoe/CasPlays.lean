import RunnelMoe.CasImport

/-! A disk on which every call does what it says. The calls of a script are answered one
after another, the reads of a source from its files. -/
namespace RunnelMoe.Cas
open Readers Results StoreErrors Words Format PageSpecs Scripts Script

def plainDisk : FileSystem := ⟨4096,true,fun _ _ => True,fun _ => True⟩

def plainConfig : CasConfig := ⟨⟨1073741824,0,by decide,by decide⟩,4096,by decide⟩

def blocksOf (content : Bytes) : Nat := (content.length + 511) / 512

def Store.filled (s : Store) (inode : Nat) (content : Bytes) : Store := s.withInode inode ⟨content,false,blocksOf content⟩

def served (source : BlobKind → Digest → Bytes) : (call : Call) → Store → Result (Value call) × Store
  | .check, s => (.ok (),s)
  | .capacity, s => (.ok (1073741824 : Nat),s)
  | .random, s => (.ok (List.replicate 16 0),s)
  | .manifestBytes supplied maximum, s =>
    (if supplied.length ≤ maximum then .ok supplied else failed (.resourceExhausted "manifest" supplied.length maximum),s)
  | .openSource _ _, s => (.ok (),s)
  | .sourceLength kind digest, s => (.ok (source kind digest).length,s)
  | .readSource kind digest offset length, s => (readExactAt (source kind digest) offset length kind.errorName,s)
  | .create name, s =>
    if s.entry .visible .staging name = none then (.ok s.next,s.created name 0) else (failed (.alreadyExists "staging file"),s)
  | .truncate inode length, s => (.ok (),s.filled inode (resized (s.content inode) length))
  | .write inode offset bytes, s => (.ok (),s.filled inode (overwritten (s.content inode) offset bytes))
  | .unlink place name, s =>
    if s.entry .visible place name = none then (failed (.io "unlinking" 0),s) else (.ok (),s.unbound place name)
  | .rename name kind target, s =>
    if s.entry .visible (.digest kind) target = none then
      match s.entry .visible .staging name with
      | some leaf => (.ok .published,(s.unbound .staging name).bound (.digest kind) target leaf)
      | none => (failed (.io "renaming" 0),s)
    else (failed (.alreadyExists kind.errorName),s)
  | .link name kind target, s =>
    if s.entry .visible (.digest kind) target = none then
      match s.entry .visible .staging name with
      | some leaf => (.ok (),s.bound (.digest kind) target leaf)
      | none => (failed (.io "linking" 0),s)
    else (failed (.alreadyExists kind.errorName),s)
  | .syncFile inode, s => (.ok (),s.settled inode (s.inodes inode).blocks)
  | .syncDir place, s => (.ok (),s.synced place)

theorem faulty {A : Type} (operation : String) : Faulty (failed (.io operation 0) : Result A) :=
  ⟨.failed (.io operation 0),trivial,rfl⟩

theorem servedActs (source : BlobKind → Digest → Bytes) (call : Call) (s : Store) :
    Acts plainDisk call s (served source call s).1 (served source call s).2 := by
  cases call with
  | check => exact ⟨rfl,.inl ⟨(),rfl,trivial⟩⟩
  | capacity => exact ⟨rfl,.inl ⟨_,rfl,trivial⟩⟩
  | random => exact ⟨rfl,.inl ⟨_,rfl,List.length_replicate⟩⟩
  | manifestBytes supplied maximum =>
    refine ⟨rfl,?_⟩
    dsimp only [served]
    by_cases short : supplied.length ≤ maximum
    · rw [if_pos short]
      exact .inl ⟨supplied,rfl,rfl,short⟩
    · rw [if_neg short]
      exact .inr ⟨_,rfl⟩
  | openSource => exact ⟨rfl,.inl ⟨(),rfl,trivial⟩⟩
  | sourceLength => exact ⟨rfl,.inl ⟨_,rfl,trivial⟩⟩
  | readSource kind digest offset length =>
    refine ⟨rfl,?_⟩
    dsimp only [served,readExactAt]
    split
    · exact .inr ⟨_,rfl⟩
    · rename_i enough
      refine .inl ⟨_,rfl,?_⟩
      simp only [slice,List.length_take,List.length_drop]
      omega
  | create name =>
    dsimp only [served]
    by_cases fresh : s.entry .visible .staging name = none
    · rw [if_pos fresh]
      exact .inr (.inl ⟨0,trivial,trivial,fresh,rfl,.inl ⟨_,rfl,rfl⟩⟩)
    · rw [if_neg fresh]
      exact .inl ⟨fresh,rfl,rfl⟩
  | truncate inode length => exact .inl ⟨_,trivial,trivial,rfl,.inl ⟨(),rfl,trivial⟩⟩
  | write inode offset bytes =>
    refine .inl ⟨bytes.length,blocksOf (overwritten (s.content inode) offset bytes),Nat.le_refl _,trivial,trivial,?_,.inl ⟨(),rfl,rfl⟩⟩
    rw [List.take_length]
    rfl
  | unlink place name =>
    dsimp only [served]
    by_cases absent : s.entry .visible place name = none
    · rw [if_pos absent]
      exact .inr ⟨rfl,faulty _⟩
    · rw [if_neg absent]
      exact .inl ⟨absent,rfl,.inl ⟨(),rfl,trivial⟩⟩
  | rename name kind target =>
    dsimp only [served]
    by_cases fresh : s.entry .visible (.digest kind) target = none
    · rw [if_pos fresh]
      cases found : s.entry .visible .staging name with
      | none => exact .inr (.inr (.inr ⟨rfl,faulty _⟩))
      | some leaf => exact .inr (.inl ⟨leaf,rfl,found,fresh,rfl,.inl ⟨_,rfl,rfl⟩⟩)
    · rw [if_neg fresh]
      exact .inl ⟨fresh,rfl,rfl⟩
  | link name kind target =>
    dsimp only [served]
    by_cases fresh : s.entry .visible (.digest kind) target = none
    · rw [if_pos fresh]
      cases found : s.entry .visible .staging name with
      | none => exact .inr (.inr ⟨rfl,faulty _⟩)
      | some leaf => exact .inr (.inl ⟨leaf,found,fresh,rfl,.inl ⟨_,rfl,trivial⟩⟩)
    · rw [if_neg fresh]
      exact .inl ⟨fresh,rfl,rfl⟩
  | syncFile inode => exact .inl ⟨_,trivial,rfl,.inl ⟨(),rfl,trivial⟩⟩
  | syncDir place => exact .inl ⟨rfl,.inl ⟨(),rfl,trivial⟩⟩

theorem servedHappens (source : BlobKind → Digest → Bytes) (call : Call) (s : Store) :
    Happens plainDisk call s (served source call s).1 (served source call s).2 := by
  refine ⟨s,?_,servedActs source call s⟩
  split
  · exact .refl
  · rfl

theorem servedRuns {A : Type} (source : BlobKind → Digest → Bytes) (p : Task A) (s : Store) :
    Runs (Happens plainDisk) p s (some (play (served source) p s).1) (play (served source) p s).2 :=
  playRuns (servedHappens source) p s

theorem servedOk {A : Type} {source : BlobKind → Digest → Bytes} {p : Task A} {s : Store} {P : A → Prop} [DecidablePred P]
    (any : (play (served source) p s).1.toOption.any (fun a => decide (P a))) :
    ∃ a, P a ∧ Runs (Happens plainDisk) p s (some (.ok a)) (play (served source) p s).2 := by
  obtain ⟨a,same,holds⟩ := okAny any
  exact ⟨a,holds,same ▸ servedRuns source p s⟩

end RunnelMoe.Cas
