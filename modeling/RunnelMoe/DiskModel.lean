import Mathlib.Logic.Relation
import RunnelMoe.KeyedSum
import RunnelMoe.Scripts
import RunnelMoe.StageTokens

/-! The file system under a store. Each directory has the names that a process sees and
the names that a crash would leave; a name change is durable once its directory has
been synchronized, and may become so before. The content of a file is settled once the
file has been synchronized. A call may fail with or without its effect. -/
namespace RunnelMoe.Cas
open Std (ExtTreeMap)
open Readers Results StoreErrors Words Format PageSpecs KeyedSum Scripts

structure Name where
  bytes : Bytes
  deriving DecidableEq, Repr

instance nameOrder : LinearOrder Name :=
  LinearOrder.lift' (fun n => n.bytes.map UInt8.toNat) (by
    intro a b same
    cases a; cases b
    simpa using List.map_injective_iff.mpr (fun _ _ => UInt8.toNat_inj.mp) same)

instance nameTrans : Std.TransOrd Name := inferInstance

structure Inode where
  content : Bytes
  settled : Bool
  blocks : Nat
  deriving DecidableEq, Repr

-- A leaf that is not a private regular file of the store's owner is foreign. The system may refuse to open it for
-- reading or for writing, with an error of some kind; a directory can be opened for reading only.
inductive Leaf where
  | file (inode : Nat)
  | foreign (reading writing : Option Nat)
  deriving DecidableEq, Repr

inductive Place where
  | digest (kind : BlobKind)
  | staging
  deriving DecidableEq, Repr

inductive View where
  | visible
  | durable
  deriving DecidableEq, Repr

structure Store where
  names : View → Place → ExtTreeMap Name Leaf
  inodes : Nat → Inode
  next : Nat

structure Seen where
  names : Place → ExtTreeMap Name Leaf
  inodes : Nat → Inode

def Seen.entry (s : Seen) (place : Place) (name : Name) : Option Leaf := (s.names place)[name]?

def Seen.content (s : Seen) (inode : Nat) : Bytes := (s.inodes inode).content

namespace Store

def seen (s : Store) : Seen := ⟨s.names .visible,s.inodes⟩

def entry (s : Store) (view : View) (place : Place) (name : Name) : Option Leaf := (s.names view place)[name]?

def content (s : Store) (inode : Nat) : Bytes := (s.inodes inode).content

def withNames (s : Store) (view : View) (place : Place) (names : ExtTreeMap Name Leaf) : Store :=
  {s with names := fun v p => if v = view ∧ p = place then names else s.names v p}

def bound (s : Store) (place : Place) (name : Name) (leaf : Leaf) : Store :=
  s.withNames .visible place ((s.names .visible place).insert name leaf)

def unbound (s : Store) (place : Place) (name : Name) : Store :=
  s.withNames .visible place ((s.names .visible place).erase name)

def persisted (s : Store) (place : Place) (name : Name) : Store :=
  s.withNames .durable place (match s.entry .visible place name with
    | some leaf => (s.names .durable place).insert name leaf
    | none => (s.names .durable place).erase name)

def synced (s : Store) (place : Place) : Store := s.withNames .durable place (s.names .visible place)

def withInode (s : Store) (inode : Nat) (file : Inode) : Store :=
  {s with inodes := fun i => if i = inode then file else s.inodes i}

def created (s : Store) (name : Name) (blocks : Nat) : Store :=
  {(s.withInode s.next ⟨[],false,blocks⟩).bound .staging name (.file s.next) with next := s.next + 1}

def settled (s : Store) (inode blocks : Nat) : Store :=
  s.withInode inode {s.inodes inode with settled := true, blocks := blocks}

def empty : Store := ⟨fun _ _ => ∅,fun _ => ⟨[],false,0⟩,0⟩

section Entries
variable (s : Store) (view : View) (p place : Place) (n name : Name) (leaf : Leaf)

theorem entryBound : (s.bound place name leaf).entry view p n =
    if view = .visible ∧ p = place ∧ n = name then some leaf else s.entry view p n := by
  unfold bound withNames entry
  by_cases here : view = .visible ∧ p = place
  · obtain ⟨rfl,rfl⟩ := here
    simp only [and_self,if_true,getInsert,true_and]
    congr
  · rw [if_neg (fun all => here ⟨all.1,all.2.1⟩)]
    simp only [if_neg here]

theorem entryUnbound : (s.unbound place name).entry view p n =
    if view = .visible ∧ p = place ∧ n = name then none else s.entry view p n := by
  unfold unbound withNames entry
  by_cases here : view = .visible ∧ p = place
  · obtain ⟨rfl,rfl⟩ := here
    simp only [and_self,if_true,getErase,true_and]
    congr
  · rw [if_neg (fun all => here ⟨all.1,all.2.1⟩)]
    simp only [if_neg here]

theorem entryPersisted : (s.persisted place name).entry view p n =
    if view = .durable ∧ p = place ∧ n = name then s.entry .visible p n else s.entry view p n := by
  by_cases here : view = .durable ∧ p = place
  · obtain ⟨rfl,rfl⟩ := here
    unfold persisted withNames
    cases found : s.entry .visible p name with
    | none =>
      simp only [entry,and_self,if_true,getErase,true_and]
      split
      · rename_i same
        rw [same]
        exact found.symm
      · rfl
    | some leaf =>
      simp only [entry,and_self,if_true,getInsert,true_and]
      split
      · rename_i same
        rw [same]
        exact found.symm
      · rfl
  · rw [if_neg (fun all => here ⟨all.1,all.2.1⟩)]
    simp only [persisted,withNames,entry,if_neg here]

theorem entrySynced : (s.synced place).entry view p n =
    if view = .durable ∧ p = place then s.entry .visible p n else s.entry view p n := by
  by_cases here : view = .durable ∧ p = place
  · obtain ⟨rfl,rfl⟩ := here
    simp only [synced,withNames,entry,and_self,if_true]
  · simp only [synced,withNames,entry,if_neg here]

end Entries

end Store

def digestName (digest : Digest) : Name := ⟨pathComponent digest⟩

inductive RenameNoReplace where
  | published
  | unsupported
  deriving DecidableEq, Repr

inductive Call where
  | check
  | capacity
  | random
  | manifestBytes (supplied : Bytes) (maximum : Nat)
  | openSource (kind : BlobKind) (digest : Digest)
  | sourceLength (kind : BlobKind) (digest : Digest)
  | readSource (kind : BlobKind) (digest : Digest) (offset length : Nat)
  | create (name : Name)
  | truncate (inode length : Nat)
  | write (inode offset : Nat) (bytes : Bytes)
  | unlink (place : Place) (name : Name)
  | rename (name : Name) (kind : BlobKind) (target : Name)
  | link (name : Name) (kind : BlobKind) (target : Name)
  | syncFile (inode : Nat)
  | syncDir (place : Place)

def Value : Call → Type
  | .capacity | .sourceLength _ _ | .create _ => Nat
  | .random | .manifestBytes _ _ | .readSource _ _ _ _ => Bytes
  | .rename _ _ _ => RenameNoReplace
  | _ => Unit

-- Only the names in a directory decide whether a leaf is missing or exists already.
def Fault : Stop → Prop
  | .panic | .failed (.missing _) | .failed (.alreadyExists _) => False
  | .failed _ => True

def Answers {A : Type} (answer : Result A) (post : A → Prop) : Prop :=
  (∃ a, answer = .ok a ∧ post a) ∨ ∃ stop, Fault stop ∧ answer = .error stop

def Faulty {A : Type} (answer : Result A) : Prop := ∃ stop, Fault stop ∧ answer = .error stop

def Supplies {A : Type} (answer : Result A) (post : A → Prop) : Prop :=
  (∃ a, answer = .ok a ∧ post a) ∨ ∃ error, answer = failed error

-- The contents that are involved are those that files have in the runs that are looked at.
structure FileSystem where
  unit : Nat
  renames : Bool
  charges : Nat → Nat → Prop
  involved : Bytes → Prop

def resized (content : Bytes) (length : Nat) : Bytes := content.take length ++ List.replicate (length - content.length) 0

def overwritten (content : Bytes) (offset : Nat) (bytes : Bytes) : Bytes :=
  resized (content.take offset) offset ++ bytes ++ content.drop (offset + bytes.length)

variable (fs : FileSystem)

def Acts : (call : Call) → Store → Result (Value call) → Store → Prop
  | .check, s, answer, last => last = s ∧ Answers answer (fun _ => True)
  | .capacity, s, answer, last => last = s ∧ Answers answer (fun _ => True)
  | .random, s, answer, last => last = s ∧ Answers answer (fun (bytes : Bytes) => bytes.length = 16)
  | .manifestBytes supplied maximum, s, answer, last =>
    last = s ∧ Supplies answer (fun (bytes : Bytes) => bytes = supplied ∧ bytes.length ≤ maximum)
  | .openSource _ _, s, answer, last => last = s ∧ Supplies answer (fun _ => True)
  | .sourceLength _ _, s, answer, last => last = s ∧ Supplies answer (fun _ => True)
  | .readSource _ _ _ length, s, answer, last => last = s ∧ Supplies answer (fun (bytes : Bytes) => bytes.length = length)
  | .create name, s, answer, last =>
    (s.entry .visible .staging name ≠ none ∧ last = s ∧ answer = failed (.alreadyExists "staging file")) ∨
    (∃ blocks, fs.charges 0 blocks ∧ fs.involved [] ∧ s.entry .visible .staging name = none ∧
      last = s.created name blocks ∧ Answers answer (fun inode => inode = s.next)) ∨
    (last = s ∧ Faulty answer)
  | .truncate inode length, s, answer, last =>
    (∃ blocks, fs.charges length blocks ∧ fs.involved (resized (s.content inode) length) ∧
      last = s.withInode inode ⟨resized (s.content inode) length,false,blocks⟩ ∧ Answers answer (fun _ => True)) ∨
    (last = s ∧ Faulty answer)
  | .write inode offset bytes, s, answer, last =>
    (∃ count blocks, count ≤ bytes.length ∧
      fs.charges (overwritten (s.content inode) offset (bytes.take count)).length blocks ∧
      fs.involved (overwritten (s.content inode) offset (bytes.take count)) ∧
      last = s.withInode inode ⟨overwritten (s.content inode) offset (bytes.take count),false,blocks⟩ ∧
      Answers answer (fun _ => count = bytes.length)) ∨ (last = s ∧ Faulty answer)
  | .unlink place name, s, answer, last =>
    (s.entry .visible place name ≠ none ∧ last = s.unbound place name ∧ Answers answer (fun _ => True)) ∨
    (last = s ∧ Faulty answer)
  | .rename name kind target, s, answer, last =>
    (s.entry .visible (.digest kind) target ≠ none ∧ last = s ∧ answer = failed (.alreadyExists kind.errorName)) ∨
    (∃ leaf, fs.renames = true ∧ s.entry .visible .staging name = some leaf ∧
      s.entry .visible (.digest kind) target = none ∧
      last = (s.unbound .staging name).bound (.digest kind) target leaf ∧ Answers answer (fun result => result = .published)) ∨
    (last = s ∧ answer = .ok .unsupported) ∨ (last = s ∧ Faulty answer)
  | .link name kind target, s, answer, last =>
    (s.entry .visible (.digest kind) target ≠ none ∧ last = s ∧ answer = failed (.alreadyExists kind.errorName)) ∨
    (∃ leaf, s.entry .visible .staging name = some leaf ∧ s.entry .visible (.digest kind) target = none ∧
      last = s.bound (.digest kind) target leaf ∧ Answers answer (fun _ => True)) ∨
    (last = s ∧ Faulty answer)
  | .syncFile inode, s, answer, last =>
    (∃ blocks, fs.charges (s.content inode).length blocks ∧ last = s.settled inode blocks ∧
      Answers answer (fun _ => True)) ∨ (last = s ∧ Faulty answer)
  | .syncDir place, s, answer, last =>
    (last = s.synced place ∧ Answers answer (fun _ => True)) ∨ (last = s ∧ Faulty answer)

def Drifts : Store → Store → Prop := Relation.ReflTransGen (fun s last => ∃ place name, last = s.persisted place name)

def Call.changes : Call → Bool
  | .create _ | .truncate _ _ | .write _ _ _ | .unlink _ _ | .rename _ _ _ | .link _ _ _ | .syncFile _ | .syncDir _ => true
  | _ => false

-- No read tells a durable name from a pending one, so what becomes durable meanwhile does so before the next change.
def Happens (call : Call) (s : Store) (answer : Result (Value call)) (last : Store) : Prop :=
  ∃ middle, (if call.changes then Drifts s middle else middle = s) ∧ Acts fs call middle answer last

abbrev Task (A : Type) := Script Store Stop Value A

end RunnelMoe.Cas
