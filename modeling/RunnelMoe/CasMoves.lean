import RunnelMoe.CasReads

/-! What may happen to a store, one change at a time. The guards of a move are what the
operations establish before they make it; names that are only flushed change no file
and nothing that is visible. -/
namespace RunnelMoe.Cas
open Readers Results StoreErrors Words Format PageSpecs

def Spelled (name : Name) (blob : Blob) : Prop := Spells name.bytes blob.kind blob.digest blob.length

section Facts
variable (sha256 : Bytes → Digest) (s : Store)

def Unreferenced (kind : BlobKind) (name : Name) : Prop :=
  ∀ root i limits m record, s.entry .visible (.digest .manifest) root = some (.file i) →
    parseWithLimits sha256 (s.content i) limits = .ok m → record ∈ m.objects →
    (kind = .object → name ≠ digestName record.digest) ∧ (kind = .pageTable → name ≠ digestName record.pageTable)

end Facts

structure Flushes (s t : Store) : Prop where
  inodes : t.inodes = s.inodes
  next : t.next = s.next
  visible : ∀ place name, t.entry .visible place name = s.entry .visible place name
  durable : ∀ place name, t.entry .durable place name = s.entry .durable place name ∨
    t.entry .durable place name = s.entry .visible place name

namespace Store

def published (s : Store) (name : Name) (blob : Blob) (i : Nat) (moved : Bool) : Store :=
  (if moved then s.unbound .staging name else s).bound (.digest blob.kind) (digestName blob.digest) (.file i)

end Store

inductive Label where
  | flush
  | create (name : Name) (blob : Blob)
  | fill (inode : Nat) (blob : Blob)
  | settle (inode : Nat)
  | publish (name : Name) (blob : Blob) (limits : Limits) (moved : Bool)
  | unstage (name : Name)
  | sweep (kind : BlobKind) (name : Name)

section Moves
variable (fs : FileSystem) (sha256 : Bytes → Digest)

inductive Move : Store → Label → Store → Prop where
  | flush {s t} (flushes : Flushes s t) : Move s .flush t
  | create {s name blob blocks} (spells : Spelled name blob)
      (absent : s.entry .visible .staging name = none) (charged : fs.charges 0 blocks) (known : fs.involved []) :
      Move s (.create name blob) (s.created name blocks)
  | fill {s name blob i file} (spells : Spelled name blob)
      (staged : s.entry .visible .staging name = some (.file i)) (short : (s.content i).length < blob.length)
      (room : file.content.length ≤ blob.length) (charged : fs.charges file.content.length file.blocks)
      (known : fs.involved file.content) (changed : file.settled = false) : Move s (.fill i blob) (s.withInode i file)
  | settle {s i blocks} (charged : fs.charges (s.content i).length blocks) : Move s (.settle i) (s.settled i blocks)
  | publish {s name blob limits i moved} (spells : Spelled name blob)
      (staged : s.entry .visible .staging name = some (.file i))
      (absent : s.entry .visible (.digest blob.kind) (digestName blob.digest) = none)
      (ready : (s.inodes i).settled = true) (long : (s.content i).length = blob.length)
      (hashed : sha256 (s.content i) = blob.digest) :
      Move s (.publish name blob limits moved) (s.published name blob i moved)
  | unstage {s} (name) : Move s (.unstage name) (s.unbound .staging name)
  | sweep {s kind name} (leaf : kind ≠ .manifest) (free : Unreferenced sha256 s kind name) :
      Move s (.sweep kind name) (s.unbound (.digest kind) name)

def Moves (allowed : Store → Label → Prop) (s t : Store) : Prop := ∃ label, allowed s label ∧ Move fs sha256 s label t

end Moves

theorem flushRefl (s : Store) : Flushes s s := ⟨rfl,rfl,fun _ _ => rfl,fun _ _ => .inl rfl⟩

theorem flushTrans {s t u : Store} (first : Flushes s t) (second : Flushes t u) : Flushes s u where
  inodes := second.inodes.trans first.inodes
  next := second.next.trans first.next
  visible := fun place name => (second.visible place name).trans (first.visible place name)
  durable := fun place name => by
    rcases second.durable place name with same | seen
    · rw [same]
      exact first.durable place name
    · rw [seen]
      exact .inr (first.visible place name)

theorem persistFlushes (s : Store) (place : Place) (name : Name) : Flushes s (s.persisted place name) where
  inodes := rfl
  next := rfl
  visible := fun p n => by
    rw [s.entryPersisted]
    exact if_neg (fun all => nomatch all.1)
  durable := fun p n => by
    rw [s.entryPersisted]
    split
    · exact .inr rfl
    · exact .inl rfl

theorem syncFlushes (s : Store) (place : Place) : Flushes s (s.synced place) where
  inodes := rfl
  next := rfl
  visible := fun p n => by
    rw [s.entrySynced]
    exact if_neg (fun all => nomatch all.1)
  durable := fun p n => by
    rw [s.entrySynced]
    split
    · exact .inr rfl
    · exact .inl rfl

theorem driftFlushes {s t : Store} (drifts : Drifts s t) : Flushes s t := by
  induction drifts with
  | refl => exact flushRefl s
  | tail _ step ih =>
    obtain ⟨place,name,rfl⟩ := step
    exact flushTrans ih (persistFlushes _ place name)

end RunnelMoe.Cas
