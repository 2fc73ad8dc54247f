import RunnelMoe.CasImport
import RunnelMoe.CasMoves

/-! What the calls of an operation do to a store, as moves: the rules for the reads, for
the synchronization of directories and for the removal of names. -/
namespace RunnelMoe.Cas
open Readers Results StoreErrors Words Format PageSpecs Scripts Script

section Calls
variable {fs : FileSystem} {s t : Store}

theorem happensQuiet {call : Call} {answer : Result (Value call)} (quiet : call.changes = false)
    (happens : Happens fs call s answer t) : Acts fs call s answer t := by
  obtain ⟨middle,drift,acts⟩ := happens
  rw [quiet] at drift
  cases drift
  exact acts

theorem happensChange {call : Call} {answer : Result (Value call)} (changes : call.changes = true)
    (happens : Happens fs call s answer t) : ∃ middle, Flushes s middle ∧ Acts fs call middle answer t := by
  obtain ⟨middle,drift,acts⟩ := happens
  rw [changes] at drift
  exact ⟨middle,driftFlushes drift,acts⟩

def Synced (s : Store) (place : Place) : Prop := ∀ name, s.entry .durable place name = s.entry .visible place name

theorem syncHappens {place : Place} {answer : Result Unit} (happens : Happens fs (.syncDir place) s answer t) :
    Flushes s t ∧ (answer = .ok () → Synced t place) := by
  obtain ⟨m,flushes,acts⟩ := happensChange rfl happens
  rcases acts with ⟨rfl,-⟩ | ⟨rfl,stop,-,rfl⟩
  · refine ⟨flushTrans flushes (syncFlushes m place),fun _ name => ?_⟩
    rw [m.entrySynced,m.entrySynced,if_pos ⟨rfl,rfl⟩,if_neg (fun all => nomatch all.1)]
  · exact ⟨flushes,nofun⟩

theorem unlinkHappens {place : Place} {name : Name} {answer : Result Unit}
    (happens : Happens fs (.unlink place name) s answer t) :
    ∃ m, Flushes s m ∧ ((t = m.unbound place name) ∨ t = m ∧ Faulty answer) := by
  obtain ⟨m,flushes,acts⟩ := happensChange rfl happens
  rcases acts with ⟨-,rfl,-⟩ | ⟨rfl,faulty⟩
  · exact ⟨m,flushes,.inl rfl⟩
  · exact ⟨t,flushes,.inr ⟨rfl,faulty⟩⟩

end Calls

section Reads
variable {fs : FileSystem} {move : Store → Store → Prop} {A B : Type} {post : B → Store → Prop} {s : Store}

theorem quietThen {call : Call} {f : Value call → Task B} (quiet : call.changes = false)
    (later : ∀ a, Does (Happens fs) move post (f a) s) : Does (Happens fs) move post (perform call >>= f) s := by
  refine doesPerformThen (fun answer t happens => ?_)
  have still : t = s := by
    have acts := happensQuiet quiet happens
    cases call <;> first | contradiction | exact acts.1
  subst still
  exact ⟨.refl,fun a _ => later a⟩

theorem checkThen {f : Unit → Task B} (later : Does (Happens fs) move post (f ()) s) :
    Does (Happens fs) move post (check >>= f) s := by
  have rule : Does (Happens fs) move post (perform Call.check >>= f) s := quietThen rfl (fun _ => later)
  exact rule

theorem capacityThen {f : Nat → Task B} (later : ∀ a, Does (Happens fs) move post (f a) s) :
    Does (Happens fs) move post (capacity >>= f) s := by
  have rule : Does (Happens fs) move post (perform Call.capacity >>= f) s := quietThen rfl later
  exact rule

theorem liftThen {result : Result A} {f : A → Task B} (later : ∀ a, result = .ok a → Does (Happens fs) move post (f a) s) :
    Does (Happens fs) move post (lift result >>= f) s := by
  cases result with
  | error stop => exact doesFail
  | ok a => exact later a rfl

theorem peekDoes (read : Seen → Result A) :
    Does (Happens fs) move (fun a t => t = s ∧ read s.seen = .ok a) (peek read) s :=
  checkThen (doesReading (fun _ found => ⟨rfl,found⟩))

theorem peekThen {read : Seen → Result A} {f : A → Task B}
    (later : ∀ a, read s.seen = .ok a → Does (Happens fs) move post (f a) s) :
    Does (Happens fs) move post (peek read >>= f) s := by
  refine doesBind (peekDoes read) (fun a t _ found => ?_)
  obtain ⟨rfl,found⟩ := found
  exact later a found

variable {unit : Nat}

theorem usageDoes : Does (Happens fs) move (fun usage t => t = s ∧ ∃ used available, usedBytes s.seen = .ok used ∧
    used.1 + used.2 < modulus ∧ usage = ⟨used.1,used.2,available,unit⟩) (usage unit) s := by
  refine peekThen (fun used found => capacityThen (fun available => liftThen (fun total summed => ?_)))
  exact doesPure ⟨rfl,used,available,found,(checkedAddSome.mp (orFailOk.mp summed)).1,rfl⟩

theorem usageThen {f : DiskUsage → Task B}
    (later : ∀ used available, usedBytes s.seen = .ok used → used.1 + used.2 < modulus →
      Does (Happens fs) move post (f ⟨used.1,used.2,available,unit⟩) s) :
    Does (Happens fs) move post (usage unit >>= f) s := by
  refine doesBind usageDoes (fun usage t _ done => ?_)
  obtain ⟨rfl,used,available,found,fits,rfl⟩ := done
  exact later used available found fits

end Reads

theorem expectedParsed {sha256 : Bytes → Digest} {manifest : Manifest} {limits : Limits} {bytes : Bytes} {expectedId : Digest}
    (ok : parseWithExpectedId sha256 bytes limits expectedId = .ok manifest) :
    parseWithLimits sha256 bytes limits = .ok manifest ∧ manifest.artifactId = expectedId ∧
      manifest.canonicalBytes = bytes := by
  obtain ⟨m,parsed,ok⟩ := bindOk.mp ok
  obtain ⟨same,ok⟩ := guardOk.mp ok
  cases ok
  exact ⟨parsed,not_not.mp same,(parsedIdentity parsed).2⟩

theorem digestNameInjective {a b : Digest} (same : digestName a = digestName b) : a = b :=
  pathComponentInjective (congrArg Name.bytes same)

end RunnelMoe.Cas
