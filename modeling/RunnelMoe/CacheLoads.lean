import Mathlib.Logic.Function.Basic
import RunnelMoe.CacheMachine

/-! The loads of the cache, as seen by the reader and by the calls that wait. All that
is left of an entry is the identity it was submitted with and the waiters attached to
it; entries that are not loading are invisible. Each call of the cache changes at most
one load, and shutdown detaches every waiter. -/
namespace RunnelMoe.PageCache
open StoreErrors Words PageSpecs CacheLimits KeyedSum
open Std (ExtTreeMap)

structure Load where
  fingerprint : Digest
  length : Nat
  allocationBytes : Nat
  generation : Nat
  waiters : List Waiter

def Entry.load? (e : Entry) : Option Load := match e.state with
  | .loading l => some ⟨e.fingerprint,e.length,e.allocationBytes,e.generation,l.waiters⟩
  | _ => none

def loadAt (entries : ExtTreeMap PageKey Entry) (key : PageKey) : Option Load := entries[key]?.bind Entry.load?

def Load.identifies (load : Load) (spec : PageSpec) : Prop :=
  load.length = spec.length ∧ load.fingerprint = spec.fingerprint ∧ spec.allocationBytes = .ok load.allocationBytes

def Load.bare (load : Load) : Load := {load with waiters := []}

def Load.tickets (call : Nat) : Option Load → Nat
  | none => 0
  | some load => (load.waiters.map Waiter.completion).count call

def attachments (entries : ExtTreeMap PageKey Entry) (call : Nat) : Nat :=
  total (fun _ e => Load.tickets call e.load?) entries

structure SameLoads (before after : ExtTreeMap PageKey Entry) : Prop where
  loads : loadAt after = loadAt before
  attached : ∀ call, attachments after call = attachments before call

structure LoadMove (before after : ExtTreeMap PageKey Entry) (key : PageKey) (old new : Option Load) : Prop where
  found : loadAt before key = old
  loads : loadAt after = Function.update (loadAt before) key new
  attached : ∀ call, attachments after call + Load.tickets call old = attachments before call + Load.tickets call new

section Updates
variable {entries middle after : ExtTreeMap PageKey Entry} {key : PageKey} {e e' : Entry} {old new : Option Load}

theorem loadLoading {l : LoadingEntry} (state : e.state = .loading l) :
    e.load? = some ⟨e.fingerprint,e.length,e.allocationBytes,e.generation,l.waiters⟩ := by
  simp only [Entry.load?,state]

theorem loadResident {r : ResidentEntry} (state : e.state = .resident r) : e.load? = none := by
  simp only [Entry.load?,state]

theorem loadRetiring {r : RetiringEntry} (state : e.state = .retiring r) : e.load? = none := by
  simp only [Entry.load?,state]

theorem loadPresent (present : entries[key]? = some e) : loadAt entries key = e.load? := by
  simp only [loadAt,present,Option.bind_some]

theorem loadAbsent (absent : entries[key]? = none) : loadAt entries key = none := by
  simp only [loadAt,absent,Option.bind_none]

theorem loadFound {load : Load} (found : loadAt entries key = some load) :
    ∃ e l, entries[key]? = some e ∧ e.state = .loading l ∧
      load = ⟨e.fingerprint,e.length,e.allocationBytes,e.generation,l.waiters⟩ := by
  simp only [loadAt,Option.bind_eq_some_iff] at found
  obtain ⟨e,present,loading⟩ := found
  unfold Entry.load? at loading
  split at loading
  · rename_i l state
    exact ⟨e,l,present,state,(Option.some.inj loading).symm⟩
  · contradiction

theorem loadInsert (entries : ExtTreeMap PageKey Entry) (key : PageKey) (e : Entry) :
    loadAt (entries.insert key e) = Function.update (loadAt entries) key e.load? := by
  funext k
  simp only [loadAt,getInsert,Function.update_apply]
  split <;> rfl

theorem loadErase (entries : ExtTreeMap PageKey Entry) (key : PageKey) :
    loadAt (entries.erase key) = Function.update (loadAt entries) key none := by
  funext k
  simp only [loadAt,getErase,Function.update_apply]
  split <;> rfl

theorem sameRefl (entries : ExtTreeMap PageKey Entry) : SameLoads entries entries := ⟨rfl,fun _ => rfl⟩

theorem sameTrans (first : SameLoads entries middle) (second : SameLoads middle after) : SameLoads entries after :=
  ⟨second.loads.trans first.loads,fun call => (second.attached call).trans (first.attached call)⟩

theorem sameMove (first : SameLoads entries middle) (second : LoadMove middle after key old new) :
    LoadMove entries after key old new := by
  refine ⟨by rw [← first.loads]; exact second.found,by rw [← first.loads]; exact second.loads,?_⟩
  intro call
  rw [second.attached call,first.attached call]

theorem moveReplaced (present : entries[key]? = some e) (e' : Entry) :
    LoadMove entries (entries.insert key e') key e.load? e'.load? := by
  refine ⟨loadPresent present,loadInsert entries key e',?_⟩
  intro call
  simp only [attachments,totalInsert,totalSplit _ present]
  omega

theorem moveErased (present : entries[key]? = some e) : LoadMove entries (entries.erase key) key e.load? none := by
  refine ⟨loadPresent present,loadErase entries key,?_⟩
  intro call
  simp only [attachments,totalSplit _ present,Load.tickets]
  omega

theorem moveAdded (absent : entries[key]? = none) (e' : Entry) :
    LoadMove entries (entries.insert key e') key none e'.load? := by
  refine ⟨loadAbsent absent,loadInsert entries key e',?_⟩
  intro call
  simp only [attachments,totalInsert,totalAbsent _ absent,Load.tickets]
  omega

theorem moveSame (move : LoadMove entries after key old new) (same : new = old) : SameLoads entries after := by
  refine ⟨by rw [move.loads,same,← move.found]; exact Function.update_eq_self _ _,?_⟩
  intro call
  have attached := move.attached call
  rw [same] at attached
  omega

theorem sameReplaced (present : entries[key]? = some e) (same : e'.load? = e.load?) :
    SameLoads entries (entries.insert key e') := moveSame (moveReplaced present e') same

theorem sameErased (present : entries[key]? = some e) (idle : e.load? = none) :
    SameLoads entries (entries.erase key) := moveSame (moveErased present) idle.symm

end Updates

def Move.inert : Move → Prop
  | .count | .evict _ | .hit _ | .interest _ | .use _ | .release _ | .cancel _ | .retire _ | .stop => True
  | _ => False

variable {config : CacheConfig} {p q : Pages}

theorem turnInert {move : Move} (turn : Turn config move p q)
    (inert : move.inert) : SameLoads p.entries q.entries := by
  cases turn with
  | count | stop => exact sameRefl _
  | evict present state => exact sameErased present (loadResident state)
  | releaseLast _ present _ state => exact sameErased present (loadRetiring state)
  | hit _ present state | useResident present state | releaseResident _ present _ state
  | retire present state =>
    exact sameReplaced present (by simp only [Entry.load?,state])
  | useRetiring present state | releaseRetiring _ present _ state =>
    exact sameReplaced present (by simp only [Entry.load?,state])
  | interest present state | cancel present state =>
    exact sameReplaced present (by simp only [Entry.load?,state,LoadingEntry.cancel])
  | join | start | fail | publish | withdraw | drain => exact absurd inert id

theorem turnsInert {allowed : Move → Prop} (turns : Turns config allowed p q)
    (inert : ∀ move, allowed move → move.inert) : SameLoads p.entries q.entries :=
  turnsInvariant (fun r => SameLoads p.entries r.entries)
    (fun move _ _ may turn same => sameTrans same (turnInert turn (inert move may))) turns (sameRefl _)

theorem turnsWaiter {allowed : Move → Prop} (turns : Turns config allowed p q) :
    p.waiter ≤ q.waiter := by
  refine turnsInvariant (fun r => p.waiter ≤ r.waiter) ?_ turns le_rfl
  intro move r t _ turn below
  cases turn with
  | count _ more => exact below.trans more
  | join _ _ _ _ fresh => exact below.trans fresh.le
  | _ => exact below

theorem grantedInert {before after : ExtTreeMap PageKey Entry} {allocation : Nat}
    {taken rest : List Candidate} (granted : Granted config before after allocation taken rest) :
    SameLoads before after := by
  obtain ⟨victims,distinct⟩ := takenVictims granted.split
  have turns := @evictTurns taken config ⟨before,[],0,0,false⟩ victims distinct (fun move => move.inert)
    (fun _ => trivial)
  rw [granted.entries]
  exact turnsInert turns (fun _ inert => inert)

section Calls
variable {config : CacheConfig} {ambient : Ambient} {spec : PageSpec} {call : Nat}
  {submit : Except StoreError Unit} {s s' : CacheState} {key : PageKey} {generation waiterId : Nat}

theorem getFailedLoads {error : StoreError}
    (effect : GetEffect config ambient spec call submit s s' (.failed error)) : SameLoads s.entries s'.entries := by
  cases effect with
  | quiet unmoved => rw [unmoved.entries]; exact sameRefl _
  | refused _ _ _ granted => exact grantedInert granted

theorem getHitLoads {lease : PageLease} (effect : GetEffect config ambient spec call submit s s' (.lease lease)) :
    SameLoads s.entries s'.entries := by
  cases effect with
  | hit _ present _ state _ entries =>
    rw [entries]
    exact sameReplaced present (by simp only [Entry.load?,state])

theorem getJoinedLoads (effect : GetEffect config ambient spec call submit s s' (.joined generation waiterId)) :
    ∃ load, LoadMove s.entries s'.entries spec.key (some load)
        (some {load with waiters := load.waiters ++ [⟨waiterId,call⟩]}) ∧
      load.generation = generation ∧ load.identifies spec ∧ waiterId = s.waiter + 1 ∧ s'.waiter = s.waiter + 1 := by
  cases effect with
  | @joined e l _ present identity state _ _ _ _ entries _ _ waiter =>
    refine ⟨⟨e.fingerprint,e.length,e.allocationBytes,e.generation,l.waiters⟩,?_,rfl,identity,rfl,waiter⟩
    have move := moveReplaced present
      {e with state := .loading {l with waiters := l.waiters ++ [⟨s.waiter + 1,call⟩], lastTouch := s'.tick}}
    rw [loadLoading state,loadLoading rfl,← entries] at move
    exact move

theorem getStartedLoads (effect : GetEffect config ambient spec call submit s s' (.started generation waiterId)) :
    ∃ load, LoadMove s.entries s'.entries spec.key none (some load) ∧ load.waiters = [⟨waiterId,call⟩] ∧
      load.generation = generation ∧ load.identifies spec ∧ waiterId = s.waiter + 1 ∧ s'.waiter = s.waiter + 1 ∧
      submit = .ok () := by
  cases effect with
  | @started allocation middle taken rest _ absent aligned _ _ _ granted answer entries _ _ waiter =>
    have move := moveAdded (grantedAbsent granted absent)
      (demandEntry spec allocation (s.generation + 1) (s.waiter + 1) call s'.tick)
    rw [loadLoading rfl,← entries] at move
    exact ⟨_,sameMove (grantedInert granted) move,rfl,rfl,⟨rfl,rfl,aligned⟩,rfl,waiter,answer⟩

theorem prefetchIdleLoads {result : Except StoreError PrefetchOutcome}
    (effect : PrefetchEffect config ambient spec submit s s' result) (idle : result ≠ .ok .started) :
    SameLoads s.entries s'.entries ∧ s'.waiter ≥ s.waiter := by
  cases effect with
  | quiet unmoved => exact ⟨by rw [unmoved.entries]; exact sameRefl _,unmoved.waiter⟩
  | interest present state _ entries _ _ waiter =>
    refine ⟨?_,waiter.ge⟩
    rw [entries]
    exact sameReplaced present (by simp only [Entry.load?,state])
  | refused _ _ _ granted _ _ _ _ waiter => exact ⟨grantedInert granted,waiter.ge⟩
  | started => exact absurd rfl idle

theorem prefetchStartedLoads (effect : PrefetchEffect config ambient spec submit s s' (.ok .started)) :
    ∃ load, LoadMove s.entries s'.entries spec.key none (some load) ∧ load.waiters = [] ∧
      load.generation = s'.generation ∧ load.identifies spec ∧ s'.waiter = s.waiter ∧ submit = .ok () := by
  cases effect with
  | quiet _ idle => exact absurd rfl idle
  | refused _ _ _ _ _ told =>
    split at told <;> cases told
  | @started allocation middle taken rest _ absent aligned granted answer entries _ generation waiter =>
    have move := moveAdded (grantedAbsent granted absent)
      (prefetchEntry spec allocation (s.generation + 1) s'.tick)
    rw [loadLoading rfl,← entries] at move
    exact ⟨_,sameMove (grantedInert granted) move,rfl,generation.symm,⟨rfl,rfl,aligned⟩,waiter,answer⟩

theorem completeLoads {result : Except StoreError VerifiedPage} {deliveries : List Delivery} {load : Load}
    (effect : CompleteEffect key generation result s s' deliveries) (found : loadAt s.entries key = some load)
    (current : load.generation = generation) :
    LoadMove s.entries s'.entries key (some load) none ∧
      deliveries.map Delivery.completion = load.waiters.map Waiter.completion ∧
      (∀ d ∈ deliveries, ∀ lease, d.result = .ok lease →
        result = .ok lease.page ∧ lease.page.bytes.length = load.length) ∧ s'.waiter = s.waiter := by
  cases effect with
  | stale _ other =>
    obtain ⟨e,l,present,state,rfl⟩ := loadFound found
    exact absurd state (other e l present current)
  | failed present _ state entries _ counters =>
    have move := moveErased present
    rw [loadLoading state,← entries] at move
    cases Option.some.inj (found.symm.trans move.found)
    refine ⟨move,by simp,?_,counters.waiter⟩
    intro d member lease told
    obtain ⟨w,-,rfl⟩ := List.mem_map.mp member
    cases told
  | @published e l page _ present _ state _ answer within entries _ counters =>
    have move := moveReplaced present {e with state := .resident ⟨page,l.waiters.length,
      prefetchedUnusedOnAdmission l.prefetchInterest l.waiters.length,l.lastTouch⟩}
    rw [loadLoading state,loadResident rfl,← entries] at move
    cases Option.some.inj (found.symm.trans move.found)
    refine ⟨move,by simp,?_,counters.waiter⟩
    intro d member lease told
    obtain ⟨w,-,rfl⟩ := List.mem_map.mp member
    cases told
    simp only [exceedsReservation,not_or,not_not] at within
    exact ⟨answer,within.2.1⟩

theorem withdrawLoads (effect : WithdrawEffect key generation waiterId s s') :
    s'.waiter = s.waiter ∧
    ((SameLoads s.entries s'.entries ∧ ∀ load, loadAt s.entries key = some load → load.generation = generation →
        ∀ w ∈ load.waiters, w.id ≠ waiterId) ∨
      ∃ load w rest, LoadMove s.entries s'.entries key (some load) (some {load with waiters := rest}) ∧
        load.generation = generation ∧ w.id = waiterId ∧ load.waiters.Perm (w::rest)) := by
  cases effect with
  | gone same none =>
    subst same
    refine ⟨rfl,.inl ⟨sameRefl _,?_⟩⟩
    intro load found current w member
    obtain ⟨e,l,present,state,rfl⟩ := loadFound found
    exact none e present current w (by simpa only [Entry.waiters,state] using member)
  | @withdrawn e l i w present current state at_ identity entries _ counters =>
    have move := moveReplaced present {e with state := .loading (l.leave i)}
    rw [loadLoading state,loadLoading rfl,← entries] at move
    exact ⟨counters.waiter,.inr ⟨⟨e.fingerprint,e.length,e.allocationBytes,e.generation,l.waiters⟩,w,
      (l.leave i).waiters,move,current,identity,Vectors.swapRemovePerm at_⟩⟩

end Calls

theorem turnBare {move : Move} (turn : Turn config move p q) (shuts : move.shuts)
    (key : PageKey) : (loadAt q.entries key).map Load.bare = (loadAt p.entries key).map Load.bare := by
  cases turn with
  | @drain _ k e l present state =>
    rw [loadInsert,loadLoading rfl,Function.update_apply]
    split
    · rename_i here
      rw [here,loadPresent present,loadLoading state]
      rfl
    · rfl
  | evict present state unleased => rw [(@turnInert config _ _ _ (.evict present state unleased) trivial).loads]
  | retire present state leased => rw [(@turnInert config _ _ _ (.retire present state leased) trivial).loads]
  | stop => rfl
  | _ => exact absurd shuts id

theorem quietBare {entries : ExtTreeMap PageKey Entry} (quiet : Every entries (fun _ (e : Entry) => e.quiet)) {key : PageKey}
    {load : Load} (found : loadAt entries key = some load) : load.waiters = [] := by
  obtain ⟨e,l,present,state,rfl⟩ := loadFound found
  have still := quiet key e present
  simp only [Entry.quiet,state] at still
  exact still.1

theorem quietUnattached {entries : ExtTreeMap PageKey Entry} (quiet : Every entries (fun _ (e : Entry) => e.quiet))
    (call : Nat) : attachments entries call = 0 := by
  refine totalZero.mpr ?_
  intro key e present
  cases found : e.load? with
  | none => rfl
  | some load => simp [Load.tickets,quietBare quiet ((loadPresent present).trans found)]

theorem attachedTickets (entries : ExtTreeMap PageKey Entry) (call : Nat) :
    (entries.keys.flatMap (attached entries)).count call = attachments entries call := by
  rw [List.count_flatMap,← ExtTreeMap.map_fst_toList_eq_keys,List.map_map]
  unfold attachments total
  congr 1
  refine List.map_congr_left ?_
  rintro ⟨key,e⟩ member
  have present := memToList.mp member
  simp only [Function.comp_apply,attached,present]
  unfold Entry.waiters Entry.load? Load.tickets
  cases e.state <;> rfl

theorem shutdownLoads {leases : List PageLease} {inner : CacheInner}
    (accepted : Accepted config) (good : Good config inner.state leases) :
    (∀ key, loadAt (shutdown inner).1.state.entries key = (loadAt inner.state.entries key).map Load.bare) ∧
    ∀ call, attachments (shutdown inner).1.state.entries call = 0 ∧
      ((shutdown inner).2.map Delivery.completion).count call = attachments inner.state.entries call := by
  have refines := shutdownRefines accepted good
  have after := (refinesGood refines good).sound
  have quiet : Every (shutdown inner).1.state.entries (fun _ e => e.quiet) :=
    after.quiet (shutdownStops accepted good)
  have bare := turnsInvariant
    (fun p => ∀ key, (loadAt p.entries key).map Load.bare = (loadAt inner.state.entries key).map Load.bare)
    (fun _ _ _ shuts turn same key => (turnBare turn shuts key).trans (same key)) refines.turns (fun _ => rfl)
  refine ⟨fun key => ?_,fun call => ⟨quietUnattached quiet call,?_⟩⟩
  · rw [← bare key]
    cases found : loadAt (shutdown inner).1.state.entries key with
    | none => simp only [CacheState.pages,found,Option.map_none]
    | some load =>
      have alone := quietBare quiet found
      simp only [CacheState.pages,found,Option.map_some,Load.bare,← alone]
  · cases stopped : inner.state.shutdown with
    | true =>
      have before : Every inner.state.entries (fun _ e => e.quiet) := good.sound.quiet stopped
      simp only [shutdown,stopped,if_true,List.map_nil,List.count_nil,quietUnattached before call]
    | false =>
      have plain : (fun c : Nat => (⟨c,.error .shutdown⟩ : Delivery).completion) = id := rfl
      rw [shutdownTold accepted good stopped,List.map_map,← attachedTickets]
      simp only [Function.comp_def,plain,List.map_id]

end RunnelMoe.PageCache
