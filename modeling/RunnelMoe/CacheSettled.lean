import RunnelMoe.CacheCancel
import RunnelMoe.CacheResolve

/-! Outstanding loads, resolved waiters and the cache at rest. The reader is a bounded
FIFO queue with workers that complete each accepted request once; everything else may
happen in any order. -/
namespace RunnelMoe.PageCache
open StoreErrors Words PageSpecs CacheLimits KeyedSum Runs AsyncReads
open Std (ExtTreeMap)

structure Recorded (s : Service) : Prop where
  told : ∀ d ∈ s.outbox ++ s.channels, d.resolution ∈ s.resolved
  received : ∀ row ∈ s.returned, ∀ result, row.2.2 = .received result →
    (⟨row.1,result⟩ : Delivery).resolution ∈ s.resolved
  kept : ∀ row ∈ s.returned, row.2.2 ≠ .closed

section Recording
variable {config : CacheConfig} {readers : AsyncReaderConfig} {s s' : Service}

theorem hungUpMail (s : Service) (call : Nat) :
    ∀ d ∈ (s.hangUp call).outbox ++ (s.hangUp call).channels, d ∈ s.outbox ++ s.channels := by
  intro d member
  rcases List.mem_append.mp member with old | sent
  · exact List.mem_append_left _ old
  · exact List.mem_append_right _ (List.mem_filter.mp sent).1

theorem takenMail (s : Service) (d : Delivery) :
    ∀ other ∈ s.outbox ++ s.channels.erase d, other ∈ s.outbox ++ s.channels := by
  intro other member
  rcases List.mem_append.mp member with old | sent
  · exact List.mem_append_left _ old
  · exact List.mem_append_right _ (List.mem_of_mem_erase sent)

theorem sentMail {d : Delivery} (ok : s.step config readers (.send d) = some s') :
    (∀ other ∈ s'.outbox ++ s'.channels, other ∈ s.outbox ++ s.channels) ∧
      s' = {s with outbox := s'.outbox, channels := s'.channels, orphans := s'.orphans} := by
  simp only [Service.step] at ok
  split at ok
  · rename_i member
    split at ok <;> cases Option.some.inj ok <;> refine ⟨fun other inside => ?_,rfl⟩
    · simp only [List.mem_append,List.mem_singleton] at inside ⊢
      rcases inside with left | sent | rfl
      · exact .inl (List.mem_of_mem_erase left)
      · exact .inr sent
      · exact .inl member
    · exact List.mem_append.mpr ((List.mem_append.mp inside).imp_left List.mem_of_mem_erase)
  · contradiction

theorem recordedSame (recorded : Recorded s) (mail : ∀ d ∈ s'.outbox ++ s'.channels, d ∈ s.outbox ++ s.channels)
    (resolved : s.resolved ⊆ s'.resolved) (returned : s'.returned = s.returned) : Recorded s' := by
  refine ⟨fun d member => resolved (recorded.told d (mail d member)),?_,?_⟩
  · rw [returned]
    exact fun row member result same => resolved (recorded.received row member result same)
  · rw [returned]
    exact recorded.kept

theorem recordedAnswer (recorded : Recorded s) (call : Nat) (spec : PageSpec) (answer : Answer)
    (heard : ∀ result, answer = .received result → (⟨call,result⟩ : Delivery).resolution ∈ s.resolved)
    (alive : answer ≠ .closed) : Recorded (s.answer call spec answer) := by
  refine ⟨recorded.told,?_,?_⟩
  · intro row member result same
    rcases List.mem_cons.mp member with rfl | old
    · exact heard result same
    · exact recorded.received row old result same
  · intro row member
    rcases List.mem_cons.mp member with rfl | old
    · exact alive
    · exact recorded.kept row old

theorem recordedTold (recorded : Recorded s) (inner : CacheInner) (deliveries : List Delivery) :
    Recorded (s.tell inner deliveries) := by
  refine ⟨?_,?_,recorded.kept⟩
  · intro d member
    simp only [Service.tell,List.mem_append] at member ⊢
    rcases member with (old | new) | sent
    · exact .inr (recorded.told d (List.mem_append_left _ old))
    · exact .inl (List.mem_map_of_mem new)
    · exact .inr (recorded.told d (List.mem_append_right _ sent))
  · intro row member result same
    exact List.mem_append_right _ (recorded.received row member result same)

theorem recordedWithdrawn (recorded : Recorded s) (call : Nat) (r : WaiterRegistration) :
    Recorded (s.withdraw call r) := by
  refine recordedSame recorded (fun _ member => member) ?_ rfl
  intro row member
  simp only [Service.withdraw]
  split
  · exact List.mem_cons_of_mem _ member
  · exact member

theorem recordedHungUp (recorded : Recorded s) (call : Nat) : Recorded (s.hangUp call) :=
  recordedSame recorded (hungUpMail s call) (fun _ member => member) rfl

theorem recordedSubmit (recorded : Recorded s) (request : Request) : Recorded (s.submit readers request) := by
  unfold Service.submit
  split
  · exact ⟨recorded.told,recorded.received,recorded.kept⟩
  · exact recorded

theorem recordedPoll {call elapsed : Nat} {r : WaiterRegistration} (wired : Wired s) (recorded : Recorded s)
    (waiting : s.calls[call]? = some (.waiting r)) (ok : s.poll call r elapsed = some s') : Recorded s' := by
  unfold Service.poll at ok
  split at ok
  · rename_i d found
    cases Option.some.inj ok
    have same : d.completion = call := by simpa using List.find?_some found
    have member : d ∈ s.outbox ++ s.channels := List.mem_append_right _ (List.mem_of_find?_eq_some found)
    refine recordedAnswer ?_ call r.spec (.received d.result) ?_ (by simp)
    · exact recordedSame recorded (takenMail s d) (fun _ member => member) rfl
    · rintro result ⟨⟩
      rw [← same]
      exact recorded.told d member
  · rename_i none
    split at ok
    · contradiction
    · rename_i dead
      exact absurd (senderKept (wired.booked call) waiting (by simpa using none)) dead

theorem recordedStep {event : Event} (wired : Wired s) (recorded : Recorded s)
    (ok : s.step config readers event = some s') : Recorded s' := by
  have frame (inner : CacheInner) (nextCall : Nat) : Recorded {s with inner := inner, nextCall := nextCall} :=
    ⟨recorded.told,recorded.received,recorded.kept⟩
  cases event with
  | get ambient spec =>
    rcases done : get config ambient spec s.nextCall (s.reader.answer readers) s.inner with ⟨inner,reply⟩
    simp only [Service.step,done,Option.some.injEq] at ok
    subst ok
    cases reply with
    | lease lease | joined generation waiterId => exact ⟨recorded.told,recorded.received,recorded.kept⟩
    | started generation waiterId =>
      have registered : Recorded (({s with inner := inner, nextCall := s.nextCall + 1}).register s.nextCall
          ⟨spec,generation,waiterId⟩) := ⟨recorded.told,recorded.received,recorded.kept⟩
      exact recordedSubmit registered ⟨spec,generation⟩
    | failed error => exact recordedAnswer (frame inner _) _ _ (.refused error) (by simp) (by simp)
  | finishHit row =>
    simp only [Service.step] at ok
    split at ok
    · cases Option.some.inj ok
      have after := recordedAnswer recorded row.1 row.2.1 (.hit row.2.2) (by simp) (by simp)
      exact ⟨after.told,after.received,after.kept⟩
    · contradiction
  | prefetch ambient spec =>
    rcases done : prefetch config ambient spec (s.reader.answer readers) s.inner with ⟨inner,result⟩
    simp only [Service.step,done,Option.some.injEq] at ok
    subst ok
    split
    · exact recordedSubmit (frame inner _) _
    · exact frame inner _
  | dequeue | completeForeign =>
    simp only [Service.step,Option.map_eq_some_iff] at ok
    obtain ⟨reader,-,rfl⟩ := ok
    exact ⟨recorded.told,recorded.received,recorded.kept⟩
  | complete request result stats =>
    simp only [Service.step,Option.map_eq_some_iff] at ok
    obtain ⟨reader,-,rfl⟩ := ok
    have finished : Recorded {s with reader := reader} := ⟨recorded.told,recorded.received,recorded.kept⟩
    exact recordedTold finished _ _
  | send d =>
    obtain ⟨mail,same⟩ := sentMail ok
    rw [same] at mail ⊢
    exact recordedSame recorded mail (fun _ member => member) rfl
  | poll call elapsed =>
    simp only [Service.step] at ok
    split at ok
    · rename_i r waiting
      exact recordedPoll wired recorded waiting ok
    · contradiction
  | withdraw call | unregister call =>
    simp only [Service.step] at ok
    split at ok
    · rename_i r _
      cases Option.some.inj ok
      have after := recordedWithdrawn recorded call r
      exact ⟨after.told,after.received,after.kept⟩
    · contradiction
  | leave call =>
    simp only [Service.step] at ok
    split at ok
    · rename_i r error _
      cases Option.some.inj ok
      have after := recordedAnswer (recordedHungUp recorded call) call r.spec (.withdrew error) (by simp) (by simp)
      exact ⟨after.told,after.received,after.kept⟩
    · contradiction
  | abandon call =>
    simp only [Service.step] at ok
    split at ok
    · cases Option.some.inj ok
      have after := recordedHungUp recorded call
      exact ⟨after.told,after.received,after.kept⟩
    · contradiction
  | dropLease | dropOrphan =>
    simp only [Service.step] at ok
    split at ok
    · cases Option.some.inj ok
      exact ⟨recorded.told,recorded.received,recorded.kept⟩
    · contradiction
  | invalidate | closeReader =>
    cases Option.some.inj ok
    exact ⟨recorded.told,recorded.received,recorded.kept⟩
  | shutdown =>
    cases Option.some.inj ok
    exact recordedTold recorded _ _
  | submitForeign =>
    simp only [Service.step] at ok
    split at ok
    · cases Option.some.inj ok
      exact ⟨recorded.told,recorded.received,recorded.kept⟩
    · contradiction

end Recording

structure Served (config : CacheConfig) (s : Service) : Prop where
  good : Good config s.inner.state s.leases
  wired : Wired s
  recorded : Recorded s

theorem emptyLoads (key : PageKey) : loadAt Service.empty.entries key = none :=
  loadAbsent ExtTreeMap.getElem?_empty

theorem emptyAttached (call : Nat) : attachments Service.empty.entries call = 0 := totalEmpty _

theorem emptyBooked (call : Nat) : Booked .empty call := by
  have unknown : Service.empty.calls[call]? = none := ExtTreeMap.getElem?_empty
  refine ⟨Nat.zero_le 1,emptyAttached call,le_rfl,fun _ => ⟨rfl,unknown⟩,fun known => absurd unknown known,?_⟩
  rw [unknown]
  exact ⟨emptyAttached call,rfl⟩

theorem emptyWired : Wired .empty where
  matched := ⟨List.nodup_nil,fun _ member => absurd member List.not_mem_nil,
    fun key load found => absurd ((emptyLoads key).symm.trans found) nofun⟩
  linked := by
    have unknown (call : Nat) : Service.empty.calls[call]? = none := ExtTreeMap.getElem?_empty
    exact ⟨fun key load found => absurd ((emptyLoads key).symm.trans found) nofun,
      fun call known present => absurd ((unknown call).symm.trans present) nofun,
      fun a b x y present => absurd ((unknown a).symm.trans present) nofun⟩
  booked := emptyBooked

theorem emptyServed (config : CacheConfig) : Served config .empty where
  good := emptyGood config
  wired := emptyWired
  recorded := ⟨fun _ member => absurd member List.not_mem_nil,fun _ member => absurd member List.not_mem_nil,
    fun _ member => absurd member List.not_mem_nil⟩

theorem stepServed {config : CacheConfig} {readers : AsyncReaderConfig} {s s' : Service} {event : Event}
    (accepted : Accepted config) (served : Served config s) (ok : s.step config readers event = some s') :
    Served config s' where
  good := serviceGood accepted served.good ok
  wired := happensWired served.wired (stepHappens accepted served.good served.wired.matched ok)
  recorded := recordedStep served.wired served.recorded ok

theorem reachableServed {config : CacheConfig} {readers : AsyncReaderConfig} {s : Service} (accepted : Accepted config)
    (reached : Reachable (Service.step config readers) .empty s) : Served config s :=
  reachableInvariant (Served config) (emptyServed config) (fun _ _ _ served ok => stepServed accepted served ok) reached

/- Accepted requests and loading entries are the same pairs of key and generation, and
no two requests share a key. -/
structure Outstanding (config : CacheConfig) (s : Service) : Prop where
  distinct : (s.reader.pending.map (fun r => r.spec.key)).Nodup
  loading : ∀ key generation, (∃ r ∈ s.reader.pending, r.spec.key = key ∧ r.generation = generation) ↔
    ∃ e l, Loads s.entries key generation e l
  joins : ∀ r ∈ s.reader.pending, ∀ ambient spec call submit inner reply, spec.key = r.spec.key →
    get config ambient spec call submit s.inner = (inner,reply) →
      (∃ waiterId, reply = .joined r.generation waiterId) ∨ ∃ error, reply = .failed error

structure ResolvedOnce (s : Service) : Prop where
  distinct : s.registered.Nodup
  once : ∀ call ∈ s.registered, attachments s.entries call + s.settled call = 1
  strangers : ∀ call, call ∉ s.registered → attachments s.entries call + s.settled call = 0
  waiting : ∀ call r, s.calls[call]? = some (.waiting r) →
    attachments s.entries call + s.carried call + s.arrived call = 1
  received : ∀ call spec result, (call,spec,.received result) ∈ s.returned →
    (⟨call,result⟩ : Delivery).resolution ∈ s.resolved
  kept : ∀ call spec, (call,spec,.closed) ∉ s.returned

structure Quiescent (s : Service) : Prop where
  completed : s.reader.pending = []
  dropped : s.leases = []

structure AtRest (s : Service) : Prop where
  activeLoads : s.inner.state.ledger.activeLoads = 0
  inflight : s.inner.state.ledger.inflightBytes = 0
  retiring : s.inner.state.ledger.retiringBytes = 0
  waiters : s.inner.state.ledger.waiters = 0
  reservations : s.inner.state.ledger.leaseReservations = 0
  leases : s.inner.state.ledger.leases = 0
  resident : Every s.entries (fun _ (e : Entry) => ∃ r, e.state = .resident r ∧ r.leases = 0)
  settled : ∀ call ∈ s.registered, s.settled call = 1
  stopped : s.inner.state.shutdown = true → s.entries = ∅

section Parts
variable {config : CacheConfig} {s : Service}

theorem servedOutstanding (accepted : Accepted config) (served : Served config s) : Outstanding config s := by
  have matched := served.wired.matched
  refine ⟨matched.distinct,?_,?_⟩
  · intro key generation
    constructor
    · rintro ⟨r,member,rfl,rfl⟩
      obtain ⟨load,found,generation,-⟩ := matched.loading r member
      obtain ⟨e,l,present,state,rfl⟩ := loadFound found
      exact ⟨e,l,present,generation,state⟩
    · rintro ⟨e,l,present,rfl,state⟩
      have found := (loadPresent present).trans (loadLoading state)
      obtain ⟨r,member,rfl⟩ := matched.requested key _ found
      obtain ⟨load,same,generation,-⟩ := matched.loading r member
      cases Option.some.inj (found.symm.trans same)
      exact ⟨r,member,rfl,generation.symm⟩
  · intro r member ambient spec call submit inner reply same done
    obtain ⟨load,found,generation,-⟩ := matched.loading r member
    obtain ⟨e,l,present,state,rfl⟩ := loadFound found
    rw [← same] at present
    have fits := goodFits accepted served.good
    cases getEffect accepted served.good.ledgered fits done with
    | quiet | refused => exact .inr ⟨_,rfl⟩
    | hit _ here _ resident =>
      cases Option.some.inj (here.symm.trans present)
      exact absurd (resident.symm.trans state) nofun
    | joined _ here =>
      cases Option.some.inj (here.symm.trans present)
      exact .inl ⟨_,congrArg (GetReply.joined · _) generation⟩
    | started _ absent => exact absurd (absent.symm.trans present) nofun

theorem servedResolved (served : Served config s) : ResolvedOnce s where
  distinct := List.nodup_iff_count_le_one.mpr (fun call => (served.wired.booked call).once)
  once := by
    intro call member
    have booked := served.wired.booked call
    have enrolled : 0 < s.enrolled call := List.count_pos_iff.mpr member
    have := booked.once
    have := booked.balance
    omega
  strangers := by
    intro call stranger
    have enrolled : s.enrolled call = 0 := List.count_eq_zero.mpr stranger
    rw [(served.wired.booked call).balance,enrolled]
  waiting := by
    intro call r waiting
    have owner := (served.wired.booked call).owner
    rw [waiting] at owner
    exact owner
  received := fun call spec result member => served.recorded.received _ member result rfl
  kept := fun call spec member => served.recorded.kept _ member rfl

theorem quiescentResident (served : Served config s) (quiescent : Quiescent s) :
    Every s.entries (fun _ (e : Entry) => ∃ r, e.state = .resident r ∧ r.leases = 0) := by
  intro key e present
  have counted : e.leases = 0 := by
    have counted := served.good.sound.counted key e present
    simpa [CacheState.pages,quiescent.dropped] using counted
  cases state : e.state with
  | loading l =>
    obtain ⟨r,member,-⟩ := served.wired.matched.requested key _ ((loadPresent present).trans (loadLoading state))
    rw [quiescent.completed] at member
    contradiction
  | resident r => exact ⟨r,rfl,by simpa [Entry.leases,state] using counted⟩
  | retiring r =>
    have occupied := served.good.sound.occupied key e present r state
    simp only [Entry.leases,state] at counted
    omega

theorem quiescentRest (served : Served config s) (quiescent : Quiescent s) : AtRest s := by
  have resident := quiescentResident served quiescent
  have share (key : PageKey) (e : Entry) (present : s.entries[key]? = some e) :
      e.share = ⟨e.allocationBytes,0,e.allocationBytes,0,0,0,0,0⟩ := by
    obtain ⟨r,state,unleased⟩ := resident key e present
    rw [shareResident state,unleased]
  have ledger : s.inner.state.ledger = tally s.entries := served.good.ledgered
  refine ⟨?_,?_,?_,?_,?_,?_,resident,?_,?_⟩ <;> try rw [ledger]
  · exact totalZero.mpr fun key e present => congrArg Ledger.activeLoads (share key e present)
  · exact totalZero.mpr fun key e present => congrArg Ledger.inflightBytes (share key e present)
  · exact totalZero.mpr fun key e present => congrArg Ledger.retiringBytes (share key e present)
  · exact totalZero.mpr fun key e present => congrArg Ledger.waiters (share key e present)
  · exact totalZero.mpr fun key e present => congrArg Ledger.leaseReservations (share key e present)
  · exact totalZero.mpr fun key e present => congrArg Ledger.leases (share key e present)
  · intro call member
    have attached : attachments s.entries call = 0 := by
      refine totalZero.mpr fun key e present => ?_
      obtain ⟨r,state,-⟩ := resident key e present
      rw [loadResident state]
      rfl
    have once := (servedResolved served).once call member
    omega
  · intro stopped
    refine ExtTreeMap.ext_getElem? fun key => ?_
    rw [ExtTreeMap.getElem?_empty]
    by_contra present
    obtain ⟨e,present⟩ := Option.ne_none_iff_exists'.mp present
    obtain ⟨r,state,-⟩ := resident key e present
    have quiet := served.good.sound.quiet stopped key e present
    simp only [Entry.quiet,state] at quiet

end Parts

theorem waitersResolvedOnce {config : CacheConfig} (valid : config.validate = .ok ()) (readers : AsyncReaderConfig)
    {s : Service} (reached : Reachable (Service.step config readers) .empty s) :
    Outstanding config s ∧ ResolvedOnce s ∧ (Quiescent s → AtRest s) := by
  have served := reachableServed (validateAccepts valid) reached
  exact ⟨servedOutstanding (validateAccepts valid) served,servedResolved served,quiescentRest served⟩

/-! Three calls share a load: one receives its lease, one is dropped with the lease on its
way, one gives up first. A fourth call is failed by the shutdown. -/

def sharedCalls : List Event :=
  [.get sampleAmbient (sampleSpec 0),.get sampleAmbient (sampleSpec 0),.get sampleAmbient (sampleSpec 0),
    .withdraw 2 .cancelled 3]

def settledCalls : List Event :=
  [.leave 2,.dequeue,.complete ⟨sampleSpec 0,1⟩ (.ok (samplePage 0)) ⟨17,5⟩,.send ⟨0,.ok (sampleLease 0 0 1)⟩,
    .poll 0 7,.abandon 1,.send ⟨1,.ok (sampleLease 1 0 1)⟩,.unregister 1,.dropOrphan (sampleLease 1 0 1),
    .dropLease (sampleLease 0 0 1),.get sampleAmbient (sampleSpec 1),.shutdown,.send ⟨3,.error .shutdown⟩,.poll 3 9,
    .dequeue,.complete ⟨sampleSpec 1,2⟩ (.ok (samplePage 1)) ⟨17,5⟩]

def sharedService : Service := (run (Service.step defaultConfig twoReaders) .empty sharedCalls).getD .empty
def settledService : Service := (run (Service.step defaultConfig twoReaders) sharedService settledCalls).getD .empty

theorem sharedServed : run (Service.step defaultConfig twoReaders) .empty sharedCalls = some sharedService := rfl
theorem settledServed : run (Service.step defaultConfig twoReaders) sharedService settledCalls = some settledService :=
  rfl

theorem sharedCallsSettle : sharedService.reader.pending = [⟨sampleSpec 0,1⟩] ∧ sharedService.registered = [2,1,0] ∧
    Outstanding defaultConfig sharedService ∧ ResolvedOnce sharedService ∧
    settledService.resolved = [(3,.error),(0,.lease),(1,.lease),(2,.withdrawal)] ∧
    settledService.inner.state.shutdown = true ∧ Quiescent settledService ∧ AtRest settledService := by
  have shared := waitersResolvedOnce defaultAccepted twoReaders ⟨sharedCalls,sharedServed⟩
  have settled := waitersResolvedOnce defaultAccepted twoReaders
    ⟨sharedCalls ++ settledCalls,runJoin sharedServed settledServed⟩
  have quiescent : Quiescent settledService := ⟨rfl,rfl⟩
  exact ⟨rfl,rfl,shared.1,shared.2.1,rfl,rfl,quiescent,settled.2.2 quiescent⟩

end RunnelMoe.PageCache
