import RunnelMoe.CacheReserve

/-! What each call can do, stated once. The effect of get and of prefetch is an
inductive relation between the states before and after and the answer, with one
constructor for each way the call can end; later modules never unfold the calls. -/
namespace RunnelMoe.PageCache
open StoreErrors Words PageSpecs CacheLimits KeyedSum
open Std (ExtTreeMap)

def Entry.identifies (e : Entry) (spec : PageSpec) : Prop :=
  e.length = spec.length ∧ e.fingerprint = spec.fingerprint ∧ spec.allocationBytes = .ok e.allocationBytes

variable {config : CacheConfig} {spec : PageSpec} {allocation : Nat} {s : CacheState}

theorem specValidated (ok : validateSpec config spec = .ok allocation) :
    spec.allocationBytes = .ok allocation ∧ allocation ≤ config.pagePoolCapacity ∧
      allocation ≤ config.maxInflightBytes := by
  unfold validateSpec at ok
  split at ok
  · cases ok
  split at ok
  · cases ok
  split at ok
  · cases ok
  rename_i aligned fits
  cases ok
  exact ⟨aligned,by omega,by omega⟩

theorem identityValidated {e : Entry}
    (aligned : spec.allocationBytes = .ok allocation) (ok : validateIdentity e spec allocation = .ok ()) :
    e.identifies spec := by
  unfold validateIdentity at ok
  split at ok
  · cases ok
  rename_i same
  simp only [not_or,ne_eq,not_not] at same
  exact ⟨same.1,same.2.2,same.2.1 ▸ aligned⟩

theorem waiterReserved {ledger : Ledger} {perPage : Nat} (fits : Fits ledger)
    (ok : reserveWaiter config ledger perPage = .ok ()) :
    ledger.waiters < config.maxWaiters ∧ perPage < config.maxWaitersPerPage ∧
      ledger.leases + ledger.leaseReservations < config.maxLeases := by
  unfold reserveWaiter at ok
  rw [wrappingAddExact fits.promised] at ok
  split at ok
  · cases ok
  split at ok
  · cases ok
  split at ok
  · cases ok
  omega

theorem generationAdvanced {t : CacheState} {generation : Nat} (ok : s.nextGeneration = .ok (t,generation)) :
    t = {s with generation := s.generation + 1} ∧ generation = s.generation + 1 ∧ s.generation + 1 < modulus := by
  unfold CacheState.nextGeneration at ok
  split at ok
  · cases ok
  rename_i added
  obtain ⟨word,rfl⟩ := checkedAddSome.mp added
  cases ok
  exact ⟨rfl,rfl,word⟩

theorem waiterAdvanced {t : CacheState} {waiterId : Nat} (ok : s.nextWaiter = .ok (t,waiterId)) :
    t = {s with waiter := s.waiter + 1} ∧ waiterId = s.waiter + 1 ∧ s.waiter + 1 < modulus := by
  unfold CacheState.nextWaiter at ok
  split at ok
  · cases ok
  rename_i added
  obtain ⟨word,rfl⟩ := checkedAddSome.mp added
  cases ok
  exact ⟨rfl,rfl,word⟩

/-! How far a call gets. It reaches the reader when every check before the submission
passes; that depends on the request and on the state before the call only. -/

structure ReachesReader (config : CacheConfig) (ambient : Ambient) (spec : PageSpec) (s : CacheState)
    (reason : AccessReason) : Prop where
  control : ambient.control = .ok ()
  granted : ∃ allocation, validateSpec config spec = .ok allocation ∧ HasRoom config s allocation
  running : s.shutdown = false
  absent : s.entries[spec.key]? = none
  runtime : ambient.runtime = true
  generation : s.generation + 1 < modulus
  waiter : reason = .demand → reserveWaiter config s.ledger 0 = .ok () ∧ s.waiter + 1 < modulus

theorem presentUnreached {ambient : Ambient}
    {reason : AccessReason} {e : Entry} (present : s.entries[spec.key]? = some e) :
    ¬ReachesReader config ambient spec s reason := by
  intro reaches
  rw [reaches.absent] at present
  contradiction

theorem ungrantedUnreached {ambient : Ambient}
    {reason : AccessReason} {inner : CacheInner} {failure : Except StoreError (Option CacheInner)}
    (accepted : Accepted config) (ledgered : Ledgered inner.state) (valid : validateSpec config spec = .ok allocation)
    (entries : inner.state.entries = s.entries) (ledger : inner.state.ledger = s.ledger)
    (no : reserveLoad config inner allocation = failure) (other : ∀ out, failure ≠ .ok (some out)) :
    ¬ReachesReader config ambient spec s reason := by
  rintro ⟨-,⟨a,same,room⟩,-⟩
  cases same.symm.trans valid
  obtain ⟨out,yes⟩ := (reserveRoom accepted ledgered).mpr (roomSame room entries ledger)
  exact other out (no.symm.trans yes)

theorem generationExhausted {error : StoreError} (failed : s.nextGeneration = .error error) :
    modulus ≤ s.generation + 1 := by
  unfold CacheState.nextGeneration at failed
  split at failed
  · exact checkedAddNone.mp (by assumption)
  · cases failed

theorem waiterExhausted {error : StoreError} (failed : s.nextWaiter = .error error) :
    modulus ≤ s.waiter + 1 := by
  unfold CacheState.nextWaiter at failed
  split at failed
  · exact checkedAddNone.mp (by assumption)
  · cases failed

structure Unmoved (s s' : CacheState) : Prop where
  entries : s'.entries = s.entries
  ledger : s'.ledger = s.ledger
  generation : s.generation ≤ s'.generation
  waiter : s.waiter ≤ s'.waiter
  shutdown : s'.shutdown = s.shutdown

inductive GetEffect (config : CacheConfig) (ambient : Ambient) (spec : PageSpec) (call : Nat)
    (submit : Except StoreError Unit) (s s' : CacheState) : GetReply → Prop where
  | quiet {error} (unmoved : Unmoved s s') (unreached : ¬ReachesReader config ambient spec s .demand) :
      GetEffect config ambient spec call submit s s' (.failed error)
  | hit {e r} (running : s.shutdown = false) (present : s.entries[spec.key]? = some e)
      (identity : e.identifies spec) (state : e.state = .resident r)
      (room : s.ledger.leases + s.ledger.leaseReservations < config.maxLeases)
      (entries : s'.entries = s.entries.insert spec.key
        {e with state := .resident {r with lastTouch := s'.tick, leases := r.leases + 1}})
      (ledgered : Ledgered s') (generation : s'.generation = s.generation) (waiter : s'.waiter = s.waiter)
      (tick : s'.tick = saturatingAdd s.tick 1) (shutdown : s'.shutdown = s.shutdown) :
      GetEffect config ambient spec call submit s s' (.lease ⟨call,spec.key,e.generation,r.page⟩)
  | joined {e l} (running : s.shutdown = false) (present : s.entries[spec.key]? = some e)
      (identity : e.identifies spec) (state : e.state = .loading l) (accepting : l.acceptingWaiters = true)
      (waiters : s.ledger.waiters < config.maxWaiters) (perPage : l.waiters.length < config.maxWaitersPerPage)
      (room : s.ledger.leases + s.ledger.leaseReservations < config.maxLeases)
      (entries : s'.entries = s.entries.insert spec.key
        {e with state := .loading {l with waiters := l.waiters ++ [⟨s.waiter + 1,call⟩], lastTouch := s'.tick}})
      (ledgered : Ledgered s') (generation : s'.generation = s.generation) (waiter : s'.waiter = s.waiter + 1)
      (shutdown : s'.shutdown = s.shutdown) :
      GetEffect config ambient spec call submit s s' (.joined e.generation (s.waiter + 1))
  | refused {allocation taken rest error} (running : s.shutdown = false)
      (absent : s.entries[spec.key]? = none) (aligned : spec.allocationBytes = .ok allocation)
      (granted : Granted config s.entries s'.entries allocation taken rest) (answer : submit = .error error)
      (ledgered : Ledgered s') (generation : s'.generation = s.generation + 1)
      (waiter : s'.waiter = s.waiter + 1) (shutdown : s'.shutdown = s.shutdown)
      (reached : ReachesReader config ambient spec s .demand) :
      GetEffect config ambient spec call submit s s' (.failed error)
  | started {allocation middle taken rest} (running : s.shutdown = false)
      (absent : s.entries[spec.key]? = none) (aligned : spec.allocationBytes = .ok allocation)
      (waiters : s.ledger.waiters < config.maxWaiters) (perPage : 0 < config.maxWaitersPerPage)
      (room : s.ledger.leases + s.ledger.leaseReservations < config.maxLeases)
      (granted : Granted config s.entries middle allocation taken rest) (answer : submit = .ok ())
      (entries : s'.entries = middle.insert spec.key
        (demandEntry spec allocation (s.generation + 1) (s.waiter + 1) call s'.tick))
      (ledgered : Ledgered s') (generation : s'.generation = s.generation + 1)
      (waiter : s'.waiter = s.waiter + 1) (tick : s'.tick = saturatingAdd s.tick 1)
      (shutdown : s'.shutdown = s.shutdown) :
      GetEffect config ambient spec call submit s s' (.started (s.generation + 1) (s.waiter + 1))

theorem unmovedTick (s : CacheState) : Unmoved s s.nextTick := ⟨rfl,rfl,le_rfl,le_rfl,rfl⟩

section Get
variable {config : CacheConfig} {ambient : Ambient} {spec : PageSpec} {call : Nat}
  {submit : Except StoreError Unit} {s : CacheState} {metrics : Metrics} {out : CacheInner} {reply : GetReply}
  {e : Entry}

theorem getResidentEffect {r : ResidentEntry} (accepted : Accepted config) (ledgered : Ledgered s)
    (fits : Fits s.ledger) (running : s.shutdown = false) (present : s.entries[spec.key]? = some e)
    (identity : e.identifies spec) (state : e.state = .resident r)
    (ok : getResident config call spec.key e r ⟨s.nextTick,metrics⟩ = (out,reply)) :
    GetEffect config ambient spec call submit s out.state reply := by
  simp only [getResident] at ok
  split at ok
  · cases ok
    exact .quiet (unmovedTick s) (presentUnreached present)
  rename_i full
  have room : s.ledger.leases + s.ledger.leaseReservations < config.maxLeases := by
    rw [← wrappingAddExact fits.promised]
    exact Nat.not_le.mp full
  have small := (acceptedSmall accepted).2.2.2
  have split := ledgerSplit ledgered present
  rw [shareResident state] at split
  have word : s.ledger.leases + 1 < modulus := by unfold modulus; omega
  have part : r.leases ≤ s.ledger.leases := by rw [split]; exact Nat.le_add_right _ _
  rw [wrappingAddExact (show r.leases + 1 < modulus by omega)] at ok
  cases ok
  refine .hit running present identity state room rfl (ledgerStored rfl ?_) rfl rfl rfl rfl
  change {s.ledger with leases := wrappingAdd s.ledger.leases 1} = _
  rw [shareResident rfl,wrappingAddExact word,split]
  simp only [Ledger.add,Ledger.mk.injEq]
  exact ⟨rfl,rfl,rfl,rfl,rfl,rfl,rfl,Nat.add_right_comm _ _ _⟩

theorem getLoadingEffect {l : LoadingEntry} (accepted : Accepted config) (ledgered : Ledgered s)
    (fits : Fits s.ledger) (running : s.shutdown = false) (present : s.entries[spec.key]? = some e)
    (identity : e.identifies spec) (state : e.state = .loading l)
    (ok : getLoading config spec call e l ⟨s.nextTick,metrics⟩ = (out,reply)) :
    GetEffect config ambient spec call submit s out.state reply := by
  simp only [getLoading,meterState] at ok
  split at ok
  · cases ok
    exact .quiet (unmovedTick s) (presentUnreached present)
  rename_i accepting
  split at ok
  · cases ok
    exact .quiet (unmovedTick s) (presentUnreached present)
  rename_i reserved
  split at ok
  · cases ok
    exact .quiet (unmovedTick s) (presentUnreached present)
  rename_i next
  obtain ⟨waiters,perPage,room⟩ := waiterReserved fits reserved
  obtain ⟨rfl,rfl,-⟩ := waiterAdvanced next
  cases ok
  have small := acceptedSmall accepted
  have split := ledgerSplit ledgered present
  rw [shareLoading state] at split
  have word : s.ledger.waiters + 1 < modulus := by unfold modulus; omega
  have promised : s.ledger.leaseReservations + 1 < modulus := by unfold modulus; omega
  refine .joined running present identity state (by simpa using accepting) waiters perPage room rfl
    (ledgerStored rfl ?_) rfl rfl rfl
  change {s.ledger with
    waiters := wrappingAdd s.ledger.waiters 1,
    leaseReservations := wrappingAdd s.ledger.leaseReservations 1} = _
  rw [shareLoading rfl,wrappingAddExact word,wrappingAddExact promised,split]
  simp only [Ledger.add,List.length_append,List.length_singleton,Ledger.mk.injEq]
  exact ⟨rfl,rfl,rfl,rfl,rfl,Nat.add_right_comm _ _ _,Nat.add_right_comm _ _ _,rfl⟩

theorem unwindEffect {inner : CacheInner} {middle : ExtTreeMap PageKey Entry} {key : PageKey} {l : LoadingEntry}
    (absent : middle[key]? = none) (state : e.state = .loading l)
    (entries : inner.state.entries = middle.insert key e)
    (ledger : inner.state.ledger = e.share.add (tally middle)) (fits : Fits (e.share.add (tally middle)))
    {generation : Nat} (numbered : e.generation = generation) {result : Except StoreError CacheInner}
    (ok : unwindUnsubmittedLoad inner key generation = result) :
    ∃ out, result = .ok out ∧ out.state.entries = middle ∧ Ledgered out.state ∧ out.state.generation = inner.state.generation ∧
      out.state.waiter = inner.state.waiter ∧ out.state.tick = inner.state.tick ∧
      out.state.shutdown = inner.state.shutdown := by
  have present : inner.state.entries[key]? = some e := by rw [entries]; exact getInsertSame _ _ _
  have removed : inner.state.entries.erase key = middle := by rw [entries,eraseInsert,eraseAbsent absent]
  simp only [unwindUnsubmittedLoad,present,state,numbered,ne_eq,not_true_eq_false,if_false] at ok
  refine ⟨_,ok.symm,removed,?_,rfl,rfl,rfl,rfl⟩
  rw [shareLoading state] at ledger fits
  obtain ⟨pool,inflight,-,-,loads,waiters,promised,-,-⟩ := fits
  simp only [Ledger.add] at pool inflight loads waiters promised
  refine ledgerErased _ _ rfl ?_
  rw [removed]
  simp only [chargeLedger,discardLedger,ledger,Ledger.add]
  simp (disch := omega) only [wrappingSubExact]
  simp [tally]

theorem grantedAbsent {before middle : ExtTreeMap PageKey Entry} {allocation : Nat} {taken rest : List Candidate}
    {key : PageKey} (granted : Granted config before middle allocation taken rest) (absent : before[key]? = none) :
    middle[key]? = none := by
  rw [granted.entries,evictedLookup]
  split
  · rfl
  · exact absent

theorem fitsGranted {before middle : ExtTreeMap PageKey Entry} {allocation waiting : Nat} {taken rest : List Candidate}
    (accepted : Accepted config) (granted : Granted config before middle allocation taken rest)
    (waiters : (tally before).waiters + waiting ≤ config.maxWaiters)
    (room : (tally before).leases + (tally before).leaseReservations + waiting ≤ config.maxLeases) :
    Fits ((Ledger.loadShare allocation waiting).add (tally middle)) := by
  have split := tallyPool middle
  have small := acceptedSmall accepted
  have capacity := config.poolFits
  obtain ⟨-,-,pool,inflight,loads,-,sameWaiters,sameLeases,sameReservations,-⟩ := granted
  have word : 1048576 < modulus := by decide
  constructor <;> simp only [Ledger.add,Ledger.loadShare] <;> omega

theorem getAbsentEffect {allocation : Nat} (accepted : Accepted config) (ledgered : Ledgered s)
    (fits : Fits s.ledger) (control : ambient.control = .ok ()) (running : s.shutdown = false)
    (absent : s.entries[spec.key]? = none) (valid : validateSpec config spec = .ok allocation)
    (ok : getAbsent config ambient spec call submit allocation ⟨s.nextTick,metrics⟩ = (out,reply)) :
    GetEffect config ambient spec call submit s out.state reply := by
  obtain ⟨aligned,-,-⟩ := specValidated valid
  simp only [getAbsent] at ok
  split at ok
  · rename_i full
    cases ok
    exact .quiet (unmovedTick s) (fun reaches => by cases (reaches.waiter rfl).1.symm.trans full)
  rename_i reserved
  obtain ⟨waiters,perPage,room⟩ := waiterReserved fits reserved
  split at ok
  · rename_i outside
    cases ok
    exact .quiet (unmovedTick s) (fun reaches => by simp [reaches.runtime] at outside)
  rename_i inside
  split at ok
  · rename_i exhausted
    cases ok
    have last := generationExhausted exhausted
    exact .quiet (unmovedTick s) (fun reaches => absurd reaches.generation (Nat.not_lt.mpr last))
  rename_i next
  obtain ⟨rfl,rfl,numbers⟩ := generationAdvanced next
  split at ok
  · rename_i exhausted
    cases ok
    have last := waiterExhausted exhausted
    exact .quiet ⟨rfl,rfl,Nat.le_succ _,le_rfl,rfl⟩
      (fun reaches => absurd (reaches.waiter rfl).2 (Nat.not_lt.mpr last))
  rename_i next
  obtain ⟨rfl,rfl,identities⟩ := waiterAdvanced next
  split at ok
  · rename_i no
    cases ok
    exact .quiet ⟨rfl,rfl,Nat.le_succ _,Nat.le_succ _,rfl⟩ (ungrantedUnreached accepted ledgered valid rfl rfl no (by simp))
  · rename_i no
    cases ok
    exact .quiet ⟨rfl,rfl,Nat.le_succ _,Nat.le_succ _,rfl⟩ (ungrantedUnreached accepted ledgered valid rfl rfl no (by simp))
  rename_i middle grant
  have room_ := (reserveRoom accepted ledgered).mp ⟨middle,grant⟩
  have reached : ReachesReader config ambient spec s .demand :=
    ⟨control,⟨allocation,valid,roomSame room_ rfl rfl⟩,running,absent,by simpa using inside,numbers,
      fun _ => ⟨reserved,identities⟩⟩
  obtain ⟨kept,taken,rest,room_⟩ := reserveGranted accepted ledgered fits grant
  have granted : Granted config s.entries middle.state.entries allocation taken rest := room_
  have gone := grantedAbsent granted absent
  have generation : middle.state.generation = s.generation + 1 := kept.generation
  have waiter : middle.state.waiter = s.waiter + 1 := kept.waiter
  have tick : middle.state.tick = saturatingAdd s.tick 1 := kept.tick
  have shutdown : middle.state.shutdown = s.shutdown := kept.shutdown
  have fitting : Fits ((Ledger.loadShare allocation 1).add (tally middle.state.entries)) := by
    rw [ledgered] at waiters room
    exact fitsGranted accepted granted (Nat.succ_le_of_lt waiters) (Nat.succ_le_of_lt room)
  have charged : {middle.state.ledger with
        waiters := wrappingAdd middle.state.ledger.waiters 1,
        leaseReservations := wrappingAdd middle.state.ledger.leaseReservations 1} =
      (Ledger.loadShare allocation 1).add (tally middle.state.entries) := by
    have words := And.intro fitting.waiters fitting.reservations
    simp only [Ledger.loadShare,Ledger.add] at words
    rw [kept.ledger]
    simp only [Ledger.loadShare,Ledger.add,Nat.zero_add]
    rw [wrappingAddExact (by omega),wrappingAddExact (by omega)]
    simp only [Nat.add_comm]
  split at ok
  · cases ok
    exact .started running absent aligned waiters perPage room granted rfl rfl
      (ledgerAdded gone rfl charged) generation waiter tick shutdown
  · let entry := demandEntry spec allocation (s.generation + 1) (s.waiter + 1) call middle.state.tick
    split at ok
    · rename_i failed
      obtain ⟨back,impossible,-⟩ := unwindEffect (e := entry) gone rfl rfl charged fitting rfl failed
      cases impossible
    · rename_i unwound
      obtain ⟨back,same,entries,exact,sameGeneration,sameWaiter,-,sameShutdown⟩ :=
        unwindEffect (e := entry) gone rfl rfl charged fitting rfl unwound
      cases same
      cases ok
      exact .refused running absent aligned (entries ▸ granted) rfl exact (sameGeneration.trans generation)
        (sameWaiter.trans waiter) (sameShutdown.trans shutdown) reached

theorem getEffect {inner : CacheInner} (accepted : Accepted config)
    (ledgered : Ledgered inner.state) (fits : Fits inner.state.ledger)
    (ok : get config ambient spec call submit inner = (out,reply)) :
    GetEffect config ambient spec call submit inner.state out.state reply := by
  have still : Unmoved inner.state inner.state := ⟨rfl,rfl,le_rfl,le_rfl,rfl⟩
  simp only [get] at ok
  split at ok
  · rename_i stopped
    cases ok
    exact .quiet still (fun reaches => by cases reaches.control.symm.trans stopped)
  rename_i control
  split at ok
  · rename_i invalid
    cases ok
    refine .quiet still (fun reaches => ?_)
    obtain ⟨allocation,valid,-⟩ := reaches.granted
    cases valid.symm.trans invalid
  rename_i allocation valid
  obtain ⟨aligned,-,-⟩ := specValidated valid
  simp only [getLocked] at ok
  split at ok
  · rename_i closed
    cases ok
    exact .quiet still (fun reaches => by cases reaches.running.symm.trans closed)
  rename_i running
  have running : inner.state.shutdown = false := by simpa using running
  split at ok
  · rename_i absent
    exact getAbsentEffect accepted ledgered fits control running absent valid ok
  rename_i e present
  split at ok
  · cases ok
    exact .quiet (unmovedTick _) (presentUnreached present)
  rename_i same
  have identity := identityValidated aligned same
  split at ok
  · rename_i state
    exact getResidentEffect accepted ledgered fits running present identity state ok
  · rename_i state
    exact getLoadingEffect accepted ledgered fits running present identity state ok
  · cases ok
    exact .quiet (unmovedTick _) (presentUnreached present)

end Get

inductive PrefetchEffect (config : CacheConfig) (ambient : Ambient) (spec : PageSpec)
    (submit : Except StoreError Unit) (s s' : CacheState) : Except StoreError PrefetchOutcome → Prop where
  | quiet {result} (unmoved : Unmoved s s') (idle : result ≠ .ok .started)
      (unreached : ¬ReachesReader config ambient spec s .prefetch) :
      PrefetchEffect config ambient spec submit s s' result
  | interest {e l} (present : s.entries[spec.key]? = some e) (state : e.state = .loading l)
      (accepting : l.acceptingWaiters = true)
      (entries : s'.entries = s.entries.insert spec.key {e with state := .loading {l with prefetchInterest := true}})
      (ledgered : Ledgered s') (generation : s'.generation = s.generation) (waiter : s'.waiter = s.waiter)
      (shutdown : s'.shutdown = s.shutdown) :
      PrefetchEffect config ambient spec submit s s' (.ok .coalescedWithDemand)
  | refused {allocation taken rest error result} (running : s.shutdown = false)
      (absent : s.entries[spec.key]? = none) (aligned : spec.allocationBytes = .ok allocation)
      (granted : Granted config s.entries s'.entries allocation taken rest) (answer : submit = .error error)
      (told : result = if error = .queueFull then .ok .droppedBudget else .error error)
      (ledgered : Ledgered s') (generation : s'.generation = s.generation + 1)
      (waiter : s'.waiter = s.waiter) (shutdown : s'.shutdown = s.shutdown)
      (reached : ReachesReader config ambient spec s .prefetch) :
      PrefetchEffect config ambient spec submit s s' result
  | started {allocation middle taken rest} (running : s.shutdown = false)
      (absent : s.entries[spec.key]? = none) (aligned : spec.allocationBytes = .ok allocation)
      (granted : Granted config s.entries middle allocation taken rest) (answer : submit = .ok ())
      (entries : s'.entries = middle.insert spec.key (prefetchEntry spec allocation (s.generation + 1) s'.tick))
      (ledgered : Ledgered s') (generation : s'.generation = s.generation + 1)
      (waiter : s'.waiter = s.waiter) (shutdown : s'.shutdown = s.shutdown) :
      PrefetchEffect config ambient spec submit s s' (.ok .started)

section Prefetch
variable {config : CacheConfig} {ambient : Ambient} {spec : PageSpec} {submit : Except StoreError Unit}
  {s : CacheState} {metrics : Metrics} {out : CacheInner} {e : Entry}

theorem prefetchPresentEffect (ledgered : Ledgered s) (present : s.entries[spec.key]? = some e) :
    PrefetchEffect config ambient spec submit s (prefetchPresent spec e ⟨s,metrics⟩).1.state
      (.ok (prefetchPresent spec e ⟨s,metrics⟩).2) := by
  have still : Unmoved s s := ⟨rfl,rfl,le_rfl,le_rfl,rfl⟩
  generalize ok : prefetchPresent spec e ⟨s,metrics⟩ = row
  unfold prefetchPresent at ok
  split at ok
  · rename_i l state
    split at ok
    · rename_i joins
      cases ok
      refine .interest present state joins.1 rfl (ledgerStored rfl ?_) rfl rfl rfl
      have split := ledgerSplit ledgered present
      rw [shareLoading state] at split
      rw [shareLoading rfl]
      exact split
    split at ok <;> cases ok <;> exact .quiet still (by simp) (presentUnreached present)
  all_goals cases ok; exact .quiet still (by simp) (presentUnreached present)

theorem prefetchAbsentEffect {allocation : Nat} {result : Except StoreError PrefetchOutcome}
    (accepted : Accepted config) (bounded : Bounded config s.entries) (ledgered : Ledgered s) (fits : Fits s.ledger)
    (control : ambient.control = .ok ()) (running : s.shutdown = false) (absent : s.entries[spec.key]? = none)
    (valid : validateSpec config spec = .ok allocation)
    (ok : prefetchAbsent config ambient spec submit allocation ⟨s,metrics⟩ = (out,result)) :
    PrefetchEffect config ambient spec submit s out.state result := by
  obtain ⟨aligned,-,-⟩ := specValidated valid
  simp only [prefetchAbsent] at ok
  split at ok
  · rename_i outside
    cases ok
    exact .quiet ⟨rfl,rfl,le_rfl,le_rfl,rfl⟩ (by simp) (fun reaches => by simp [reaches.runtime] at outside)
  rename_i inside
  split at ok
  · rename_i exhausted
    cases ok
    have last := generationExhausted exhausted
    exact .quiet (unmovedTick s) (by simp) (fun reaches => absurd reaches.generation (Nat.not_lt.mpr last))
  rename_i next
  obtain ⟨rfl,rfl,numbers⟩ := generationAdvanced next
  split at ok
  · rename_i no
    cases ok
    exact .quiet ⟨rfl,rfl,Nat.le_succ _,le_rfl,rfl⟩ (by simp) (ungrantedUnreached accepted ledgered valid rfl rfl no (by simp))
  · rename_i no
    cases ok
    exact .quiet ⟨rfl,rfl,Nat.le_succ _,le_rfl,rfl⟩ (by simp) (ungrantedUnreached accepted ledgered valid rfl rfl no (by simp))
  rename_i middle grant
  have room_ := (reserveRoom accepted ledgered).mp ⟨middle,grant⟩
  have reached : ReachesReader config ambient spec s .prefetch :=
    ⟨control,⟨allocation,valid,roomSame room_ rfl rfl⟩,running,absent,by simpa using inside,numbers,nofun⟩
  obtain ⟨kept,taken,rest,room_⟩ := reserveGranted accepted ledgered fits grant
  have granted : Granted config s.entries middle.state.entries allocation taken rest := room_
  have gone := grantedAbsent granted absent
  have generation : middle.state.generation = s.generation + 1 := kept.generation
  have waiter : middle.state.waiter = s.waiter := kept.waiter
  have shutdown : middle.state.shutdown = s.shutdown := kept.shutdown
  have fitting : Fits ((Ledger.loadShare allocation 0).add (tally middle.state.entries)) :=
    fitsGranted accepted granted bounded.waiters bounded.leases
  split at ok
  · cases ok
    exact .started running absent aligned granted rfl rfl (ledgerAdded gone rfl kept.ledger) generation waiter shutdown
  · rename_i error
    let entry := prefetchEntry spec allocation (s.generation + 1) middle.state.tick
    have ledger : (middle.store spec.key entry).state.ledger = entry.share.add (tally middle.state.entries) :=
      kept.ledger
    split at ok
    · rename_i failed
      obtain ⟨back,impossible,-⟩ := unwindEffect (e := entry) gone rfl rfl ledger fitting rfl failed
      cases impossible
    · rename_i unwound
      obtain ⟨back,same,entries,exact,sameGeneration,sameWaiter,-,sameShutdown⟩ :=
        unwindEffect (e := entry) gone rfl rfl ledger fitting rfl unwound
      cases same
      split at ok <;> rename_i full <;> cases ok <;>
        exact .refused running absent aligned (entries ▸ granted) rfl (by simp [full]) exact
          (sameGeneration.trans generation) (sameWaiter.trans waiter) (sameShutdown.trans shutdown) reached

theorem prefetchEffect {inner : CacheInner} {result : Except StoreError PrefetchOutcome}
    (accepted : Accepted config) (bounded : Bounded config inner.state.entries) (ledgered : Ledgered inner.state)
    (fits : Fits inner.state.ledger) (ok : prefetch config ambient spec submit inner = (out,result)) :
    PrefetchEffect config ambient spec submit inner.state out.state result := by
  have still : Unmoved inner.state inner.state := ⟨rfl,rfl,le_rfl,le_rfl,rfl⟩
  simp only [prefetch] at ok
  split at ok
  · rename_i stopped
    cases ok
    exact .quiet still (by simp) (fun reaches => by cases reaches.control.symm.trans stopped)
  rename_i control
  split at ok
  · rename_i invalid
    cases ok
    refine .quiet still (by simp) (fun reaches => ?_)
    obtain ⟨allocation,valid,-⟩ := reaches.granted
    cases valid.symm.trans invalid
  rename_i allocation valid
  simp only [prefetchLocked] at ok
  split at ok
  · rename_i closed
    cases ok
    exact .quiet still (by simp) (fun reaches => by cases reaches.running.symm.trans closed)
  rename_i running
  have running : inner.state.shutdown = false := by simpa using running
  split at ok
  · rename_i e present
    split at ok
    · cases ok
      exact .quiet still (by simp) (presentUnreached present)
    · cases ok
      exact prefetchPresentEffect ledgered present
  · rename_i absent
    exact prefetchAbsentEffect accepted bounded ledgered fits control running absent valid ok

end Prefetch

end RunnelMoe.PageCache
