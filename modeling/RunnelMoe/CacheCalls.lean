import RunnelMoe.CacheOps

/-! The calls of the cache: get and prefetch up to the end of their lock section,
the completion of a load, withdrawal, lease drop, invalidation and shutdown. A
call that another thread answers later returns what it registered; the messages
a completion owes to the waiters are returned as deliveries and sent outside. -/
namespace RunnelMoe.PageCache
open StoreErrors Words PageSpecs CacheLimits KeyedSum

-- What a call observes outside the cache: its control at entry, and whether it
-- runs inside a runtime.
structure Ambient where
  control : Except StoreError Unit
  runtime : Bool

inductive GetReply where
  | lease (lease : PageLease)
  | joined (generation waiterId : Nat)
  | started (generation waiterId : Nat)
  | failed (error : StoreError)
  deriving DecidableEq, Repr

def isLatePrefetch (origin : AccessReason) : Bool := origin == .prefetch

def prefetchedUnusedOnAdmission (prefetchInterest : Bool) (demandWaiters : Nat) : Bool :=
  prefetchInterest && demandWaiters == 0

def getResident (config : CacheConfig) (call : Nat) (key : PageKey) (entry : Entry) (r : ResidentEntry)
    (inner : CacheInner) : CacheInner × GetReply :=
  let inner := inner.meter Metrics.hit
  if wrappingAdd inner.state.ledger.leases inner.state.ledger.leaseReservations ≥ config.maxLeases then
    (inner,.failed (.resourceExhausted "cache leases" 1 config.maxLeases))
  else
    let touched := {r with lastTouch := inner.state.tick, leases := wrappingAdd r.leases 1}
    let inner := (inner.store key {entry with state := .resident touched}).charge (fun l =>
      {l with leases := wrappingAdd l.leases 1})
    (inner.updateLiveMetrics,.lease ⟨call,key,entry.generation,r.page⟩)

def getLoading (config : CacheConfig) (spec : PageSpec) (call : Nat) (entry : Entry) (loading : LoadingEntry)
    (inner : CacheInner) : CacheInner × GetReply :=
  let inner := inner.meter Metrics.miss
  if !loading.acceptingWaiters then
    (inner,.failed (.resourceExhausted "page reload pending cancellation" spec.length config.pagePoolCapacity))
  else match reserveWaiter config inner.state.ledger loading.waiters.length with
    | .error e => (inner,.failed e)
    | .ok () => match inner.state.nextWaiter with
      | .error e => (inner,.failed e)
      | .ok (state,waiterId) =>
        let joined := {loading with
          waiters := loading.waiters ++ [⟨waiterId,call⟩], lastTouch := state.tick}
        let inner := (({inner with state := state}).store spec.key {entry with state := .loading joined}).charge
          (fun l =>
            {l with
              waiters := wrappingAdd l.waiters 1,
              leaseReservations := wrappingAdd l.leaseReservations 1})
        let inner := inner.meter
          (if isLatePrefetch loading.origin then Metrics.latePrefetch else Metrics.coalescedDemand)
        (inner.updateLiveMetrics,.joined entry.generation waiterId)

def demandEntry (spec : PageSpec) (allocationBytes generation waiterId call tick : Nat) : Entry :=
  ⟨spec.fingerprint,spec.length,allocationBytes,generation,
    .loading ⟨[⟨waiterId,call⟩],false,.demand,false,true,tick⟩⟩

def getAbsent (config : CacheConfig) (ambient : Ambient) (spec : PageSpec) (call : Nat)
    (submit : Except StoreError Unit) (allocationBytes : Nat) (inner : CacheInner) : CacheInner × GetReply :=
  let inner := inner.meter Metrics.miss
  match reserveWaiter config inner.state.ledger 0 with
  | .error e => (inner,.failed e)
  | .ok () =>
    if !ambient.runtime then (inner,.failed (.invariant "cache miss requires a Tokio runtime"))
    else match inner.state.nextGeneration with
      | .error e => (inner,.failed e)
      | .ok (state,generation) => match state.nextWaiter with
        | .error e => ({inner with state := state},.failed e)
        | .ok (state,waiterId) =>
          let inner := {inner with state := state}
          match reserveLoad config inner allocationBytes with
          | .error e => (inner,.failed e)
          | .ok none =>
            (inner,.failed (.resourceExhausted "page pool" spec.length config.pagePoolCapacity))
          | .ok (some reserved) =>
            let entry := demandEntry spec allocationBytes generation waiterId call reserved.state.tick
            let inner := (reserved.charge (fun l =>
              {l with
                waiters := wrappingAdd l.waiters 1,
                leaseReservations := wrappingAdd l.leaseReservations 1})).store spec.key entry
            match submit with
            | .ok () => (inner.updateLiveMetrics,.started generation waiterId)
            | .error e => match unwindUnsubmittedLoad inner spec.key generation with
              | .error lost => (inner,.failed lost)
              | .ok inner => (inner.updateLiveMetrics,.failed e)

def getLocked (config : CacheConfig) (ambient : Ambient) (spec : PageSpec) (call : Nat)
    (submit : Except StoreError Unit) (allocationBytes : Nat) (inner : CacheInner) : CacheInner × GetReply :=
  if inner.state.shutdown then (inner,.failed .shutdown)
  else
    let inner := {inner with state := inner.state.nextTick}
    match inner.state.entries[spec.key]? with
    | none => getAbsent config ambient spec call submit allocationBytes inner
    | some entry => match validateIdentity entry spec allocationBytes with
      | .error e => (inner,.failed e)
      | .ok () => match entry.state with
        | .resident r => getResident config call spec.key entry r inner
        | .loading loading => getLoading config spec call entry loading inner
        | .retiring _ =>
          (inner,.failed (.resourceExhausted "retiring page" spec.length config.pagePoolCapacity))

def get (config : CacheConfig) (ambient : Ambient) (spec : PageSpec) (call : Nat)
    (submit : Except StoreError Unit) (inner : CacheInner) : CacheInner × GetReply :=
  match ambient.control with
  | .error e => (inner,.failed e)
  | .ok () =>
    let inner := inner.meter (Metrics.addDemandBytes · spec.length)
    match validateSpec config spec with
    | .error e => (inner,.failed e)
    | .ok allocationBytes => getLocked config ambient spec call submit allocationBytes inner

def prefetchPresent (spec : PageSpec) (entry : Entry) (inner : CacheInner) : CacheInner × PrefetchOutcome :=
  match entry.state with
  | .loading loading =>
    if loading.acceptingWaiters ∧ loading.origin = .demand ∧ !loading.prefetchInterest then
      ((inner.store spec.key {entry with state := .loading {loading with prefetchInterest := true}}).meter
        Metrics.coalescedPrefetch,.coalescedWithDemand)
    else if !loading.acceptingWaiters then (inner.meter Metrics.droppedPrefetch,.droppedBudget)
    else (inner.meter Metrics.redundantPrefetch,.redundant)
  | .resident _ => (inner.meter Metrics.redundantPrefetch,.redundant)
  | .retiring _ => (inner.meter Metrics.droppedPrefetch,.droppedBudget)

def prefetchEntry (spec : PageSpec) (allocationBytes generation tick : Nat) : Entry :=
  ⟨spec.fingerprint,spec.length,allocationBytes,generation,.loading ⟨[],false,.prefetch,true,true,tick⟩⟩

def prefetchAbsent (config : CacheConfig) (ambient : Ambient) (spec : PageSpec)
    (submit : Except StoreError Unit) (allocationBytes : Nat) (inner : CacheInner) :
    CacheInner × Except StoreError PrefetchOutcome :=
  if !ambient.runtime then (inner,.error (.invariant "cache prefetch requires a Tokio runtime"))
  else
    let inner := {inner with state := inner.state.nextTick}
    match inner.state.nextGeneration with
    | .error e => (inner,.error e)
    | .ok (state,generation) =>
      let inner := {inner with state := state}
      match reserveLoad config inner allocationBytes with
      | .error e => (inner,.error e)
      | .ok none => (inner.meter Metrics.droppedPrefetch,.ok .droppedBudget)
      | .ok (some reserved) =>
        let entry := prefetchEntry spec allocationBytes generation reserved.state.tick
        let inner := reserved.store spec.key entry
        match submit with
        | .ok () => (inner.updateLiveMetrics,.ok .started)
        | .error e => match unwindUnsubmittedLoad inner spec.key generation with
          | .error lost => (inner,.error lost)
          | .ok inner =>
            let inner := inner.updateLiveMetrics
            if e = .queueFull then (inner.meter Metrics.droppedPrefetch,.ok .droppedBudget)
            else (inner,.error e)

def prefetchLocked (config : CacheConfig) (ambient : Ambient) (spec : PageSpec)
    (submit : Except StoreError Unit) (allocationBytes : Nat) (inner : CacheInner) :
    CacheInner × Except StoreError PrefetchOutcome :=
  if inner.state.shutdown then (inner,.error .shutdown)
  else match inner.state.entries[spec.key]? with
    | some entry => match validateIdentity entry spec allocationBytes with
      | .error e => (inner,.error e)
      | .ok () =>
        let (inner,outcome) := prefetchPresent spec entry inner
        (inner.updateLiveMetrics,.ok outcome)
    | none => prefetchAbsent config ambient spec submit allocationBytes inner

def prefetch (config : CacheConfig) (ambient : Ambient) (spec : PageSpec)
    (submit : Except StoreError Unit) (inner : CacheInner) : CacheInner × Except StoreError PrefetchOutcome :=
  match ambient.control with
  | .error e => (inner,.error e)
  | .ok () =>
    let inner := inner.meter (Metrics.addPrefetchBytes · spec.length)
    match validateSpec config spec with
    | .error e => (inner,.error e)
    | .ok allocationBytes => prefetchLocked config ambient spec submit allocationBytes inner

structure Delivery where
  completion : Nat
  result : Except StoreError PageLease
  deriving DecidableEq, Repr

def settleLoad (inner : CacheInner) (key : PageKey) (entry : Entry) (loading : LoadingEntry) : CacheInner :=
  (inner.discard key).charge (fun l =>
    {l with
      activeLoads := wrappingSub l.activeLoads 1,
      inflightBytes := wrappingSub l.inflightBytes entry.allocationBytes,
      waiters := wrappingSub l.waiters loading.waiters.length,
      leaseReservations := wrappingSub l.leaseReservations loading.waiters.length})

def failLoad (inner : CacheInner) (entry : Entry) (loading : LoadingEntry) (error : StoreError) :
    CacheInner × List Delivery :=
  (inner.charge (fun l => {l with pagePoolBytes := wrappingSub l.pagePoolBytes entry.allocationBytes}),
    loading.waiters.map (fun w => ⟨w.completion,.error error⟩))

def publishLoad (inner : CacheInner) (key : PageKey) (entry : Entry) (loading : LoadingEntry)
    (page : VerifiedPage) : CacheInner × List Delivery :=
  let waiterCount := loading.waiters.length
  let resident : ResidentEntry :=
    ⟨page,waiterCount,prefetchedUnusedOnAdmission loading.prefetchInterest waiterCount,loading.lastTouch⟩
  ((((inner.charge (fun l =>
      {l with
        residentBytes := wrappingAdd l.residentBytes entry.allocationBytes,
        leases := wrappingAdd l.leases waiterCount})).meter Metrics.admission).store key
      {entry with state := .resident resident}),
    loading.waiters.map (fun w => ⟨w.completion,.ok ⟨w.completion,key,entry.generation,page⟩⟩))

def exceedsReservation (key : PageKey) (entry : Entry) (page : VerifiedPage) : Prop :=
  page.key ≠ key ∨ page.bytes.length ≠ entry.length ∨ page.capacity > entry.allocationBytes
instance (key entry page) : Decidable (exceedsReservation key entry page) := by
  unfold exceedsReservation; infer_instance

def finishLoad (inner : CacheInner) (key : PageKey) (entry : Entry) (loading : LoadingEntry)
    (result : Except StoreError VerifiedPage) : CacheInner × List Delivery :=
  match result with
  | .error e => failLoad inner entry loading e
  | .ok page =>
    if loading.acceptingWaiters ∧ !inner.state.shutdown then
      if exceedsReservation key entry page then
        failLoad inner entry loading
          (.invariant "verified reader exceeded its reserved page identity or allocation")
      else publishLoad inner key entry loading page
    else failLoad inner entry loading (if inner.state.shutdown then .shutdown else .cancelled)

def completeLoad (inner : CacheInner) (key : PageKey) (generation : Nat)
    (result : Except StoreError VerifiedPage) : CacheInner × List Delivery :=
  match inner.state.entries[key]? with
  | none => (inner,[])
  | some entry =>
    if entry.generation ≠ generation then (inner,[])
    else match entry.state with
      | .loading loading =>
        let (inner,deliveries) := finishLoad (settleLoad inner key entry loading) key entry loading result
        (inner.updateLiveMetrics,deliveries)
      | _ => (inner,[])

def finishObservedLoad (inner : CacheInner) (key : PageKey) (generation : Nat)
    (result : Except StoreError VerifiedPage) (stats : ReadStats) : CacheInner × List Delivery :=
  completeLoad ((inner.meter (Metrics.addPhysicalReadBytes · stats.physicalBytes)).meter
    (Metrics.addIoNanoseconds · stats.ioNanoseconds)) key generation result

def markPrefetchUse (inner : CacheInner) (key : PageKey) (generation : Nat) : CacheInner :=
  match inner.state.entries[key]? with
  | none => inner
  | some entry =>
    if entry.generation ≠ generation then inner
    else match entry.state with
      | .loading _ => inner
      | .resident r =>
        if r.prefetchedUnused then
          (inner.store key {entry with state := .resident {r with prefetchedUnused := false}}).meter
            Metrics.usefulPrefetch
        else inner
      | .retiring r =>
        if r.prefetchedUnused then
          (inner.store key {entry with state := .retiring {r with prefetchedUnused := false}}).meter
            Metrics.usefulPrefetch
        else inner

def LoadingEntry.leave (loading : LoadingEntry) (position : Nat) : LoadingEntry :=
  let waiters := Vectors.swapRemove loading.waiters position
  let abandoned := waiters.isEmpty && !loading.prefetchInterest
  {loading with
    waiters := waiters, acceptingWaiters := loading.acceptingWaiters && !abandoned,
    cancelled := loading.cancelled || abandoned}

def withdrawWaiter (inner : CacheInner) (key : PageKey) (generation waiterId : Nat) : CacheInner :=
  match inner.state.entries[key]? with
  | none => inner
  | some entry =>
    if entry.generation ≠ generation then inner
    else match entry.state with
      | .loading loading => match loading.waiters.findIdx? (fun w => w.id == waiterId) with
        | none => inner
        | some position =>
          ((inner.charge (fun l =>
            {l with
              waiters := wrappingSub l.waiters 1,
              leaseReservations := wrappingSub l.leaseReservations 1})).store key
            {entry with state := .loading (loading.leave position)}).updateLiveMetrics
      | _ => inner

def releaseLease (inner : CacheInner) (key : PageKey) (generation : Nat) : CacheInner :=
  match inner.state.entries[key]? with
  | none => inner
  | some entry =>
    if entry.generation ≠ generation then inner
    else match entry.state with
      | .resident r =>
        if r.leases > 0 then
          ((inner.charge (fun l => {l with leases := wrappingSub l.leases 1})).store key
            {entry with state := .resident {r with leases := r.leases - 1}}).updateLiveMetrics
        else inner.updateLiveMetrics
      | .retiring r =>
        if r.leases > 0 then
          let inner := inner.charge (fun l => {l with leases := wrappingSub l.leases 1})
          if r.leases - 1 = 0 then
            (((inner.discard key).charge (fun l =>
              {l with
                pagePoolBytes := wrappingSub l.pagePoolBytes entry.allocationBytes,
                retiringBytes := wrappingSub l.retiringBytes entry.allocationBytes})).wasted
              r.prefetchedUnused).updateLiveMetrics
          else
            (inner.store key {entry with state := .retiring {r with leases := r.leases - 1}}).updateLiveMetrics
        else inner.updateLiveMetrics
      | .loading _ => inner.updateLiveMetrics

def retireResident (inner : CacheInner) (key : PageKey) (entry : Entry) (r : ResidentEntry) : CacheInner :=
  if r.leases = 0 then
    ((inner.discard key).charge (fun l =>
      {l with
        pagePoolBytes := wrappingSub l.pagePoolBytes entry.allocationBytes,
        residentBytes := wrappingSub l.residentBytes entry.allocationBytes})).wasted r.prefetchedUnused
  else
    (inner.charge (fun l =>
      {l with
        residentBytes := wrappingSub l.residentBytes entry.allocationBytes,
        retiringBytes := wrappingAdd l.retiringBytes entry.allocationBytes})).store key
      {entry with state := .retiring ⟨r.page,r.leases,r.prefetchedUnused⟩}

def LoadingEntry.cancel (loading : LoadingEntry) : LoadingEntry :=
  {loading with acceptingWaiters := false, cancelled := true}

def invalidate (inner : CacheInner) (key : PageKey) : CacheInner × Bool :=
  match inner.state.entries[key]? with
  | none => (inner,false)
  | some entry =>
    let inner := match entry.state with
      | .loading loading =>
        inner.store key {entry with state := .loading loading.cancel}
      | .resident r => retireResident inner key entry r
      | .retiring _ => inner
    (inner.updateLiveMetrics,true)

def shutdownEntry (acc : CacheInner × List Nat) (key : PageKey) : CacheInner × List Nat :=
  match acc.1.state.entries[key]? with
  | none => acc
  | some entry => match entry.state with
    | .loading loading =>
      ((acc.1.charge (fun l =>
          {l with
            waiters := wrappingSub l.waiters loading.waiters.length,
            leaseReservations := wrappingSub l.leaseReservations loading.waiters.length})).store key
          {entry with state := .loading {loading.cancel with waiters := []}},
        acc.2 ++ loading.waiters.map Waiter.completion)
    | .resident r => (retireResident acc.1 key entry r,acc.2)
    | .retiring _ => acc

def CacheInner.stopping (inner : CacheInner) : CacheInner :=
  {inner with state := {inner.state with shutdown := true}}

def shutdown (inner : CacheInner) : CacheInner × List Delivery :=
  if inner.state.shutdown then (inner,[])
  else
    let visited := inner.state.entries.keys.foldl shutdownEntry (inner.stopping,[])
    (visited.1.updateLiveMetrics,visited.2.map (fun completion => ⟨completion,.error .shutdown⟩))

end RunnelMoe.PageCache
