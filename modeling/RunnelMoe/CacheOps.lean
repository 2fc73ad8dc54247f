import Mathlib.Data.List.Sort
import RunnelMoe.CacheEntries
import RunnelMoe.Vectors

/-! The lock-protected operations of the cache, one function for each method of
the source. The source removes an entry from the map and puts it back on the
paths that keep it; on an extensional map that is a plain update. The ledger uses
the unchecked operators of the source, so its arithmetic wraps here and nothing
is assumed about it. The trace sink is observational and left out; what the
runtime and the reader answer are arguments. -/
namespace RunnelMoe.PageCache
open StoreErrors Words PageSpecs CacheLimits KeyedSum
open Std (ExtTreeMap)

namespace Metrics
variable (m : Metrics) (value : Nat)

def addDemandBytes : Metrics := {m with demandBytes := saturatingAdd m.demandBytes value}
def addPrefetchBytes : Metrics := {m with prefetchBytes := saturatingAdd m.prefetchBytes value}
def addPhysicalReadBytes : Metrics := {m with physicalReadBytes := saturatingAdd m.physicalReadBytes value}
def addIoNanoseconds : Metrics := {m with ioNanoseconds := saturatingAdd m.ioNanoseconds value}
def addWaitNanoseconds : Metrics := {m with waitNanoseconds := saturatingAdd m.waitNanoseconds value}
def hit : Metrics := {m with hits := saturatingAdd m.hits 1}
def miss : Metrics := {m with misses := saturatingAdd m.misses 1}
def admission : Metrics := {m with admissions := saturatingAdd m.admissions 1}
def eviction : Metrics := {m with evictions := saturatingAdd m.evictions 1}
def coalescedDemand : Metrics := {m with coalescedDemands := saturatingAdd m.coalescedDemands 1}
def latePrefetch : Metrics := {m with latePrefetches := saturatingAdd m.latePrefetches 1}
def coalescedPrefetch : Metrics := {m with coalescedPrefetches := saturatingAdd m.coalescedPrefetches 1}
def usefulPrefetch : Metrics := {m with usefulPrefetches := saturatingAdd m.usefulPrefetches 1}
def wastedPrefetch : Metrics := {m with wastedPrefetches := saturatingAdd m.wastedPrefetches 1}
def redundantPrefetch : Metrics := {m with redundantPrefetches := saturatingAdd m.redundantPrefetches 1}
def droppedPrefetch : Metrics := {m with droppedPrefetches := saturatingAdd m.droppedPrefetches 1}
def setLive (ledger : Ledger) : Metrics :=
  {m with
    activeLoads := ledger.activeLoads, pagePoolBytes := ledger.pagePoolBytes,
    inflightBytes := ledger.inflightBytes, residentBytes := ledger.residentBytes,
    retiringBytes := ledger.retiringBytes, leases := ledger.leases}

end Metrics

namespace CacheInner
variable (inner : CacheInner)

def meter (change : Metrics → Metrics) : CacheInner :=
  {inner with metrics := change inner.metrics}
def updateLiveMetrics : CacheInner :=
  inner.meter (Metrics.setLive · inner.state.ledger)
def charge (change : Ledger → Ledger) : CacheInner :=
  {inner with state := {inner.state with ledger := change inner.state.ledger}}
def store (key : PageKey) (entry : Entry) : CacheInner :=
  {inner with state := {inner.state with entries := inner.state.entries.insert key entry}}
def discard (key : PageKey) : CacheInner :=
  {inner with state := {inner.state with entries := inner.state.entries.erase key}}
def wasted (unused : Bool) : CacheInner :=
  if unused then inner.meter Metrics.wastedPrefetch else inner

end CacheInner

def validateSpec (config : CacheConfig) (spec : PageSpec) : Except StoreError Nat :=
  if spec.length = 0 ∨ spec.length > config.maxPageBytes then
    .error (.resourceExhausted "supported page bytes" spec.length config.maxPageBytes)
  else match spec.allocationBytes with
    | .error e => .error e
    | .ok allocationBytes =>
      if allocationBytes > config.pagePoolCapacity ∨ allocationBytes > config.maxInflightBytes then
        .error (.resourceExhausted "aligned page allocation" allocationBytes
          (min config.pagePoolCapacity config.maxInflightBytes))
      else .ok allocationBytes

def validateIdentity (entry : Entry) (spec : PageSpec) (allocationBytes : Nat) : Except StoreError Unit :=
  if entry.length ≠ spec.length ∨ entry.allocationBytes ≠ allocationBytes ∨
      entry.fingerprint ≠ spec.fingerprint then
    .error (.integrity "cache key fingerprint mismatch")
  else .ok ()

def reserveWaiter (config : CacheConfig) (ledger : Ledger) (perPageWaiters : Nat) : Except StoreError Unit :=
  if ledger.waiters ≥ config.maxWaiters then
    .error (.resourceExhausted "cache waiters" 1 config.maxWaiters)
  else if perPageWaiters ≥ config.maxWaitersPerPage then
    .error (.resourceExhausted "per-page cache waiters" 1 config.maxWaitersPerPage)
  else if wrappingAdd ledger.leases ledger.leaseReservations ≥ config.maxLeases then
    .error (.resourceExhausted "cache leases" 1 config.maxLeases)
  else .ok ()

def CacheState.nextGeneration (s : CacheState) : Except StoreError (CacheState × Nat) :=
  match checkedAdd s.generation 1 with
  | none => .error (.invariant "cache generation exhausted")
  | some generation => .ok ({s with generation := generation},generation)

def CacheState.nextWaiter (s : CacheState) : Except StoreError (CacheState × Nat) :=
  match checkedAdd s.waiter 1 with
  | none => .error (.invariant "cache waiter identity exhausted")
  | some waiter => .ok ({s with waiter := waiter},waiter)

def CacheState.nextTick (s : CacheState) : CacheState := {s with tick := saturatingAdd s.tick 1}

structure Candidate where
  key : PageKey
  lastTouch : Nat
  bytes : Nat
  deriving DecidableEq, Repr

def candidateOf (row : PageKey × Entry) : Option Candidate :=
  match row.2.state with
  | .resident r => if r.leases = 0 then some ⟨row.1,r.lastTouch,row.2.allocationBytes⟩ else none
  | _ => none

def Candidate.before (a b : Candidate) : Prop := toLex (a.lastTouch,a.key) ≤ toLex (b.lastTouch,b.key)
instance : DecidableRel Candidate.before := fun a b => by unfold Candidate.before; infer_instance

def candidates (entries : ExtTreeMap PageKey Entry) : List Candidate :=
  (entries.toList.filterMap candidateOf).insertionSort Candidate.before

structure Plan where
  poolBytes : Nat
  entries : Nat
  victims : List PageKey
  deriving DecidableEq, Repr

def planVictims (config : CacheConfig) (maximumRetained : Nat) :
    Nat → Nat → List Candidate → Except StoreError Plan
  | pool, count, [] => .ok ⟨pool,count,[]⟩
  | pool, count, c::rest =>
      if pool ≤ maximumRetained ∧ count < config.maxEntries then .ok ⟨pool,count,[]⟩
      else match checkedSub pool c.bytes with
        | none => .error (.invariant "cache victim charge exceeded the page-pool ledger")
        | some pool => match checkedSub count 1 with
          | none => .error (.invariant "cache victim count exceeded retained entries")
          | some count => match planVictims config maximumRetained pool count rest with
            | .error e => .error e
            | .ok plan => .ok ⟨plan.poolBytes,plan.entries,c.key::plan.victims⟩

def evictUnleased (inner : CacheInner) (key : PageKey) : CacheInner :=
  match inner.state.entries[key]? with
  | none => inner
  | some entry => match entry.state with
    | .resident r =>
        (((inner.discard key).charge (fun l =>
          {l with
            pagePoolBytes := wrappingSub l.pagePoolBytes entry.allocationBytes,
            residentBytes := wrappingSub l.residentBytes entry.allocationBytes})).meter
          Metrics.eviction).wasted r.prefetchedUnused
    | _ => inner

def refusesLoad (config : CacheConfig) (ledger : Ledger) (allocationBytes : Nat) : Prop :=
  allocationBytes > config.maxInflightBytes ∨
    ledger.inflightBytes > config.maxInflightBytes - allocationBytes ∨ ledger.activeLoads ≥ config.maxLoads
instance (config ledger allocationBytes) : Decidable (refusesLoad config ledger allocationBytes) := by
  unfold refusesLoad; infer_instance

def reserveLoad (config : CacheConfig) (inner : CacheInner) (allocationBytes : Nat) :
    Except StoreError (Option CacheInner) :=
  let ledger := inner.state.ledger
  if refusesLoad config ledger allocationBytes then .ok none
  else
    let maximumRetained := wrappingSub config.pagePoolCapacity allocationBytes
    match planVictims config maximumRetained ledger.pagePoolBytes inner.state.entries.size
        (candidates inner.state.entries) with
    | .error e => .error e
    | .ok plan =>
      if plan.poolBytes > maximumRetained ∨ plan.entries ≥ config.maxEntries then .ok none
      else match checkedAdd plan.poolBytes allocationBytes with
        | none => .error (.arithmeticOverflow "reserving an aligned cache page allocation")
        | some reservedPool => match checkedAdd ledger.inflightBytes allocationBytes with
          | none => .error (.arithmeticOverflow "reserving aligned in-flight page bytes")
          | some reservedInflight => match checkedAdd ledger.activeLoads 1 with
            | none => .error (.arithmeticOverflow "reserving a cache load slot")
            | some reservedLoads =>
              .ok (some ((plan.victims.foldl evictUnleased inner).charge (fun l =>
                {l with
                  activeLoads := reservedLoads, pagePoolBytes := reservedPool,
                  inflightBytes := reservedInflight})))

def unwindUnsubmittedLoad (inner : CacheInner) (key : PageKey) (generation : Nat) :
    Except StoreError CacheInner :=
  match inner.state.entries[key]? with
  | none => .error (.invariant "unsubmitted cache load lost its reserved entry")
  | some entry =>
    if entry.generation ≠ generation then .error (.invariant "unsubmitted cache load changed generation")
    else match entry.state with
      | .loading loading =>
        .ok ((inner.discard key).charge (fun l =>
          {l with
            activeLoads := wrappingSub l.activeLoads 1,
            pagePoolBytes := wrappingSub l.pagePoolBytes entry.allocationBytes,
            inflightBytes := wrappingSub l.inflightBytes entry.allocationBytes,
            waiters := wrappingSub l.waiters loading.waiters.length,
            leaseReservations := wrappingSub l.leaseReservations loading.waiters.length}))
      | _ => .error (.invariant "unsubmitted cache load changed state")

end RunnelMoe.PageCache
