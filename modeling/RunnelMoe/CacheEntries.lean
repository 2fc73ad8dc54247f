import RunnelMoe.CacheLimits
import RunnelMoe.KeyedSum

/-! The data of the page cache: entries in their three states, the ledger kept
beside them, the counters, and the metrics. The tally is what the ledger would
be if it were recomputed from the entries. A waiter's completion sender is the
number of the get call that owns the receiving end. -/
namespace RunnelMoe.PageCache
open StoreErrors Words PageSpecs CacheLimits KeyedSum
open Std (ExtTreeMap)

inductive AccessReason where
  | demand
  | prefetch
  deriving DecidableEq, Repr

inductive PrefetchOutcome where
  | started
  | coalescedWithDemand
  | redundant
  | droppedBudget
  deriving DecidableEq, Repr

structure Waiter where
  id : Nat
  completion : Nat
  deriving DecidableEq, Repr

structure LoadingEntry where
  waiters : List Waiter
  cancelled : Bool
  origin : AccessReason
  prefetchInterest : Bool
  acceptingWaiters : Bool
  lastTouch : Nat
  deriving DecidableEq, Repr

structure ResidentEntry where
  page : VerifiedPage
  leases : Nat
  prefetchedUnused : Bool
  lastTouch : Nat
  deriving DecidableEq, Repr

structure RetiringEntry where
  page : VerifiedPage
  leases : Nat
  prefetchedUnused : Bool
  deriving DecidableEq, Repr

inductive EntryState where
  | loading (entry : LoadingEntry)
  | resident (entry : ResidentEntry)
  | retiring (entry : RetiringEntry)
  deriving DecidableEq, Repr

structure Entry where
  fingerprint : Digest
  length : Nat
  allocationBytes : Nat
  generation : Nat
  state : EntryState
  deriving DecidableEq, Repr

structure Ledger where
  pagePoolBytes : Nat
  inflightBytes : Nat
  residentBytes : Nat
  retiringBytes : Nat
  activeLoads : Nat
  waiters : Nat
  leaseReservations : Nat
  leases : Nat
  deriving DecidableEq, Repr

structure CacheState where
  entries : ExtTreeMap PageKey Entry
  ledger : Ledger
  generation : Nat
  waiter : Nat
  tick : Nat
  shutdown : Bool

structure Metrics where
  demandBytes : Nat
  prefetchBytes : Nat
  physicalReadBytes : Nat
  hits : Nat
  misses : Nat
  admissions : Nat
  evictions : Nat
  coalescedDemands : Nat
  latePrefetches : Nat
  coalescedPrefetches : Nat
  usefulPrefetches : Nat
  wastedPrefetches : Nat
  redundantPrefetches : Nat
  droppedPrefetches : Nat
  waitNanoseconds : Nat
  ioNanoseconds : Nat
  activeLoads : Nat
  pagePoolBytes : Nat
  inflightBytes : Nat
  residentBytes : Nat
  retiringBytes : Nat
  leases : Nat
  deriving DecidableEq, Repr

structure CacheInner where
  state : CacheState
  metrics : Metrics

-- The owner is the get call the lease was created for; the source keeps the
-- weak cache handle in its place, and there is one cache here.
structure PageLease where
  owner : Nat
  key : PageKey
  generation : Nat
  page : VerifiedPage
  deriving DecidableEq, Repr

def Ledger.zero : Ledger := ⟨0,0,0,0,0,0,0,0⟩
def Metrics.zero : Metrics := ⟨0,0,0,0,0,0,0,0,0,0,0,0,0,0,0,0,0,0,0,0,0,0⟩
def CacheState.empty : CacheState := ⟨∅,.zero,0,0,0,false⟩
def CacheInner.empty : CacheInner := ⟨.empty,.zero⟩

/-! Per-entry contributions. Each ledger field is the total of one of them. -/

def Entry.loads (e : Entry) : Nat := match e.state with | .loading _ => 1 | _ => 0
def Entry.inflight (e : Entry) : Nat := match e.state with | .loading _ => e.allocationBytes | _ => 0
def Entry.resident (e : Entry) : Nat := match e.state with | .resident _ => e.allocationBytes | _ => 0
def Entry.retiring (e : Entry) : Nat := match e.state with | .retiring _ => e.allocationBytes | _ => 0
def Entry.waiters (e : Entry) : List Waiter := match e.state with | .loading l => l.waiters | _ => []
def Entry.leases (e : Entry) : Nat := match e.state with
  | .loading _ => 0
  | .resident r => r.leases
  | .retiring r => r.leases

def Entry.share (e : Entry) : Ledger :=
  ⟨e.allocationBytes,e.inflight,e.resident,e.retiring,e.loads,e.waiters.length,e.waiters.length,e.leases⟩

def Ledger.add (a b : Ledger) : Ledger :=
  ⟨a.pagePoolBytes + b.pagePoolBytes,a.inflightBytes + b.inflightBytes,a.residentBytes + b.residentBytes,
    a.retiringBytes + b.retiringBytes,a.activeLoads + b.activeLoads,a.waiters + b.waiters,
    a.leaseReservations + b.leaseReservations,a.leases + b.leases⟩

def tally (entries : ExtTreeMap PageKey Entry) : Ledger where
  pagePoolBytes := total (fun _ e => e.allocationBytes) entries
  inflightBytes := total (fun _ e => e.inflight) entries
  residentBytes := total (fun _ e => e.resident) entries
  retiringBytes := total (fun _ e => e.retiring) entries
  activeLoads := total (fun _ e => e.loads) entries
  waiters := total (fun _ e => e.waiters.length) entries
  leaseReservations := total (fun _ e => e.waiters.length) entries
  leases := total (fun _ e => e.leases) entries

theorem tallyEmpty : tally ∅ = .zero := by simp only [tally,totalEmpty,Ledger.zero]

theorem tallyInsert (entries : ExtTreeMap PageKey Entry) (key : PageKey) (e : Entry) :
    tally (entries.insert key e) = e.share.add (tally (entries.erase key)) := by
  simp only [tally,totalInsert,Ledger.add,Entry.share]

theorem tallySplit {entries : ExtTreeMap PageKey Entry} {key : PageKey} {e : Entry} (present : entries[key]? = some e) :
    tally entries = e.share.add (tally (entries.erase key)) := by
  rw [← tallyInsert,insertPresent present]

theorem entryCharge (e : Entry) : e.allocationBytes = e.inflight + e.resident + e.retiring := by
  cases state : e.state <;> simp [Entry.inflight,Entry.resident,Entry.retiring,state]

theorem tallyPool (entries : ExtTreeMap PageKey Entry) :
    (tally entries).pagePoolBytes =
      (tally entries).inflightBytes + (tally entries).residentBytes + (tally entries).retiringBytes := by
  simp only [tally,← totalAdd]
  exact totalCongr (fun _ e _ => entryCharge e)

end RunnelMoe.PageCache
