import RunnelMoe.CacheCalls

/-! The ledger equals the tally of the entries. Every operation adjusts it by the
difference of two entry shares, with operators that wrap; as long as the ledger
fits in a word nothing wraps, because an entry's share is part of the tally. -/
namespace RunnelMoe.PageCache
open StoreErrors Words PageSpecs CacheLimits KeyedSum
open Std (ExtTreeMap)

section Fields
variable (inner : CacheInner) (change : Metrics → Metrics) (delta : Ledger → Ledger) (key : PageKey)
  (entry : Entry) (unused : Bool)

@[simp] theorem meterState : (inner.meter change).state = inner.state := rfl
@[simp] theorem updateState : inner.updateLiveMetrics.state = inner.state := rfl
@[simp] theorem chargeLedger : (inner.charge delta).state.ledger = delta inner.state.ledger := rfl
@[simp] theorem chargeEntries : (inner.charge delta).state.entries = inner.state.entries := rfl
@[simp] theorem chargeGeneration : (inner.charge delta).state.generation = inner.state.generation := rfl
@[simp] theorem chargeWaiter : (inner.charge delta).state.waiter = inner.state.waiter := rfl
@[simp] theorem chargeTick : (inner.charge delta).state.tick = inner.state.tick := rfl
@[simp] theorem chargeShutdown : (inner.charge delta).state.shutdown = inner.state.shutdown := rfl
@[simp] theorem storeLedger : (inner.store key entry).state.ledger = inner.state.ledger := rfl
@[simp] theorem storeEntries :
    (inner.store key entry).state.entries = inner.state.entries.insert key entry := rfl
@[simp] theorem storeGeneration : (inner.store key entry).state.generation = inner.state.generation := rfl
@[simp] theorem storeWaiter : (inner.store key entry).state.waiter = inner.state.waiter := rfl
@[simp] theorem storeTick : (inner.store key entry).state.tick = inner.state.tick := rfl
@[simp] theorem storeShutdown : (inner.store key entry).state.shutdown = inner.state.shutdown := rfl
@[simp] theorem discardLedger : (inner.discard key).state.ledger = inner.state.ledger := rfl
@[simp] theorem discardEntries : (inner.discard key).state.entries = inner.state.entries.erase key := rfl
@[simp] theorem discardGeneration : (inner.discard key).state.generation = inner.state.generation := rfl
@[simp] theorem discardWaiter : (inner.discard key).state.waiter = inner.state.waiter := rfl
@[simp] theorem discardTick : (inner.discard key).state.tick = inner.state.tick := rfl
@[simp] theorem discardShutdown : (inner.discard key).state.shutdown = inner.state.shutdown := rfl
@[simp] theorem wastedState : (inner.wasted unused).state = inner.state := by
  unfold CacheInner.wasted
  split <;> rfl

end Fields

def Ledgered (s : CacheState) : Prop := s.ledger = tally s.entries

structure Fits (l : Ledger) : Prop where
  pool : l.pagePoolBytes < modulus
  inflight : l.inflightBytes < modulus
  resident : l.residentBytes < modulus
  retiring : l.retiringBytes < modulus
  loads : l.activeLoads < modulus
  waiters : l.waiters < modulus
  reservations : l.leaseReservations < modulus
  leases : l.leases < modulus
  promised : l.leases + l.leaseReservations < modulus

variable {s : CacheState} {key : PageKey} {e : Entry}

/- The share of the entry under the key and the rest of the tally. All ledger
proofs start from this equation and end by one of the two closing lemmas. -/
theorem ledgerSplit (ledgered : Ledgered s)
    (present : s.entries[key]? = some e) : s.ledger = e.share.add (tally (s.entries.erase key)) :=
  Eq.trans ledgered (tallySplit present)

theorem ledgerStored {entries : ExtTreeMap PageKey Entry}
    (same : s.entries = entries.insert key e) (exact : s.ledger = e.share.add (tally (entries.erase key))) :
    Ledgered s := by
  rw [Ledgered,same,tallyInsert]
  exact exact

theorem ledgerAdded {entries : ExtTreeMap PageKey Entry}
    (absent : entries[key]? = none) (same : s.entries = entries.insert key e)
    (exact : s.ledger = e.share.add (tally entries)) : Ledgered s :=
  ledgerStored same (by rw [eraseAbsent absent]; exact exact)

theorem ledgerErased (entries : ExtTreeMap PageKey Entry) (key : PageKey)
    (same : s.entries = entries.erase key) (exact : s.ledger = tally (entries.erase key)) : Ledgered s := by
  rw [Ledgered,same]
  exact exact

section Shares
variable {e : Entry}

theorem shareLoading {l : LoadingEntry} (state : e.state = .loading l) :
    e.share = ⟨e.allocationBytes,e.allocationBytes,0,0,1,l.waiters.length,l.waiters.length,0⟩ := by
  simp [Entry.share,Entry.inflight,Entry.resident,Entry.retiring,Entry.loads,Entry.waiters,Entry.leases,state]

theorem shareResident {r : ResidentEntry} (state : e.state = .resident r) :
    e.share = ⟨e.allocationBytes,0,e.allocationBytes,0,0,0,0,r.leases⟩ := by
  simp [Entry.share,Entry.inflight,Entry.resident,Entry.retiring,Entry.loads,Entry.waiters,Entry.leases,state]

theorem shareRetiring {r : RetiringEntry} (state : e.state = .retiring r) :
    e.share = ⟨e.allocationBytes,0,0,e.allocationBytes,0,0,0,r.leases⟩ := by
  simp [Entry.share,Entry.inflight,Entry.resident,Entry.retiring,Entry.loads,Entry.waiters,Entry.leases,state]

end Shares

theorem evictEffect {inner : CacheInner} {r : ResidentEntry}
    (present : inner.state.entries[key]? = some e) (state : e.state = .resident r) :
    (evictUnleased inner key).state.entries = inner.state.entries.erase key ∧
    (evictUnleased inner key).state.generation = inner.state.generation ∧
    (evictUnleased inner key).state.waiter = inner.state.waiter ∧
    (evictUnleased inner key).state.tick = inner.state.tick ∧
    (evictUnleased inner key).state.shutdown = inner.state.shutdown := by
  simp [evictUnleased,present,state]

theorem evictLedgered {inner : CacheInner} {r : ResidentEntry}
    (ledgered : Ledgered inner.state) (fits : Fits inner.state.ledger)
    (present : inner.state.entries[key]? = some e) (state : e.state = .resident r) (unleased : r.leases = 0) :
    Ledgered (evictUnleased inner key).state := by
  apply ledgerErased _ _ (evictEffect present state).1
  have split := ledgerSplit ledgered present
  rw [shareResident state] at split
  rw [split] at fits
  obtain ⟨pool,-,resident,-,-,-,-,-,-⟩ := fits
  simp only [Ledger.add] at pool resident
  simp only [evictUnleased,present,state,wastedState,meterState,chargeLedger,discardLedger,split,Ledger.add]
  simp (disch := omega) only [wrappingSubExact]
  simp [tally,unleased]

end RunnelMoe.PageCache
