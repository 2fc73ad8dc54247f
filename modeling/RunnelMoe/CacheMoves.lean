import Mathlib.Logic.Relation
import RunnelMoe.CacheCalls

/-! The life of a page in the cache, one move at a time. A move changes one entry
and, where it creates or drops a lease, the list of leases alive; it has no ledger.
Limits are stated on the tally of the entries. The calls of the cache are finite
sequences of moves, so what every move keeps is an invariant of the cache. -/
namespace RunnelMoe.PageCache
open StoreErrors Words PageSpecs CacheLimits KeyedSum
open Std (ExtTreeMap)

structure Pages where
  entries : ExtTreeMap PageKey Entry
  leases : List PageLease
  generation : Nat
  waiter : Nat
  stopped : Bool

inductive Move where
  | count
  | evict (key : PageKey)
  | hit (key : PageKey)
  | join (key : PageKey)
  | start (key : PageKey) (generation : Nat)
  | interest (key : PageKey)
  | fail (key : PageKey) (generation : Nat)
  | publish (key : PageKey) (generation : Nat)
  | use (key : PageKey)
  | withdraw (key : PageKey) (generation waiterId : Nat)
  | release (lease : PageLease)
  | cancel (key : PageKey)
  | retire (key : PageKey)
  | drain (key : PageKey)
  | stop
  deriving DecidableEq, Repr

def Entry.quiet (e : Entry) : Prop := match e.state with
  | .loading l => l.waiters = [] ∧ l.acceptingWaiters = false
  | .resident _ => False
  | .retiring _ => True

def Entry.holds (e : Entry) (page : VerifiedPage) : Prop := match e.state with
  | .loading _ => False
  | .resident r => r.page = page
  | .retiring r => r.page = page

def Waiter.lease (w : Waiter) (key : PageKey) (generation : Nat) (page : VerifiedPage) : PageLease :=
  ⟨w.completion,key,generation,page⟩

inductive Turn (config : CacheConfig) : Move → Pages → Pages → Prop where
  | count {p g w} (generations : p.generation ≤ g) (waiters : p.waiter ≤ w) :
      Turn config .count p {p with generation := g, waiter := w}
  | evict {p key e r} (present : p.entries[key]? = some e) (state : e.state = .resident r)
      (unleased : r.leases = 0) : Turn config (.evict key) p {p with entries := p.entries.erase key}
  | hit {p key e r call touch} (running : p.stopped = false) (present : p.entries[key]? = some e)
      (state : e.state = .resident r)
      (room : (tally p.entries).leases + (tally p.entries).leaseReservations < config.maxLeases) :
      Turn config (.hit key) p
        {p with
          entries := p.entries.insert key
            {e with state := .resident {r with lastTouch := touch, leases := r.leases + 1}},
          leases := ⟨call,key,e.generation,r.page⟩ :: p.leases}
  | join {p key e l id call touch} (running : p.stopped = false) (present : p.entries[key]? = some e)
      (state : e.state = .loading l) (accepting : l.acceptingWaiters = true) (fresh : p.waiter < id)
      (waiters : (tally p.entries).waiters < config.maxWaiters)
      (perPage : l.waiters.length < config.maxWaitersPerPage)
      (room : (tally p.entries).leases + (tally p.entries).leaseReservations < config.maxLeases) :
      Turn config (.join key) p
        {p with
          entries := p.entries.insert key
            {e with state := .loading {l with waiters := l.waiters ++ [⟨id,call⟩], lastTouch := touch}},
          waiter := id}
  | start {p key e l} (running : p.stopped = false) (absent : p.entries[key]? = none)
      (state : e.state = .loading l) (alone : l.waiters = []) (fresh : p.generation < e.generation)
      (pool : (tally p.entries).pagePoolBytes + e.allocationBytes ≤ config.pagePoolCapacity)
      (inflight : (tally p.entries).inflightBytes + e.allocationBytes ≤ config.maxInflightBytes)
      (loads : (tally p.entries).activeLoads < config.maxLoads) (room : p.entries.size < config.maxEntries) :
      Turn config (.start key e.generation) p
        {p with entries := p.entries.insert key e, generation := e.generation}
  | interest {p key e l} (present : p.entries[key]? = some e) (state : e.state = .loading l)
      (accepting : l.acceptingWaiters = true) :
      Turn config (.interest key) p
        {p with entries := p.entries.insert key {e with state := .loading {l with prefetchInterest := true}}}
  | fail {p key e l} (present : p.entries[key]? = some e) (state : e.state = .loading l) :
      Turn config (.fail key e.generation) p {p with entries := p.entries.erase key}
  | publish {p key e l page unused} (running : p.stopped = false) (present : p.entries[key]? = some e)
      (state : e.state = .loading l) (accepting : l.acceptingWaiters = true)
      (within : ¬exceedsReservation key e page) :
      Turn config (.publish key e.generation) p
        {p with
          entries := p.entries.insert key
            {e with state := .resident ⟨page,l.waiters.length,unused,l.lastTouch⟩},
          leases := l.waiters.map (Waiter.lease · key e.generation page) ++ p.leases}
  | useResident {p key e r} (present : p.entries[key]? = some e) (state : e.state = .resident r) :
      Turn config (.use key) p
        {p with entries := p.entries.insert key {e with state := .resident {r with prefetchedUnused := false}}}
  | useRetiring {p key e r} (present : p.entries[key]? = some e) (state : e.state = .retiring r) :
      Turn config (.use key) p
        {p with entries := p.entries.insert key {e with state := .retiring {r with prefetchedUnused := false}}}
  | withdraw {p key e l i w} (present : p.entries[key]? = some e) (state : e.state = .loading l)
      (found : l.waiters[i]? = some w) :
      Turn config (.withdraw key e.generation w.id) p
        {p with entries := p.entries.insert key {e with state := .loading (l.leave i)}}
  | releaseResident {p e r} {lease : PageLease} (alive : lease ∈ p.leases)
      (present : p.entries[lease.key]? = some e) (same : e.generation = lease.generation)
      (state : e.state = .resident r) (leased : 0 < r.leases) :
      Turn config (.release lease) p
        {p with
          entries := p.entries.insert lease.key {e with state := .resident {r with leases := r.leases - 1}},
          leases := p.leases.erase lease}
  | releaseRetiring {p e r} {lease : PageLease} (alive : lease ∈ p.leases)
      (present : p.entries[lease.key]? = some e) (same : e.generation = lease.generation)
      (state : e.state = .retiring r) (leased : 1 < r.leases) :
      Turn config (.release lease) p
        {p with
          entries := p.entries.insert lease.key {e with state := .retiring {r with leases := r.leases - 1}},
          leases := p.leases.erase lease}
  | releaseLast {p e r} {lease : PageLease} (alive : lease ∈ p.leases)
      (present : p.entries[lease.key]? = some e) (same : e.generation = lease.generation)
      (state : e.state = .retiring r) (last : r.leases = 1) :
      Turn config (.release lease) p
        {p with entries := p.entries.erase lease.key, leases := p.leases.erase lease}
  | cancel {p key e l} (present : p.entries[key]? = some e) (state : e.state = .loading l) :
      Turn config (.cancel key) p {p with entries := p.entries.insert key {e with state := .loading l.cancel}}
  | retire {p key e r} (present : p.entries[key]? = some e) (state : e.state = .resident r)
      (leased : 0 < r.leases) :
      Turn config (.retire key) p
        {p with
          entries := p.entries.insert key {e with state := .retiring ⟨r.page,r.leases,r.prefetchedUnused⟩}}
  | drain {p key e l} (present : p.entries[key]? = some e) (state : e.state = .loading l) :
      Turn config (.drain key) p
        {p with entries := p.entries.insert key {e with state := .loading {l.cancel with waiters := []}}}
  | stop {p} (quiet : Every p.entries (fun _ e => e.quiet)) :
      Turn config .stop p {p with stopped := true}

def Turns (config : CacheConfig) (allowed : Move → Prop) : Pages → Pages → Prop :=
  Relation.ReflTransGen (fun p q => ∃ move, allowed move ∧ Turn config move p q)

theorem turnsInvariant {config : CacheConfig} {allowed : Move → Prop} (Inv : Pages → Prop)
    (preserved : ∀ move p q, allowed move → Turn config move p q → Inv p → Inv q)
    {p q} (turns : Turns config allowed p q) (holds : Inv p) : Inv q := by
  induction turns with
  | refl => exact holds
  | tail _ last ih =>
    obtain ⟨move,ok,turn⟩ := last
    exact preserved move _ _ ok turn ih

end RunnelMoe.PageCache
