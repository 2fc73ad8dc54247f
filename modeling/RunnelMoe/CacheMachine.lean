import RunnelMoe.CacheShutdown
import RunnelMoe.Runs

/-! The cache as a machine. Its state is the locked state together with the leases
that are alive, wherever they are: with a caller, or in a message nobody received.
An action is one section under the lock. The environment chooses it freely: a
completion may come for any key, generation and result, a submission may be refused
with any error, and any lease alive may be dropped next. -/
namespace RunnelMoe.PageCache
open StoreErrors Words PageSpecs CacheLimits KeyedSum Runs
open Std (ExtTreeMap)

structure Cache where
  inner : CacheInner
  leases : List PageLease

def Cache.empty : Cache := ⟨.empty,[]⟩

inductive Action where
  | get (ambient : Ambient) (spec : PageSpec) (call : Nat) (submit : Except StoreError Unit)
  | prefetch (ambient : Ambient) (spec : PageSpec) (submit : Except StoreError Unit)
  | complete (key : PageKey) (generation : Nat) (result : Except StoreError VerifiedPage) (stats : ReadStats)
  | withdraw (key : PageKey) (generation waiterId : Nat)
  | dropLease (lease : PageLease)
  | markUse (key : PageKey) (generation : Nat)
  | invalidate (key : PageKey)
  | shutdown

def step (config : CacheConfig) (c : Cache) : Action → Option Cache
  | .get ambient spec call submit =>
      let (inner,reply) := get config ambient spec call submit c.inner
      some ⟨inner,reply.leases ++ c.leases⟩
  | .prefetch ambient spec submit => some {c with inner := (prefetch config ambient spec submit c.inner).1}
  | .complete key generation result stats =>
      let (inner,deliveries) := finishObservedLoad c.inner key generation result stats
      some ⟨inner,Delivery.leases deliveries ++ c.leases⟩
  | .withdraw key generation waiterId => some {c with inner := withdrawWaiter c.inner key generation waiterId}
  | .dropLease lease =>
      if lease ∈ c.leases then some ⟨releaseLease c.inner lease.key lease.generation,c.leases.erase lease⟩
      else none
  | .markUse key generation => some {c with inner := markPrefetchUse c.inner key generation}
  | .invalidate key => some {c with inner := (invalidate c.inner key).1}
  | .shutdown => some {c with inner := (shutdown c.inner).1}

def Action.moves : Action → Move → Prop
  | .get _ spec _ _ => Move.admits spec.key
  | .prefetch _ spec _ => Move.prefetches spec.key
  | .complete key generation _ _ => fun move => move = .fail key generation ∨ move = .publish key generation
  | .withdraw key generation waiterId => (· = .withdraw key generation waiterId)
  | .dropLease lease => (· = .release lease)
  | .markUse key _ => (· = .use key)
  | .invalidate key => Move.retires key
  | .shutdown => Move.shuts

def Cache.pages (c : Cache) : Pages := c.inner.state.pages c.leases

theorem stepRefines {config : CacheConfig} {c next : Cache} {action : Action} (accepted : Accepted config)
    (good : Good config c.inner.state c.leases) (ok : step config c action = some next) :
    Refines config action.moves c.inner.state c.leases next.inner.state next.leases := by
  have fits := goodFits accepted good
  cases action with
  | get ambient spec call submit =>
    rcases done : get config ambient spec call submit c.inner with ⟨inner,reply⟩
    simp only [step,done,Option.some.injEq] at ok
    subst ok
    exact getRefines good (getEffect accepted good.ledgered fits done)
  | prefetch ambient spec submit =>
    cases ok
    exact prefetchRefines good (prefetchEffect accepted good.sound.bounded good.ledgered fits rfl)
  | complete key generation result stats =>
    rcases done : finishObservedLoad c.inner key generation result stats with ⟨inner,deliveries⟩
    simp only [step,done,Option.some.injEq] at ok
    subst ok
    exact completeRefines good (observedEffect good.ledgered fits done)
  | withdraw key generation waiterId =>
    cases ok
    exact withdrawRefines good (withdrawEffect key generation waiterId good.ledgered fits)
  | dropLease lease =>
    simp only [step] at ok
    split at ok
    · rename_i alive
      cases ok
      exact releaseRefines accepted good alive
    · contradiction
  | markUse key generation =>
    cases ok
    exact useRefines good
  | invalidate key =>
    cases ok
    exact invalidateRefines accepted good
  | shutdown =>
    cases ok
    exact shutdownRefines accepted good

theorem emptyGood (config : CacheConfig) : Good config Cache.empty.inner.state Cache.empty.leases := by
  have zero : tally (∅ : ExtTreeMap PageKey Entry) = .zero := tallyEmpty
  have none (P : PageKey → Entry → Prop) : Every (∅ : ExtTreeMap PageKey Entry) P := everyEmpty P
  refine ⟨zero.symm,⟨?_,none _,by simp [Backed,Cache.empty,CacheState.pages],?_,none _,⟨none _,?_⟩,
    fun _ => none _,none _⟩⟩
  · refine ⟨?_,?_,?_,?_,?_,?_,none _⟩ <;>
      simp [CacheState.pages,Cache.empty,CacheInner.empty,CacheState.empty,zero,Ledger.zero]
  · simp [Alive,CacheState.pages,Cache.empty,CacheInner.empty,CacheState.empty,zero,Ledger.zero]
  · intro a b x y found
    simp [CacheState.pages,Cache.empty,CacheInner.empty,CacheState.empty] at found

theorem stepGood {config : CacheConfig} {c next : Cache} {action : Action} (accepted : Accepted config)
    (good : Good config c.inner.state c.leases) (ok : step config c action = some next) :
    Good config next.inner.state next.leases := refinesGood (stepRefines accepted good ok) good

theorem reachableGood {config : CacheConfig} {c : Cache} (accepted : Accepted config)
    (reached : Reachable (step config) .empty c) : Good config c.inner.state c.leases :=
  reachableInvariant (fun c => Good config c.inner.state c.leases) (emptyGood config)
    (fun _ _ _ good ok => stepGood accepted good ok) reached

structure LedgerExact (c : Cache) : Prop where
  activeLoads : c.inner.state.ledger.activeLoads = total (fun _ e => e.loads) c.inner.state.entries
  inflight : c.inner.state.ledger.inflightBytes = total (fun _ e => e.inflight) c.inner.state.entries
  resident : c.inner.state.ledger.residentBytes = total (fun _ e => e.resident) c.inner.state.entries
  retiring : c.inner.state.ledger.retiringBytes = total (fun _ e => e.retiring) c.inner.state.entries
  pool : c.inner.state.ledger.pagePoolBytes = c.inner.state.ledger.inflightBytes +
    c.inner.state.ledger.residentBytes + c.inner.state.ledger.retiringBytes
  waiters : c.inner.state.ledger.waiters = total (fun _ e => e.waiters.length) c.inner.state.entries
  reservations : c.inner.state.ledger.leaseReservations = c.inner.state.ledger.waiters
  leases : c.inner.state.ledger.leases = total (fun _ e => e.leases) c.inner.state.entries
  alive : c.inner.state.ledger.leases = c.leases.length

structure WithinLimits (config : CacheConfig) (c : Cache) : Prop where
  pool : c.inner.state.ledger.pagePoolBytes ≤ config.pagePoolCapacity
  inflight : c.inner.state.ledger.inflightBytes ≤ config.maxInflightBytes
  entries : c.inner.state.entries.size ≤ config.maxEntries
  loads : c.inner.state.ledger.activeLoads ≤ config.maxLoads
  waiters : c.inner.state.ledger.waiters ≤ config.maxWaiters
  perPage : Every c.inner.state.entries (fun _ e => e.waiters.length ≤ config.maxWaitersPerPage)
  leases : c.inner.state.ledger.leases + c.inner.state.ledger.leaseReservations ≤ config.maxLeases

theorem ledgerExactAndBounded {config : CacheConfig} (valid : config.validate = .ok ()) {c : Cache}
    (reached : Reachable (step config) .empty c) : LedgerExact c ∧ WithinLimits config c := by
  have good := reachableGood (validateAccepts valid) reached
  have ledger : c.inner.state.ledger = tally c.inner.state.entries := good.ledgered
  have bounded : Bounded config c.inner.state.entries := good.sound.bounded
  refine ⟨⟨?_,?_,?_,?_,?_,?_,?_,?_,?_⟩,⟨?_,?_,bounded.size,?_,?_,bounded.perPage,?_⟩⟩ <;> rw [ledger]
  · rfl
  · rfl
  · rfl
  · rfl
  · exact tallyPool _
  · rfl
  · rfl
  · rfl
  · exact good.sound.alive
  · exact bounded.pool
  · exact bounded.inflight
  · exact bounded.loads
  · exact bounded.waiters
  · exact bounded.leases

/-! A shared load, invalidated while both of its leases are out -/

def sampleDigest : Digest := ⟨List.replicate 32 0,by decide⟩
def sampleSpec (index : Nat) : PageSpec := ⟨⟨sampleDigest,4096,index⟩,0,17,sampleDigest,by decide⟩
def samplePage (index : Nat) : VerifiedPage := ⟨(sampleSpec index).key,List.replicate 17 0,64⟩
def sampleAmbient : Ambient := ⟨.ok (),true⟩
def sampleLease (call index generation : Nat) : PageLease := ⟨call,(sampleSpec index).key,generation,samplePage index⟩

def sharedLoad : List Action :=
  [.get sampleAmbient (sampleSpec 0) 0 (.ok ()),.get sampleAmbient (sampleSpec 0) 1 (.ok ()),
    .complete (sampleSpec 0).key 1 (.ok (samplePage 0)) ⟨17,5⟩,.invalidate (sampleSpec 0).key]

def sharedCache : Cache := (run (step defaultConfig) .empty sharedLoad).getD .empty
theorem sharedRun : run (step defaultConfig) .empty sharedLoad = some sharedCache := rfl

theorem sharedLoadLedger : sharedCache.inner.state.ledger = ⟨64,0,0,64,0,0,0,2⟩ ∧ LedgerExact sharedCache ∧
    WithinLimits defaultConfig sharedCache :=
  ⟨by decide,ledgerExactAndBounded defaultAccepted ⟨sharedLoad,sharedRun⟩⟩

end RunnelMoe.PageCache
