import Mathlib.Data.List.Dedup
import RunnelMoe.CacheRecency
import RunnelMoe.SimRecency

/-! The production cache and the simulator's LRU kernel side by side. Both keep the same
recency order, one over page keys and one over the pages of a trace. -/
namespace RunnelMoe.LruAgreement
open Words PageSpecs CacheLimits KeyedSum Results Runs Vectors Queues RecencyStacks PageCache Sim
open Std (ExtTreeMap)

structure Agree (spec : PageId → PageSpec) (c : Cache) (k : Kernel) : Prop where
  residents : ∀ key, (∃ e r, c.inner.state.entries[key]? = some e ∧ e.state = .resident r) ↔
    ∃ id, id ∈ k.residents ∧ (spec id).key = key
  residentBytes : c.inner.state.ledger.residentBytes = k.residentBytes
  hits : c.inner.metrics.hits = k.metrics.ordinaryDemandHits + k.metrics.usefulPrefetchHits
  misses : c.inner.metrics.misses = k.metrics.demandMisses
  admissions : c.inner.metrics.admissions = k.metrics.admissions
  evictions : c.inner.metrics.evictions = k.metrics.evictions
  readBytes : c.inner.metrics.physicalReadBytes = k.metrics.demandLoadBytes

theorem ordersAgree {spec : PageId → PageSpec} {catalog : PageCatalog} {capacityBytes : Nat} {r : Recency PageId}
    {c : Cache} {k : Kernel} {config : CacheConfig} (good : Good config c.inner.state c.leases)
    (stocked : Stocked catalog capacityBytes k)
    (production : Follows (fun id => (spec id).key) catalog.charge r c) (simulated : LruFollows r k)
    (fits : r.loaded ≤ maxWord) : Agree spec c k := by
  have shelf := production.shelf
  have resident (key : PageKey) (e : Entry) (found : c.inner.state.entries[key]? = some e) :
      (∃ r, e.state = .resident r) ∧ e.resident = e.allocationBytes := by
    obtain ⟨page,touch,state,-⟩ := shelf.idle key e found
    exact ⟨⟨_,state⟩,by rw [Entry.resident,state]⟩
  have counters : c.inner.metrics.counters = k.metrics.counters := by
    rw [production.counters,simulated.counters,Nat.min_eq_left fits]
    rfl
  have bytes : c.inner.state.ledger.residentBytes = k.residentBytes := by
    have ledger : c.inner.state.ledger = tally c.inner.state.entries := good.ledgered
    rw [ledger,tally,queuedTotal _ shelf.queued (fun key e found => (resident key e found).2.trans (chargedAt found).symm),
      stocked.bytes,chargeTotal,
      queuedTotal _ simulated.queued (fun id e found => (stocked.entries id e found).charge),List.map_map]
    refine congrArg List.sum (List.map_congr_left (fun id held => ?_))
    obtain ⟨e,found,-⟩ := (shelf.queued.members _).mp (List.mem_map_of_mem held)
    exact (chargedAt found).trans (shelf.weights id held e found)
  refine ⟨fun key => ?_,bytes,congrArg Counters.hits counters,congrArg Counters.misses counters,
    congrArg Counters.admissions counters,congrArg Counters.evictions counters,congrArg Counters.loaded counters⟩
  constructor
  · intro held
    obtain ⟨e,_,found,-⟩ := held
    obtain ⟨id,listed,same⟩ := List.mem_map.mp ((shelf.queued.members key).mpr ⟨e,found,trivial⟩)
    obtain ⟨entry,there,-⟩ := (simulated.queued.members id).mp listed
    exact ⟨id,ExtTreeMap.mem_iff_isSome_getElem?.mpr (by rw [there]; rfl),same⟩
  · intro held
    obtain ⟨id,member,rfl⟩ := held
    obtain ⟨entry,there⟩ := Option.isSome_iff_exists.mp (ExtTreeMap.mem_iff_isSome_getElem?.mp member)
    have listed := (simulated.queued.members id).mpr ⟨entry,there,trivial⟩
    obtain ⟨e,found,-⟩ := (shelf.queued.members _).mp (List.mem_map_of_mem listed)
    obtain ⟨⟨r,state⟩,-⟩ := resident _ e found
    exact ⟨e,r,found,state⟩

theorem productionMatchesKernel {config : CacheConfig} (valid : config.validate = .ok ()) {trace : ValidatedTrace}
    {start k : Kernel} {past rest : List TraceEvent} {spec : PageId → PageSpec} {c : Cache}
    (apart : ∀ a ∈ demandsOf past, ∀ b ∈ demandsOf past, (spec a).key = (spec b).key → a = b)
    (charges : ∀ id ∈ demandsOf past, (spec id).allocationBytes = .ok (trace.page id).chargeBytes)
    (lengths : ∀ id ∈ demandsOf past, (spec id).length = (trace.page id).logicalBytes)
    (fits : ∀ id ∈ demandsOf past, (trace.page id).chargeBytes ≤ config.pagePoolCapacity)
    (few : (demandsOf past).dedup.length ≤ config.maxEntries)
    (made : Kernel.new trace ⟨config.pagePoolCapacity,.lru⟩ = .ok start) (parts : trace.events = past ++ rest)
    (reached : past.foldlM (Kernel.event trace.catalog config.pagePoolCapacity) start = .ok k)
    (demands : Demands config spec (demandsOf past) c) : Agree spec c k := by
  obtain ⟨simulated,words⟩ := lruRecency fits made parts reached
  have clock : (demandsOf past).length ≤ maxWord := by
    rw [← words.touch]
    exact Nat.le_of_lt_succ words.clock
  have production := demandsFollow valid demands few (fun id => List.mem_dedup.mpr)
    (fun a left b right => apart a (List.mem_dedup.mp left) b (List.mem_dedup.mp right)) charges lengths clock
  have good := reachableGood (validateAccepts valid) (demandsReachable demands)
  exact ordersAgree good (reachedRunning made parts reached).sound.stocked production simulated
    ((congrArg Counters.loaded simulated.counters).symm.trans_le (Nat.le_of_lt_succ words.loads))

/-! Three pages in two slots, five times a miss and once a hit -/

def cycleSpec (id : PageId) : PageSpec := ⟨⟨sampleDigest,4096,id⟩,0,50,sampleDigest,by decide⟩

def fetch (id : PageId) (call : Nat) : List Action :=
  let page : VerifiedPage := ⟨(cycleSpec id).key,List.replicate 50 0,64⟩
  [.get sampleAmbient (cycleSpec id) call (.ok ()),.complete (cycleSpec id).key (call + 1) (.ok page) ⟨50,5⟩,
    .dropLease ⟨call,(cycleSpec id).key,call + 1,page⟩]

def fetched (c : Cache) (id : PageId) : Cache := (run (step pairConfig) c (fetch id c.inner.state.tick)).getD .empty

theorem fetchedDemanded {c : Cache} (id : PageId) (waiter : Nat)
    (answer : (get pairConfig sampleAmbient (cycleSpec id) c.inner.state.tick (.ok ()) c.inner).2 =
      .started (c.inner.state.tick + 1) waiter)
    (enabled : (run (step pairConfig) c (fetch id c.inner.state.tick)).isSome = true) :
    Demanded pairConfig (cycleSpec id) c (fetched c id) := by
  have read : (Positional.readExactAtObserved (List.replicate 50 0) 0 50 "page" none none [⟨none,.moved 50,none⟩]).1 =
      .returned (.ok (List.replicate 50 0)) 50 50 := rfl
  exact .miss answer read (runEnds enabled .empty)

def missed : Cache := fetched (fetched (fetched (fetched (fetched .empty 0) 1) 2) 0) 1

def reused : PageLease := ⟨5,(cycleSpec 0).key,4,⟨(cycleSpec 0).key,List.replicate 50 0,64⟩⟩

def reuse : List Action :=
  [.get sampleAmbient (cycleSpec 0) 5 (.ok ()),.markUse (cycleSpec 0).key 4,.dropLease reused]

def cycled : Cache := (run (step pairConfig) missed reuse).getD .empty

theorem cycleDemands : Demands pairConfig cycleSpec [0,1,2,0,1,0] cycled := by
  have one : Demands pairConfig cycleSpec [0] (fetched .empty 0) :=
    .next .none (fetchedDemanded 0 1 (by decide +kernel) (by decide +kernel))
  have two := one.next (fetchedDemanded 1 2 (by decide +kernel) (by decide +kernel))
  have three := two.next (fetchedDemanded 2 3 (by decide +kernel) (by decide +kernel))
  have four := three.next (fetchedDemanded 0 4 (by decide +kernel) (by decide +kernel))
  have five := four.next (fetchedDemanded 1 5 (by decide +kernel) (by decide +kernel))
  have answer : (get pairConfig sampleAmbient (cycleSpec 0) 5 (.ok ()) missed.inner).2 = .lease reused := by decide +kernel
  have enabled : (run (step pairConfig) missed reuse).isSome = true := by decide +kernel
  exact five.next (.hit answer (runEnds enabled .empty))

theorem cycleAgrees : cycled.inner.metrics.hits = 1 ∧ cycled.inner.metrics.evictions = 3 ∧
    Agree cycleSpec cycled (value _ cycleEnds) := by
  have demands : demandsOf cycle.events = [0,1,2,0,1,0] := by decide +kernel
  have charges : ∀ id ∈ demandsOf cycle.events, (cycleSpec id).allocationBytes = .ok (cycle.page id).chargeBytes := by
    decide +kernel
  have lengths : ∀ id ∈ demandsOf cycle.events, (cycleSpec id).length = (cycle.page id).logicalBytes := by decide +kernel
  have fits : ∀ id ∈ demandsOf cycle.events, (cycle.page id).chargeBytes ≤ pairConfig.pagePoolCapacity := by decide +kernel
  have few : (demandsOf cycle.events).dedup.length ≤ pairConfig.maxEntries := by decide +kernel
  refine ⟨by decide +kernel,by decide +kernel,?_⟩
  refine productionMatchesKernel (by decide : pairConfig.validate = .ok ()) (fun a _ b _ same => congrArg PageKey.index same)
    charges lengths fits few (valueOk cycleStarts) (List.append_nil _).symm (valueOk cycleEnds) ?_
  rw [demands]
  exact cycleDemands

end RunnelMoe.LruAgreement
