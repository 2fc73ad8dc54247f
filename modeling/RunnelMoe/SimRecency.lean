import RunnelMoe.SimInclusion

/-! The LRU kernel as a recency order over pages of any charge. After every event the
resident pages stand in the order of their last demands, and the counters are those of
the order alone, as long as every demanded page fits in the capacity. -/
namespace RunnelMoe.Sim
open Words KeyedSum Results Vectors Queues RecencyStacks
open Std (ExtTreeMap)

def PageCatalog.logical (catalog : PageCatalog) (id : PageId) : Nat := (catalog.page id).logicalBytes

def SimulationMetrics.counters (m : SimulationMetrics) : Counters :=
  ⟨m.ordinaryDemandHits + m.usefulPrefetchHits,m.demandMisses,m.admissions,m.evictions,m.demandLoadBytes⟩

structure LruFollows (r : Recency PageId) (k : Kernel) : Prop where
  policy : k.policy = .lru
  touched : Every k.residents (fun _ e => e.lastTouch ≤ k.touch)
  queued : Queued (fun _ => True) ResidentEntry.lastTouch k.residents r.order
  counters : k.metrics.counters = r.counters

section Demands
variable {catalog : PageCatalog} {capacityBytes sequence request step : Nat} {id : PageId} {k k' : Kernel}
  {r : Recency PageId} {victims : List PageId}

theorem allEvicted (distinct : victims.Nodup) (resident : ∀ page ∈ victims, page ∈ k.residents) :
    (k.evictedAll victims).metrics.evictions = k.metrics.evictions + victims.length := by
  induction victims generalizing k with
  | nil => rfl
  | cons page rest ih =>
    obtain ⟨fresh,distinct⟩ := List.nodup_cons.mp distinct
    have later (p) (member : p ∈ rest) : p ∈ (k.evicted page).residents := by
      have other : p ≠ page := fun same => fresh (same ▸ member)
      rw [evictedResidents,ExtTreeMap.mem_iff_isSome_getElem?,getEraseOther _ _ other]
      exact ExtTreeMap.mem_iff_isSome_getElem?.mp (resident p (List.mem_cons_of_mem _ member))
    have count := ih distinct later
    obtain ⟨e,found⟩ := Option.isSome_iff_exists.mp
      (ExtTreeMap.mem_iff_isSome_getElem?.mp (resident page List.mem_cons_self))
    have first : (k.evicted page).metrics.evictions = k.metrics.evictions + 1 := by rw [Kernel.evicted,found]; rfl
    rw [Kernel.evictedAll,List.foldl_cons,List.length_cons]
    unfold Kernel.evictedAll at count
    omega

theorem followsHit (follows : LruFollows r k) {e : ResidentEntry} (found : k.residents[id]? = some e)
    (served : Served catalog capacityBytes sequence request step id (k.demanded .lru (catalog.logical id)) k') :
    LruFollows (r.demand catalog.charge catalog.logical capacityBytes id) k' := by
  have inside : id ∈ r.order := (follows.queued.members id).mpr ⟨e,found,trivial⟩
  have touch := servedTouch served
  obtain ⟨-,residents⟩ := hitOnce served found
  simp only [PolicyState.onHit,getInsertSame,PolicyState.protectedTarget,insertInsert] at residents
  rw [Recency.demand,if_pos inside]
  have policy := servedPolicy served
  have touched : Every k'.residents (fun _ e => e.lastTouch ≤ k'.touch) := by
    rw [residents,touch]
    exact everyInsert (fun a w there => Nat.le_succ_of_le (follows.touched a w there)) (Nat.le_refl _)
  have queued : Queued (fun _ => True) ResidentEntry.lastTouch k'.residents (refreshed r.order id) := by
    rw [residents]
    exact queuedLast follows.queued id trivial (fun a w _ there _ => Nat.lt_succ_of_le (follows.touched a w there))
  have more := congrArg Counters.hit follows.counters
  cases served with
  | hit => exact ⟨policy,touched,queued,(congrArg (Counters.mk · _ _ _ _) (Nat.add_right_comm ..)).trans more⟩
  | useful => exact ⟨policy,touched,queued,more⟩
  | bypass absent => cases found.symm.trans absent
  | admitted absent => cases found.symm.trans absent

theorem followsMiss (catalogued : Catalogued catalog) (stocked : Stocked catalog capacityBytes k)
    (follows : LruFollows r k) (fits : catalog.charge id ≤ capacityBytes) (absent : k.residents[id]? = none)
    (served : Served catalog capacityBytes sequence request step id (k.demanded .lru (catalog.logical id)) k') :
    LruFollows (r.demand catalog.charge catalog.logical capacityBytes id) k' := by
  have outside : id ∉ r.order := fun inside => by
    obtain ⟨e,found,-⟩ := (follows.queued.members id).mp inside
    rw [absent] at found
    contradiction
  have policy := servedPolicy served
  have touch := servedTouch served
  rw [Recency.demand,if_neg outside]
  cases served with
  | hit found => cases absent.symm.trans found
  | useful found => cases absent.symm.trans found
  | bypass _ planned =>
    have plan := lruPlanned stocked follows.queued planned
    rw [if_neg (Nat.not_lt.mpr fits)] at plan
    contradiction
  | @admitted victims _ planned frees =>
    have plan := lruPlanned stocked follows.queued planned
    rw [if_neg (Nat.not_lt.mpr fits)] at plan
    have chosen : victims = (shed catalog.charge (capacityBytes - catalog.charge id) r.order).1 := Option.some.inj plan
    let missed := (k.demanded .lru (catalog.logical id)).missed (catalog.logical id)
    obtain ⟨touched,queued⟩ := lruAdmitted catalogued (k := missed) follows.touched follows.queued absent victims
    rw [chosen,shedRest _ _ (queuedNodup follows.queued),← chosen] at queued
    refine ⟨policy,touch ▸ touched,queued,?_⟩
    obtain ⟨_,_,_,_,same⟩ := allMetrics missed victims
    have count : (missed.evictedAll victims).metrics.evictions = k.metrics.evictions + victims.length :=
      allEvicted frees.distinct frees.resident
    have left : (missed.evictedAll victims).metrics.counters =
        {k.metrics.counters.missed victims.length (catalog.logical id) with admissions := k.metrics.counters.admissions} := by
      rw [Counters.missed,SimulationMetrics.counters,count,same]
      rfl
    have more := congrArg (fun c : Counters => {c with admissions := c.admissions + 1}) left
    exact more.trans (by rw [follows.counters,chosen]; rfl)

theorem demandWords (ok : k.demand catalog capacityBytes sequence request step id = .ok k') :
    k.touch + 1 < modulus ∧ (k.residents[id]? = none → k.metrics.demandLoadBytes + catalog.logical id < modulus) := by
  obtain ⟨policy,-,ok⟩ := bindOk.mp ok
  obtain ⟨metrics,counted,ok⟩ := bindOk.mp ok
  obtain ⟨k1,touched,ok⟩ := bindOk.mp ok
  obtain ⟨touch,added,same⟩ := bindOk.mp touched
  cases same
  refine ⟨(addOk.mp added).1,fun absent => ?_⟩
  simp only [absent] at ok
  obtain ⟨_,missed,-⟩ := bindOk.mp ok
  obtain ⟨_,-,missed⟩ := bindOk.mp missed
  obtain ⟨_,-,missed⟩ := bindOk.mp missed
  obtain ⟨_,loaded,-⟩ := bindOk.mp missed
  obtain ⟨_,-,counted⟩ := bindOk.mp counted
  obtain ⟨_,-,counted⟩ := bindOk.mp counted
  cases counted
  exact (addOk.mp loaded).1

end Demands

structure LruWords (demands : Nat) (k : Kernel) : Prop where
  touch : k.touch = demands
  clock : k.touch < modulus
  loads : k.metrics.demandLoadBytes < modulus

section Replays
variable {trace : ValidatedTrace} {capacityBytes : Nat} {start k k' : Kernel} {past rest : List TraceEvent}
  {sequence request step : Nat} {id : PageId}

theorem wordsDemand {demands : Nat} (words : LruWords demands k)
    (served : Served trace.catalog capacityBytes sequence request step id
      (k.demanded .lru (trace.catalog.logical id)) k')
    (ok : k.demand trace.catalog capacityBytes sequence request step id = .ok k') : LruWords (demands + 1) k' := by
  obtain ⟨clock,loads⟩ := demandWords ok
  have touch := servedTouch served
  refine ⟨by rw [touch,words.touch],by rw [touch]; exact clock,?_⟩
  cases found : k.residents[id]? with
  | none =>
    rw [(servedMisses served found).2]
    exact loads found
  | some e =>
    have present : id ∈ k.residents := by
      rw [ExtTreeMap.mem_iff_isSome_getElem?,found]
      rfl
    rw [(servedHits served present).2]
    exact words.loads

theorem lruRecency (fits : ∀ id ∈ demandsOf past, trace.catalog.charge id ≤ capacityBytes)
    (made : Kernel.new trace ⟨capacityBytes,.lru⟩ = .ok start) (parts : trace.events = past ++ rest)
    (reached : past.foldlM (Kernel.event trace.catalog capacityBytes) start = .ok k) :
    LruFollows (recencyAfter trace.catalog.charge trace.catalog.logical capacityBytes (demandsOf past)) k ∧
      LruWords (demandsOf past).length k := by
  refine reachedInvariant (fun past k => (∀ id ∈ demandsOf past, trace.catalog.charge id ≤ capacityBytes) →
    LruFollows (recencyAfter trace.catalog.charge trace.catalog.logical capacityBytes (demandsOf past)) k ∧
      LruWords (demandsOf past).length k) made ?_ ?_ parts reached fits
  · intro _
    obtain ⟨ceiling,policy,-,made,rfl⟩ := newOk.mp made
    cases made
    exact ⟨⟨rfl,everyEmpty _,queuedEmpty,rfl⟩,⟨rfl,by decide,by decide⟩⟩
  · intro past event k k' _ _ before sound ok stepped fits
    cases stepped with
    | @demand sequence request step id policy entered served =>
      obtain ⟨demands,-⟩ := stackDemand past sequence request step id
      rw [demands] at fits ⊢
      obtain ⟨follows,words⟩ := before (fun p member => fits p (List.mem_append_left _ member))
      rw [follows.policy] at entered
      cases entered
      rw [recencyLast,List.length_append]
      refine ⟨?_,wordsDemand words served ok⟩
      cases found : k.residents[id]? with
      | none =>
        have small := fits id (List.mem_append_right _ List.mem_cons_self)
        exact followsMiss (traceCatalogued trace) sound.stocked follows small found served
      | some e => exact followsHit follows found served
    | @signal sequence request targetStep layer predictions =>
      obtain ⟨demands,-⟩ := stackSignal past sequence request targetStep layer predictions
      rw [demands] at fits ⊢
      obtain ⟨follows,words⟩ := before fits
      simp only [Kernel.event,Kernel.signal,follows.policy,PolicyState.routerConfig] at ok
      cases ok
      exact ⟨⟨follows.policy,follows.touched,follows.queued,follows.counters⟩,⟨words.touch,words.clock,words.loads⟩⟩

end Replays

end RunnelMoe.Sim
