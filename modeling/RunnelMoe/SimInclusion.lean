import RunnelMoe.RecencyStacks
import RunnelMoe.SimBound
import RunnelMoe.SimLists

/-! Recency under pages of one charge. The resident pages of the LRU kernel are then the
most recent of all demanded pages, as many as fit in whole, so a larger capacity keeps
what a smaller one keeps and never loads more. -/
namespace RunnelMoe.Sim
open Words KeyedSum Results Vectors Queues PolicyState RecencyStacks
open Std (ExtTreeMap)

def demandsOf (events : List TraceEvent) : List PageId := events.filterMap TraceEvent.page?
def stackOf (events : List TraceEvent) : List PageId := (demandsOf events).foldl refreshed []

section Misses
variable {catalog : PageCatalog} {capacityBytes sequence request step bytes : Nat} {id : PageId} {policy : PolicyState}
  {k k' : Kernel}

theorem servedHits (served : Served catalog capacityBytes sequence request step id (k.demanded policy bytes) k')
    (present : id ∈ k.residents) :
    k'.metrics.demandMisses = k.metrics.demandMisses ∧ k'.metrics.demandLoadBytes = k.metrics.demandLoadBytes := by
  cases served with
  | hit | useful => exact ⟨rfl,rfl⟩
  | bypass absent => exact (absentOut absent present).elim
  | admitted absent => exact (absentOut absent present).elim

theorem servedMisses (served : Served catalog capacityBytes sequence request step id (k.demanded policy bytes) k')
    (absent : k.residents[id]? = none) :
    k'.metrics.demandMisses = k.metrics.demandMisses + 1 ∧
      k'.metrics.demandLoadBytes = k.metrics.demandLoadBytes + (catalog.page id).logicalBytes := by
  have gone : (k.demanded policy bytes).residents[id]? = none := absent
  cases served with
  | hit found =>
    rw [gone] at found
    contradiction
  | useful found =>
    rw [gone] at found
    contradiction
  | bypass => exact ⟨rfl,rfl⟩
  | @admitted victims =>
    obtain ⟨_,_,_,_,same⟩ := allMetrics ((k.demanded policy bytes).missed (catalog.page id).logicalBytes) victims
    constructor
    · show (((k.demanded policy bytes).missed (catalog.page id).logicalBytes).evictedAll victims).metrics.demandMisses = _
      rw [same]
      rfl
    · show (((k.demanded policy bytes).missed (catalog.page id).logicalBytes).evictedAll victims).metrics.demandLoadBytes = _
      rw [same]
      rfl

theorem servedTouch (served : Served catalog capacityBytes sequence request step id (k.demanded policy bytes) k') :
    k'.touch = k.touch + 1 := by
  cases served with
  | hit | useful | bypass => rfl
  | admitted => exact (allFrame ..).2.1

end Misses

structure LruAt (catalog : PageCatalog) (capacityBytes charge : Nat) (past : List TraceEvent) (k : Kernel) : Prop where
  policy : k.policy = .lru
  touched : Every k.residents (fun _ e => e.lastTouch ≤ k.touch)
  queued : Queued (fun _ => True) ResidentEntry.lastTouch k.residents (latest (capacityBytes / charge) (stackOf past))
  distinct : (stackOf past).Nodup
  charged : ∀ id ∈ stackOf past, catalog.charge id = charge
  misses : k.metrics.demandMisses = missCost (fun _ => 1) (capacityBytes / charge) [] (demandsOf past)
  loads : k.metrics.demandLoadBytes =
    missCost (fun id => (catalog.page id).logicalBytes) (capacityBytes / charge) [] (demandsOf past)

section Runs
variable {catalog : PageCatalog} {capacityBytes charge : Nat} {past : List TraceEvent} {k k' : Kernel} {id : PageId}
  {sequence request step : Nat}

theorem stackDemand (past : List TraceEvent) (sequence request step : Nat) (id : PageId) :
    demandsOf (past ++ [.demand sequence request step id]) = demandsOf past ++ [id] ∧
      stackOf (past ++ [.demand sequence request step id]) = refreshed (stackOf past) id := by
  have demands : demandsOf (past ++ [.demand sequence request step id]) = demandsOf past ++ [id] := by
    simp [demandsOf,TraceEvent.page?]
  refine ⟨demands,?_⟩
  rw [stackOf,demands,List.foldl_append]
  rfl

theorem stackSignal (past : List TraceEvent) (sequence request targetStep layer : Nat)
    (predictions : List ExpertPrediction) :
    demandsOf (past ++ [.routerSignal sequence request targetStep layer predictions]) = demandsOf past ∧
      stackOf (past ++ [.routerSignal sequence request targetStep layer predictions]) = stackOf past := by
  have demands : demandsOf (past ++ [.routerSignal sequence request targetStep layer predictions]) =
      demandsOf past := by simp [demandsOf,TraceEvent.page?]
  exact ⟨demands,by rw [stackOf,demands]; rfl⟩

theorem lruPlanned (stocked : Stocked catalog capacityBytes k) {pages : List PageId}
    (queued : Queued (fun _ => True) ResidentEntry.lastTouch k.residents pages) {planned : Option (List PageId)}
    (ok : PolicyState.lru.planDemandVictims catalog k.residents
      ⟨k.residentBytes,capacityBytes,catalog.page id,request,step⟩ = .ok planned) :
    planned = if capacityBytes < catalog.charge id then none
      else some (shed catalog.charge (capacityBytes - catalog.charge id) pages).1 := by
  refine planSheds stocked.entries queued rfl (fun _ => rfl) (fun a b v w here there before => ?_) stocked.bytes
    stocked.within ok
  have page := (stocked.entries a v here).page
  have page' := (stocked.entries b w there).page
  simp only [demandKey,PolicyState.segmentRank,PolicyState.activeScore,recency,page,page',Prod.Lex.toLex_lt_toLex,
    lt_irrefl,true_and,false_or] at before ⊢
  exact before

theorem lruHit (at_ : LruAt catalog capacityBytes charge past k) {e : ResidentEntry} (found : k.residents[id]? = some e)
    (same : k'.residents = PolicyState.lru.onHit (k.residents.insert id {e with prefetchedUnused := false}) id (k.touch + 1)) :
    Every k'.residents (fun _ e => e.lastTouch ≤ k.touch + 1) ∧
      Queued (fun _ => True) ResidentEntry.lastTouch k'.residents
        (latest (capacityBytes / charge) (refreshed (stackOf past) id)) := by
  have inside : id ∈ latest (capacityBytes / charge) (stackOf past) := (at_.queued.members id).mpr ⟨e,found,trivial⟩
  simp only [PolicyState.onHit,getInsertSame,PolicyState.protectedTarget,insertInsert] at same
  rw [same,latestHit at_.distinct inside]
  refine ⟨everyInsert (fun a w there => Nat.le_succ_of_le (at_.touched a w there)) (Nat.le_refl _),?_⟩
  exact queuedLast at_.queued id trivial (fun a w _ there _ => Nat.lt_succ_of_le (at_.touched a w there))

theorem lruAdmitted (catalogued : Catalogued catalog) {touch : Nat} {pages : List PageId}
    (touched : Every k.residents (fun _ e => e.lastTouch ≤ touch))
    (queued : Queued (fun _ => True) ResidentEntry.lastTouch k.residents pages) (absent : k.residents[id]? = none)
    (victims : List PageId) :
    Every ((k.evictedAll victims).inserted (catalog.page id) (touch + 1) false).residents
        (fun _ e => e.lastTouch ≤ touch + 1) ∧
      Queued (fun _ => True) ResidentEntry.lastTouch
        ((k.evictedAll victims).inserted (catalog.page id) (touch + 1) false).residents
        (pages.filter (· ∉ victims) ++ [id]) := by
  have lookup := allLookup k victims
  have old (a : PageId) (w : ResidentEntry) (found : (k.evictedAll victims).residents[a]? = some w) :
      w.lastTouch ≤ touch := by
    rw [lookup a] at found
    split at found
    · contradiction
    · exact touched a w found
  have outside : id ∉ pages.filter (· ∉ victims) := fun inside => by
    obtain ⟨e,found,-⟩ := (queued.members id).mp (List.mem_filter.mp inside).1
    rw [absent] at found
    contradiction
  unfold Kernel.inserted
  rw [catalogued.identity]
  refine ⟨everyInsert (fun a w found => Nat.le_succ_of_le (old a w found)) (Nat.le_refl _),?_⟩
  have moved := queuedLast (queuedWithout queued lookup) id (v := ⟨id,(catalog.page id).chargeBytes,
    (catalog.page id).logicalBytes,touch + 1,(k.evictedAll victims).policy.initialSegment,false⟩) trivial
    (fun a w _ found _ => Nat.lt_succ_of_le (old a w found))
  rwa [List.erase_of_not_mem outside] at moved

theorem lruMiss (catalogued : Catalogued catalog) (stocked : Stocked catalog capacityBytes k)
    (at_ : LruAt catalog capacityBytes charge past k) (absent : k.residents[id]? = none) (positive : 0 < charge)
    (uniform : catalog.charge id = charge)
    (served : Served catalog capacityBytes sequence request step id
      (k.demanded .lru (catalog.page id).logicalBytes) k') :
    Every k'.residents (fun _ e => e.lastTouch ≤ k.touch + 1) ∧
      Queued (fun _ => True) ResidentEntry.lastTouch k'.residents
        (latest (capacityBytes / charge) (refreshed (stackOf past) id)) := by
  have gone : (k.demanded .lru (catalog.page id).logicalBytes).residents[id]? = none := absent
  have outside : id ∉ latest (capacityBytes / charge) (stackOf past) := fun inside => by
    obtain ⟨e,found,-⟩ := (at_.queued.members id).mp inside
    rw [absent] at found
    contradiction
  have later : Every k.residents (fun _ e => e.lastTouch ≤ k.touch + 1) :=
    fun a w there => Nat.le_succ_of_le (at_.touched a w there)
  cases served with
  | hit found =>
    rw [gone] at found
    contradiction
  | useful found =>
    rw [gone] at found
    contradiction
  | bypass _ planned =>
    have plan := lruPlanned stocked at_.queued planned
    rw [uniform] at plan
    by_cases large : capacityBytes < charge
    · have none : capacityBytes / charge = 0 := Nat.div_eq_of_lt large
      have empty (xs : List PageId) : latest 0 xs = [] := by simp [latest]
      have queued := at_.queued
      rw [none,empty] at queued ⊢
      exact ⟨later,queued⟩
    · rw [if_neg large] at plan
      contradiction
  | @admitted victims _ planned _ =>
    have plan := lruPlanned stocked at_.queued planned
    rw [uniform] at plan
    by_cases large : capacityBytes < charge
    · rw [if_pos large] at plan
      contradiction
    rw [if_neg large] at plan
    have size : capacityBytes / charge = (capacityBytes - charge) / charge + 1 :=
      Nat.div_eq_sub_div positive (Nat.le_of_not_lt large)
    have charged (p) (member : p ∈ latest (capacityBytes / charge) (stackOf past)) : catalog.charge p = charge :=
      at_.charged p (List.drop_subset _ _ member)
    have kept : (latest (capacityBytes / charge) (stackOf past)).filter (· ∉ victims) =
        latest ((capacityBytes - charge) / charge) (latest (capacityBytes / charge) (stackOf past)) := by
      rw [Option.some.inj plan,shedRest _ _ (queuedNodup at_.queued),shedUniform positive charged]
    have after := lruAdmitted catalogued
      (k := (k.demanded .lru (catalog.page id).logicalBytes).missed (catalog.page id).logicalBytes)
      at_.touched at_.queued absent victims
    have moved : latest (capacityBytes / charge) (refreshed (stackOf past) id) =
        latest ((capacityBytes - charge) / charge) (latest (capacityBytes / charge) (stackOf past)) ++ [id] := by
      rw [size] at outside ⊢
      exact latestMiss outside
    rw [kept] at after
    rw [moved]
    exact after

theorem lruDemanded (catalogued : Catalogued catalog) (stocked : Stocked catalog capacityBytes k)
    (at_ : LruAt catalog capacityBytes charge past k) (positive : 0 < charge) (uniform : catalog.charge id = charge)
    (served : Served catalog capacityBytes sequence request step id
      (k.demanded .lru (catalog.page id).logicalBytes) k') :
    LruAt catalog capacityBytes charge (past ++ [.demand sequence request step id]) k' := by
  obtain ⟨demands,stack⟩ := stackDemand past sequence request step id
  have touch := servedTouch served
  have members := at_.queued.members id
  have spent (cost : PageId → Nat) : missCost cost (capacityBytes / charge) [] (demandsOf past ++ [id]) =
      missCost cost (capacityBytes / charge) [] (demandsOf past) +
        if id ∈ latest (capacityBytes / charge) (stackOf past) then 0 else cost id := missCostLast ..
  have charged : ∀ p ∈ refreshed (stackOf past) id, catalog.charge p = charge := by
    intro p member
    rcases refreshedMem member with old | new
    · exact at_.charged p old
    · rw [new,uniform]
  cases found : k.residents[id]? with
  | none =>
    obtain ⟨touched,queued⟩ := lruMiss catalogued stocked at_ found positive uniform served
    obtain ⟨misses,loads⟩ := servedMisses served found
    have outside : id ∉ latest (capacityBytes / charge) (stackOf past) := by
      rw [members,found]
      simp
    refine ⟨servedPolicy served,touch ▸ touched,stack ▸ queued,stack ▸ refreshedNodup at_.distinct id,stack ▸ charged,?_,?_⟩
    · rw [demands,spent,if_neg outside,misses,at_.misses]
    · rw [demands,spent,if_neg outside,loads,at_.loads]
  | some e =>
    obtain ⟨-,residents⟩ := hitOnce served found
    obtain ⟨touched,queued⟩ := lruHit at_ found residents
    have inside : id ∈ latest (capacityBytes / charge) (stackOf past) := members.mpr ⟨e,found,trivial⟩
    have present : id ∈ k.residents := by
      rw [ExtTreeMap.mem_iff_isSome_getElem?,found]
      rfl
    obtain ⟨misses,loads⟩ := servedHits served present
    refine ⟨servedPolicy served,touch ▸ touched,stack ▸ queued,stack ▸ refreshedNodup at_.distinct id,stack ▸ charged,?_,?_⟩
    · rw [demands,spent,if_pos inside,misses,at_.misses,Nat.add_zero]
    · rw [demands,spent,if_pos inside,loads,at_.loads,Nat.add_zero]

end Runs

section Capacities
variable {trace : ValidatedTrace} {capacityBytes charge : Nat} {start k : Kernel} {past rest : List TraceEvent}

theorem lruReached (uniform : ∀ page ∈ trace.pages, page.chargeBytes = charge)
    (made : Kernel.new trace ⟨capacityBytes,.lru⟩ = .ok start) (parts : trace.events = past ++ rest)
    (reached : past.foldlM (Kernel.event trace.catalog capacityBytes) start = .ok k) :
    LruAt trace.catalog capacityBytes charge past k := by
  refine reachedInvariant (LruAt trace.catalog capacityBytes charge) made ?_ ?_ parts reached
  · obtain ⟨ceiling,policy,-,made,rfl⟩ := newOk.mp made
    cases made
    have none : latest (capacityBytes / charge) (stackOf []) = [] := List.drop_nil
    refine ⟨rfl,everyEmpty _,?_,List.nodup_nil,nofun,rfl,rfl⟩
    rw [none]
    exact queuedEmpty
  · intro past event k k' next _ at_ sound ok stepped
    cases stepped with
    | @demand sequence request step id policy entered served =>
      rw [at_.policy] at entered
      cases entered
      have member := nextMember next
      have valid := demandedValid member
      have known := pageMember (demandKnown (List.mem_filterMap.mpr ⟨_,member,rfl⟩))
      have same : trace.catalog.charge id = charge := uniform _ known
      have positive : 0 < trace.catalog.charge id := Nat.lt_of_lt_of_le valid.positive valid.charged
      exact lruDemanded (traceCatalogued trace) sound.stocked at_ (same ▸ positive) same served
    | @signal sequence request targetStep layer predictions =>
      obtain ⟨demands,stack⟩ := stackSignal past sequence request targetStep layer predictions
      simp only [Kernel.event,Kernel.signal,at_.policy,PolicyState.routerConfig] at ok
      cases ok
      refine ⟨at_.policy,at_.touched,stack ▸ at_.queued,stack ▸ at_.distinct,stack ▸ at_.charged,?_,?_⟩
      · rw [demands]
        exact at_.misses
      · rw [demands]
        exact at_.loads

theorem lruFinished (uniform : ∀ page ∈ trace.pages, page.chargeBytes = charge) {result : SimulationResult}
    (ok : simulate trace ⟨capacityBytes,.lru⟩ = .ok result) :
    result.metrics.demandMisses = missCost (fun _ => 1) (capacityBytes / charge) [] (demandsOf trace.events) ∧
      result.metrics.demandLoadBytes =
        missCost (fun id => (trace.page id).logicalBytes) (capacityBytes / charge) [] (demandsOf trace.events) := by
  obtain ⟨start,last,made,ran,same,-⟩ := simulatedRun (by simp) ok
  obtain ⟨k,events,finished⟩ := bindOk.mp ran
  have whole := (List.append_nil trace.events).symm
  have at_ := lruReached uniform made whole events
  obtain ⟨_,_,_,_,rfl⟩ := endsValue (finishedSafe (reachedRunning made whole events)) finished
  rw [same]
  exact ⟨at_.misses,at_.loads⟩

variable {larger : Nat}

theorem lruInclusion (uniform : ∀ page ∈ trace.pages, page.chargeBytes = charge) (grows : capacityBytes ≤ larger) :
    (∀ start start' past rest k k', Kernel.new trace ⟨capacityBytes,.lru⟩ = .ok start →
      Kernel.new trace ⟨larger,.lru⟩ = .ok start' → trace.events = past ++ rest →
      past.foldlM (Kernel.event trace.catalog capacityBytes) start = .ok k →
      past.foldlM (Kernel.event trace.catalog larger) start' = .ok k' →
      (∀ id : PageId, id ∈ k.residents → id ∈ k'.residents) ∧
        k'.metrics.demandMisses ≤ k.metrics.demandMisses ∧ k'.metrics.demandLoadBytes ≤ k.metrics.demandLoadBytes) ∧
    ∀ result result', simulate trace ⟨capacityBytes,.lru⟩ = .ok result → simulate trace ⟨larger,.lru⟩ = .ok result' →
      result'.metrics.demandMisses ≤ result.metrics.demandMisses ∧
        result'.metrics.demandLoadBytes ≤ result.metrics.demandLoadBytes := by
  have slots : capacityBytes / charge ≤ larger / charge := Nat.div_le_div_right grows
  constructor
  · intro start start' past rest k k' made made' parts reached reached'
    have at_ := lruReached uniform made parts reached
    have at' := lruReached uniform made' parts reached'
    refine ⟨fun id resident => ?_,?_,?_⟩
    · obtain ⟨e,found⟩ := Option.isSome_iff_exists.mp (ExtTreeMap.mem_iff_isSome_getElem?.mp resident)
      have inside := latestMono slots ((at_.queued.members id).mpr ⟨e,found,trivial⟩)
      obtain ⟨e',found',-⟩ := (at'.queued.members id).mp inside
      rw [ExtTreeMap.mem_iff_isSome_getElem?,found']
      rfl
    · rw [at_.misses,at'.misses]
      exact missCostMono slots ..
    · rw [at_.loads,at'.loads]
      exact missCostMono slots ..
  · intro result result' ok ok'
    obtain ⟨misses,loads⟩ := lruFinished uniform ok
    obtain ⟨misses',loads'⟩ := lruFinished uniform ok'
    rw [misses,misses',loads,loads']
    exact ⟨missCostMono slots ..,missCostMono slots ..⟩

end Capacities

theorem cycleRuns : (simulate cycle ⟨128,.lru⟩).toOption.isSome := by decide +kernel

theorem cycleFits : (simulate cycle ⟨192,.lru⟩).toOption.isSome := by decide +kernel

theorem cycleStarts : (Kernel.new cycle ⟨128,.lru⟩).toOption.isSome := by decide +kernel

theorem cycleOpens : (Kernel.new cycle ⟨192,.lru⟩).toOption.isSome := by decide +kernel

theorem cycleEnds : (cycle.events.foldlM (Kernel.event cycle.catalog 128) (value _ cycleStarts)).toOption.isSome := by
  decide +kernel

theorem cycleCloses : (cycle.events.foldlM (Kernel.event cycle.catalog 192) (value _ cycleOpens)).toOption.isSome := by
  decide +kernel

theorem cycleIncluded :
    ((value _ cycleEnds).residents.size = 2 ∧
      (∀ id : PageId, id ∈ (value _ cycleEnds).residents → id ∈ (value _ cycleCloses).residents) ∧
        (value _ cycleCloses).metrics.demandMisses ≤ (value _ cycleEnds).metrics.demandMisses) ∧
      (value _ cycleFits).metrics.demandMisses ≤ (value _ cycleRuns).metrics.demandMisses ∧
        (value _ cycleFits).metrics.demandLoadBytes ≤ (value _ cycleRuns).metrics.demandLoadBytes := by
  have uniform : ∀ page ∈ cycle.pages, page.chargeBytes = 64 := by decide +kernel
  obtain ⟨reached,finished⟩ := lruInclusion uniform (by decide : 128 ≤ 192)
  have inside := reached _ _ cycle.events [] _ _ (valueOk cycleStarts) (valueOk cycleOpens) (List.append_nil _).symm
    (valueOk cycleEnds) (valueOk cycleCloses)
  exact ⟨⟨by decide +kernel,inside.1,inside.2.1⟩,finished _ _ (valueOk cycleRuns) (valueOk cycleFits)⟩

end RunnelMoe.Sim
