import RunnelMoe.SimBelady
import RunnelMoe.SimExact
import RunnelMoe.SimReplay

/-! No online replay loads less than the optimum. The resident pages that were demanded
since they were filled are the pages in use; a prefetched page that was not used yet
stands in the bank with its fill, so a replay becomes a schedule of demands only. -/
namespace RunnelMoe.Sim
open Words KeyedSum Results Vectors OfflinePaging
open Std (ExtTreeMap)

def usedPages (residents : Residents) : Finset PageId :=
  ((residents.toList.filter (fun row => !row.2.prefetchedUnused)).map Prod.fst).toFinset

def SimulationMetrics.loads (m : SimulationMetrics) : Nat := m.demandLoadBytes + m.prefetchLoadBytes

section Used
variable {catalog : PageCatalog} {capacityBytes : Nat} {residents after : Residents} {k : Kernel} {id : PageId}

theorem memUsed : id ∈ usedPages residents ↔ ∃ e, residents[id]? = some e ∧ e.prefetchedUnused = false := by
  simp only [usedPages,List.mem_toFinset,List.mem_map,List.mem_filter,Prod.exists,memToList]
  constructor
  · rintro ⟨page,e,⟨present,used⟩,rfl⟩
    exact ⟨e,present,by simpa using used⟩
  · rintro ⟨e,present,used⟩
    exact ⟨id,e,⟨present,by simpa using used⟩,rfl⟩

theorem usedCharges (stocked : Stocked catalog capacityBytes k) :
    ∑ page ∈ usedPages k.residents, (catalog.page page).chargeBytes ≤ capacityBytes := by
  have rows : (k.residents.toList.filter (fun row => !row.2.prefetchedUnused)).Sublist k.residents.toList :=
    List.filter_sublist
  have distinct := (keysNodup k.residents).sublist (rows.map Prod.fst)
  rw [usedPages,List.sum_toFinset _ distinct,List.map_map]
  refine le_trans ?_ stocked.within
  rw [stocked.bytes,chargeTotal,total]
  have same : (k.residents.toList.filter (fun row => !row.2.prefetchedUnused)).map
      ((fun page => (catalog.page page).chargeBytes) ∘ Prod.fst) =
      (k.residents.toList.filter (fun row => !row.2.prefetchedUnused)).map (fun row => row.2.chargeBytes) := by
    refine List.map_congr_left (fun row member => ?_)
    exact (stocked.entries row.1 row.2 (memToList.mp (rows.subset member))).charge.symm
  rw [same]
  exact (rows.map _).sum_le_sum (fun _ _ => Nat.zero_le _)

theorem sameUsed (same : SameStock residents after) : usedPages after = usedPages residents := by
  ext page
  have used (r : Residents) : page ∈ usedPages r ↔
      ∃ e, r[page]?.map ResidentEntry.stock = some e ∧ e.prefetchedUnused = false := by
    rw [memUsed]
    constructor
    · rintro ⟨e,present,used⟩
      exact ⟨e.stock,by rw [present]; rfl,used⟩
    · rintro ⟨e,present,used⟩
      obtain ⟨old,found,rfl⟩ := Option.map_eq_some_iff.mp present
      exact ⟨old,found,used⟩
  rw [used,used,same page]

theorem evictedUsed (k : Kernel) (victims : List PageId) :
    usedPages (k.evictedAll victims).residents ⊆ usedPages k.residents := by
  intro page member
  obtain ⟨e,present,used⟩ := memUsed.mp member
  rw [allLookup] at present
  split at present
  · contradiction
  · exact memUsed.mpr ⟨e,present,used⟩

theorem erasedUnused (residents : Residents) (id : PageId) :
    unusedBytesTotal (residents.erase id) ≤ unusedBytesTotal residents := by
  unfold unusedBytesTotal
  cases found : residents[id]? with
  | none => rw [totalAbsent _ found]
  | some e =>
    rw [totalSplit _ found]
    exact Nat.le_add_left _ _

theorem evictedUnused (k : Kernel) (victims : List PageId) :
    unusedBytesTotal (k.evictedAll victims).residents ≤ unusedBytesTotal k.residents := by
  induction victims generalizing k with
  | nil => exact Nat.le_refl _
  | cons page rest ih =>
    refine (ih (k.evicted page)).trans ?_
    rw [evictedResidents]
    exact erasedUnused k.residents page

theorem evictedLoads (k : Kernel) (victims : List PageId) : (k.evictedAll victims).metrics.loads = k.metrics.loads := by
  obtain ⟨_,_,_,_,same⟩ := allMetrics k victims
  rw [same]
  rfl

theorem insertedUsed {e : ResidentEntry} : usedPages (residents.insert id e) ⊆ insert id (usedPages residents) := by
  intro page member
  obtain ⟨old,present,used⟩ := memUsed.mp member
  rw [getInsert] at present
  split at present
  · rename_i here
    rw [here]
    exact Finset.mem_insert_self _ _
  · exact Finset.mem_insert_of_mem (memUsed.mpr ⟨old,present,used⟩)

theorem unusedOut {e : ResidentEntry} (present : residents[id]? = some e) (unused : e.prefetchedUnused = true) :
    id ∉ usedPages residents := by
  intro member
  obtain ⟨old,found,used⟩ := memUsed.mp member
  rw [present] at found
  cases found
  rw [unused] at used
  contradiction

theorem absentUsed (absent : residents[id]? = none) : id ∉ usedPages residents := by
  intro member
  obtain ⟨old,found,-⟩ := memUsed.mp member
  rw [absent] at found
  contradiction

end Used

structure Pays (before after : Kernel) (price : Nat) : Prop where
  covered : unusedBytesTotal after.residents + price + before.metrics.loads ≤
    unusedBytesTotal before.residents + after.metrics.loads

section Steps
variable {catalog : PageCatalog} {capacityBytes sequence request step : Nat} {id : PageId} {k k' : Kernel}

theorem servedUsed (catalogued : Catalogued catalog)
    (served : Served catalog capacityBytes sequence request step id k k') :
    usedPages k'.residents ⊆ insert id (usedPages k.residents) := by
  cases served with
  | hit present =>
    refine (sameUsed (hitSame k.policy k.residents id k.touch)).subset.trans ?_
    exact Finset.subset_insert _ _
  | @useful e present =>
    refine (sameUsed (hitSame k.policy (k.residents.insert id _) id k.touch)).subset.trans ?_
    exact insertedUsed
  | bypass => exact Finset.subset_insert _ _
  | @admitted victims =>
    refine insertedUsed.trans ?_
    rw [catalogued.identity]
    exact Finset.insert_subset_insert id (evictedUsed (k.missed (catalog.page id).logicalBytes) victims)

theorem servedPays (catalogued : Catalogued catalog) (entries : Every k.residents (EntrySound catalog))
    (served : Served catalog capacityBytes sequence request step id k k') :
    Pays k k' (if id ∈ usedPages k.residents then 0 else (catalog.page id).logicalBytes) := by
  constructor
  cases served with
  | hit present ordinary =>
    have bytes := sameUnusedBytes (hitSame k.policy k.residents id k.touch)
    rw [if_pos (memUsed.mpr ⟨_,present,ordinary⟩)]
    show unusedBytesTotal (k.policy.onHit k.residents id k.touch) + 0 + k.metrics.loads ≤ _ + k.metrics.loads
    rw [bytes]
    exact Nat.le_refl _
  | @useful e present unused =>
    have refreshed := sameUnusedBytes
      (hitSame k.policy (k.residents.insert id {e with prefetchedUnused := false}) id k.touch)
    have bytes := (usedTotals present unused).2.2
    have logical := (entries id e present).logical
    rw [if_neg (unusedOut present unused)]
    show unusedBytesTotal (k.policy.onHit (k.residents.insert id {e with prefetchedUnused := false}) id k.touch) +
      (catalog.page id).logicalBytes + k.metrics.loads ≤ _ + k.metrics.loads
    rw [refreshed]
    omega
  | bypass absent =>
    rw [if_neg (absentUsed absent)]
    show unusedBytesTotal k.residents + (catalog.page id).logicalBytes +
      (k.metrics.demandLoadBytes + k.metrics.prefetchLoadBytes) ≤ unusedBytesTotal k.residents +
        (k.metrics.demandLoadBytes + (catalog.page id).logicalBytes + k.metrics.prefetchLoadBytes)
    omega
  | @admitted victims absent =>
    rw [if_neg (absentUsed absent)]
    have unused := evictedUnused (k.missed (catalog.page id).logicalBytes) victims
    have loads := evictedLoads (k.missed (catalog.page id).logicalBytes) victims
    have gone : (((k.missed (catalog.page id).logicalBytes).evictedAll victims).residents)[(catalog.page id).id]? =
        none := by
      rw [catalogued.identity]
      exact evictedAbsent absent
    have inserted : unusedBytesTotal ((((k.missed (catalog.page id).logicalBytes).evictedAll victims).inserted
        (catalog.page id) k.touch false).residents) =
        unusedBytesTotal ((k.missed (catalog.page id).logicalBytes).evictedAll victims).residents := by
      rw [unusedBytesTotal,Kernel.inserted,totalInsert,totalAbsent _ gone]
      exact Nat.zero_add _
    have missed : (k.missed (catalog.page id).logicalBytes).metrics.loads =
        k.metrics.loads + (catalog.page id).logicalBytes := by
      show k.metrics.demandLoadBytes + _ + k.metrics.prefetchLoadBytes = k.metrics.demandLoadBytes + _ + _
      omega
    have stock : (k.missed (catalog.page id).logicalBytes).residents = k.residents := rfl
    show unusedBytesTotal ((((k.missed (catalog.page id).logicalBytes).evictedAll victims).inserted
      (catalog.page id) k.touch false).residents) + _ + _ ≤ _ +
      ((k.missed (catalog.page id).logicalBytes).evictedAll victims).metrics.loads
    rw [inserted,loads,missed]
    rw [stock] at unused
    omega

theorem prefetchedUsed (catalogued : Catalogued catalog) (k : Kernel) (pages : List PageId) :
    usedPages (k.prefetchedAll catalog pages).residents ⊆ usedPages k.residents := by
  induction pages generalizing k with
  | nil => exact Finset.Subset.refl _
  | cons id rest ih =>
    refine (ih (k.prefetched catalog id)).trans (fun page member => ?_)
    obtain ⟨e,present,used⟩ := memUsed.mp member
    rw [prefetchedResidents catalogued,getInsert] at present
    split at present
    · cases Option.some.inj present
      contradiction
    · exact memUsed.mpr ⟨e,present,used⟩

theorem prefetchedPays (catalogued : Catalogued catalog) (k : Kernel) (pages : List PageId) :
    Pays k (k.prefetchedAll catalog pages) 0 := by
  induction pages generalizing k with
  | nil => exact ⟨Nat.le_refl _⟩
  | cons id rest ih =>
    have later := (ih (k.prefetched catalog id)).covered
    have erased := erasedUnused k.residents id
    have bytes : unusedBytesTotal (k.prefetched catalog id).residents =
        (catalog.page id).logicalBytes + unusedBytesTotal (k.residents.erase id) := by
      rw [prefetchedResidents catalogued,unusedBytesTotal,totalInsert]
      rfl
    have loads : (k.prefetched catalog id).metrics.loads = k.metrics.loads + (catalog.page id).logicalBytes :=
      (Nat.add_assoc ..).symm
    constructor
    show unusedBytesTotal ((k.prefetched catalog id).prefetchedAll catalog rest).residents + 0 + k.metrics.loads ≤
      unusedBytesTotal k.residents + ((k.prefetched catalog id).prefetchedAll catalog rest).metrics.loads
    omega

theorem triedPays (catalogued : Catalogued catalog) {group : PrefetchGroup} {budget : PrefetchBudget}
    {out : Kernel × PrefetchBudget} (tried : Tried catalog capacityBytes group budget k out) :
    usedPages out.1.residents ⊆ usedPages k.residents ∧ Pays k out.1 0 := by
  cases tried with
  | redundant | dropped => exact ⟨Finset.Subset.refl _,⟨Nat.le_refl _⟩⟩
  | @admitted victims =>
    have offered : (k.offeredGroup catalog group.pageIds).metrics.loads = k.metrics.loads := rfl
    have stock : (k.offeredGroup catalog group.pageIds).residents = k.residents := rfl
    have unused := evictedUnused (k.offeredGroup catalog group.pageIds) victims
    have loads := evictedLoads (k.offeredGroup catalog group.pageIds) victims
    have filled := (prefetchedPays catalogued ((k.offeredGroup catalog group.pageIds).evictedAll victims)
      (absentPages k.residents group.pageIds)).covered
    refine ⟨(prefetchedUsed catalogued _ _).trans (evictedUsed (k.offeredGroup catalog group.pageIds) victims),⟨?_⟩⟩
    rw [stock] at unused
    rw [loads,offered] at filled
    exact filled.trans (Nat.add_le_add_right unused _)

theorem groupsPay (catalogued : Catalogued catalog) (groups : Groups catalog capacityBytes k k') :
    usedPages k'.residents ⊆ usedPages k.residents ∧ Pays k k' 0 := by
  induction groups with
  | recorded => exact ⟨Finset.Subset.refl _,⟨Nat.le_refl _⟩⟩
  | tried before tried ih =>
    obtain ⟨used,pays⟩ := triedPays catalogued tried
    have earlier := ih.2.covered
    have later := pays.covered
    exact ⟨used.trans ih.1,⟨by omega⟩⟩

end Steps

theorem runServes {trace : ValidatedTrace} {capacityBytes : Nat} {past events : List TraceEvent} {k k' : Kernel}
    (causal : Causal past events) (running : Running trace.catalog capacityBytes past events k)
    (ok : events.foldlM (Kernel.event trace.catalog capacityBytes) k = .ok k') :
    ∃ spent, Serves (trace.fits capacityBytes) trace.missCost (usedPages k.residents)
        (events.filterMap TraceEvent.page?) spent ∧
      spent + k.metrics.loads ≤ unusedBytesTotal k.residents + k'.metrics.loads := by
  have catalogued := traceCatalogued trace
  induction events generalizing past k with
  | nil =>
    cases foldNil.mp ok
    exact ⟨0,.done _,by omega⟩
  | cons event rest ih =>
    obtain ⟨next,one,later⟩ := foldCons.mp ok
    obtain ⟨after,stepped⟩ := endsValue (eventSafe catalogued causal running) one
    obtain ⟨spent,serves,bound⟩ := ih (causalStep causal) after later
    have fits : trace.fits capacityBytes (usedPages next.residents) := usedCharges after.sound.stocked
    cases stepped with
    | @demand sequence request step id policy entered served =>
      have used := servedUsed catalogued served
      have entries := running.sound.stocked.entries
      have pays := (servedPays (k := k.demanded (policy.observeDemand id) _) catalogued entries served).covered
      have same : (k.demanded (policy.observeDemand id) (trace.catalog.page id).logicalBytes).metrics.loads =
        k.metrics.loads := rfl
      have stock : (k.demanded (policy.observeDemand id) (trace.catalog.page id).logicalBytes).residents =
        k.residents := rfl
      rw [same,stock] at pays
      refine ⟨_,.demand (Finset.Subset.refl _) used fits serves,?_⟩
      unfold ValidatedTrace.missCost ValidatedTrace.page
      omega
    | signal recorded groups =>
      obtain ⟨used,pays⟩ := groupsPay catalogued groups
      have covered := pays.covered
      exact ⟨spent,servesMore serves used,by omega⟩

theorem simulatedServes {trace : ValidatedTrace} {config : SimulationConfig} {result : SimulationResult}
    (online : config.policy ≠ .belady) (ok : simulate trace config = .ok result) :
    ∃ spent ≤ result.metrics.totalPhysicalLoadBytes,
      Serves (trace.fits config.capacityBytes) trace.missCost ∅ trace.demands spent := by
  obtain ⟨start,last,made,ran,same,-⟩ := simulatedRun online ok
  obtain ⟨k,events,finished⟩ := bindOk.mp ran
  have running := newRunning made
  obtain ⟨spent,serves,bound⟩ := runServes (traceCausal trace) running events
  have whole := traceCausal trace
  rw [← List.append_nil trace.events] at running whole
  have after := endsValue (eventsSafe (traceCatalogued trace) whole running) events
  obtain ⟨_,_,_,_,rfl⟩ := endsValue (finishedSafe after) finished
  obtain ⟨ceiling,-,made⟩ := bindOk.mp made
  obtain ⟨policy,-,created⟩ := bindOk.mp made
  cases created
  have bank : unusedBytesTotal (∅ : Residents) = 0 := totalEmpty _
  have none : usedPages (∅ : Residents) = ∅ := by
    ext page
    simp [memUsed]
  refine ⟨spent,?_,none ▸ serves⟩
  rw [same]
  show spent ≤ k.metrics.loads
  have start : spent + 0 ≤ unusedBytesTotal (∅ : Residents) + k.metrics.loads := bound
  omega

theorem onlineAboveOptimum {trace : ValidatedTrace} {config : SimulationConfig} {result : SimulationResult}
    (word : config.capacityBytes < modulus) (online : config.policy ≠ .belady)
    (ok : simulate trace config = .ok result) :
    (∀ limits cost, exactVariableByteCost trace config.capacityBytes limits = .ok cost →
        cost ≤ result.metrics.totalPhysicalLoadBytes) ∧
      ∀ replay, simulateBelady trace config.capacityBytes = .ok replay →
        replay.metrics.demandLoadBytes ≤ result.metrics.totalPhysicalLoadBytes := by
  obtain ⟨spent,bound,serves⟩ := simulatedServes online ok
  constructor
  · intro limits cost exact_
    exact ((exactOptimal word exact_).2 serves).trans bound
  · intro replay replayed
    exact ((beladyOptimal replayed).2 serves).trans bound

/-! A prefetch on a prediction that does not come true -/

theorem strayedValid :
    (validateRecords ⟨headerKind,traceSchema,"strayed",2,3,64,prefetchModel⟩
      [⟨0,50,64,.expert 0 0 0⟩,⟨1,50,64,.expert 0 1 0⟩]
      [.demand 0 1 0 0,.routerSignal 1 1 1 0 [⟨1,600000⟩],.demand 2 1 1 0]
      defaultLimits).toOption.isSome := by decide +kernel

def strayed : ValidatedTrace := value _ strayedValid

theorem strayedRuns : (simulate strayed prefetching).toOption.isSome := by decide +kernel

theorem strayedSearched : (exactVariableByteCost strayed 192 defaultLimits).toOption.isSome := by decide +kernel

theorem strayedReplays : (simulateBelady strayed 192).toOption.isSome := by decide +kernel

theorem strayedAboveOptimum :
    (value _ strayedRuns).metrics.prefetchLoadBytes = 50 ∧
      value _ strayedSearched ≤ 100 ∧ (value _ strayedReplays).metrics.demandLoadBytes ≤ 100 := by
  have total : (value _ strayedRuns).metrics.totalPhysicalLoadBytes = 100 := by decide +kernel
  have above := onlineAboveOptimum (by decide) (by simp [prefetching]) (valueOk strayedRuns)
  rw [total] at above
  exact ⟨by decide +kernel,above.1 _ _ (valueOk strayedSearched),above.2 _ (valueOk strayedReplays)⟩

end RunnelMoe.Sim
