import RunnelMoe.SimBelady
import RunnelMoe.SimUnits

/-! Runs in another unit of size. When all sizes, the capacity and the prefetch limit
are multiplied alike, every step of the kernel takes the multiple of a state to the
multiple of the next one: the decisions are the same, and so are the counters of
events, while the counters of bytes are multiplied. -/
namespace RunnelMoe.Sim
open Words KeyedSum Results Vectors PolicyState
open Std (ExtTreeMap)

namespace SimulationMetrics

def scaled (scale : Nat) (m : SimulationMetrics) : SimulationMetrics :=
  {m with
    demandLogicalBytes := scale * m.demandLogicalBytes, ordinaryDemandHitBytes := scale * m.ordinaryDemandHitBytes,
    usefulPrefetchHitBytes := scale * m.usefulPrefetchHitBytes, demandMissBytes := scale * m.demandMissBytes,
    demandLoadBytes := scale * m.demandLoadBytes, prefetchOfferedBytes := scale * m.prefetchOfferedBytes,
    prefetchLoadBytes := scale * m.prefetchLoadBytes, prefetchUsefulBytes := scale * m.prefetchUsefulBytes,
    prefetchWastedBytes := scale * m.prefetchWastedBytes, prefetchRedundantBytes := scale * m.prefetchRedundantBytes,
    prefetchDroppedBytes := scale * m.prefetchDroppedBytes, evictedChargeBytes := scale * m.evictedChargeBytes,
    finalResidentChargeBytes := scale * m.finalResidentChargeBytes,
    peakResidentChargeBytes := scale * m.peakResidentChargeBytes,
    totalPhysicalLoadBytes := scale * m.totalPhysicalLoadBytes}

variable (scale : Nat) (m : SimulationMetrics) (bytes : Nat)

theorem demandedScaled : (m.scaled scale).demanded (scale * bytes) = (m.demanded bytes).scaled scale := by
  simp [scaled,demanded,Nat.mul_add]

theorem ordinaryHitScaled : (m.scaled scale).ordinaryHit (scale * bytes) = (m.ordinaryHit bytes).scaled scale := by
  simp [scaled,ordinaryHit,Nat.mul_add]

theorem usefulHitScaled : (m.scaled scale).usefulHit (scale * bytes) = (m.usefulHit bytes).scaled scale := by
  simp [scaled,usefulHit,Nat.mul_add]

theorem missedScaled : (m.scaled scale).missed (scale * bytes) = (m.missed bytes).scaled scale := by
  simp [scaled,missed,Nat.mul_add]

theorem bypassedScaled : (m.scaled scale).bypassed = m.bypassed.scaled scale := rfl

theorem evictedScaled : (m.scaled scale).evicted (scale * bytes) = (m.evicted bytes).scaled scale := by
  simp [scaled,evicted,Nat.mul_add]

theorem admittedScaled : (m.scaled scale).admitted (scale * bytes) = (m.admitted bytes).scaled scale := by
  simp [scaled,admitted,Nat.mul_max_mul_left]

theorem wastedScaled (e : ResidentEntry) : (m.scaled scale).wasted (e.scaled scale) = (m.wasted e).scaled scale := by
  cases unused : e.prefetchedUnused <;>
    simp [scaled,wasted,ResidentEntry.scaled,ResidentEntry.unused,ResidentEntry.unusedBytes,unused,Nat.mul_add]

end SimulationMetrics

def Kernel.scaled (scale target : Nat) (k : Kernel) : Kernel :=
  ⟨k.policy.rescaled scale target,scaledResidents scale k.residents,scale * k.residentBytes,k.metrics.scaled scale,
    k.decisions,k.touch⟩

section Kernels
variable {scale target : Nat} {catalog catalog' : PageCatalog}

theorem scaledMember (scale : Nat) (residents : Residents) (id : PageId) :
    id ∈ scaledResidents scale residents ↔ id ∈ residents := by
  rw [ExtTreeMap.mem_iff_isSome_getElem?,scaledFound,Option.isSome_map,ExtTreeMap.mem_iff_isSome_getElem?]

theorem absentScaled (residents : Residents) (pages : List PageId) :
    absentPages (scaledResidents scale residents) pages = absentPages residents pages := by
  simp only [absentPages,scaledMember]

theorem presentScaled (residents : Residents) (pages : List PageId) :
    presentPages (scaledResidents scale residents) pages = presentPages residents pages := by
  simp only [presentPages,scaledMember]

theorem rescaledSegment (scale target : Nat) (policy : PolicyState) :
    (policy.rescaled scale target).initialSegment = policy.initialSegment := by
  cases policy <;> rfl

theorem evictedScaled (k : Kernel) (page : PageId) :
    (k.scaled scale target).evicted page = (k.evicted page).scaled scale target := by
  have found : (k.scaled scale target).residents[page]? = k.residents[page]?.map (ResidentEntry.scaled scale) :=
    scaledFound scale k.residents page
  unfold Kernel.evicted
  rw [found]
  cases k.residents[page]? with
  | none => rfl
  | some e =>
    simp only [Option.map_some,Kernel.scaled,ResidentEntry.scaled,scaledErase,← Nat.mul_sub,
      ← SimulationMetrics.evictedScaled,← SimulationMetrics.wastedScaled]

theorem allScaled (k : Kernel) (victims : List PageId) :
    (k.scaled scale target).evictedAll victims = (k.evictedAll victims).scaled scale target := by
  induction victims generalizing k with
  | nil => rfl
  | cons page rest ih =>
    show ((k.scaled scale target).evicted page).evictedAll rest = _
    rw [evictedScaled]
    exact ih (k.evicted page)

theorem insertedScaled (k : Kernel) (page : PageDescriptor) (touch : Nat) (unused : Bool) :
    (k.scaled scale target).inserted (page.scaled scale) touch unused =
      (k.inserted page touch unused).scaled scale target := by
  unfold Kernel.inserted
  simp only [Kernel.scaled,PageDescriptor.scaled,rescaledSegment,scaledInsert,Nat.mul_add,
    ← SimulationMetrics.admittedScaled]
  rfl

theorem demandedScaled (k : Kernel) (policy : PolicyState) (bytes : Nat) :
    (k.scaled scale target).demanded (policy.rescaled scale target) (scale * bytes) =
      (k.demanded policy bytes).scaled scale target := by
  unfold Kernel.demanded
  simp only [Kernel.scaled,← SimulationMetrics.demandedScaled]

variable (enlarged : Enlarged scale catalog catalog')
include enlarged

theorem logicalScaled (pages : List PageId) : logicalTotal catalog' pages = scale * logicalTotal catalog pages := by
  unfold logicalTotal
  simp only [enlarged.page,PageDescriptor.scaled]
  exact List.sum_map_mul_left ..

theorem prefetchedScaled (k : Kernel) (id : PageId) :
    (k.scaled scale target).prefetched catalog' id = (k.prefetched catalog id).scaled scale target := by
  have placed : (({k with touch := k.touch + 1} : Kernel).scaled scale target).inserted ((catalog.page id).scaled scale)
      (k.touch + 1) true = _ := insertedScaled ..
  unfold Kernel.prefetched
  rw [enlarged.page]
  refine (congrArg (fun inserted : Kernel => {inserted with metrics := {inserted.metrics with
    prefetchAdmitted := inserted.metrics.prefetchAdmitted + 1,
    prefetchLoadBytes := inserted.metrics.prefetchLoadBytes + scale * (catalog.page id).logicalBytes}}) placed).trans ?_
  simp only [Kernel.scaled,SimulationMetrics.scaled,Nat.mul_add]

theorem prefetchedAllScaled (k : Kernel) (pages : List PageId) :
    (k.scaled scale target).prefetchedAll catalog' pages = (k.prefetchedAll catalog pages).scaled scale target := by
  induction pages generalizing k with
  | nil => rfl
  | cons id rest ih =>
    show ((k.scaled scale target).prefetched catalog' id).prefetchedAll catalog' rest = _
    rw [prefetchedScaled enlarged]
    exact ih (k.prefetched catalog id)

theorem offeredScaled (k : Kernel) (pages : List PageId) :
    (k.scaled scale target).offeredGroup catalog' pages = (k.offeredGroup catalog pages).scaled scale target := by
  unfold Kernel.offeredGroup
  simp only [Kernel.scaled,SimulationMetrics.scaled,SimulationMetrics.offered,SimulationMetrics.redundant,
    logicalScaled enlarged,scaledMember,Nat.mul_add]

theorem droppedScaled (k : Kernel) (pages : List PageId) :
    (k.scaled scale target).droppedGroup catalog' pages = (k.droppedGroup catalog pages).scaled scale target := by
  unfold Kernel.droppedGroup
  rw [offeredScaled enlarged]
  simp only [Kernel.scaled,SimulationMetrics.scaled,SimulationMetrics.dropped,logicalScaled enlarged,absentScaled,Nat.mul_add]

end Kernels

section Demands
variable {scale target : Nat} {catalog catalog' : PageCatalog} {capacityBytes sequence request step : Nat} {id : PageId}
  {k after after' : Kernel} {policy : PolicyState}

variable (positive : 0 < scale) (enlarged : Enlarged scale catalog catalog')
include positive enlarged

theorem plansScaled (policy : PolicyState)
    {residents : Residents} {residentBytes : Nat} (within : residentBytes ≤ capacityBytes) {planned planned' : Option (List PageId)}
    (ok : policy.planDemandVictims catalog residents ⟨residentBytes,capacityBytes,catalog.page id,request,step⟩ = .ok planned)
    (ok' : (policy.rescaled scale target).planDemandVictims catalog' (scaledResidents scale residents)
      ⟨scale * residentBytes,scale * capacityBytes,catalog'.page id,request,step⟩ = .ok planned') : planned' = planned := by
  have exact_ := endsValue (planDemandExact policy within) ok
  have exact' := endsValue (planDemandExact _ (Nat.mul_le_mul_left scale within)) ok'
  rw [exact_,exact',enlarged.page,demandScaled positive enlarged]

theorem servedScaled (stocked : Stocked catalog capacityBytes k) (charge : 0 < (catalog.page id).chargeBytes)
    (targets : Retargets scale target policy)
    (served : Served catalog capacityBytes sequence request step id
      (k.demanded policy (catalog.page id).logicalBytes) after)
    (served' : Served catalog' (scale * capacityBytes) sequence request step id
      ((k.demanded policy (catalog.page id).logicalBytes).scaled scale target) after') :
    after' = after.scaled scale target := by
  have logical : (catalog'.page id).logicalBytes = scale * (catalog.page id).logicalBytes := by
    rw [enlarged.page]
    rfl
  have found : ((k.demanded policy (catalog.page id).logicalBytes).scaled scale target).residents[id]? =
      k.residents[id]?.map (ResidentEntry.scaled scale) := scaledFound scale k.residents id
  cases served with
  | @hit e present ordinary =>
    have present : k.residents[id]? = some e := present
    rw [present] at found
    cases served' with
    | @hit e' present' _ =>
      have touched := hitScaled positive targets (k.touch + 1) present
        (by rw [(stocked.entries id e present).charge]; exact charge)
      rw [logical]
      unfold Kernel.onHit Kernel.hashEvent
      simp only [Kernel.scaled,Kernel.demanded,SimulationMetrics.ordinaryHitScaled,touched]
    | @useful e' present' unused =>
      rw [found] at present'
      cases Option.some.inj present'
      exact absurd (ordinary.symm.trans unused) (by decide)
    | bypass absent | admitted absent =>
      rw [found] at absent
      contradiction
  | @useful e present unused =>
    have present : k.residents[id]? = some e := present
    rw [present] at found
    cases served' with
    | @hit e' present' ordinary =>
      rw [found] at present'
      cases Option.some.inj present'
      exact absurd (ordinary.symm.trans unused) (by decide)
    | @useful e' present' _ =>
      rw [found] at present'
      cases Option.some.inj present'
      have touched := hitScaled positive targets (k.touch + 1)
        (getInsertSame k.residents id {e with prefetchedUnused := false})
        (by show 0 < e.chargeBytes; rw [(stocked.entries id e present).charge]; exact charge)
      rw [scaledInsert] at touched
      rw [logical]
      unfold Kernel.onHit Kernel.hashEvent
      simp only [Kernel.scaled,Kernel.demanded,SimulationMetrics.usefulHitScaled,← touched]
      rfl
    | bypass absent | admitted absent =>
      rw [found] at absent
      contradiction
  | bypass absent planned =>
    have absent : k.residents[id]? = none := absent
    rw [absent] at found
    cases served' with
    | hit present' | useful present' =>
      rw [found] at present'
      contradiction
    | bypass =>
      rw [logical]
      unfold Kernel.hashEvent
      simp only [Kernel.scaled,Kernel.demanded,SimulationMetrics.missedScaled,SimulationMetrics.bypassedScaled]
    | admitted _ planned' => exact absurd (plansScaled positive enlarged policy stocked.within planned planned') (by simp)
  | @admitted victims absent planned _ =>
    have absent : k.residents[id]? = none := absent
    rw [absent] at found
    cases served' with
    | hit present' | useful present' =>
      rw [found] at present'
      contradiction
    | bypass _ planned' => exact absurd (plansScaled positive enlarged policy stocked.within planned planned') (by simp)
    | @admitted victims' _ planned' _ =>
      cases Option.some.inj (plansScaled positive enlarged policy stocked.within planned planned')
      have missed : ((k.demanded policy (catalog.page id).logicalBytes).scaled scale target).missed
          (catalog'.page id).logicalBytes =
          ((k.demanded policy (catalog.page id).logicalBytes).missed (catalog.page id).logicalBytes).scaled scale target := by
        rw [logical]
        unfold Kernel.missed
        simp only [Kernel.scaled,SimulationMetrics.missedScaled]
      rw [missed,allScaled,enlarged.page]
      exact congrArg (fun k : Kernel => k.hashEvent sequence .demandMissAdmit (some id) victims) (insertedScaled ..)

end Demands

def RouterPolicyConfig.scaled (scale : Nat) (config : RouterPolicyConfig) : RouterPolicyConfig :=
  {config with maxPrefetchBytesPerSignal := scale * config.maxPrefetchBytesPerSignal}

section Policies
variable {scale target request step targetStep layer : Nat} {predictions : List ExpertPrediction}

theorem rescaledEntered (policy : PolicyState) :
    (policy.rescaled scale target).enterDemandStep request step =
      (policy.enterDemandStep request step).map (PolicyState.rescaled scale target) := by
  cases policy with
  | noCache | lru | slru | tinyLfu => rfl
  | router state =>
    have entered := enterAdorned (fun _ => target) (RouterPolicyConfig.scaled scale) id id state request step
    simp only [PolicyState.rescaled,PolicyState.enterDemandStep,mapBind]
    refine (congrArg (· >>= _) entered).trans ?_
    rw [bindMap]
    rfl

theorem rescaledObserved (policy : PolicyState) (id : PageId) :
    (policy.rescaled scale target).observeDemand id = (policy.observeDemand id).rescaled scale target := by
  cases policy <;> rfl

theorem rescaledRecorded (policy : PolicyState) :
    (policy.rescaled scale target).recordSignal request targetStep layer predictions =
      (policy.recordSignal request targetStep layer predictions).map (PolicyState.rescaled scale target) := by
  unfold PolicyState.recordSignal
  split
  · rfl
  cases policy with
  | noCache | lru | slru | tinyLfu => rfl
  | router state =>
    have recorded := recordAdorned (fun _ => target) (RouterPolicyConfig.scaled scale) id state request targetStep layer
      predictions
    simp only [PolicyState.rescaled,mapBind]
    refine (congrArg (· >>= _) recorded).trans ?_
    rw [bindMap]
    rfl

theorem rescaledConfig (policy : PolicyState) :
    (policy.rescaled scale target).routerConfig = policy.routerConfig.map (RouterPolicyConfig.scaled scale) := by
  cases policy <;> rfl

theorem rescaledEnabled (policy : PolicyState) :
    (policy.rescaled scale target).prefetchEnabled = policy.prefetchEnabled := by
  cases policy <;> rfl

theorem rescaledMetadata (policy : PolicyState) :
    (policy.rescaled scale target).finishMetadata = policy.finishMetadata := by
  cases policy <;> rfl

end Policies

def PrefetchBudget.scaled (scale : Nat) (budget : PrefetchBudget) : PrefetchBudget :=
  {budget with remainingBytes := scale * budget.remainingBytes}

section Signals
variable {scale target : Nat} {catalog catalog' : PageCatalog} {capacityBytes : Nat} {group : PrefetchGroup}
  {budget : PrefetchBudget} {k : Kernel} {out out' : Kernel × PrefetchBudget}

variable (positive : 0 < scale) (enlarged : Enlarged scale catalog catalog')
include positive enlarged

theorem prefetchPlansScaled (policy : PolicyState)
    {residents : Residents} {residentBytes request targetStep score : Nat} {absent : List PageId}
    (within : residentBytes ≤ capacityBytes) {planned planned' : Option (List PageId)}
    (ok : policy.planPrefetchVictims catalog residents
      ⟨residentBytes,capacityBytes,absent,request,targetStep,score⟩ = .ok planned)
    (ok' : (policy.rescaled scale target).planPrefetchVictims catalog' (scaledResidents scale residents)
      ⟨scale * residentBytes,scale * capacityBytes,absent,request,targetStep,score⟩ = .ok planned') :
    planned' = planned := by
  have exact_ := endsValue (planPrefetchExact policy within) ok
  have exact' := endsValue (planPrefetchExact _ (Nat.mul_le_mul_left scale within)) ok'
  rw [exact_,exact',prefetchScaled positive enlarged]

theorem refusedScaled {tag tag' : DecisionTag} (refused : Refused catalog capacityBytes group budget k tag)
    (refused' : Refused catalog' (scale * capacityBytes) group (budget.scaled scale) (k.scaled scale target) tag') :
    tag' = tag := by
  have absent : absentPages (k.scaled scale target).residents group.pageIds = absentPages k.residents group.pageIds :=
    absentScaled ..
  cases refused with
  | pageLimit pages =>
    cases refused' with
    | pageLimit => rfl
    | byteLimit pages' | admission pages' =>
      rw [absent] at pages'
      exact absurd pages (Nat.not_lt.mpr pages')
  | byteLimit pages bytes =>
    cases refused' with
    | pageLimit pages' =>
      rw [absent] at pages'
      exact absurd pages' (Nat.not_lt.mpr pages)
    | byteLimit => rfl
    | admission _ bytes' =>
      rw [absent,logicalScaled enlarged] at bytes'
      exact absurd bytes (Nat.not_lt.mpr (Nat.le_of_mul_le_mul_left bytes' positive))
  | admission pages bytes planned =>
    cases refused' with
    | pageLimit pages' =>
      rw [absent] at pages'
      exact absurd pages' (Nat.not_lt.mpr pages)
    | byteLimit _ bytes' =>
      rw [absent,logicalScaled enlarged] at bytes'
      exact absurd bytes' (Nat.not_lt.mpr (Nat.mul_le_mul_left scale bytes))
    | admission => rfl

theorem triedScaled (within : k.residentBytes ≤ capacityBytes) (tried : Tried catalog capacityBytes group budget k out)
    (tried' : Tried catalog' (scale * capacityBytes) group (budget.scaled scale) (k.scaled scale target) out') :
    out' = (out.1.scaled scale target,out.2.scaled scale) := by
  have absent : absentPages (k.scaled scale target).residents group.pageIds = absentPages k.residents group.pageIds :=
    absentScaled ..
  have present : presentPages (k.scaled scale target).residents group.pageIds = presentPages k.residents group.pageIds :=
    presentScaled ..
  cases tried with
  | redundant none =>
    cases tried' with
    | redundant =>
      rw [offeredScaled enlarged,present]
      rfl
    | dropped some_ | admitted some_ =>
      rw [absent] at some_
      exact absurd none some_
  | dropped some_ refused =>
    cases tried' with
    | redundant none =>
      rw [absent] at none
      exact absurd none some_
    | dropped _ refused' =>
      cases refusedScaled positive enlarged refused refused'
      rw [droppedScaled enlarged,present,absent]
      rfl
    | admitted _ pages' bytes' planned' =>
      rw [absent] at pages' bytes' planned'
      rw [logicalScaled enlarged] at bytes'
      cases refused with
      | pageLimit pages => exact absurd pages (Nat.not_lt.mpr pages')
      | byteLimit _ bytes => exact absurd bytes (Nat.not_lt.mpr (Nat.le_of_mul_le_mul_left bytes' positive))
      | admission _ _ planned =>
        exact absurd (prefetchPlansScaled positive enlarged k.policy within planned planned') (by simp)
  | @admitted victims some_ pages bytes planned frees =>
    cases tried' with
    | redundant none =>
      rw [absent] at none
      exact absurd none some_
    | dropped _ refused' =>
      cases refused' with
      | pageLimit pages' =>
        rw [absent] at pages'
        exact absurd pages' (Nat.not_lt.mpr pages)
      | byteLimit _ bytes' =>
        rw [absent,logicalScaled enlarged] at bytes'
        exact absurd bytes' (Nat.not_lt.mpr (Nat.mul_le_mul_left scale bytes))
      | admission _ _ planned' =>
        rw [absent] at planned'
        exact absurd (prefetchPlansScaled positive enlarged k.policy within planned planned') (by simp)
    | @admitted victims' _ _ _ planned' _ =>
      rw [absent] at planned'
      cases Option.some.inj (prefetchPlansScaled positive enlarged k.policy within planned planned')
      rw [offeredScaled enlarged,allScaled,absent,present,prefetchedAllScaled enlarged,logicalScaled enlarged]
      simp only [PrefetchBudget.scaled,← Nat.mul_sub]
      rfl

variable {sequence request targetStep layer : Nat} {predictions : List ExpertPrediction} {after after' : Kernel}

theorem expertsScaled (catalogued : Catalogued catalog)
    (catalogued' : Catalogued catalog') (sound : Sound catalog capacityBytes 0 0 k)
    (sound' : Sound catalog' (scale * capacityBytes) 0 0 (k.scaled scale target))
    (ok : predictions.foldlM (Kernel.prefetchExpert catalog capacityBytes sequence request targetStep layer) (k,budget) =
      .ok out)
    (ok' : predictions.foldlM (Kernel.prefetchExpert catalog' (scale * capacityBytes) sequence request targetStep layer)
      (k.scaled scale target,budget.scaled scale) = .ok out') :
    out'.1 = out.1.scaled scale target := by
  refine (foldTogether (fun s s' : Kernel × PrefetchBudget => Sound catalog capacityBytes 0 0 s.1 ∧
      Sound catalog' (scale * capacityBytes) 0 0 s'.1 ∧ s' = (s.1.scaled scale target,s.2.scaled scale)) ok ok'
    ⟨sound,sound',rfl⟩ ?_).2.2 ▸ rfl
  intro prediction _ s _ next next' related stepped stepped'
  obtain ⟨sound,sound',rfl⟩ := related
  unfold Kernel.prefetchExpert at stepped stepped'
  have pages : (s.2.scaled scale).remainingPages = s.2.remainingPages := rfl
  rw [pages,enlarged.group] at stepped'
  split at stepped
  · rename_i none
    rw [if_pos none] at stepped'
    cases stepped
    cases stepped'
    exact ⟨sound,sound',rfl⟩
  · rename_i some_
    rw [if_neg some_] at stepped'
    have distinct := catalogued.groups layer prediction.expert
    obtain ⟨tried,after⟩ := endsValue (groupTried catalogued distinct sound) stepped
    obtain ⟨tried',after'⟩ := endsValue (groupTried catalogued' distinct sound') stepped'
    exact ⟨after,after',triedScaled positive enlarged sound.stocked.within tried tried'⟩

theorem signalScaled (catalogued : Catalogued catalog)
    (catalogued' : Catalogued catalog') (sound : Sound catalog capacityBytes 0 0 k)
    (sound' : Sound catalog' (scale * capacityBytes) 0 0 (k.scaled scale target))
    (ok : k.signal catalog capacityBytes sequence request targetStep layer predictions = .ok after)
    (ok' : (k.scaled scale target).signal catalog' (scale * capacityBytes) sequence request targetStep layer predictions =
      .ok after') :
    after' = after.scaled scale target := by
  have config : (k.scaled scale target).policy.routerConfig = k.policy.routerConfig.map (RouterPolicyConfig.scaled scale) :=
    rescaledConfig k.policy
  unfold Kernel.signal at ok ok'
  rw [config] at ok'
  cases configured : k.policy.routerConfig with
  | none =>
    rw [configured] at ok ok'
    cases ok
    cases ok'
    rfl
  | some settings =>
    rw [configured] at ok ok'
    have selected : Kernel.selectPredictions (settings.scaled scale) predictions =
        Kernel.selectPredictions settings predictions := rfl
    simp only [Option.map_some,selected] at ok ok'
    split at ok
    · rename_i none
      rw [if_pos none] at ok'
      cases ok
      cases ok'
      rfl
    rename_i some_
    rw [if_neg some_] at ok'
    obtain ⟨policy,recorded,ok⟩ := bindOk.mp ok
    obtain ⟨policy',recorded',ok'⟩ := bindOk.mp ok'
    have same : policy' = policy.rescaled scale target := by
      have image : (k.scaled scale target).policy.recordSignal request targetStep layer
          (Kernel.selectPredictions settings predictions) = _ := rescaledRecorded k.policy
      rw [recorded'] at image
      rw [recorded] at image
      exact Except.ok.inj image
    subst same
    rw [rescaledEnabled] at ok'
    split at ok
    · rename_i disabled
      rw [if_pos disabled] at ok'
      cases ok
      cases ok'
      rfl
    rename_i enabled
    rw [if_neg enabled] at ok'
    obtain ⟨out,fold,last⟩ := bindOk.mp ok
    obtain ⟨out',fold',last'⟩ := bindOk.mp ok'
    cases last
    cases last'
    exact expertsScaled (k := {k with policy := policy}) positive enlarged catalogued catalogued'
      (recordedSound sound policy) (recordedSound sound' _) fold fold'

end Signals

section Traces
variable {scale : Nat} {trace trace' : ValidatedTrace}

theorem catalogEnlarged (pages : trace'.pages = trace.pages.map (PageDescriptor.scaled scale)) :
    Enlarged scale trace.catalog trace'.catalog := by
  obtain ⟨scan,scanned,same⟩ := bindOk.mp trace.pagesValid
  obtain ⟨scan',scanned',same'⟩ := bindOk.mp trace'.pagesValid
  rw [pages] at scanned'
  cases pagesScanned (PageDescriptor.scaled scale) (fun _ => ⟨rfl,rfl⟩) scanned scanned'
  obtain ⟨index,groups⟩ := Prod.mk.inj (Except.ok.inj (same'.symm.trans same))
  constructor
  · intro id
    simp only [PageCatalog.page,ValidatedTrace.catalog,index,pages]
    have unknown : (PageDescriptor.unknown id).scaled scale = .unknown id := rfl
    cases trace.pageIndex[id]? with
    | none => exact unknown.symm
    | some i =>
      simp only [List.getD_eq_getElem?_getD,List.getElem?_map]
      cases trace.pages[i]? with
      | none => exact unknown.symm
      | some page => rfl
  · intro layer expert
    simp only [PageCatalog.groupPages,ValidatedTrace.catalog,groups]

end Traces

section Finish
variable {scale target : Nat} {k done done' : Kernel}

theorem wastedAll {entries : List ResidentEntry} (ok : entries.foldlM Kernel.accountWastedPrefetch k = .ok done) :
    done = {k with metrics := entries.foldl SimulationMetrics.wasted k.metrics} := by
  induction entries generalizing k with
  | nil => exact foldNil.mp ok
  | cons e rest ih =>
    obtain ⟨next,first,later⟩ := foldCons.mp ok
    cases endsValue (wastedAccounted k e) first
    exact ih later

theorem wastedAllScaled (m : SimulationMetrics) (entries : List ResidentEntry) :
    (entries.map (ResidentEntry.scaled scale)).foldl SimulationMetrics.wasted (m.scaled scale) =
      (entries.foldl SimulationMetrics.wasted m).scaled scale := by
  induction entries generalizing m with
  | nil => rfl
  | cons e rest ih =>
    rw [List.map_cons,List.foldl_cons,List.foldl_cons,SimulationMetrics.wastedScaled]
    exact ih (m.wasted e)

theorem balancedScaled {m : SimulationMetrics} (balanced : Balanced m 0 0 0 0) : Balanced (m.scaled scale) 0 0 0 0 := by
  constructor
  · exact balanced.accesses
  · simp only [SimulationMetrics.scaled,← Nat.mul_add,balanced.accessBytes]
  · exact congrArg (scale * ·) balanced.fills
  · exact balanced.offered
  · simp only [SimulationMetrics.scaled,← Nat.mul_add]
    exact congrArg (scale * ·) balanced.offeredBytes
  · exact balanced.admitted
  · simp only [SimulationMetrics.scaled,← Nat.mul_add]
    exact congrArg (scale * ·) balanced.admittedBytes

theorem closedScaled {m next : SimulationMetrics} (ok : m.finish = .ok next) :
    Safe (· = next.scaled scale) (m.scaled scale).finish := by
  refine endsMono (finishSafe (balancedScaled (metricsBalanced ok))) (fun _ same => ?_)
  cases metricsFinished ok
  rw [same]
  simp only [SimulationMetrics.scaled,Nat.mul_add]

theorem finishScaled (ok : k.finish = .ok done) (ok' : (k.scaled scale target).finish = .ok done') :
    done' = done.scaled scale target := by
  obtain ⟨used,wasted,ok⟩ := bindOk.mp ok
  obtain ⟨used',wasted',ok'⟩ := bindOk.mp ok'
  have unused : (residentValues (k.scaled scale target).residents).filter ResidentEntry.prefetchedUnused =
      ((residentValues k.residents).filter ResidentEntry.prefetchedUnused).map (ResidentEntry.scaled scale) := by
    rw [show (k.scaled scale target).residents = scaledResidents scale k.residents from rfl,scaledValues,List.filter_map]
    rfl
  rw [unused] at wasted'
  cases wastedAll wasted
  cases wastedAll wasted'
  obtain ⟨metadata,finished,ok⟩ := bindOk.mp ok
  obtain ⟨metadata',finished',ok'⟩ := bindOk.mp ok'
  have same : metadata' = metadata :=
    Except.ok.inj (finished'.symm.trans ((rescaledMetadata k.policy).trans finished))
  subst same
  obtain ⟨metrics,closed,last⟩ := bindOk.mp ok
  obtain ⟨metrics',closed',last'⟩ := bindOk.mp ok'
  cases last
  cases last'
  cases metricsFinished closed
  cases metricsFinished closed'
  have counted : List.foldl SimulationMetrics.wasted (k.scaled scale target).metrics
      (((residentValues k.residents).filter ResidentEntry.prefetchedUnused).map (ResidentEntry.scaled scale)) = _ :=
    wastedAllScaled k.metrics _
  simp only [counted]
  simp only [Kernel.scaled,SimulationMetrics.scaled,Nat.mul_add]

end Finish

def PolicySpec.scaled (scale : Nat) : PolicySpec → PolicySpec
  | .routerAdmit config => .routerAdmit (config.scaled scale)
  | .routerPrefetch config => .routerPrefetch (config.scaled scale)
  | spec => spec

def SimulationConfig.scaled (scale : Nat) (config : SimulationConfig) : SimulationConfig :=
  ⟨scale * config.capacityBytes,config.policy.scaled scale⟩

section Runs
variable {scale target : Nat} {trace trace' : ValidatedTrace} {config : SimulationConfig} {start k k' : Kernel}
  {past rest : List TraceEvent}

theorem fractionScaled (positive : 0 < scale) {capacityBytes fraction own : Nat}
    (ok : fractionTarget capacityBytes fraction = .ok own) :
    ∃ target, fractionTarget (scale * capacityBytes) fraction = .ok target ∧ Scales scale own target := by
  obtain ⟨below,rfl⟩ := fractionOk.mp ok
  exact ⟨_,fractionOk.mpr ⟨below,rfl⟩,scalesFraction positive capacityBytes fraction⟩

theorem routerNewScaled (positive : 0 < scale) {settings : RouterPolicyConfig} {prefetch : Bool} {capacityBytes limit : Nat}
    {state : RouterState} (ok : RouterState.new settings prefetch capacityBytes limit = .ok state) :
    ∃ target, RouterState.new (settings.scaled scale) prefetch (scale * capacityBytes) limit =
      .ok {state with protectedTarget := target, config := state.config.scaled scale} ∧
        Scales scale state.protectedTarget target := by
  obtain ⟨valid,rfl⟩ := routerNewOk.mp ok
  have accepted : (settings.scaled scale).Accepted := ⟨valid.score,valid.experts,valid.pages,valid.fraction⟩
  exact ⟨_,routerNewOk.mpr ⟨accepted,rfl⟩,scalesFraction positive capacityBytes settings.protectedFractionPpm⟩

theorem policyNewScaled (positive : 0 < scale) {spec : PolicySpec} {capacityBytes limit : Nat} {policy : PolicyState}
    (ok : PolicyState.new spec capacityBytes limit = .ok policy) :
    ∃ target, PolicyState.new (spec.scaled scale) (scale * capacityBytes) limit = .ok (policy.rescaled scale target) ∧
      Retargets scale target policy := by
  cases spec with
  | noCache | lru =>
    cases ok
    exact ⟨0,rfl,nofun⟩
  | slru fraction =>
    obtain ⟨own,divided,last⟩ := bindOk.mp ok
    cases last
    obtain ⟨target,divided',scales⟩ := fractionScaled positive divided
    refine ⟨target,bindOk.mpr ⟨target,divided',rfl⟩,fun _ same => ?_⟩
    cases Option.some.inj same
    exact scales
  | tinyLfu settings =>
    obtain ⟨tiny,-,last⟩ := bindOk.mp ok
    cases last
    exact ⟨0,ok,nofun⟩
  | routerAdmit settings | routerPrefetch settings =>
    obtain ⟨state,settled,last⟩ := bindOk.mp ok
    cases last
    obtain ⟨target,settled',scales⟩ := routerNewScaled positive settled
    refine ⟨target,bindOk.mpr ⟨_,settled',rfl⟩,fun _ same => ?_⟩
    cases Option.some.inj same
    exact scales
  | belady => contradiction

theorem newScaled (positive : 0 < scale) (events : trace'.events = trace.events)
    (made : Kernel.new trace config = .ok start) :
    ∃ target, Kernel.new trace' (config.scaled scale) = .ok (start.scaled scale target) ∧
      Retargets scale target start.policy := by
  obtain ⟨limit,policy,limited,created,rfl⟩ := newOk.mp made
  have limited' : routerMetadataLimit trace'.events (config.policy.scaled scale) = .ok limit := by
    rw [events,← limited]
    cases config.policy <;> rfl
  obtain ⟨target,created',targets⟩ := policyNewScaled positive created
  refine ⟨target,newOk.mpr ⟨limit,_,limited',created',?_⟩,targets⟩
  simp [Kernel.fresh,Kernel.scaled,scaledResidents,SimulationMetrics.scaled,SimulationMetrics.zero]

theorem reachedScaled (positive : 0 < scale) (pages : trace'.pages = trace.pages.map (PageDescriptor.scaled scale))
    (events : trace'.events = trace.events) (made : Kernel.new trace config = .ok start)
    (made' : Kernel.new trace' (config.scaled scale) = .ok (start.scaled scale target))
    (targets : Retargets scale target start.policy) (parts : trace.events = past ++ rest)
    (reached : past.foldlM (Kernel.event trace.catalog config.capacityBytes) start = .ok k)
    (reached' : past.foldlM (Kernel.event trace'.catalog (scale * config.capacityBytes)) (start.scaled scale target) = .ok k') :
    k' = k.scaled scale target := by
  have enlarged := catalogEnlarged pages
  induction past using List.reverseRecOn generalizing rest k k' with
  | nil =>
    cases foldNil.mp reached
    cases foldNil.mp reached'
    rfl
  | append_singleton past event ih =>
    rw [List.append_assoc,List.singleton_append] at parts
    have parts' := events.trans parts
    rw [List.foldlM_append] at reached reached'
    obtain ⟨middle,before,last⟩ := bindOk.mp reached
    obtain ⟨_,stepped,done⟩ := foldCons.mp last
    cases foldNil.mp done
    obtain ⟨middle',before',last'⟩ := bindOk.mp reached'
    obtain ⟨_,stepped',done'⟩ := foldCons.mp last'
    cases foldNil.mp done'
    cases ih parts before before'
    have sound := (reachedRunning made parts before).sound
    have sound' := (reachedRunning made' parts' before').sound
    cases event with
    | demand sequence request step id =>
      have member : .demand sequence request step id ∈ trace.events := by
        rw [parts]
        exact List.mem_append_right _ List.mem_cons_self
      have valid := demandedValid member
      have targets : Retargets scale target middle.policy := by
        intro own same
        rw [settingsTarget (reachedSettings made parts before)] at same
        exact targets own same
      cases reachedStepped made parts before stepped with
      | @demand _ _ _ _ policy entered served =>
        cases reachedStepped made' parts' before' stepped' with
        | @demand _ _ _ _ policy' entered' served' =>
          have same : policy' = policy.rescaled scale target := by
            refine Except.ok.inj (entered'.symm.trans ((rescaledEntered middle.policy).trans ?_))
            rw [entered]
            rfl
          have observed : Retargets scale target (policy.observeDemand id) := by
            intro own same
            rw [settingsTarget (observedSettings entered id)] at same
            exact targets own same
          rw [same,rescaledObserved,enlarged.page id] at served'
          have counted : (middle.scaled scale target).demanded ((policy.observeDemand id).rescaled scale target)
              ((trace.catalog.page id).scaled scale).logicalBytes = _ := demandedScaled ..
          rw [counted] at served'
          exact servedScaled positive enlarged sound.stocked (Nat.lt_of_lt_of_le valid.positive valid.charged) observed
            served served'
    | routerSignal sequence request targetStep layer predictions =>
      exact signalScaled positive enlarged (traceCatalogued trace) (traceCatalogued trace') sound sound' stepped stepped'

end Runs

def BeladyState.scaled (scale : Nat) (s : BeladyState) : BeladyState :=
  {s with residentCharge := scale * s.residentCharge, metrics := s.metrics.scaled scale}

section Offline
variable {scale : Nat} {s after : BeladyState} {page logicalBytes charge slotCapacity capacityBytes victim : Nat}

theorem replayAdmitted (ok : s.admitPage page charge = .ok after) :
    Safe (· = after.scaled scale) ((s.scaled scale).admitPage page (scale * charge)) := by
  obtain ⟨residentCharge,summed,ok⟩ := bindOk.mp ok
  obtain ⟨metrics,counted,last⟩ := bindOk.mp ok
  cases last
  cases (addOk.mp summed).2
  cases endsValue (admissionSafe ..) counted
  refine endsBind (addSafe ..) (fun _ same => ?_)
  subst same
  refine endsBind (admissionSafe ..) (fun _ same => ?_)
  subst same
  show (_ : BeladyState) = _
  simp only [BeladyState.scaled,← Nat.mul_add,SimulationMetrics.admittedScaled]

theorem replayBypassed (ok : s.bypass = .ok after) : Safe (· = after.scaled scale) (s.scaled scale).bypass := by
  obtain ⟨metrics,counted,last⟩ := bindOk.mp ok
  cases last
  cases endsValue (bypassSafe ..) counted
  refine endsBind (bypassSafe ..) (fun _ same => ?_)
  subst same
  exact rfl

theorem replayEvicted (ok : s.evict victim charge = .ok after) :
    Safe (· = after.scaled scale) ((s.scaled scale).evict victim (scale * charge)) := by
  unfold BeladyState.evict at ok ⊢
  split at ok
  · contradiction
  rename_i left taken
  obtain ⟨below,rfl⟩ := checkedSubSome.mp taken
  obtain ⟨metrics,counted,last⟩ := bindOk.mp ok
  cases last
  cases endsValue (evictionSafe ..) counted
  rw [show checkedSub (s.scaled scale).residentCharge (scale * charge) = some (scale * (s.residentCharge - charge)) from
    checkedSubSome.mpr ⟨Nat.mul_le_mul_left scale below,Nat.mul_sub ..⟩]
  refine endsBind (evictionSafe ..) (fun _ same => ?_)
  subst same
  show (_ : BeladyState) = _
  simp only [BeladyState.scaled,SimulationMetrics.evictedScaled]

theorem replayMissed (ok : s.miss page charge slotCapacity = .ok after) :
    Safe (· = after.scaled scale) ((s.scaled scale).miss page (scale * charge) slotCapacity) := by
  have logged {next : BeladyState} (action : BeladyAction) (victim : Option PageId) {x : Except SimError BeladyState}
      (safe : Safe (· = next.scaled scale) x) :
      Safe (· = (next.updateDecision page action victim).scaled scale) (do
        let s ← x
        .ok (s.updateDecision page action victim)) := by
    refine endsBind safe (fun _ same => ?_)
    subst same
    exact rfl
  unfold BeladyState.miss at ok ⊢
  by_cases empty : slotCapacity = 0
  · rw [if_pos empty] at ok ⊢
    obtain ⟨next,one,last⟩ := bindOk.mp ok
    cases last
    exact logged .bypass none (replayBypassed one)
  rw [if_neg empty] at ok ⊢
  by_cases free : s.residents.card < slotCapacity
  · rw [if_pos free] at ok
    rw [if_pos (show (s.scaled scale).residents.card < slotCapacity from free)]
    obtain ⟨next,one,last⟩ := bindOk.mp ok
    cases last
    exact logged .admission none (replayAdmitted one)
  rw [if_neg free] at ok
  rw [if_neg (show ¬(s.scaled scale).residents.card < slotCapacity from free)]
  by_cases self : farthestVictim s.residents page s.future = page
  · simp only [if_pos self] at ok
    simp only [if_pos (show farthestVictim (s.scaled scale).residents page (s.scaled scale).future = page from self)]
    obtain ⟨next,one,last⟩ := bindOk.mp ok
    cases last
    exact logged .bypass none (replayBypassed one)
  · simp only [if_neg self] at ok
    simp only [if_neg (show ¬farthestVictim (s.scaled scale).residents page (s.scaled scale).future = page from self)]
    obtain ⟨removed,one,ok⟩ := bindOk.mp ok
    obtain ⟨next,two,last⟩ := bindOk.mp ok
    cases last
    refine endsBind (replayEvicted one) (fun _ same => ?_)
    subst same
    exact logged .admission _ (replayAdmitted two)

theorem replayServed (ok : s.serve page logicalBytes charge slotCapacity = .ok after) :
    Safe (· = after.scaled scale) ((s.scaled scale).serve page (scale * logicalBytes) (scale * charge) slotCapacity) := by
  unfold BeladyState.serve at ok ⊢
  by_cases present : page ∈ s.residents
  · rw [if_pos present] at ok
    rw [if_pos (show page ∈ (s.scaled scale).residents from present)]
    obtain ⟨metrics,counted,last⟩ := bindOk.mp ok
    cases last
    cases endsValue (ordinarySafe ..) counted
    refine endsBind (ordinarySafe ..) (fun _ same => ?_)
    subst same
    show (_ : BeladyState) = _
    simp only [BeladyState.scaled,BeladyState.updateDecision,SimulationMetrics.ordinaryHitScaled]
  · rw [if_neg present] at ok
    rw [if_neg (show page ∉ (s.scaled scale).residents from present)]
    obtain ⟨metrics,counted,ok⟩ := bindOk.mp ok
    cases endsValue (missSafe ..) counted
    refine endsBind (missSafe ..) (fun _ same => ?_)
    subst same
    rw [show (s.scaled scale).metrics.missed (scale * logicalBytes) = (s.metrics.missed logicalBytes).scaled scale from
      SimulationMetrics.missedScaled ..]
    exact replayMissed ok

variable {trace trace' : ValidatedTrace}

theorem replayDemanded (enlarged : Enlarged scale trace.catalog trace'.catalog)
    (ok : beladyDemand trace capacityBytes charge slotCapacity s page = .ok after) :
    Safe (· = after.scaled scale)
      (beladyDemand trace' (scale * capacityBytes) (scale * charge) slotCapacity (s.scaled scale) page) := by
  have logical : (trace'.page page).logicalBytes = scale * (trace.page page).logicalBytes :=
    congrArg PageDescriptor.logicalBytes (enlarged.page page)
  obtain ⟨future,popped,ok⟩ := bindOk.mp ok
  obtain ⟨metrics,counted,ok⟩ := bindOk.mp ok
  obtain ⟨middle,served,ok⟩ := bindOk.mp ok
  obtain ⟨_,within,ok⟩ := bindOk.mp ok
  obtain ⟨ordinal,advanced,last⟩ := bindOk.mp ok
  cases last
  cases (addOk.mp advanced).2
  cases endsValue (demandSafe ..) counted
  unfold beladyDemand
  have pops : Safe (· = future) (popCurrentDemand (s.scaled scale).future page) := by
    rw [show popCurrentDemand (s.scaled scale).future page = .ok future from popped]
    exact rfl
  refine endsBind pops (fun _ same => ?_)
  subst same
  refine endsBind (demandSafe ..) (fun _ same => ?_)
  subst same
  rw [logical,show (s.scaled scale).metrics.demanded (scale * (trace.page page).logicalBytes) =
    (s.metrics.demanded (trace.page page).logicalBytes).scaled scale from SimulationMetrics.demandedScaled ..]
  have serves : Safe (· = middle.scaled scale) _ := replayServed served
  refine endsBind serves (fun _ same => ?_)
  subst same
  refine endsBind (requireSafe _ (Nat.mul_le_mul_left scale (requireOk.mp within))) (fun _ _ => ?_)
  refine endsBind (addSafe ..) (fun _ same => ?_)
  subst same
  exact rfl

theorem replayDemands (enlarged : Enlarged scale trace.catalog trace'.catalog) {demands : List PageId}
    (ok : demands.foldlM (beladyDemand trace capacityBytes charge slotCapacity) s = .ok after) :
    Safe (· = after.scaled scale)
      (demands.foldlM (beladyDemand trace' (scale * capacityBytes) (scale * charge) slotCapacity) (s.scaled scale)) := by
  induction demands generalizing s with
  | nil =>
    cases foldNil.mp ok
    exact rfl
  | cons page rest ih =>
    obtain ⟨next,one,later⟩ := foldCons.mp ok
    rw [List.foldlM_cons]
    refine endsBind (replayDemanded enlarged one) (fun _ same => ?_)
    subst same
    exact ih later

theorem uniformScaled {first : PageDescriptor} {pages : List PageDescriptor}
    (ok : pages.foldlM (uniformPage first) () = .ok ()) :
    (pages.map (PageDescriptor.scaled scale)).foldlM (uniformPage (first.scaled scale)) () = .ok () := by
  refine (checksAll (fun _ _ => Iff.rfl)).mpr (fun page member => ?_)
  obtain ⟨own,listed,rfl⟩ := List.mem_map.mp member
  obtain ⟨charge,cost⟩ := uniformPages ok own listed
  simp [uniformPage,PageDescriptor.scaled,charge,cost]

theorem geometryScaled (positive : 0 < scale) {pages : List PageDescriptor} {geometry : Nat × Nat} (some_ : pages ≠ [])
    (ok : uniformGeometry pages = .ok geometry) :
    uniformGeometry (pages.map (PageDescriptor.scaled scale)) = .ok (scale * geometry.1,scale * geometry.2) := by
  cases pages with
  | nil => contradiction
  | cons first rest =>
    obtain ⟨charged,ok⟩ := guardOk.mp ok
    obtain ⟨_,uniform,last⟩ := bindOk.mp ok
    cases last
    have charged' : (first.scaled scale).chargeBytes ≠ 0 :=
      Nat.ne_of_gt (Nat.mul_pos positive (Nat.pos_of_ne_zero charged))
    exact guardOk.mpr ⟨charged',bindOk.mpr ⟨(),uniformScaled uniform,rfl⟩⟩

theorem replayScaled (positive : 0 < scale) (pages : trace'.pages = trace.pages.map (PageDescriptor.scaled scale))
    (events : trace'.events = trace.events) {replay : BeladyReplay} (ok : simulateBelady trace capacityBytes = .ok replay) :
    Safe (fun replay' => replay'.decisions = replay.decisions ∧ replay'.metrics = replay.metrics.scaled scale)
      (simulateBelady trace' (scale * capacityBytes)) := by
  obtain ⟨geometry,uniform,ok⟩ := bindOk.mp ok
  obtain ⟨s,replayed,ok⟩ := bindOk.mp ok
  obtain ⟨metrics,closed,last⟩ := bindOk.mp ok
  cases last
  have demands : trace'.demands = trace.demands := congrArg (List.filterMap TraceEvent.page?) events
  -- Without pages the charge is one in every unit, but nothing is demanded either.
  have finished {x : Except SimError BeladyState} (safe : Safe (· = s.scaled scale) x) :
      Safe (fun replay' : BeladyReplay => replay'.decisions = s.decisions ∧ replay'.metrics = metrics.scaled scale) (do
        let s ← x
        let metrics ← ({s.metrics with finalResidentChargeBytes := s.residentCharge}).finish
        .ok ⟨metrics,s.decisions,true⟩) := by
    refine endsBind safe (fun _ same => ?_)
    subst same
    exact endsBind (closedScaled closed) (fun _ same => ⟨rfl,same⟩)
  unfold simulateBelady
  rw [pages,demands]
  by_cases empty : trace.pages = []
  · have none : trace.demands = [] := List.eq_nil_iff_forall_not_mem.mpr (fun page member => by
      have known := demandKnown member
      rw [empty] at known
      exact Nat.not_lt_zero _ known)
    rw [empty,none]
    rw [none] at replayed
    cases foldNil.mp replayed
    exact @finished (.ok _) rfl
  · have uniform' := geometryScaled positive empty uniform
    rw [uniform']
    have slots : min (scale * capacityBytes / (scale * geometry.1)) (trace.pages.map (PageDescriptor.scaled scale)).length =
        min (capacityBytes / geometry.1) trace.pages.length := by
      rw [Nat.mul_div_mul_left _ _ positive,List.length_map]
    refine finished ?_
    show Safe _ (trace.demands.foldlM (beladyDemand trace' (scale * capacityBytes) (scale * geometry.1)
      (min (scale * capacityBytes / (scale * geometry.1)) (trace.pages.map (PageDescriptor.scaled scale)).length)) _)
    rw [slots]
    exact replayDemands (catalogEnlarged pages) replayed

end Offline

section Simulated
variable {scale : Nat} {trace trace' : ValidatedTrace} {config : SimulationConfig} {result result' : SimulationResult}

theorem offlineScaled (positive : 0 < scale) (pages : trace'.pages = trace.pages.map (PageDescriptor.scaled scale))
    (events : trace'.events = trace.events) (offline : config.policy = .belady) (ok : simulate trace config = .ok result) :
    Safe (fun result' => result'.decisions = result.decisions ∧ result'.metrics = result.metrics.scaled scale)
      (simulate trace' (config.scaled scale)) := by
  have offline' : (config.scaled scale).policy = .belady := by rw [SimulationConfig.scaled,offline]; rfl
  unfold simulate at ok ⊢
  rw [offline] at ok
  rw [offline']
  obtain ⟨replay,replayed,last⟩ := bindOk.mp ok
  cases last
  refine endsBind (replayScaled positive pages events replayed) (fun _ same => ?_)
  exact ⟨congrArg Sum.inl same.1,same.2⟩

theorem onlineSafe (positive : 0 < scale) (events : trace'.events = trace.events) (online : config.policy ≠ .belady)
    (ok : simulate trace config = .ok result) : Safe (fun _ => True) (simulate trace' (config.scaled scale)) := by
  obtain ⟨start,-,made,-⟩ := simulatedRun online ok
  obtain ⟨target,made',-⟩ := newScaled positive events made
  obtain ⟨_,-,made'⟩ := bindOk.mp made'
  obtain ⟨_,accepted,-⟩ := bindOk.mp made'
  exact simulateSafe accepted

theorem unitsScale (positive : 0 < scale) (pages : trace'.pages = trace.pages.map (PageDescriptor.scaled scale))
    (events : trace'.events = trace.events) (ok : simulate trace config = .ok result)
    (fits : ∀ counter, simulate trace' (config.scaled scale) ≠ .error (.counterOverflow counter)) :
    (∃ result', simulate trace' (config.scaled scale) = .ok result' ∧ result'.decisions = result.decisions ∧
      result'.metrics = result.metrics.scaled scale) ∧
    ∀ start past rest k, Kernel.new trace config = .ok start → trace.events = past ++ rest →
      past.foldlM (Kernel.event trace.catalog config.capacityBytes) start = .ok k →
      ∃ start' k', Kernel.new trace' (config.scaled scale) = .ok start' ∧
        past.foldlM (Kernel.event trace'.catalog (scale * config.capacityBytes)) start' = .ok k' ∧
        k'.residents = k.residents.map (fun _ => ResidentEntry.scaled scale) ∧
        k'.residentBytes = scale * k.residentBytes ∧ k'.touch = k.touch ∧
        k'.decisions = k.decisions ∧ k'.metrics = k.metrics.scaled scale := by
  by_cases offline : config.policy = .belady
  · refine ⟨safeOk (offlineScaled positive pages events offline ok) fits,fun start _ _ _ made => ?_⟩
    obtain ⟨_,-,made⟩ := bindOk.mp made
    obtain ⟨_,accepted,-⟩ := bindOk.mp made
    exact absurd offline (newOnline accepted)
  have online' : (config.scaled scale).policy ≠ .belady := by
    unfold SimulationConfig.scaled
    cases spec : config.policy with
    | belady => contradiction
    | _ => nofun
  obtain ⟨result',ok',-⟩ := safeOk (onlineSafe positive events offline ok) fits
  obtain ⟨start,done,made,ran,metrics,decisions⟩ := simulatedRun offline ok
  obtain ⟨start',done',made',ran',metrics',decisions'⟩ := simulatedRun online' ok'
  obtain ⟨target,scaled,targets⟩ := newScaled positive events made
  cases Except.ok.inj (made'.symm.trans scaled)
  obtain ⟨k,reached,finished⟩ := bindOk.mp ran
  obtain ⟨k',reached',finished'⟩ := bindOk.mp ran'
  rw [events] at reached'
  constructor
  · cases reachedScaled positive pages events made made' targets (List.append_nil _).symm reached reached'
    refine ⟨result',ok',?_,?_⟩
    all_goals cases finishScaled finished finished'
    · rw [decisions',decisions]
      rfl
    · rw [metrics',metrics]
      rfl
  · intro start past rest k other parts reached
    cases Except.ok.inj (other.symm.trans made)
    rw [parts,List.foldlM_append] at reached'
    obtain ⟨k',before,-⟩ := bindOk.mp reached'
    refine ⟨_,k',made',before,?_⟩
    cases reachedScaled positive pages events made made' targets parts reached before
    exact ⟨rfl,rfl,rfl,rfl,rfl⟩

end Simulated

theorem thirdsValid :
    (validateRecords routed.header (routed.pages.map (PageDescriptor.scaled 3)) routed.events defaultLimits).toOption.isSome := by
  decide +kernel

def thirds : ValidatedTrace := value _ thirdsValid

theorem routedRuns : (simulate routed prefetching).toOption.isSome := by decide +kernel

theorem thirdsRun : (simulate thirds (prefetching.scaled 3)).toOption.isSome := by decide +kernel

theorem routedScales :
    ∃ result, simulate thirds (prefetching.scaled 3) = .ok result ∧
      result.decisions = (value _ routedRuns).decisions ∧
      result.metrics.prefetchAdmitted = 2 ∧ result.metrics.totalPhysicalLoadBytes = 3 * 65 := by
  have ran := valueOk thirdsRun
  have pages : thirds.pages = routed.pages.map (PageDescriptor.scaled 3) := by decide +kernel
  have fits (counter : String) : simulate thirds (prefetching.scaled 3) ≠ .error (.counterOverflow counter) := by
    rw [ran]
    nofun
  obtain ⟨result,ok,decisions,metrics⟩ := (unitsScale (by decide) pages (by decide +kernel) (valueOk routedRuns) fits).1
  refine ⟨result,ok,decisions,?_⟩
  rw [metrics]
  decide +kernel

end RunnelMoe.Sim
