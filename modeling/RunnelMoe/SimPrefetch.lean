import RunnelMoe.SimSteps

/-! Outcomes of a router signal. Each page of a group is offered and then classified
once: as redundant when it is resident, and otherwise dropped or admitted with the
other absent pages of its group. -/
namespace RunnelMoe.Sim
open Words KeyedSum Results Vectors
open Std (ExtTreeMap)

def logicalTotal (catalog : PageCatalog) (pages : List PageId) : Nat :=
  (pages.map (fun id => (catalog.page id).logicalBytes)).sum
def chargesTotal (catalog : PageCatalog) (pages : List PageId) : Nat :=
  (pages.map (fun id => (catalog.page id).chargeBytes)).sum

namespace SimulationMetrics
variable (m : SimulationMetrics) (catalog : PageCatalog) (pages : List PageId)

def offered : SimulationMetrics :=
  {m with
    prefetchOffered := m.prefetchOffered + pages.length,
    prefetchOfferedBytes := m.prefetchOfferedBytes + logicalTotal catalog pages}

def redundant : SimulationMetrics :=
  {m with
    prefetchRedundant := m.prefetchRedundant + pages.length,
    prefetchRedundantBytes := m.prefetchRedundantBytes + logicalTotal catalog pages}

def dropped : SimulationMetrics :=
  {m with
    prefetchDropped := m.prefetchDropped + pages.length,
    prefetchDroppedBytes := m.prefetchDroppedBytes + logicalTotal catalog pages}

end SimulationMetrics

section Lists
variable {catalog : PageCatalog} {residents : Residents}

theorem logicalCons (catalog : PageCatalog) (id : PageId) (rest : List PageId) :
    logicalTotal catalog (id::rest) = (catalog.page id).logicalBytes + logicalTotal catalog rest := rfl

theorem countedAll {step : Kernel → PageId → Except SimError Kernel}
    (grow : SimulationMetrics → List PageId → SimulationMetrics) (none : ∀ m, grow m [] = m) (more : ∀ m id rest, grow (grow m [id]) rest = grow m (id::rest))
    (one : ∀ k id, k.residents = residents → Safe (· = {k with metrics := grow k.metrics [id]}) (step k id))
    (pages : List PageId) {k : Kernel} (same : k.residents = residents) :
    Safe (· = {k with metrics := grow k.metrics pages}) (pages.foldlM step k) := by
  induction pages generalizing k with
  | nil =>
    show k = {k with metrics := grow k.metrics []}
    rw [none]
  | cons id rest ih =>
    rw [List.foldlM_cons]
    refine endsBind (one k id same) (fun next counted => ?_)
    subst counted
    rw [← more]
    exact ih same

theorem offersSafe (pages : List PageId) (k : Kernel) :
    Safe (· = {k with metrics := k.metrics.offered catalog pages}) (pages.foldlM (Kernel.offerPrefetch catalog) k) := by
  refine countedAll (fun m pages => m.offered catalog pages) (fun m => rfl) (fun m id rest => ?_) (fun k id _ => ?_)
    pages rfl
  · simp [SimulationMetrics.offered,logicalTotal,Nat.add_assoc]
    omega
  · refine endsBind (offeredSafe ..) (fun _ same => ?_)
    subst same
    rfl

theorem dropsSafe (pages : List PageId) (k : Kernel) :
    Safe (· = {k with metrics := k.metrics.dropped catalog pages}) (k.dropPrefetches catalog pages) := by
  refine countedAll (fun m pages => m.dropped catalog pages) (fun m => rfl) (fun m id rest => ?_) (fun k id _ => ?_)
    pages rfl
  · simp [SimulationMetrics.dropped,logicalTotal,Nat.add_assoc]
    omega
  · refine endsBind (droppedSafe ..) (fun _ same => ?_)
    subst same
    rfl

theorem redundantsSafe (pages : List PageId) (k : Kernel) :
    Safe (· = {k with metrics := k.metrics.redundant catalog (pages.filter (fun id => id ∈ k.residents))})
      (pages.foldlM (Kernel.redundantPrefetch catalog) k) := by
  refine countedAll (fun m pages => m.redundant catalog (pages.filter (fun id => id ∈ k.residents))) (fun m => rfl)
    (fun m id rest => ?_) (fun next id same => ?_) pages rfl
  · by_cases resident : id ∈ k.residents <;>
      simp [SimulationMetrics.redundant,logicalTotal,resident,Nat.add_assoc,Nat.add_comm]
  · unfold Kernel.redundantPrefetch
    by_cases resident : id ∈ k.residents
    · rw [if_pos (same ▸ resident)]
      refine endsBind (redundantSafe ..) (fun _ counted => ?_)
      subst counted
      simp only [List.filter_cons,resident,decide_true,if_true,List.filter_nil]
      rfl
    · rw [if_neg (same ▸ resident)]
      simp only [List.filter_cons,resident,decide_false,List.filter_nil]
      rfl

end Lists

def Kernel.prefetched (catalog : PageCatalog) (k : Kernel) (id : PageId) : Kernel :=
  let inserted := ({k with touch := k.touch + 1} : Kernel).inserted (catalog.page id) (k.touch + 1) true
  {inserted with metrics := {inserted.metrics with
    prefetchAdmitted := inserted.metrics.prefetchAdmitted + 1,
    prefetchLoadBytes := inserted.metrics.prefetchLoadBytes + (catalog.page id).logicalBytes}}

def Kernel.prefetchedAll (catalog : PageCatalog) (k : Kernel) (pages : List PageId) : Kernel :=
  pages.foldl (Kernel.prefetched catalog) k

section Admission
variable {catalog : PageCatalog} {capacityBytes offers offerBytes : Nat} {k : Kernel}

theorem prefetchedResidents (catalogued : Catalogued catalog) (k : Kernel) (id : PageId) :
    (k.prefetched catalog id).residents = k.residents.insert id
      ⟨id,(catalog.page id).chargeBytes,(catalog.page id).logicalBytes,k.touch + 1,k.policy.initialSegment,true⟩ := by
  show k.residents.insert (catalog.page id).id ⟨(catalog.page id).id,_,_,_,_,_⟩ = _
  rw [catalogued.identity]

theorem prefetchedSound (catalogued : Catalogued catalog) {id : PageId}
    (sound : Sound catalog capacityBytes (offers + 1) (offerBytes + (catalog.page id).logicalBytes) k)
    (room : k.residentBytes + (catalog.page id).chargeBytes ≤ capacityBytes) (absent : k.residents[id]? = none) :
    Sound catalog capacityBytes offers offerBytes (k.prefetched catalog id) := by
  have ticked : Stocked catalog capacityBytes ({k with touch := k.touch + 1} : Kernel) :=
    ⟨sound.stocked.entries,sound.stocked.bytes,sound.stocked.within⟩
  have stocked : Stocked catalog capacityBytes
      (({k with touch := k.touch + 1} : Kernel).inserted (catalog.page id) (k.touch + 1) true) :=
    insertedStocked catalogued ticked room absent
  refine ⟨⟨stocked.entries,stocked.bytes,stocked.within⟩,?_⟩
  have balanced := sound.balanced
  have count : unusedTotal (k.prefetched catalog id).residents = 1 + unusedTotal k.residents := by
    rw [prefetchedResidents catalogued,unusedTotal,totalInsert,totalAbsent _ absent]
    rfl
  have bytes : unusedBytesTotal (k.prefetched catalog id).residents =
      (catalog.page id).logicalBytes + unusedBytesTotal k.residents := by
    rw [prefetchedResidents catalogued,unusedBytesTotal,totalInsert,totalAbsent _ absent]
    rfl
  have offered := balanced.offered
  have offeredBytes := balanced.offeredBytes
  have admitted := balanced.admitted
  have admittedBytes := balanced.admittedBytes
  rw [count,bytes]
  refine {balanced with offered := ?_, offeredBytes := ?_, admitted := ?_, admittedBytes := ?_}
  · show k.metrics.prefetchAdmitted + 1 + k.metrics.prefetchRedundant + k.metrics.prefetchDropped + offers =
      k.metrics.prefetchOffered
    omega
  · show k.metrics.prefetchLoadBytes + (catalog.page id).logicalBytes + k.metrics.prefetchRedundantBytes +
      k.metrics.prefetchDroppedBytes + offerBytes = k.metrics.prefetchOfferedBytes
    omega
  · show k.metrics.prefetchUseful + k.metrics.prefetchWasted + (1 + unusedTotal k.residents) =
      k.metrics.prefetchAdmitted + 1
    omega
  · show k.metrics.prefetchUsefulBytes + k.metrics.prefetchWastedBytes +
      ((catalog.page id).logicalBytes + unusedBytesTotal k.residents) =
        k.metrics.prefetchLoadBytes + (catalog.page id).logicalBytes
    omega

theorem prefetchSafe (catalogued : Catalogued catalog) {id : PageId}
    (room : k.residentBytes + (catalog.page id).chargeBytes ≤ capacityBytes) (absent : k.residents[id]? = none) :
    Safe (· = k.prefetched catalog id) (k.admitPrefetch catalog capacityBytes id) := by
  refine endsBind (addOneSafe ..) (fun _ same => ?_)
  subst same
  have out : (catalog.page id).id ∉ k.residents := by
    rw [catalogued.identity]
    exact absentOut absent
  refine endsBind (insertSafe (k := {k with touch := k.touch + 1}) room out) (fun _ same => ?_)
  subst same
  refine endsBind (prefetchedSafe ..) (fun _ same => ?_)
  subst same
  rfl

theorem prefetchAllSafe (catalogued : Catalogued catalog) {pages : List PageId} (distinct : pages.Nodup)
    (absent : ∀ id ∈ pages, k.residents[id]? = none)
    (room : k.residentBytes + chargesTotal catalog pages ≤ capacityBytes)
    (sound : Sound catalog capacityBytes (offers + pages.length) (offerBytes + logicalTotal catalog pages) k) :
    Safe (fun k' => k' = k.prefetchedAll catalog pages ∧ Sound catalog capacityBytes offers offerBytes k')
      (pages.foldlM (Kernel.admitPrefetch catalog capacityBytes) k) := by
  induction pages generalizing k with
  | nil => exact ⟨rfl,sound⟩
  | cons id rest ih =>
    obtain ⟨fresh,distinct⟩ := List.nodup_cons.mp distinct
    have here := absent id List.mem_cons_self
    have size : chargesTotal catalog (id::rest) = (catalog.page id).chargeBytes + chargesTotal catalog rest := rfl
    rw [logicalCons,List.length_cons,Nat.add_comm (catalog.page id).logicalBytes,← Nat.add_assoc,← Nat.add_assoc]
      at sound
    rw [List.foldlM_cons]
    refine endsBind (prefetchSafe catalogued (by omega) here) (fun next same => ?_)
    subst same
    refine ih distinct (fun p member => ?_) ?_ (prefetchedSound catalogued sound (by omega) here)
    · have other : p ≠ id := fun same => fresh (same ▸ member)
      rw [prefetchedResidents catalogued,getInsertOther _ _ other]
      exact absent p (List.mem_cons_of_mem _ member)
    · show k.residentBytes + (catalog.page id).chargeBytes + _ ≤ capacityBytes
      omega

end Admission

def Kernel.offeredGroup (catalog : PageCatalog) (k : Kernel) (pages : List PageId) : Kernel :=
  {k with metrics := (k.metrics.offered catalog pages).redundant catalog (pages.filter (fun id => id ∈ k.residents))}

def absentPages (residents : Residents) (pages : List PageId) : List PageId := pages.filter (fun id => id ∉ residents)
def presentPages (residents : Residents) (pages : List PageId) : List PageId := pages.filter (fun id => id ∈ residents)

def Kernel.droppedGroup (catalog : PageCatalog) (k : Kernel) (pages : List PageId) : Kernel :=
  {k with metrics := (k.offeredGroup catalog pages).metrics.dropped catalog (absentPages k.residents pages)}

inductive Refused (catalog : PageCatalog) (capacityBytes : Nat) (group : PrefetchGroup) (budget : PrefetchBudget)
    (k : Kernel) : DecisionTag → Prop where
  | pageLimit (pages : budget.remainingPages < (absentPages k.residents group.pageIds).length) :
      Refused catalog capacityBytes group budget k .prefetchDropPageLimit
  | byteLimit (pages : (absentPages k.residents group.pageIds).length ≤ budget.remainingPages)
      (bytes : budget.remainingBytes < logicalTotal catalog (absentPages k.residents group.pageIds)) :
      Refused catalog capacityBytes group budget k .prefetchDropByteLimit
  | admission (pages : (absentPages k.residents group.pageIds).length ≤ budget.remainingPages)
      (bytes : logicalTotal catalog (absentPages k.residents group.pageIds) ≤ budget.remainingBytes)
      (planned : k.policy.planPrefetchVictims catalog k.residents
        ⟨k.residentBytes,capacityBytes,absentPages k.residents group.pageIds,group.request,group.targetStep,
          group.prediction.scorePpm⟩ = .ok none) :
      Refused catalog capacityBytes group budget k .prefetchDropAdmission

inductive Tried (catalog : PageCatalog) (capacityBytes : Nat) (group : PrefetchGroup) (budget : PrefetchBudget)
    (k : Kernel) : Kernel × PrefetchBudget → Prop where
  | redundant (none : absentPages k.residents group.pageIds = []) :
      Tried catalog capacityBytes group budget k
        ((k.offeredGroup catalog group.pageIds).hashPrefetchDecision group.sequence .prefetchRedundant group.pageIds
          (presentPages k.residents group.pageIds) [] [],budget)
  | dropped {tag : DecisionTag} (some_ : absentPages k.residents group.pageIds ≠ [])
      (refused : Refused catalog capacityBytes group budget k tag) :
      Tried catalog capacityBytes group budget k
        ((k.droppedGroup catalog group.pageIds).hashPrefetchDecision group.sequence tag group.pageIds
          (presentPages k.residents group.pageIds) (absentPages k.residents group.pageIds) [],budget)
  | admitted {victims : List PageId} (some_ : absentPages k.residents group.pageIds ≠ [])
      (pages : (absentPages k.residents group.pageIds).length ≤ budget.remainingPages)
      (bytes : logicalTotal catalog (absentPages k.residents group.pageIds) ≤ budget.remainingBytes)
      (planned : k.policy.planPrefetchVictims catalog k.residents
        ⟨k.residentBytes,capacityBytes,absentPages k.residents group.pageIds,group.request,group.targetStep,
          group.prediction.scorePpm⟩ = .ok (some victims))
      (frees : Frees k.residents k.residentBytes capacityBytes
        (chargesTotal catalog (absentPages k.residents group.pageIds)) victims) :
      Tried catalog capacityBytes group budget k
        ((((k.offeredGroup catalog group.pageIds).evictedAll victims).prefetchedAll catalog
          (absentPages k.residents group.pageIds)).hashPrefetchDecision group.sequence .prefetchAdmit group.pageIds
          (presentPages k.residents group.pageIds) (absentPages k.residents group.pageIds) victims,
        ⟨budget.remainingPages - (absentPages k.residents group.pageIds).length,
          budget.remainingBytes - logicalTotal catalog (absentPages k.residents group.pageIds)⟩)

section Groups
variable {catalog : PageCatalog} {capacityBytes : Nat} {group : PrefetchGroup} {budget : PrefetchBudget} {k : Kernel}

theorem groupSplit (catalog : PageCatalog) (residents : Residents) (pages : List PageId) :
    (presentPages residents pages).length + (absentPages residents pages).length = pages.length ∧
      logicalTotal catalog (presentPages residents pages) + logicalTotal catalog (absentPages residents pages) =
        logicalTotal catalog pages := by
  induction pages with
  | nil => exact ⟨rfl,rfl⟩
  | cons id rest ih =>
    by_cases resident : id ∈ residents
    · simp only [presentPages,absentPages,resident,List.filter_cons,decide_true,decide_false,not_true,if_true,
        List.length_cons,logicalCons] at ih ⊢
      simp only [Bool.false_eq_true,if_false]
      omega
    · simp only [presentPages,absentPages,resident,List.filter_cons,decide_true,decide_false,not_false_iff,if_true,
        List.length_cons,logicalCons] at ih ⊢
      simp only [Bool.false_eq_true,if_false]
      omega

theorem offeredSound (sound : Sound catalog capacityBytes 0 0 k) (pages : List PageId) :
    Sound catalog capacityBytes (absentPages k.residents pages).length
      (logicalTotal catalog (absentPages k.residents pages)) (k.offeredGroup catalog pages) := by
  obtain ⟨⟨entries,charges,within⟩,balanced⟩ := sound
  obtain ⟨count,bytes⟩ := groupSplit catalog k.residents pages
  have offered := balanced.offered
  have offeredBytes := balanced.offeredBytes
  refine ⟨⟨entries,charges,within⟩,{balanced with offered := ?_, offeredBytes := ?_}⟩
  · show k.metrics.prefetchAdmitted + (k.metrics.prefetchRedundant + (presentPages k.residents pages).length) +
      k.metrics.prefetchDropped + (absentPages k.residents pages).length = k.metrics.prefetchOffered + pages.length
    omega
  · show k.metrics.prefetchLoadBytes + (k.metrics.prefetchRedundantBytes +
      logicalTotal catalog (presentPages k.residents pages)) + k.metrics.prefetchDroppedBytes +
      logicalTotal catalog (absentPages k.residents pages) =
        k.metrics.prefetchOfferedBytes + logicalTotal catalog pages
    omega

theorem droppedSound (sound : Sound catalog capacityBytes 0 0 k) (pages : List PageId) :
    Sound catalog capacityBytes 0 0 (k.droppedGroup catalog pages) := by
  obtain ⟨⟨entries,charges,within⟩,balanced⟩ := offeredSound sound pages
  have offered := balanced.offered
  have offeredBytes := balanced.offeredBytes
  refine ⟨⟨entries,charges,within⟩,{balanced with offered := ?_, offeredBytes := ?_}⟩
  · show (k.offeredGroup catalog pages).metrics.prefetchAdmitted +
      (k.offeredGroup catalog pages).metrics.prefetchRedundant +
      ((k.offeredGroup catalog pages).metrics.prefetchDropped + (absentPages k.residents pages).length) + 0 =
        (k.offeredGroup catalog pages).metrics.prefetchOffered
    omega
  · show (k.offeredGroup catalog pages).metrics.prefetchLoadBytes +
      (k.offeredGroup catalog pages).metrics.prefetchRedundantBytes +
      ((k.offeredGroup catalog pages).metrics.prefetchDroppedBytes +
        logicalTotal catalog (absentPages k.residents pages)) + 0 =
        (k.offeredGroup catalog pages).metrics.prefetchOfferedBytes
    omega

theorem admitGroupSafe (catalogued : Catalogued catalog) (distinct : group.pageIds.Nodup)
    (sound : Sound catalog capacityBytes 0 0 k) {victims : List PageId}
    (frees : Frees k.residents k.residentBytes capacityBytes
      (chargesTotal catalog (absentPages k.residents group.pageIds)) victims) :
    Safe (fun k' => k' = ((k.offeredGroup catalog group.pageIds).evictedAll victims).prefetchedAll catalog
          (absentPages k.residents group.pageIds) ∧ Sound catalog capacityBytes 0 0 k') (do
      let k' ← victims.foldlM Kernel.evict (k.offeredGroup catalog group.pageIds)
      (absentPages k.residents group.pageIds).foldlM (Kernel.admitPrefetch catalog capacityBytes) k') := by
  have offered := offeredSound sound group.pageIds
  have after := allSound victims offered
  have room := roomLeft offered.stocked frees after.stocked
  refine endsBind (evictAllSafe offered frees.distinct frees.resident) (fun _ same => ?_)
  subst same
  refine prefetchAllSafe catalogued (distinct.filter _) (fun id member => ?_) room (by simpa using after)
  have out : id ∉ k.residents := by simpa using (List.mem_filter.mp member).2
  have absent : k.residents[id]? = none := by
    rw [ExtTreeMap.mem_iff_isSome_getElem?] at out
    exact Option.not_isSome_iff_eq_none.mp out
  exact evictedAbsent (k := k.offeredGroup catalog group.pageIds) absent

theorem triedSafe (catalogued : Catalogued catalog) (distinct : group.pageIds.Nodup)
    (sound : Sound catalog capacityBytes 0 0 k) :
    Safe (fun out => Tried catalog capacityBytes group budget k out ∧ Sound catalog capacityBytes 0 0 out.1)
      ((k.offeredGroup catalog group.pageIds).tryPrefetch catalog capacityBytes group budget
        (presentPages k.residents group.pageIds) (absentPages k.residents group.pageIds)) := by
  have offered := offeredSound sound group.pageIds
  have dropped {tag : DecisionTag} (some_ : absentPages k.residents group.pageIds ≠ [])
      (refused : Refused catalog capacityBytes group budget k tag) :
      Safe (fun out => Tried catalog capacityBytes group budget k out ∧ Sound catalog capacityBytes 0 0 out.1) (do
        let k' ← (k.offeredGroup catalog group.pageIds).dropPrefetches catalog (absentPages k.residents group.pageIds)
        .ok (k'.hashPrefetchDecision group.sequence tag group.pageIds (presentPages k.residents group.pageIds)
          (absentPages k.residents group.pageIds) [],budget)) := by
    refine endsBind (dropsSafe ..) (fun _ same => ?_)
    subst same
    exact ⟨.dropped some_ refused,decidedSound (droppedSound sound group.pageIds)⟩
  unfold Kernel.tryPrefetch
  simp only
  split
  · rename_i none
    have none : absentPages k.residents group.pageIds = [] := List.isEmpty_iff.mp none
    rw [none] at offered
    exact ⟨.redundant none,decidedSound offered⟩
  rename_i some_
  have some_ : absentPages k.residents group.pageIds ≠ [] := fun none => some_ (List.isEmpty_iff.mpr none)
  split
  · rename_i pages
    exact dropped some_ (.pageLimit pages)
  rename_i pages
  have pages := Nat.le_of_not_lt pages
  refine endsBind (pageTotalSafe catalog PageDescriptor.logicalBytes ..) (fun _ same => ?_)
  subst same
  split
  · rename_i bytes
    exact dropped some_ (.byteLimit pages bytes)
  rename_i bytes
  have bytes : logicalTotal catalog (absentPages k.residents group.pageIds) ≤ budget.remainingBytes :=
    Nat.le_of_not_lt bytes
  refine endsBindOk (planPrefetchSafe k.policy offered.stocked.entries offered.stocked.within)
    (fun planned plan frees => ?_)
  cases planned with
  | none => exact dropped some_ (.admission pages bytes plan)
  | some victims =>
    have frees := frees victims rfl
    have groupSafe := admitGroupSafe catalogued distinct sound frees
    simp only
    rw [← bind_assoc]
    refine endsBind groupSafe (fun _ admitted => ?_)
    obtain ⟨same,after⟩ := admitted
    subst same
    refine endsBind (subtractSafe _ bytes) (fun _ same => ?_)
    subst same
    exact ⟨.admitted some_ pages bytes plan frees,decidedSound after⟩

theorem groupTried (catalogued : Catalogued catalog) (distinct : group.pageIds.Nodup)
    (sound : Sound catalog capacityBytes 0 0 k) :
    Safe (fun out => Tried catalog capacityBytes group budget k out ∧ Sound catalog capacityBytes 0 0 out.1)
      (k.prefetchGroup catalog capacityBytes group budget) := by
  refine endsBind (offersSafe ..) (fun _ same => ?_)
  subst same
  refine endsBind (redundantsSafe ..) (fun _ same => ?_)
  subst same
  exact triedSafe catalogued distinct sound

end Groups

def signalPolicy (policy : PolicyState) (request targetStep layer : Nat) (predictions : List ExpertPrediction) :
    Except SimError PolicyState :=
  match policy.routerConfig with
  | none => .ok policy
  | some config => policy.recordSignal request targetStep layer (Kernel.selectPredictions config predictions)

section Signals
variable {catalog : PageCatalog} {capacityBytes sequence request targetStep layer : Nat}
  {predictions : List ExpertPrediction} {k : Kernel}

theorem prefetchedPolicy (catalog : PageCatalog) (k : Kernel) (pages : List PageId) :
    (k.prefetchedAll catalog pages).policy = k.policy := by
  induction pages generalizing k with
  | nil => rfl
  | cons id rest ih => exact ih (k.prefetched catalog id)

theorem triedPolicy {group : PrefetchGroup} {budget : PrefetchBudget} {out : Kernel × PrefetchBudget}
    (tried : Tried catalog capacityBytes group budget k out) : out.1.policy = k.policy := by
  cases tried with
  | redundant | dropped => rfl
  | admitted => exact (prefetchedPolicy ..).trans (allFrame ..).1

theorem groupsSafe (Inv : Kernel → Prop) (catalogued : Catalogued catalog) {budget : PrefetchBudget}
    (sound : Sound catalog capacityBytes 0 0 k) (holds : Inv k)
    (tried : ∀ k group budget out, Sound catalog capacityBytes 0 0 k → Inv k →
      Tried catalog capacityBytes group budget k out → Inv out.1) :
    Safe (fun s => Sound catalog capacityBytes 0 0 s.1 ∧ Inv s.1 ∧ s.1.policy = k.policy)
      (predictions.foldlM (Kernel.prefetchExpert catalog capacityBytes sequence request targetStep layer) (k,budget)) := by
  refine endsFold (fun _ (s : Kernel × PrefetchBudget) =>
      Sound catalog capacityBytes 0 0 s.1 ∧ Inv s.1 ∧ s.1.policy = k.policy)
    ⟨sound,holds,rfl⟩ (fun prediction rest s _ kept => ?_)
  obtain ⟨sound,inv,same⟩ := kept
  unfold Kernel.prefetchExpert
  split
  · exact ⟨sound,inv,same⟩
  · refine endsMono (groupTried catalogued (catalogued.groups layer prediction.expert) sound) (fun out done => ?_)
    exact ⟨done.2,tried _ _ _ _ sound inv done.1,(triedPolicy done.1).trans same⟩

theorem signalSafe (Inv : Kernel → Prop) (catalogued : Catalogued catalog) (sound : Sound catalog capacityBytes 0 0 k)
    (recording : Safe (fun _ => True) (signalPolicy k.policy request targetStep layer predictions))
    (start : ∀ policy decisions, Inv {k with policy := policy, decisions := decisions})
    (tried : ∀ k group budget out, Sound catalog capacityBytes 0 0 k → Inv k →
      Tried catalog capacityBytes group budget k out → Inv out.1) :
    Safe (fun k' => Sound catalog capacityBytes 0 0 k' ∧ Inv k' ∧
        signalPolicy k.policy request targetStep layer predictions = .ok k'.policy)
      (k.signal catalog capacityBytes sequence request targetStep layer predictions) := by
  unfold signalPolicy at recording ⊢
  unfold Kernel.signal
  cases configured : k.policy.routerConfig with
  | none => exact ⟨hashedSound sound,start _ _,rfl⟩
  | some config =>
    simp only [configured] at recording ⊢
    split
    · rename_i none
      refine ⟨hashedSound sound,start _ _,?_⟩
      unfold PolicyState.recordSignal
      rw [if_pos none]
      rfl
    refine endsBindOk recording (fun policy recorded _ => ?_)
    have after := recordedSound sound policy
    split
    · exact ⟨hashedSound after,start policy _,recorded⟩
    · refine endsBind (groupsSafe Inv catalogued after (start policy _) tried) (fun out kept => ?_)
      obtain ⟨sound,inv,same⟩ := kept
      exact ⟨sound,inv,recorded.trans (congrArg Except.ok same.symm)⟩

end Signals

end RunnelMoe.Sim
