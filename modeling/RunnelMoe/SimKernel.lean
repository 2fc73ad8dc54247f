import RunnelMoe.SimEngine

/-! What the kernel keeps between two steps. Resident entries copy the catalog, the
resident bytes are the sum of their charges and at most the capacity, and the counters
balance. A victim is evicted and a page inserted without an internal error as long as
the plan names resident pages and frees enough. -/
namespace RunnelMoe.Sim
open Words KeyedSum Results Vectors
open Std (ExtTreeMap)

structure EntrySound (catalog : PageCatalog) (id : PageId) (e : ResidentEntry) : Prop where
  page : e.page = id
  charge : e.chargeBytes = (catalog.page id).chargeBytes
  logical : e.logicalBytes = (catalog.page id).logicalBytes

def ResidentEntry.unusedBytes (e : ResidentEntry) : Nat := if e.prefetchedUnused then e.logicalBytes else 0
def ResidentEntry.unused (e : ResidentEntry) : Nat := if e.prefetchedUnused then 1 else 0

def chargeTotal (residents : Residents) : Nat := total (fun _ e => e.chargeBytes) residents
def unusedTotal (residents : Residents) : Nat := total (fun _ e => e.unused) residents
def unusedBytesTotal (residents : Residents) : Nat := total (fun _ e => e.unusedBytes) residents

structure Stocked (catalog : PageCatalog) (capacityBytes : Nat) (k : Kernel) : Prop where
  entries : Every k.residents (EntrySound catalog)
  bytes : k.residentBytes = chargeTotal k.residents
  within : k.residentBytes ≤ capacityBytes

structure Sound (catalog : PageCatalog) (capacityBytes offers offerBytes : Nat) (k : Kernel) : Prop where
  stocked : Stocked catalog capacityBytes k
  balanced : Balanced k.metrics offers offerBytes (unusedTotal k.residents) (unusedBytesTotal k.residents)

section Frames
variable {catalog : PageCatalog} {capacityBytes offers offerBytes : Nat} {k : Kernel}

theorem hashedSound {sequence : Nat} {tag : DecisionTag} {page : Option PageId} {victims : List PageId}
    (sound : Sound catalog capacityBytes offers offerBytes k) :
    Sound catalog capacityBytes offers offerBytes (k.hashEvent sequence tag page victims) :=
  ⟨⟨sound.stocked.entries,sound.stocked.bytes,sound.stocked.within⟩,sound.balanced⟩

theorem recordedSound (sound : Sound catalog capacityBytes offers offerBytes k) (policy : PolicyState) :
    Sound catalog capacityBytes offers offerBytes {k with policy := policy} :=
  ⟨⟨sound.stocked.entries,sound.stocked.bytes,sound.stocked.within⟩,sound.balanced⟩

theorem decidedSound {sequence : Nat} {tag : DecisionTag} {offered redundant rest victims : List PageId}
    (sound : Sound catalog capacityBytes offers offerBytes k) :
    Sound catalog capacityBytes offers offerBytes
      (k.hashPrefetchDecision sequence tag offered redundant rest victims) :=
  ⟨⟨sound.stocked.entries,sound.stocked.bytes,sound.stocked.within⟩,sound.balanced⟩

end Frames

def SimulationMetrics.wasted (m : SimulationMetrics) (e : ResidentEntry) : SimulationMetrics :=
  {m with
    prefetchWasted := m.prefetchWasted + e.unused, prefetchWastedBytes := m.prefetchWastedBytes + e.unusedBytes}

def Kernel.evicted (k : Kernel) (page : PageId) : Kernel :=
  match k.residents[page]? with
  | none => k
  | some e =>
    {k with
      residents := k.residents.erase page, residentBytes := k.residentBytes - e.chargeBytes,
      metrics := (k.metrics.wasted e).evicted e.chargeBytes}

section Evictions
variable {catalog : PageCatalog} {capacityBytes offers offerBytes : Nat} {k : Kernel}

theorem wastedAccounted (k : Kernel) (e : ResidentEntry) :
    Safe (· = {k with metrics := k.metrics.wasted e}) (k.accountWastedPrefetch e) := by
  unfold Kernel.accountWastedPrefetch SimulationMetrics.wasted ResidentEntry.unused ResidentEntry.unusedBytes
  split
  · refine endsBind (wastedSafe ..) (fun _ same => ?_)
    subst same
    rfl
  · rfl

theorem evictedSound {page : PageId} (sound : Sound catalog capacityBytes offers offerBytes k) :
    Sound catalog capacityBytes offers offerBytes (k.evicted page) := by
  unfold Kernel.evicted
  split
  · exact sound
  · rename_i e present
    obtain ⟨⟨entries,bytes,within⟩,balanced⟩ := sound
    have charge := totalSplit (fun _ (e : ResidentEntry) => e.chargeBytes) present
    have count := totalSplit (fun _ (e : ResidentEntry) => e.unused) present
    have unused := totalSplit (fun _ (e : ResidentEntry) => e.unusedBytes) present
    refine ⟨⟨everyErase entries,?_,?_⟩,?_⟩
    · show k.residentBytes - e.chargeBytes = chargeTotal (k.residents.erase page)
      unfold chargeTotal at bytes ⊢
      omega
    · show k.residentBytes - e.chargeBytes ≤ capacityBytes
      omega
    · have admitted := balanced.admitted
      have admittedBytes := balanced.admittedBytes
      unfold unusedTotal at admitted
      unfold unusedBytesTotal at admittedBytes
      refine {balanced with admitted := ?_, admittedBytes := ?_}
      · show k.metrics.prefetchUseful + (k.metrics.prefetchWasted + e.unused) + total _ (k.residents.erase page) =
          k.metrics.prefetchAdmitted
        omega
      · show k.metrics.prefetchUsefulBytes + (k.metrics.prefetchWastedBytes + e.unusedBytes) +
          total _ (k.residents.erase page) = k.metrics.prefetchLoadBytes
        omega

theorem evictSafe {page : PageId} (stocked : Stocked catalog capacityBytes k) (resident : page ∈ k.residents) :
    Safe (· = k.evicted page) (k.evict page) := by
  obtain ⟨e,present⟩ := Option.isSome_iff_exists.mp (ExtTreeMap.mem_iff_isSome_getElem?.mp resident)
  simp only [Kernel.evict,Kernel.evicted,present]
  refine endsBind (wastedAccounted _ e) (fun next same => ?_)
  subst same
  have enough : e.chargeBytes ≤ k.residentBytes := by
    rw [stocked.bytes,chargeTotal,totalSplit _ present]
    exact Nat.le_add_right _ _
  refine endsBind (subtractSafe _ enough) (fun _ less => ?_)
  refine endsBind (evictionSafe ..) (fun _ counted => ?_)
  subst less counted
  rfl

end Evictions

def Kernel.evictedAll (k : Kernel) (victims : List PageId) : Kernel := victims.foldl Kernel.evicted k

section Victims
variable {catalog : PageCatalog} {capacityBytes offers offerBytes : Nat} {k : Kernel} {victims : List PageId}

theorem evictedResidents (k : Kernel) (page : PageId) : (k.evicted page).residents = k.residents.erase page := by
  unfold Kernel.evicted
  split
  · rename_i absent
    exact (eraseAbsent absent).symm
  · rfl

theorem evictedFrame (k : Kernel) (page : PageId) :
    (k.evicted page).policy = k.policy ∧ (k.evicted page).touch = k.touch ∧
      (k.evicted page).decisions = k.decisions := by
  unfold Kernel.evicted
  split <;> exact ⟨rfl,rfl,rfl⟩

theorem allFrame (k : Kernel) (victims : List PageId) :
    (k.evictedAll victims).policy = k.policy ∧ (k.evictedAll victims).touch = k.touch ∧
      (k.evictedAll victims).decisions = k.decisions := by
  induction victims generalizing k with
  | nil => exact ⟨rfl,rfl,rfl⟩
  | cons page rest ih =>
    obtain ⟨policy,touch,decisions⟩ := ih (k.evicted page)
    obtain ⟨policy',touch',decisions'⟩ := evictedFrame k page
    exact ⟨policy.trans policy',touch.trans touch',decisions.trans decisions'⟩

theorem allLookup (k : Kernel) (victims : List PageId) (page : PageId) :
    (k.evictedAll victims).residents[page]? = if page ∈ victims then none else k.residents[page]? := by
  induction victims generalizing k with
  | nil => rfl
  | cons victim rest ih =>
    refine (ih (k.evicted victim)).trans ?_
    rw [evictedResidents,getErase]
    by_cases here : page = victim <;> by_cases later : page ∈ rest <;> simp [here,later]

theorem allMetrics (k : Kernel) (victims : List PageId) :
    ∃ wasted wastedBytes evictions evictedBytes, (k.evictedAll victims).metrics = {k.metrics with
      prefetchWasted := wasted, prefetchWastedBytes := wastedBytes, evictions := evictions,
      evictedChargeBytes := evictedBytes} := by
  induction victims generalizing k with
  | nil => exact ⟨_,_,_,_,rfl⟩
  | cons page rest ih =>
    obtain ⟨w,wb,e,eb,same⟩ := ih (k.evicted page)
    refine ⟨w,wb,e,eb,same.trans ?_⟩
    unfold Kernel.evicted
    split <;> rfl

theorem allSound (victims : List PageId) (sound : Sound catalog capacityBytes offers offerBytes k) :
    Sound catalog capacityBytes offers offerBytes (k.evictedAll victims) := by
  induction victims generalizing k with
  | nil => exact sound
  | cons page rest ih => exact ih (evictedSound sound)

theorem allCharge (distinct : victims.Nodup) (k : Kernel) :
    chargeTotal (k.evictedAll victims).residents + (victims.map (PolicyState.residentCharge k.residents)).sum =
      chargeTotal k.residents := by
  induction victims generalizing k with
  | nil => rfl
  | cons page rest ih =>
    obtain ⟨fresh,distinct⟩ := List.nodup_cons.mp distinct
    have later := ih distinct (k.evicted page)
    have others : rest.map (PolicyState.residentCharge (k.evicted page).residents) =
        rest.map (PolicyState.residentCharge k.residents) := by
      refine List.map_congr_left (fun p member => ?_)
      have other : p ≠ page := fun same => fresh (same ▸ member)
      rw [PolicyState.residentCharge,evictedResidents,getEraseOther _ _ other,PolicyState.residentCharge]
    have here : chargeTotal (k.evicted page).residents + PolicyState.residentCharge k.residents page =
        chargeTotal k.residents := by
      rw [evictedResidents,PolicyState.residentCharge]
      cases found : k.residents[page]? with
      | none => rw [eraseAbsent found]; rfl
      | some e =>
        have split := totalSplit (fun _ (e : ResidentEntry) => e.chargeBytes) found
        unfold chargeTotal
        simp only [Option.map_some,Option.getD_some]
        omega
    rw [others] at later
    rw [List.map_cons,List.sum_cons,Kernel.evictedAll,List.foldl_cons]
    unfold Kernel.evictedAll at later
    omega

theorem evictAllSafe (sound : Sound catalog capacityBytes offers offerBytes k) (distinct : victims.Nodup)
    (resident : ∀ page ∈ victims, page ∈ k.residents) :
    Safe (· = k.evictedAll victims) (victims.foldlM Kernel.evict k) := by
  induction victims generalizing k with
  | nil => exact rfl
  | cons page rest ih =>
    obtain ⟨fresh,distinct⟩ := List.nodup_cons.mp distinct
    rw [List.foldlM_cons]
    refine endsBind (evictSafe sound.stocked (resident page List.mem_cons_self)) (fun next same => ?_)
    subst same
    refine ih (evictedSound sound) distinct (fun p member => ?_)
    have other : p ≠ page := fun same => fresh (same ▸ member)
    have before := ExtTreeMap.mem_iff_isSome_getElem?.mp (resident p (List.mem_cons_of_mem _ member))
    rw [ExtTreeMap.mem_iff_isSome_getElem?,evictedResidents,getEraseOther _ _ other]
    exact before

end Victims

structure Catalogued (catalog : PageCatalog) : Prop where
  identity : ∀ id, (catalog.page id).id = id
  groups : ∀ layer expert, (catalog.groupPages layer expert).Nodup

def Kernel.inserted (k : Kernel) (page : PageDescriptor) (touch : Nat) (prefetchedUnused : Bool) : Kernel :=
  {k with
    residents := k.residents.insert page.id
      ⟨page.id,page.chargeBytes,page.logicalBytes,touch,k.policy.initialSegment,prefetchedUnused⟩,
    residentBytes := k.residentBytes + page.chargeBytes,
    metrics := k.metrics.admitted (k.residentBytes + page.chargeBytes)}

section Insertions
variable {catalog : PageCatalog} {capacityBytes touch : Nat} {k : Kernel} {unused : Bool}

theorem insertSafe {page : PageDescriptor} (fits : k.residentBytes + page.chargeBytes ≤ capacityBytes)
    (absent : page.id ∉ k.residents) :
    Safe (· = k.inserted page touch unused) (k.insert capacityBytes page touch unused) := by
  refine endsBind (checkedSafe ..) (fun _ sum => ?_)
  subst sum
  rw [if_neg (Nat.not_lt.mpr fits),if_neg absent]
  refine endsBind (admissionSafe ..) (fun _ counted => ?_)
  subst counted
  rfl

theorem insertedStocked (catalogued : Catalogued catalog) {id : PageId} (stocked : Stocked catalog capacityBytes k)
    (fits : k.residentBytes + (catalog.page id).chargeBytes ≤ capacityBytes) (absent : k.residents[id]? = none) :
    Stocked catalog capacityBytes (k.inserted (catalog.page id) touch unused) := by
  have same := catalogued.identity id
  refine ⟨everyInsert stocked.entries ⟨rfl,by rw [same],by rw [same]⟩,?_,fits⟩
  show k.residentBytes + (catalog.page id).chargeBytes = total _ (k.residents.insert (catalog.page id).id _)
  rw [totalInsert,same,totalAbsent _ absent,stocked.bytes,Nat.add_comm]
  rfl

end Insertions

end RunnelMoe.Sim
