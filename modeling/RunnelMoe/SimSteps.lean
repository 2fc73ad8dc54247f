import RunnelMoe.SimPlans

/-! Outcomes of a demand. A hit refreshes the page, a miss is bypassed or admitted after
its victims are gone; no other outcome exists, and no internal error. -/
namespace RunnelMoe.Sim
open Words KeyedSum Results Vectors
open Std (ExtTreeMap)

def ResidentEntry.stock (e : ResidentEntry) : ResidentEntry := {e with lastTouch := 0, segment := .lru}

def SameStock (before after : Residents) : Prop :=
  ∀ page : PageId, after[page]?.map ResidentEntry.stock = before[page]?.map ResidentEntry.stock

section Stock
variable {catalog : PageCatalog} {before after : Residents}

theorem sameTrans {middle : Residents} (first : SameStock before middle) (second : SameStock middle after) :
    SameStock before after := fun page => (second page).trans (first page)

theorem sameReplaced {page : PageId} {e new : ResidentEntry} (present : before[page]? = some e)
    (same : new.stock = e.stock) : SameStock before (before.insert page new) := by
  intro p
  rw [getInsert]
  split
  · rename_i here
    rw [here,present,Option.map_some,Option.map_some,same]
  · rfl

theorem demotedSame {protectedTarget touch : Nat} (ok : PolicyState.demoteOne protectedTarget touch before = some after) :
    SameStock before after := by
  unfold PolicyState.demoteOne at ok
  split at ok
  · contradiction
  split at ok
  · contradiction
  split at ok
  · contradiction
  · rename_i present
    cases ok
    exact sameReplaced present rfl

theorem rebalancedSame (protectedTarget touch rounds : Nat) (residents : Residents) :
    SameStock residents (PolicyState.rebalanceProtected protectedTarget touch rounds residents) := by
  induction rounds generalizing residents with
  | zero => exact fun _ => rfl
  | succ rounds ih =>
    unfold PolicyState.rebalanceProtected
    split
    · exact fun _ => rfl
    · rename_i next demoted
      exact sameTrans (demotedSame demoted) (ih next)

theorem hitSame (policy : PolicyState) (residents : Residents) (page : PageId) (touch : Nat) :
    SameStock residents (policy.onHit residents page touch) := by
  unfold PolicyState.onHit
  split
  · exact fun _ => rfl
  · rename_i e present
    simp only
    split
    · exact sameReplaced present rfl
    · split
      · refine sameTrans ?_ (rebalancedSame _ _ _ _)
        exact sameReplaced present rfl
      · exact sameReplaced present rfl

theorem sameCharge (same : SameStock before after) : chargeTotal after = chargeTotal before :=
  totalProjected ResidentEntry.stock (fun _ e => e.chargeBytes) same

theorem sameUnused (same : SameStock before after) : unusedTotal after = unusedTotal before :=
  totalProjected ResidentEntry.stock (fun _ e => e.unused) same

theorem sameUnusedBytes (same : SameStock before after) : unusedBytesTotal after = unusedBytesTotal before :=
  totalProjected ResidentEntry.stock (fun _ e => e.unusedBytes) same

theorem sameFound (same : SameStock before after) {page : PageId} {e : ResidentEntry} (present : after[page]? = some e) :
    ∃ old, before[page]? = some old ∧ e.stock = old.stock := by
  have here := same page
  rw [present,Option.map_some] at here
  obtain ⟨old,found,equal⟩ := Option.map_eq_some_iff.mp here.symm
  exact ⟨old,found,equal.symm⟩

theorem sameEntries (same : SameStock before after) (entries : Every before (EntrySound catalog)) :
    Every after (EntrySound catalog) := by
  intro page e present
  obtain ⟨old,found,equal⟩ := sameFound same present
  have sound := entries page old found
  obtain ⟨id,charge,logical⟩ := sound
  have parts := ResidentEntry.mk.inj equal
  exact ⟨parts.1.trans id,parts.2.1.trans charge,parts.2.2.1.trans logical⟩

end Stock

def Kernel.demanded (k : Kernel) (policy : PolicyState) (bytes : Nat) : Kernel :=
  {k with policy := policy, metrics := k.metrics.demanded bytes, touch := k.touch + 1}

def Kernel.missed (k : Kernel) (bytes : Nat) : Kernel := {k with metrics := k.metrics.missed bytes}

inductive Served (catalog : PageCatalog) (capacityBytes sequence request step : Nat) (id : PageId) (k : Kernel) :
    Kernel → Prop where
  | hit {e : ResidentEntry} (present : k.residents[id]? = some e) (ordinary : e.prefetchedUnused = false) :
      Served catalog capacityBytes sequence request step id k
        ((({k with metrics := k.metrics.ordinaryHit (catalog.page id).logicalBytes} : Kernel).hashEvent sequence
          .demandHit (some id) []).onHit id)
  | useful {e : ResidentEntry} (present : k.residents[id]? = some e) (unused : e.prefetchedUnused = true) :
      Served catalog capacityBytes sequence request step id k
        ((({k with
          residents := k.residents.insert id {e with prefetchedUnused := false},
          metrics := k.metrics.usefulHit (catalog.page id).logicalBytes} : Kernel).hashEvent sequence
          .demandUsefulPrefetchHit (some id) []).onHit id)
  | bypass (absent : k.residents[id]? = none)
      (planned : k.policy.planDemandVictims catalog k.residents
        ⟨k.residentBytes,capacityBytes,catalog.page id,request,step⟩ = .ok none) :
      Served catalog capacityBytes sequence request step id k
        (({k with metrics := (k.metrics.missed (catalog.page id).logicalBytes).bypassed} : Kernel).hashEvent sequence
          .demandMissBypass (some id) [])
  | admitted {victims : List PageId} (absent : k.residents[id]? = none)
      (planned : k.policy.planDemandVictims catalog k.residents
        ⟨k.residentBytes,capacityBytes,catalog.page id,request,step⟩ = .ok (some victims))
      (frees : Frees k.residents k.residentBytes capacityBytes (catalog.page id).chargeBytes victims) :
      Served catalog capacityBytes sequence request step id k
        ((((k.missed (catalog.page id).logicalBytes).evictedAll victims).inserted (catalog.page id) k.touch
          false).hashEvent sequence .demandMissAdmit (some id) victims)

section Demands
variable {catalog : PageCatalog} {capacityBytes sequence request step : Nat} {id : PageId} {k k' : Kernel}

variable {e : ResidentEntry} {policy : PolicyState}

theorem demandHitServed (catalogued : Catalogued catalog) (present : k.residents[id]? = some e) :
    Safe (Served catalog capacityBytes sequence request step id k) (k.demandHit sequence (catalog.page id) e) := by
  unfold Kernel.demandHit
  rw [catalogued.identity]
  split
  · rename_i unused
    refine endsBind (usefulSafe ..) (fun _ same => ?_)
    subst same
    exact .useful present unused
  · rename_i used
    refine endsBind (ordinarySafe ..) (fun _ same => ?_)
    subst same
    exact .hit present (Bool.eq_false_iff.mpr used)

theorem missedSound (sound : Sound catalog capacityBytes 0 0 k) (bytes : Nat) (policy : PolicyState) :
    Sound catalog capacityBytes 0 0 ((k.demanded policy bytes).missed bytes) := by
  obtain ⟨⟨entries,charges,within⟩,balanced⟩ := sound
  refine ⟨⟨entries,charges,within⟩,?_⟩
  have accesses := balanced.accesses
  have accessBytes := balanced.accessBytes
  have fills := balanced.fills
  refine {balanced with accesses := ?_, accessBytes := ?_, fills := ?_}
  · show k.metrics.ordinaryDemandHits + k.metrics.usefulPrefetchHits + (k.metrics.demandMisses + 1) =
      k.metrics.demandAccesses + 1
    omega
  · show k.metrics.ordinaryDemandHitBytes + k.metrics.usefulPrefetchHitBytes + (k.metrics.demandMissBytes + bytes) =
      k.metrics.demandLogicalBytes + bytes
    omega
  · show k.metrics.demandLoadBytes + bytes = k.metrics.demandMissBytes + bytes
    omega

theorem roomLeft {victims : List PageId} (stocked : Stocked catalog capacityBytes k) {required : Nat}
    (frees : Frees k.residents k.residentBytes capacityBytes required victims)
    (after : Stocked catalog capacityBytes (k.evictedAll victims)) :
    (k.evictedAll victims).residentBytes + required ≤ capacityBytes := by
  have charge := allCharge frees.distinct k
  have enough := frees.enough
  rw [← stocked.bytes,← after.bytes] at charge
  omega

theorem evictedAbsent {victims : List PageId} (absent : k.residents[id]? = none) :
    (k.evictedAll victims).residents[id]? = none := by
  rw [allLookup,absent]
  split <;> rfl

theorem absentOut {residents : Residents} (absent : residents[id]? = none) : id ∉ residents := fun member => by
  rw [ExtTreeMap.mem_iff_isSome_getElem?,absent] at member
  contradiction

theorem demandMissServed (catalogued : Catalogued catalog)
    (sound : Sound catalog capacityBytes 0 0 k) (absent : k.residents[id]? = none) :
    Safe (Served catalog capacityBytes sequence request step id (k.demanded policy (catalog.page id).logicalBytes))
      ((k.demanded policy (catalog.page id).logicalBytes).demandMiss catalog capacityBytes sequence request step
        (catalog.page id)) := by
  have missed := missedSound sound (catalog.page id).logicalBytes policy
  refine endsBind (missSafe ..) (fun _ same => ?_)
  subst same
  refine endsBindOk (planDemandSafe policy missed.stocked.entries missed.stocked.within) (fun planned plan frees => ?_)
  cases planned with
  | none =>
    refine endsBind (bypassSafe _) (fun _ same => ?_)
    subst same
    rw [catalogued.identity]
    exact .bypass absent plan
  | some victims =>
    have frees := frees victims rfl
    have after := allSound victims missed
    have room := roomLeft missed.stocked frees after.stocked
    refine endsBind (evictAllSafe missed frees.distinct frees.resident) (fun _ same => ?_)
    subst same
    have out : (catalog.page id).id ∉ (((k.demanded policy (catalog.page id).logicalBytes).missed
        (catalog.page id).logicalBytes).evictedAll victims).residents := by
      rw [catalogued.identity]
      exact absentOut (evictedAbsent absent)
    refine endsBind (insertSafe room out) (fun _ same => ?_)
    subst same
    have touch := (allFrame ((k.demanded policy (catalog.page id).logicalBytes).missed
        (catalog.page id).logicalBytes) victims).2.1
    show Served catalog capacityBytes sequence request step id _ (((((k.demanded policy
      (catalog.page id).logicalBytes).missed (catalog.page id).logicalBytes).evictedAll victims).inserted
        (catalog.page id) (((k.demanded policy (catalog.page id).logicalBytes).missed
          (catalog.page id).logicalBytes).evictedAll victims).touch false).hashEvent sequence .demandMissAdmit
            (some (catalog.page id).id) victims)
    rw [touch,catalogued.identity]
    exact .admitted absent plan frees

theorem demandServed (catalogued : Catalogued catalog) (sound : Sound catalog capacityBytes 0 0 k)
    (entering : Safe (fun _ => True) (k.policy.enterDemandStep request step)) :
    Safe (fun k' => ∃ policy, k.policy.enterDemandStep request step = .ok policy ∧
        Served catalog capacityBytes sequence request step id
          (k.demanded (policy.observeDemand id) (catalog.page id).logicalBytes) k')
      (k.demand catalog capacityBytes sequence request step id) := by
  refine endsBindOk entering (fun policy entered _ => ?_)
  refine endsBind (demandSafe ..) (fun _ same => ?_)
  subst same
  refine endsBind (addOneSafe ..) (fun _ same => ?_)
  subst same
  simp only
  split
  · rename_i e present
    exact endsMono (demandHitServed (k := k.demanded (policy.observeDemand id) _) catalogued present)
      (fun _ served => ⟨policy,entered,served⟩)
  · rename_i absent
    exact endsMono (demandMissServed catalogued sound absent) (fun _ served => ⟨policy,entered,served⟩)

theorem hitSound (sound : Sound catalog capacityBytes 0 0 k) {decisions : List Decision} :
    Sound catalog capacityBytes 0 0 (({k.demanded policy (catalog.page id).logicalBytes with
      metrics := (k.metrics.demanded (catalog.page id).logicalBytes).ordinaryHit (catalog.page id).logicalBytes,
      decisions := decisions} : Kernel).onHit id) := by
  obtain ⟨⟨entries,charges,within⟩,balanced⟩ := sound
  have same := hitSame policy k.residents id (k.touch + 1)
  have accesses := balanced.accesses
  have accessBytes := balanced.accessBytes
  refine ⟨⟨sameEntries same entries,charges.trans (sameCharge same).symm,within⟩,?_⟩
  show Balanced _ 0 0 (unusedTotal (policy.onHit k.residents id (k.touch + 1)))
    (unusedBytesTotal (policy.onHit k.residents id (k.touch + 1)))
  rw [sameUnused same,sameUnusedBytes same]
  refine {balanced with accesses := ?_, accessBytes := ?_}
  · show k.metrics.ordinaryDemandHits + 1 + k.metrics.usefulPrefetchHits + k.metrics.demandMisses =
      k.metrics.demandAccesses + 1
    omega
  · show k.metrics.ordinaryDemandHitBytes + (catalog.page id).logicalBytes + k.metrics.usefulPrefetchHitBytes +
      k.metrics.demandMissBytes = k.metrics.demandLogicalBytes + (catalog.page id).logicalBytes
    omega

theorem usedTotals {residents : Residents} (present : residents[id]? = some e)
    (unused : e.prefetchedUnused = true) :
    chargeTotal (residents.insert id {e with prefetchedUnused := false}) = chargeTotal residents ∧
      unusedTotal (residents.insert id {e with prefetchedUnused := false}) + 1 = unusedTotal residents ∧
      unusedBytesTotal (residents.insert id {e with prefetchedUnused := false}) + e.logicalBytes =
        unusedBytesTotal residents := by
  unfold chargeTotal unusedTotal unusedBytesTotal
  simp only [totalInsert,totalSplit _ present,ResidentEntry.unused,ResidentEntry.unusedBytes,unused,if_true]
  exact ⟨trivial,by simp; omega,by simp; omega⟩

theorem usefulSound (sound : Sound catalog capacityBytes 0 0 k) {decisions : List Decision} (present : k.residents[id]? = some e) (unused : e.prefetchedUnused = true) :
    Sound catalog capacityBytes 0 0 (({k.demanded policy (catalog.page id).logicalBytes with
      residents := k.residents.insert id {e with prefetchedUnused := false},
      metrics := (k.metrics.demanded (catalog.page id).logicalBytes).usefulHit (catalog.page id).logicalBytes,
      decisions := decisions} : Kernel).onHit id) := by
  obtain ⟨⟨entries,charges,within⟩,balanced⟩ := sound
  obtain ⟨page,charge,logical⟩ := entries id e present
  obtain ⟨charged,count,bytes⟩ := usedTotals present unused
  have same := hitSame policy (k.residents.insert id {e with prefetchedUnused := false}) id (k.touch + 1)
  have accesses := balanced.accesses
  have accessBytes := balanced.accessBytes
  have admitted := balanced.admitted
  have admittedBytes := balanced.admittedBytes
  refine ⟨⟨sameEntries same (everyInsert entries ⟨page,charge,logical⟩),
    charges.trans (charged.symm.trans (sameCharge same).symm),within⟩,?_⟩
  show Balanced _ 0 0 (unusedTotal (policy.onHit _ id (k.touch + 1))) (unusedBytesTotal (policy.onHit _ id (k.touch + 1)))
  rw [sameUnused same,sameUnusedBytes same]
  refine {balanced with accesses := ?_, accessBytes := ?_, admitted := ?_, admittedBytes := ?_}
  · show k.metrics.ordinaryDemandHits + (k.metrics.usefulPrefetchHits + 1) + k.metrics.demandMisses =
      k.metrics.demandAccesses + 1
    omega
  · show k.metrics.ordinaryDemandHitBytes + (k.metrics.usefulPrefetchHitBytes + (catalog.page id).logicalBytes) +
      k.metrics.demandMissBytes = k.metrics.demandLogicalBytes + (catalog.page id).logicalBytes
    omega
  · show k.metrics.prefetchUseful + 1 + k.metrics.prefetchWasted + _ = k.metrics.prefetchAdmitted
    omega
  · show k.metrics.prefetchUsefulBytes + (catalog.page id).logicalBytes + k.metrics.prefetchWastedBytes + _ =
      k.metrics.prefetchLoadBytes
    omega

theorem admittedSound (catalogued : Catalogued catalog) {touch : Nat} (sound : Sound catalog capacityBytes 0 0 k)
    (room : k.residentBytes + (catalog.page id).chargeBytes ≤ capacityBytes) (absent : k.residents[id]? = none) :
    Sound catalog capacityBytes 0 0 (k.inserted (catalog.page id) touch false) := by
  have stocked : Stocked catalog capacityBytes (k.inserted (catalog.page id) touch false) :=
    insertedStocked catalogued sound.stocked room absent
  refine ⟨stocked,?_⟩
  have count : unusedTotal (k.inserted (catalog.page id) touch false).residents = unusedTotal k.residents := by
    rw [unusedTotal,Kernel.inserted,totalInsert,catalogued.identity,totalAbsent _ absent]
    exact Nat.zero_add _
  have bytes : unusedBytesTotal (k.inserted (catalog.page id) touch false).residents =
      unusedBytesTotal k.residents := by
    rw [unusedBytesTotal,Kernel.inserted,totalInsert,catalogued.identity,totalAbsent _ absent]
    exact Nat.zero_add _
  rw [count,bytes]
  exact {sound.balanced with}

theorem servedPolicy (served : Served catalog capacityBytes sequence request step id k k') : k'.policy = k.policy := by
  cases served with
  | hit | useful | bypass => rfl
  | admitted => exact (allFrame ..).1

theorem servedSound (catalogued : Catalogued catalog) (sound : Sound catalog capacityBytes 0 0 k)
    (served : Served catalog capacityBytes sequence request step id
      (k.demanded policy (catalog.page id).logicalBytes) k') : Sound catalog capacityBytes 0 0 k' := by
  have missed := missedSound sound (catalog.page id).logicalBytes policy
  cases served with
  | hit => exact hitSound sound
  | useful present unused => exact usefulSound sound present unused
  | bypass =>
    exact hashedSound ⟨⟨missed.stocked.entries,missed.stocked.bytes,missed.stocked.within⟩,{missed.balanced with}⟩
  | @admitted victims absent _ frees =>
    have after := allSound victims missed
    have room := roomLeft missed.stocked frees after.stocked
    exact hashedSound (admittedSound catalogued after room (evictedAbsent absent))

end Demands

end RunnelMoe.Sim
