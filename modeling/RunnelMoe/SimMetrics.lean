import RunnelMoe.Results
import RunnelMoe.SimModel

/-! Checked byte and event accounting. Every counter is a word and an addition that
leaves the word is an error that names the counter, so in a replay that ends without
an error every counter is an exact sum. The groups of additions that the replay makes
together are named here, in the order in which the source makes them. -/
namespace RunnelMoe.Sim
open Words Results

structure SimulationMetrics where
  demandAccesses : Nat
  demandLogicalBytes : Nat
  ordinaryDemandHits : Nat
  ordinaryDemandHitBytes : Nat
  usefulPrefetchHits : Nat
  usefulPrefetchHitBytes : Nat
  demandMisses : Nat
  demandMissBytes : Nat
  demandLoadBytes : Nat
  prefetchOffered : Nat
  prefetchOfferedBytes : Nat
  prefetchAdmitted : Nat
  prefetchLoadBytes : Nat
  prefetchUseful : Nat
  prefetchUsefulBytes : Nat
  prefetchWasted : Nat
  prefetchWastedBytes : Nat
  prefetchRedundant : Nat
  prefetchRedundantBytes : Nat
  prefetchDropped : Nat
  prefetchDroppedBytes : Nat
  admissions : Nat
  bypasses : Nat
  evictions : Nat
  evictedChargeBytes : Nat
  finalResidentChargeBytes : Nat
  peakResidentChargeBytes : Nat
  policyMetadataBytes : Nat
  policyMetadataLimitBytes : Nat
  totalPhysicalLoadBytes : Nat
  deriving DecidableEq, Repr

def SimulationMetrics.zero : SimulationMetrics :=
  ⟨0,0,0,0,0,0,0,0,0,0,0,0,0,0,0,0,0,0,0,0,0,0,0,0,0,0,0,0,0,0⟩

def add (target value : Nat) (counter : String) : Except SimError Nat :=
  match checkedAdd target value with
  | none => .error (.counterOverflow counter)
  | some sum => .ok sum

theorem addOk {target value sum : Nat} {counter : String} :
    add target value counter = .ok sum ↔ target + value < modulus ∧ sum = target + value := by
  unfold add
  cases done : checkedAdd target value with
  | none =>
    have large := checkedAddNone.mp done
    exact ⟨nofun,fun both => absurd both.1 (by omega)⟩
  | some value =>
    have exact := checkedAddSome.mp done
    constructor
    · rintro ⟨⟩
      exact exact
    · rintro ⟨-,rfl⟩
      rw [exact.2]

def requireConfig (holds : Prop) [Decidable holds] (problem : String) : Except SimError Unit :=
  if holds then .ok () else .error (.invalidConfig problem)

theorem requireOk {holds : Prop} [Decidable holds] {problem : String} {done : Unit} :
    requireConfig holds problem = .ok done ↔ holds := by
  unfold requireConfig
  split <;> simp_all

namespace SimulationMetrics

section Counts
variable (m : SimulationMetrics) (logicalBytes : Nat)

def countDemand : Except SimError SimulationMetrics := do
  let accesses ← add m.demandAccesses 1 "demand_accesses"
  let bytes ← add m.demandLogicalBytes logicalBytes "demand_logical_bytes"
  .ok {m with demandAccesses := accesses, demandLogicalBytes := bytes}

def countOrdinaryHit : Except SimError SimulationMetrics := do
  let hits ← add m.ordinaryDemandHits 1 "ordinary_demand_hits"
  let bytes ← add m.ordinaryDemandHitBytes logicalBytes "ordinary_demand_hit_bytes"
  .ok {m with ordinaryDemandHits := hits, ordinaryDemandHitBytes := bytes}

def countUsefulHit : Except SimError SimulationMetrics := do
  let hits ← add m.usefulPrefetchHits 1 "useful_prefetch_hits"
  let hitBytes ← add m.usefulPrefetchHitBytes logicalBytes "useful_prefetch_hit_bytes"
  let useful ← add m.prefetchUseful 1 "prefetch_useful"
  let usefulBytes ← add m.prefetchUsefulBytes logicalBytes "prefetch_useful_bytes"
  .ok {m with
    usefulPrefetchHits := hits, usefulPrefetchHitBytes := hitBytes, prefetchUseful := useful,
    prefetchUsefulBytes := usefulBytes}

def countMiss : Except SimError SimulationMetrics := do
  let misses ← add m.demandMisses 1 "demand_misses"
  let missBytes ← add m.demandMissBytes logicalBytes "demand_miss_bytes"
  let loadBytes ← add m.demandLoadBytes logicalBytes "demand_load_bytes"
  .ok {m with demandMisses := misses, demandMissBytes := missBytes, demandLoadBytes := loadBytes}

def countBypass : Except SimError SimulationMetrics := do
  let bypasses ← add m.bypasses 1 "bypasses"
  .ok {m with bypasses := bypasses}

def countEviction (chargeBytes : Nat) : Except SimError SimulationMetrics := do
  let evictions ← add m.evictions 1 "evictions"
  let bytes ← add m.evictedChargeBytes chargeBytes "evicted_charge_bytes"
  .ok {m with evictions := evictions, evictedChargeBytes := bytes}

def countAdmission (residentBytes : Nat) : Except SimError SimulationMetrics := do
  let admissions ← add m.admissions 1 "admissions"
  .ok {m with
    admissions := admissions, peakResidentChargeBytes := max m.peakResidentChargeBytes residentBytes}

def countWasted : Except SimError SimulationMetrics := do
  let wasted ← add m.prefetchWasted 1 "prefetch_wasted"
  let bytes ← add m.prefetchWastedBytes logicalBytes "prefetch_wasted_bytes"
  .ok {m with prefetchWasted := wasted, prefetchWastedBytes := bytes}

def countOffered : Except SimError SimulationMetrics := do
  let offered ← add m.prefetchOffered 1 "prefetch_offered"
  let bytes ← add m.prefetchOfferedBytes logicalBytes "prefetch_offered_bytes"
  .ok {m with prefetchOffered := offered, prefetchOfferedBytes := bytes}

def countRedundant : Except SimError SimulationMetrics := do
  let redundant ← add m.prefetchRedundant 1 "prefetch_redundant"
  let bytes ← add m.prefetchRedundantBytes logicalBytes "prefetch_redundant_bytes"
  .ok {m with prefetchRedundant := redundant, prefetchRedundantBytes := bytes}

def countDropped : Except SimError SimulationMetrics := do
  let dropped ← add m.prefetchDropped 1 "prefetch_dropped"
  let bytes ← add m.prefetchDroppedBytes logicalBytes "prefetch_dropped_bytes"
  .ok {m with prefetchDropped := dropped, prefetchDroppedBytes := bytes}

def countPrefetched : Except SimError SimulationMetrics := do
  let admitted ← add m.prefetchAdmitted 1 "prefetch_admitted"
  let bytes ← add m.prefetchLoadBytes logicalBytes "prefetch_load_bytes"
  .ok {m with prefetchAdmitted := admitted, prefetchLoadBytes := bytes}

end Counts

section Counted
variable (m : SimulationMetrics) (bytes : Nat)

def demanded : SimulationMetrics :=
  {m with demandAccesses := m.demandAccesses + 1, demandLogicalBytes := m.demandLogicalBytes + bytes}

def ordinaryHit : SimulationMetrics :=
  {m with
    ordinaryDemandHits := m.ordinaryDemandHits + 1, ordinaryDemandHitBytes := m.ordinaryDemandHitBytes + bytes}

def usefulHit : SimulationMetrics :=
  {m with
    usefulPrefetchHits := m.usefulPrefetchHits + 1, usefulPrefetchHitBytes := m.usefulPrefetchHitBytes + bytes,
    prefetchUseful := m.prefetchUseful + 1, prefetchUsefulBytes := m.prefetchUsefulBytes + bytes}

def missed : SimulationMetrics :=
  {m with
    demandMisses := m.demandMisses + 1, demandMissBytes := m.demandMissBytes + bytes,
    demandLoadBytes := m.demandLoadBytes + bytes}

def bypassed : SimulationMetrics := {m with bypasses := m.bypasses + 1}

def evicted : SimulationMetrics :=
  {m with evictions := m.evictions + 1, evictedChargeBytes := m.evictedChargeBytes + bytes}

def admitted : SimulationMetrics :=
  {m with admissions := m.admissions + 1, peakResidentChargeBytes := max m.peakResidentChargeBytes bytes}

end Counted

def addThree (first second third : Nat) (identity : String) : Except SimError Nat := do
  let sum ← add first second identity
  add sum third identity

def finish (metrics : SimulationMetrics) : Except SimError SimulationMetrics := do
  let total ← add metrics.demandLoadBytes metrics.prefetchLoadBytes "total_physical_load_bytes"
  let m := {metrics with totalPhysicalLoadBytes := total}
  let hits ← addThree m.ordinaryDemandHits m.usefulPrefetchHits m.demandMisses "demand_accesses identity"
  requireConfig (hits = m.demandAccesses) "demand hit/miss accounting identity failed"
  let bytes ← addThree m.ordinaryDemandHitBytes m.usefulPrefetchHitBytes m.demandMissBytes
    "demand_logical_bytes identity"
  requireConfig (bytes = m.demandLogicalBytes) "demand byte accounting identity failed"
  requireConfig (m.demandLoadBytes = m.demandMissBytes) "every modeled demand miss must account one physical fill"
  let offers ← addThree m.prefetchAdmitted m.prefetchRedundant m.prefetchDropped "prefetch offer identity"
  requireConfig (offers = m.prefetchOffered) "prefetch offer classification identity failed"
  let offerBytes ← addThree m.prefetchLoadBytes m.prefetchRedundantBytes m.prefetchDroppedBytes
    "prefetch offer byte identity"
  requireConfig (offerBytes = m.prefetchOfferedBytes) "prefetch offer byte classification identity failed"
  let prefetches ← add m.prefetchUseful m.prefetchWasted "prefetch count identity"
  requireConfig (prefetches = m.prefetchAdmitted) "admitted prefetch classification identity failed"
  let prefetchBytes ← add m.prefetchUsefulBytes m.prefetchWastedBytes "prefetch byte identity"
  requireConfig (prefetchBytes = m.prefetchLoadBytes) "prefetch byte classification identity failed"
  .ok m

end SimulationMetrics

/-! Outcomes. Counting ends in the exact sum or in an overflow. -/

def SimError.overflow : SimError → Prop
  | .counterOverflow _ => True
  | _ => False

abbrev Safe {A : Type} (post : A → Prop) (x : Except SimError A) : Prop := Ends SimError.overflow post x

theorem safeOk {A : Type} {post : A → Prop} {x : Except SimError A} (safe : Safe post x)
    (fits : ∀ counter, x ≠ .error (.counterOverflow counter)) : ∃ a, x = .ok a ∧ post a := by
  cases x with
  | ok a => exact ⟨a,rfl,safe⟩
  | error e =>
    cases e with
    | counterOverflow counter => exact absurd rfl (fits counter)
    | _ => exact safe.elim

theorem checkedSafe (target value : Nat) (counter : String) :
    Safe (· = target + value) (okOr (.counterOverflow counter) (checkedAdd target value)) := by
  cases done : checkedAdd target value with
  | none => exact trivial
  | some sum => exact (checkedAddSome.mp done).2

theorem subtractSafe {target value : Nat} (error : SimError) (below : value ≤ target) :
    Safe (· = target - value) (okOr error (checkedSub target value)) := by
  rw [checkedSub,if_pos below]
  exact rfl

theorem addSafe (target value : Nat) (counter : String) : Safe (· = target + value) (add target value counter) := by
  cases done : add target value counter with
  | ok sum => exact (addOk.mp done).2
  | error e =>
    unfold add at done
    split at done
    · cases done
      exact trivial
    · contradiction

theorem sumSafe {I : Type} {step : Nat → I → Except SimError Nat} {weight : I → Nat} {items : List I}
    (counts : ∀ sum, ∀ a ∈ items, Safe (· = sum + weight a) (step sum a)) (start : Nat) :
    Safe (· = start + (items.map weight).sum) (items.foldlM step start) := by
  induction items generalizing start with
  | nil => exact rfl
  | cons a rest ih =>
    rw [List.foldlM_cons,List.map_cons,List.sum_cons,← Nat.add_assoc]
    refine endsBind (counts start a List.mem_cons_self) (fun _ same => ?_)
    subst same
    exact ih (fun sum b member => counts sum b (List.mem_cons_of_mem _ member)) _

theorem addOneSafe {A : Type} (x v : Nat) (c : String) (f : Nat → A) :
    Safe (· = f (x + v)) (do
      let a ← add x v c
      .ok (f a)) :=
  endsBind (addSafe x v c) (fun _ same => congrArg f same)

theorem addTwoSafe {A : Type} (x v y w : Nat) (c d : String) (f : Nat → Nat → A) :
    Safe (· = f (x + v) (y + w)) (do
      let a ← add x v c
      let b ← add y w d
      .ok (f a b)) := by
  refine endsBind (addSafe x v c) (fun a same => ?_)
  subst same
  exact addOneSafe y w d (f (x + v))

section Exact
open SimulationMetrics
variable (m : SimulationMetrics) (bytes : Nat)

theorem demandSafe : Safe (· = m.demanded bytes) (m.countDemand bytes) := addTwoSafe ..

theorem ordinarySafe : Safe (· = m.ordinaryHit bytes) (m.countOrdinaryHit bytes) := addTwoSafe ..

theorem usefulSafe : Safe (· = m.usefulHit bytes) (m.countUsefulHit bytes) := by
  refine endsBind (addSafe ..) (fun _ hits => endsBind (addSafe ..) (fun _ hitBytes => ?_))
  subst hits hitBytes
  exact addTwoSafe ..

theorem missSafe : Safe (· = m.missed bytes) (m.countMiss bytes) := by
  refine endsBind (addSafe ..) (fun _ misses => ?_)
  subst misses
  exact addTwoSafe ..

theorem bypassSafe : Safe (· = m.bypassed) m.countBypass := addOneSafe ..

theorem evictionSafe : Safe (· = m.evicted bytes) (m.countEviction bytes) := addTwoSafe ..

theorem admissionSafe : Safe (· = m.admitted bytes) (m.countAdmission bytes) := addOneSafe ..

theorem wastedSafe : Safe (· = {m with
    prefetchWasted := m.prefetchWasted + 1, prefetchWastedBytes := m.prefetchWastedBytes + bytes})
    (m.countWasted bytes) := addTwoSafe ..

theorem offeredSafe : Safe (· = {m with
    prefetchOffered := m.prefetchOffered + 1, prefetchOfferedBytes := m.prefetchOfferedBytes + bytes})
    (m.countOffered bytes) := addTwoSafe ..

theorem redundantSafe : Safe (· = {m with
    prefetchRedundant := m.prefetchRedundant + 1, prefetchRedundantBytes := m.prefetchRedundantBytes + bytes})
    (m.countRedundant bytes) := addTwoSafe ..

theorem droppedSafe : Safe (· = {m with
    prefetchDropped := m.prefetchDropped + 1, prefetchDroppedBytes := m.prefetchDroppedBytes + bytes})
    (m.countDropped bytes) := addTwoSafe ..

theorem prefetchedSafe : Safe (· = {m with
    prefetchAdmitted := m.prefetchAdmitted + 1, prefetchLoadBytes := m.prefetchLoadBytes + bytes})
    (m.countPrefetched bytes) := addTwoSafe ..

/-! The identities that the end of a replay checks. Offers that are not classified yet
and prefetched pages that are resident and unused are counted apart. -/

structure Balanced (m : SimulationMetrics) (offers offerBytes unused unusedBytes : Nat) : Prop where
  accesses : m.ordinaryDemandHits + m.usefulPrefetchHits + m.demandMisses = m.demandAccesses
  accessBytes : m.ordinaryDemandHitBytes + m.usefulPrefetchHitBytes + m.demandMissBytes = m.demandLogicalBytes
  fills : m.demandLoadBytes = m.demandMissBytes
  offered : m.prefetchAdmitted + m.prefetchRedundant + m.prefetchDropped + offers = m.prefetchOffered
  offeredBytes : m.prefetchLoadBytes + m.prefetchRedundantBytes + m.prefetchDroppedBytes + offerBytes =
    m.prefetchOfferedBytes
  admitted : m.prefetchUseful + m.prefetchWasted + unused = m.prefetchAdmitted
  admittedBytes : m.prefetchUsefulBytes + m.prefetchWastedBytes + unusedBytes = m.prefetchLoadBytes

theorem requireSafe {holds : Prop} [Decidable holds] (problem : String) (fact : holds) :
    Safe (fun _ => True) (requireConfig holds problem) := by
  rw [requireConfig,if_pos fact]
  exact trivial

theorem addThreeSafe (first second third : Nat) (identity : String) :
    Safe (· = first + second + third) (addThree first second third identity) := by
  refine endsBind (addSafe ..) (fun _ same => ?_)
  subst same
  exact addSafe ..

variable {m}

theorem finishSafe (balanced : Balanced m 0 0 0 0) :
    Safe (· = {m with totalPhysicalLoadBytes := m.demandLoadBytes + m.prefetchLoadBytes}) m.finish := by
  refine endsBind (addSafe ..) (fun _ total => ?_)
  refine endsBind (addThreeSafe ..) (fun _ hits => ?_)
  refine endsBind (requireSafe _ (hits.trans balanced.accesses)) (fun _ _ => ?_)
  refine endsBind (addThreeSafe ..) (fun _ bytes => ?_)
  refine endsBind (requireSafe _ (bytes.trans balanced.accessBytes)) (fun _ _ => ?_)
  refine endsBind (requireSafe _ balanced.fills) (fun _ _ => ?_)
  refine endsBind (addThreeSafe ..) (fun _ offers => ?_)
  refine endsBind (requireSafe _ (offers.trans balanced.offered)) (fun _ _ => ?_)
  refine endsBind (addThreeSafe ..) (fun _ offerBytes => ?_)
  refine endsBind (requireSafe _ (offerBytes.trans balanced.offeredBytes)) (fun _ _ => ?_)
  refine endsBind (addSafe ..) (fun _ prefetches => ?_)
  refine endsBind (requireSafe _ (prefetches.trans balanced.admitted)) (fun _ _ => ?_)
  refine endsBind (addSafe ..) (fun _ prefetchBytes => ?_)
  refine endsBind (requireSafe _ (prefetchBytes.trans balanced.admittedBytes)) (fun _ _ => ?_)
  subst total
  exact rfl

end Exact

theorem metricsFinished {m next : SimulationMetrics} (ok : m.finish = .ok next) :
    next = {m with totalPhysicalLoadBytes := m.demandLoadBytes + m.prefetchLoadBytes} := by
  simp only [SimulationMetrics.finish,bindOk,addOk] at ok
  obtain ⟨_,⟨-,rfl⟩,_,-,_,-,_,-,_,-,_,-,_,-,_,-,_,-,_,-,_,-,_,-,_,-,_,-,⟨⟩⟩ := ok
  rfl

theorem metricsBalanced {m next : SimulationMetrics} (ok : m.finish = .ok next) : Balanced m 0 0 0 0 := by
  simp only [SimulationMetrics.finish,SimulationMetrics.addThree,bindOk,addOk,requireOk] at ok
  obtain ⟨_,⟨-,rfl⟩,_,⟨_,⟨-,rfl⟩,-,rfl⟩,_,accesses,_,⟨_,⟨-,rfl⟩,-,rfl⟩,_,bytes,_,fills,_,⟨_,⟨-,rfl⟩,-,rfl⟩,_,offers,
    _,⟨_,⟨-,rfl⟩,-,rfl⟩,_,offerBytes,_,⟨-,rfl⟩,_,prefetches,_,⟨-,rfl⟩,_,prefetchBytes,-⟩ := ok
  exact ⟨accesses,bytes,fills,offers,offerBytes,prefetches,prefetchBytes⟩

end RunnelMoe.Sim
