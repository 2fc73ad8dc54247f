import RunnelMoe.SimOracle
import RunnelMoe.SimPolicy

/-! Shared simulation kernel and byte-accounting state transitions. The kernel reads
the trace it borrows through the catalog only, so the catalog and the capacity are
parameters. The log of decisions stands for the bytes that the source hashes. -/
namespace RunnelMoe.Sim
open Words KeyedSum Results Vectors
open Std (ExtTreeMap)

inductive DecisionTag where
  | demandUsefulPrefetchHit
  | demandHit
  | demandMissBypass
  | demandMissAdmit
  | signalIgnored
  | signalEmpty
  | signalAdmissionOnly
  | prefetchRedundant
  | prefetchDropPageLimit
  | prefetchDropByteLimit
  | prefetchDropAdmission
  | prefetchAdmit
  deriving DecidableEq, Repr

inductive Decision where
  | event (sequence : Nat) (tag : DecisionTag) (page : Option PageId) (victims : List PageId)
  | prefetch (sequence : Nat) (tag : DecisionTag) (offered redundant admittedOrDropped victims : List PageId)
  deriving DecidableEq, Repr

structure Kernel where
  policy : PolicyState
  residents : Residents
  residentBytes : Nat
  metrics : SimulationMetrics
  decisions : List Decision
  touch : Nat

structure PrefetchGroup where
  sequence : Nat
  request : Nat
  targetStep : Nat
  prediction : ExpertPrediction
  pageIds : List PageId
  deriving DecidableEq, Repr

structure PrefetchBudget where
  remainingPages : Nat
  remainingBytes : Nat
  deriving DecidableEq, Repr

def signalCeiling (config : RouterPolicyConfig) (limit : Nat) : TraceEvent → Except SimError Nat
  | .demand _ _ _ _ => .ok limit
  | .routerSignal _ _ _ _ predictions =>
    let selected := min (predictions.filter (fun p => p.scorePpm ≥ config.minimumScorePpm)).length
      config.maxExpertsPerSignal
    if selected = 0 then .ok limit
    else do
      let bytes ← routerSignalMetadataBytes selected
      okOr (.counterOverflow "router metadata ceiling") (checkedAdd limit bytes)

/-- The accounting-only ceiling, computed before the replay. -/
def routerMetadataLimit (events : List TraceEvent) (spec : PolicySpec) : Except SimError Nat :=
  match spec with
  | .routerAdmit config | .routerPrefetch config => events.foldlM (signalCeiling config) 0
  | _ => .ok 0

namespace Kernel

def new (trace : ValidatedTrace) (config : SimulationConfig) : Except SimError Kernel := do
  let metadataLimitBytes ← routerMetadataLimit trace.events config.policy
  let policy ← PolicyState.new config.policy config.capacityBytes metadataLimitBytes
  .ok ⟨policy,∅,0,.zero,[],0⟩

def nextTouch (k : Kernel) : Except SimError Kernel := do
  let touch ← add k.touch 1 "policy touch clock"
  .ok {k with touch := touch}

def hashEvent (k : Kernel) (sequence : Nat) (tag : DecisionTag) (page : Option PageId) (victims : List PageId) :
    Kernel :=
  {k with decisions := k.decisions ++ [.event sequence tag page victims]}

def hashPrefetchDecision (k : Kernel) (sequence : Nat) (tag : DecisionTag)
    (offered redundant admittedOrDropped victims : List PageId) : Kernel :=
  {k with decisions := k.decisions ++ [.prefetch sequence tag offered redundant admittedOrDropped victims]}

def accountWastedPrefetch (k : Kernel) (entry : ResidentEntry) : Except SimError Kernel :=
  if entry.prefetchedUnused then do
    let metrics ← k.metrics.countWasted entry.logicalBytes
    .ok {k with metrics := metrics}
  else .ok k

def evict (k : Kernel) (page : PageId) : Except SimError Kernel :=
  match k.residents[page]? with
  | none => .error (.invalidConfig "victim plan referenced a nonresident page")
  | some entry => do
    let k ← ({k with residents := k.residents.erase page} : Kernel).accountWastedPrefetch entry
    let residentBytes ← okOr (.invalidConfig "resident-byte ledger underflow")
      (checkedSub k.residentBytes entry.chargeBytes)
    let metrics ← k.metrics.countEviction entry.chargeBytes
    .ok {k with residentBytes := residentBytes, metrics := metrics}

def insert (capacityBytes : Nat) (k : Kernel) (page : PageDescriptor) (touch : Nat) (prefetchedUnused : Bool) :
    Except SimError Kernel := do
  let residentBytes ← okOr (.counterOverflow "resident charge") (checkedAdd k.residentBytes page.chargeBytes)
  if residentBytes > capacityBytes then
    .error (.invalidConfig "atomic victim plan did not free enough capacity")
  else if page.id ∈ k.residents then .error (.invalidConfig "attempted to insert an already resident page")
  else
    let metrics ← k.metrics.countAdmission residentBytes
    .ok {k with
      residents := k.residents.insert page.id
        ⟨page.id,page.chargeBytes,page.logicalBytes,touch,k.policy.initialSegment,prefetchedUnused⟩,
      residentBytes := residentBytes, metrics := metrics}

section Steps
variable (catalog : PageCatalog) (capacityBytes : Nat)

def onHit (k : Kernel) (page : PageId) : Kernel :=
  {k with residents := k.policy.onHit k.residents page k.touch}

def demandHit (k : Kernel) (sequence : Nat) (page : PageDescriptor) (entry : ResidentEntry) : Except SimError Kernel :=
  if entry.prefetchedUnused then do
    let metrics ← k.metrics.countUsefulHit page.logicalBytes
    let used := k.residents.insert page.id {entry with prefetchedUnused := false}
    let k : Kernel := {k with residents := used, metrics := metrics}
    .ok ((k.hashEvent sequence .demandUsefulPrefetchHit (some page.id) []).onHit page.id)
  else do
    let metrics ← k.metrics.countOrdinaryHit page.logicalBytes
    let k : Kernel := {k with metrics := metrics}
    .ok ((k.hashEvent sequence .demandHit (some page.id) []).onHit page.id)

def demandMiss (k : Kernel) (sequence request step : Nat) (page : PageDescriptor) : Except SimError Kernel := do
  let metrics ← k.metrics.countMiss page.logicalBytes
  let k : Kernel := {k with metrics := metrics}
  let planned ← k.policy.planDemandVictims catalog k.residents ⟨k.residentBytes,capacityBytes,page,request,step⟩
  match planned with
    | none => do
      let metrics ← k.metrics.countBypass
      .ok (({k with metrics := metrics} : Kernel).hashEvent sequence .demandMissBypass (some page.id) [])
    | some victims => do
      let k ← victims.foldlM evict k
      let k ← k.insert capacityBytes page k.touch false
      .ok (k.hashEvent sequence .demandMissAdmit (some page.id) victims)

def demand (k : Kernel) (sequence request step : Nat) (pageId : PageId) : Except SimError Kernel := do
  let page := catalog.page pageId
  let policy ← k.policy.enterDemandStep request step
  let metrics ← k.metrics.countDemand page.logicalBytes
  let k ← ({k with policy := policy.observeDemand pageId, metrics := metrics} : Kernel).nextTouch
  match k.residents[pageId]? with
    | some entry => k.demandHit sequence page entry
    | none => k.demandMiss catalog capacityBytes sequence request step page

def offerPrefetch (k : Kernel) (id : PageId) : Except SimError Kernel := do
  let metrics ← k.metrics.countOffered (catalog.page id).logicalBytes
  .ok {k with metrics := metrics}

def redundantPrefetch (k : Kernel) (id : PageId) : Except SimError Kernel :=
  if id ∈ k.residents then do
    let metrics ← k.metrics.countRedundant (catalog.page id).logicalBytes
    .ok {k with metrics := metrics}
  else .ok k

def dropPrefetch (k : Kernel) (id : PageId) : Except SimError Kernel := do
  let metrics ← k.metrics.countDropped (catalog.page id).logicalBytes
  .ok {k with metrics := metrics}

def dropPrefetches (k : Kernel) (pages : List PageId) : Except SimError Kernel := pages.foldlM (dropPrefetch catalog) k

def admitPrefetch (k : Kernel) (id : PageId) : Except SimError Kernel := do
  let page := catalog.page id
  let k ← k.nextTouch
  let k ← k.insert capacityBytes page k.touch true
  let metrics ← k.metrics.countPrefetched page.logicalBytes
  .ok {k with metrics := metrics}

def tryPrefetch (k : Kernel) (group : PrefetchGroup) (budget : PrefetchBudget) (redundant absent : List PageId) :
    Except SimError (Kernel × PrefetchBudget) :=
  let dropped (tag : DecisionTag) : Except SimError (Kernel × PrefetchBudget) := do
    let k ← k.dropPrefetches catalog absent
    .ok (k.hashPrefetchDecision group.sequence tag group.pageIds redundant absent [],budget)
  if absent.isEmpty then
    .ok (k.hashPrefetchDecision group.sequence .prefetchRedundant group.pageIds redundant [] [],budget)
  else if absent.length > budget.remainingPages then dropped .prefetchDropPageLimit
  else do
    let loadBytes ← absent.foldlM (fun total id =>
      okOr (.counterOverflow "prefetch group load") (checkedAdd total (catalog.page id).logicalBytes)) 0
    if loadBytes > budget.remainingBytes then dropped .prefetchDropByteLimit
    else
      let planned ← k.policy.planPrefetchVictims catalog k.residents
        ⟨k.residentBytes,capacityBytes,absent,group.request,group.targetStep,group.prediction.scorePpm⟩
      match planned with
        | none => dropped .prefetchDropAdmission
        | some victims => do
          let k ← victims.foldlM evict k
          let k ← absent.foldlM (admitPrefetch catalog capacityBytes) k
          let remainingBytes ← okOr (.invalidConfig "prefetch byte budget underflow")
            (checkedSub budget.remainingBytes loadBytes)
          .ok (k.hashPrefetchDecision group.sequence .prefetchAdmit group.pageIds redundant absent victims,
            ⟨budget.remainingPages - absent.length,remainingBytes⟩)

def prefetchGroup (k : Kernel) (group : PrefetchGroup) (budget : PrefetchBudget) :
    Except SimError (Kernel × PrefetchBudget) := do
  let redundant := group.pageIds.filter (fun id => id ∈ k.residents)
  let absent := group.pageIds.filter (fun id => id ∉ k.residents)
  let k ← group.pageIds.foldlM (offerPrefetch catalog) k
  let k ← group.pageIds.foldlM (redundantPrefetch catalog) k
  k.tryPrefetch catalog capacityBytes group budget redundant absent

def selectPredictions (config : RouterPolicyConfig) (predictions : List ExpertPrediction) : List ExpertPrediction :=
  (sortByKey (fun p => toLex (OrderDual.toDual p.scorePpm,p.expert))
    (predictions.filter (fun p => p.scorePpm ≥ config.minimumScorePpm))).take config.maxExpertsPerSignal

def prefetchExpert (sequence request targetStep layer : Nat) (k : Kernel × PrefetchBudget)
    (prediction : ExpertPrediction) : Except SimError (Kernel × PrefetchBudget) :=
  if k.2.remainingPages = 0 then .ok k
  else k.1.prefetchGroup catalog capacityBytes
    ⟨sequence,request,targetStep,prediction,catalog.groupPages layer prediction.expert⟩ k.2

def signal (k : Kernel) (sequence request targetStep layer : Nat) (predictions : List ExpertPrediction) :
    Except SimError Kernel :=
  match k.policy.routerConfig with
  | none => .ok (k.hashEvent sequence .signalIgnored none [])
  | some config => do
    let selected := selectPredictions config predictions
    if selected.isEmpty then .ok (k.hashEvent sequence .signalEmpty none [])
    else
      let policy ← k.policy.recordSignal request targetStep layer selected
      let k : Kernel := {k with policy := policy}
      if !policy.prefetchEnabled then .ok (k.hashEvent sequence .signalAdmissionOnly none [])
      else
        let (k,_) ← selected.foldlM (prefetchExpert catalog capacityBytes sequence request targetStep layer)
          (k,⟨config.maxPagesPerSignal,config.maxPrefetchBytesPerSignal⟩)
        .ok k

def event (k : Kernel) : TraceEvent → Except SimError Kernel
  | .demand sequence request step page => k.demand catalog capacityBytes sequence request step page
  | .routerSignal sequence request targetStep layer predictions =>
    k.signal catalog capacityBytes sequence request targetStep layer predictions

end Steps

def finish (k : Kernel) : Except SimError Kernel := do
  let k ← ((residentValues k.residents).filter ResidentEntry.prefetchedUnused).foldlM accountWastedPrefetch k
  let (metadataBytes,metadataLimitBytes) ← k.policy.finishMetadata
  let metrics ← ({k.metrics with
    finalResidentChargeBytes := k.residentBytes, policyMetadataBytes := metadataBytes,
    policyMetadataLimitBytes := metadataLimitBytes} : SimulationMetrics).finish
  .ok {k with metrics := metrics}

def run (k : Kernel) (trace : ValidatedTrace) (capacityBytes : Nat) : Except SimError Kernel := do
  let k ← trace.events.foldlM (event trace.catalog capacityBytes) k
  k.finish

end Kernel

structure SimulationResult where
  schema : String
  traceId : String
  policy : String
  policySpec : PolicySpec
  capacityBytes : Nat
  oracleOptimal : Bool
  metrics : SimulationMetrics
  decisions : List BeladyDecision ⊕ List Decision
  deriving DecidableEq, Repr

def simulate (trace : ValidatedTrace) (config : SimulationConfig) : Except SimError SimulationResult :=
  let result (oracleOptimal : Bool) (metrics : SimulationMetrics) (decisions : List BeladyDecision ⊕ List Decision) :
      SimulationResult :=
    ⟨resultSchema,trace.header.traceId,config.policy.name,config.policy,config.capacityBytes,oracleOptimal,metrics,
      decisions⟩
  match config.policy with
  | .belady => do
    let replay ← simulateBelady trace config.capacityBytes
    .ok (result replay.oracleOptimal replay.metrics (.inl replay.decisions))
  | _ => do
    let k ← Kernel.new trace config
    let k ← k.run trace config.capacityBytes
    .ok (result false k.metrics (.inr k.decisions))

end RunnelMoe.Sim
