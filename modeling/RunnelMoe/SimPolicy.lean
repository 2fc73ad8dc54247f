import Mathlib.Data.List.MinMax
import RunnelMoe.Results
import RunnelMoe.SimSketch
import RunnelMoe.Vectors

/-! Deterministic online policy state used by the shared cache kernel: what a policy
remembers, how it orders victims, and when it admits. A victim plan names resident
pages only, so a lookup of one always finds its entry. -/
namespace RunnelMoe.Sim
open Words KeyedSum Results Vectors
open Std (ExtTreeMap)

def ppm : Nat := 1000000
def routerSignalBaseBytes : Nat := 24
def routerPredictionBytes : Nat := 8

def routerSignalMetadataBytes (predictionCount : Nat) : Except SimError Nat := do
  let predictions ← okOr (.counterOverflow "router prediction metadata")
    (checkedMul predictionCount routerPredictionBytes)
  okOr (.counterOverflow "router signal metadata") (checkedAdd routerSignalBaseBytes predictions)

inductive Segment where
  | lru
  | probation
  | protectedSegment
  deriving DecidableEq, Repr

structure ResidentEntry where
  page : PageId
  chargeBytes : Nat
  logicalBytes : Nat
  lastTouch : Nat
  segment : Segment
  prefetchedUnused : Bool
  deriving DecidableEq, Repr

abbrev Residents := ExtTreeMap PageId ResidentEntry

def residentValues (residents : Residents) : List ResidentEntry := residents.toList.map Prod.snd

structure DemandPlan where
  residentBytes : Nat
  capacityBytes : Nat
  candidate : PageDescriptor
  request : Nat
  step : Nat
  deriving DecidableEq, Repr

structure PrefetchPlan where
  residentBytes : Nat
  capacityBytes : Nat
  absentPages : List PageId
  request : Nat
  targetStep : Nat
  candidateScore : Nat
  deriving DecidableEq, Repr

structure SignalKey where
  targetStep : Nat
  layer : Nat
  deriving DecidableEq, Repr

instance signalKeyOrder : LinearOrder SignalKey :=
  LinearOrder.lift' (fun k => toLex (k.targetStep,k.layer)) (by
    intro a b same
    cases a; cases b
    simp only [EmbeddingLike.apply_eq_iff_eq,Prod.mk.injEq] at same
    simp [same.1,same.2])

instance signalTransOrd : Std.TransOrd SignalKey := inferInstance

structure ActiveSignal where
  scores : ExtTreeMap Nat Nat

abbrev ActiveSignals := ExtTreeMap Nat (ExtTreeMap SignalKey ActiveSignal)

structure RouterState where
  protectedTarget : Nat
  config : RouterPolicyConfig
  prefetch : Bool
  active : ActiveSignals
  currentMetadataBytes : Nat
  peakMetadataBytes : Nat
  recordedMetadataBytes : Nat
  metadataLimitBytes : Nat

inductive PolicyState where
  | noCache
  | lru
  | slru (protectedTarget : Nat)
  | tinyLfu (tiny : TinyLfu)
  | router (router : RouterState)

-- The product is taken in 128 bits, and the quotient is no larger than the capacity.
def fractionTarget (capacityBytes fraction : Nat) : Except SimError Nat :=
  if fraction > 1000000 then .error (.invalidConfig "protected_fraction_ppm exceeds one million")
  else .ok (capacityBytes * fraction / ppm)

def RouterState.new (config : RouterPolicyConfig) (prefetch : Bool) (capacityBytes metadataLimitBytes : Nat) :
    Except SimError RouterState :=
  if config.minimumScorePpm > 1000000 then .error (.invalidConfig "router minimum_score_ppm exceeds one million")
  else if config.maxExpertsPerSignal = 0 ∨ config.maxPagesPerSignal = 0 then
    .error (.invalidConfig "router expert and page limits must be positive")
  else do
    let protectedTarget ← fractionTarget capacityBytes config.protectedFractionPpm
    .ok ⟨protectedTarget,config,prefetch,∅,0,0,0,metadataLimitBytes⟩

def RouterState.enterDemandStep (router : RouterState) (request step : Nat) : Except SimError RouterState :=
  match router.active[request]? with
  | none => .ok router
  | some signals => do
    let retired := signals.toList.takeWhile (fun row => row.1.targetStep < step)
    let retiredBytes ← retired.foldlM (fun bytes row => do
      let signalBytes ← routerSignalMetadataBytes row.2.scores.size
      okOr (.counterOverflow "retired router metadata") (checkedAdd bytes signalBytes)) 0
    let signals := retired.foldl (fun signals row => signals.erase row.1) signals
    let current ← okOr (.invalidConfig "router metadata ledger underflow")
      (checkedSub router.currentMetadataBytes retiredBytes)
    .ok {router with
      active := if signals.isEmpty then router.active.erase request else router.active.insert request signals,
      currentMetadataBytes := current}

def scoresOf (predictions : List ExpertPrediction) : ExtTreeMap Nat Nat :=
  predictions.foldl (fun scores p => scores.insert p.expert p.scorePpm) ∅

def RouterState.recordSignal (router : RouterState) (request targetStep layer : Nat)
    (predictions : List ExpertPrediction) : Except SimError RouterState := do
  let key : SignalKey := ⟨targetStep,layer⟩
  let scores := scoresOf predictions
  if scores.size ≠ predictions.length then
    .error (.invalidConfig "router signal contains duplicate selected experts")
  else if router.active[request]?.any (fun signals => signals.contains key) then
    .error (.invalidConfig "router signal target was recorded more than once")
  else
    let charge ← routerSignalMetadataBytes scores.size
    let current ← okOr (.counterOverflow "current router metadata") (checkedAdd router.currentMetadataBytes charge)
    let recorded ← okOr (.counterOverflow "recorded router metadata") (checkedAdd router.recordedMetadataBytes charge)
    if current > router.metadataLimitBytes ∨ recorded > router.metadataLimitBytes then
      .error (.invalidConfig "router metadata exceeded its precomputed ceiling")
    else .ok {router with
      active := router.active.insert request ((router.active[request]?.getD ∅).insert key ⟨scores⟩),
      currentMetadataBytes := current, peakMetadataBytes := max router.peakMetadataBytes current,
      recordedMetadataBytes := recorded}

def finishSignals (bytes : Nat) (row : Nat × ExtTreeMap SignalKey ActiveSignal) : Except SimError Nat :=
  if row.2.isEmpty then .error (.invalidConfig "router metadata retained an empty request map")
  else row.2.toList.foldlM (fun bytes row =>
    if row.2.scores.isEmpty then .error (.invalidConfig "router metadata retained an empty signal")
    else do
      let signalBytes ← routerSignalMetadataBytes row.2.scores.size
      okOr (.counterOverflow "recomputed router metadata") (checkedAdd bytes signalBytes)) bytes

def RouterState.finishMetadata (router : RouterState) : Except SimError (Nat × Nat) := do
  let recomputed ← router.active.toList.foldlM finishSignals 0
  if recomputed ≠ router.currentMetadataBytes then
    .error (.invalidConfig "router metadata ledger does not match live state")
  else if router.currentMetadataBytes > router.peakMetadataBytes ∨
      router.peakMetadataBytes > router.metadataLimitBytes then
    .error (.invalidConfig "router metadata peak/ceiling accounting failed")
  else if router.recordedMetadataBytes ≠ router.metadataLimitBytes then
    .error (.invalidConfig "router metadata did not consume its precomputed signal ceiling")
  else .ok (router.peakMetadataBytes,router.metadataLimitBytes)

namespace PolicyState

def new (spec : PolicySpec) (capacityBytes routerMetadataLimitBytes : Nat) : Except SimError PolicyState :=
  match spec with
  | .noCache => .ok .noCache
  | .lru => .ok .lru
  | .slru fraction => do
    let protectedTarget ← fractionTarget capacityBytes fraction
    .ok (.slru protectedTarget)
  | .tinyLfu config => do
    let tiny ← TinyLfu.new config
    .ok (.tinyLfu tiny)
  | .routerAdmit config => do
    let state ← RouterState.new config false capacityBytes routerMetadataLimitBytes
    .ok (.router state)
  | .routerPrefetch config => do
    let state ← RouterState.new config true capacityBytes routerMetadataLimitBytes
    .ok (.router state)
  | .belady => .error (.invalidConfig "Belady does not use the online policy kernel")

def isNoCache : PolicyState → Bool
  | .noCache => true
  | _ => false

def prefetchEnabled : PolicyState → Bool
  | .router state => state.prefetch
  | _ => false

def initialSegment : PolicyState → Segment
  | .noCache | .lru | .tinyLfu _ => .lru
  | .slru _ | .router _ => .probation

def protectedTarget : PolicyState → Option Nat
  | .slru protectedTarget => some protectedTarget
  | .router state => some state.protectedTarget
  | _ => none

def routerConfig : PolicyState → Option RouterPolicyConfig
  | .router state => some state.config
  | _ => none

def observeDemand (page : PageId) : PolicyState → PolicyState
  | .tinyLfu tiny => .tinyLfu (tiny.observe page)
  | policy => policy

def enterDemandStep (request step : Nat) : PolicyState → Except SimError PolicyState
  | .router state => do
    let state ← state.enterDemandStep request step
    .ok (.router state)
  | policy => .ok policy

def recordSignal (policy : PolicyState) (request targetStep layer : Nat) (predictions : List ExpertPrediction) :
    Except SimError PolicyState :=
  if predictions.isEmpty then .ok policy
  else match policy with
    | .router state => do
      let state ← state.recordSignal request targetStep layer predictions
      .ok (.router state)
    | policy => .ok policy

def activeScore (policy : PolicyState) (request step : Nat) (page : PageDescriptor) : Nat :=
  match policy with
  | .router state => match page.role with
    | .shared => 0
    | .expert layer expert _ => match state.active[request]? with
      | none => 0
      | some signals => match signals[(⟨step,layer⟩ : SignalKey)]? with
        | none => 0
        | some signal => signal.scores[expert]?.getD 0
  | _ => 0

def finishMetadata : PolicyState → Except SimError (Nat × Nat)
  | .tinyLfu tiny => .ok (tiny.metadataBytes,tiny.metadataBytes)
  | .router state => state.finishMetadata
  | _ => .ok (0,0)

def protectedEntries (residents : Residents) : List ResidentEntry :=
  (residentValues residents).filter (fun entry => entry.segment = .protectedSegment)

def recency (entry : ResidentEntry) : Nat ×ₗ PageId := toLex (entry.lastTouch,entry.page)

/- One round of the demotion loop; none when the loop ends. Positive protected bytes
imply an entry to demote. -/
def demoteOne (protectedTarget demotionTouch : Nat) (residents : Residents) : Option Residents :=
  if ((protectedEntries residents).map ResidentEntry.chargeBytes).sum ≤ protectedTarget then none
  else match (protectedEntries residents).argmin recency with
    | none => none
    | some victim => match residents[victim.page]? with
      | none => none
      | some demoted =>
        some (residents.insert victim.page {demoted with segment := .probation, lastTouch := demotionTouch})

-- Each round takes one entry out of the protected segment, so there are at most as many rounds.
def rebalanceProtected (protectedTarget demotionTouch : Nat) : Nat → Residents → Residents
  | 0, residents => residents
  | rounds + 1, residents => match demoteOne protectedTarget demotionTouch residents with
    | none => residents
    | some residents => rebalanceProtected protectedTarget demotionTouch rounds residents

def onHit (policy : PolicyState) (residents : Residents) (page : PageId) (touch : Nat) : Residents :=
  match residents[page]? with
  | none => residents
  | some entry =>
    let touched := {entry with lastTouch := touch}
    match policy.protectedTarget with
    | none => residents.insert page touched
    | some protectedTarget =>
      if touched.segment = .probation ∧ 0 < protectedTarget ∧ touched.chargeBytes ≤ protectedTarget then
        let promoted := residents.insert page {touched with segment := .protectedSegment}
        rebalanceProtected protectedTarget touch (protectedEntries promoted).length promoted
      else residents.insert page touched

def segmentRank (policy : PolicyState) (entry : ResidentEntry) : Nat :=
  match policy with
  | .slru _ | .router _ => match entry.segment with
    | .probation => 0
    | .protectedSegment => 1
    | .lru => 2
  | _ => 0

def demandKey (policy : PolicyState) (catalog : PageCatalog) (request step : Nat) (entry : ResidentEntry) :
    Nat ×ₗ Nat ×ₗ Nat ×ₗ PageId :=
  toLex (policy.segmentRank entry,toLex (policy.activeScore request step (catalog.page entry.page),recency entry))

def demandVictims (needed : Nat) : Nat → List ResidentEntry → Except SimError (Nat × List PageId)
  | bytes, [] => .ok (bytes,[])
  | bytes, entry::rest => do
    let bytes ← okOr (.counterOverflow "victim plan bytes") (checkedAdd bytes entry.chargeBytes)
    if bytes ≥ needed then .ok (bytes,[entry.page])
    else
      let (bytes,victims) ← demandVictims needed bytes rest
      .ok (bytes,entry.page::victims)

def residentCharge (residents : Residents) (page : PageId) : Nat :=
  (residents[page]?.map ResidentEntry.chargeBytes).getD 0

def wideTotal (counter : String) (weight : PageId → Nat) (victims : List PageId) : Except SimError Nat :=
  victims.foldlM (fun total id => okOr (.counterOverflow counter) (checkedWideAdd total (weight id))) 0

def admitTiny (tiny : TinyLfu) (residents : Residents) (candidate : PageDescriptor) (victims : List PageId) :
    Except SimError Bool := do
  let victimCharge ← wideTotal "TinyLFU victim charge" (residentCharge residents) victims
  let victimFrequency ← wideTotal "TinyLFU victim frequency" tiny.estimate victims
  let candidateDensity ← okOr (.counterOverflow "TinyLFU candidate density")
    (checkedWideMul (tiny.estimate candidate.id) victimCharge)
  let victimDensity ← okOr (.counterOverflow "TinyLFU victim density")
    (checkedWideMul victimFrequency candidate.chargeBytes)
  .ok (victimDensity < candidateDensity)

def admitRouter (policy : PolicyState) (catalog : PageCatalog) (residents : Residents) (candidate : PageDescriptor)
    (victims : List PageId) (request step : Nat) : Except SimError Bool := do
  let candidateScore := policy.activeScore request step candidate
  let victimCharge ← wideTotal "router victim charge" (residentCharge residents) victims
  let victimScore ← wideTotal "router victim score" (fun id => policy.activeScore request step (catalog.page id)) victims
  if candidateScore = 0 ∧ victimScore = 0 then .ok true
  else
    let candidateDensity ← okOr (.counterOverflow "router candidate density")
      (checkedWideMul candidateScore victimCharge)
    let victimDensity ← okOr (.counterOverflow "router victim density")
      (checkedWideMul victimScore candidate.chargeBytes)
    .ok (victimDensity < candidateDensity)

def admitDemand (policy : PolicyState) (catalog : PageCatalog) (residents : Residents) (candidate : PageDescriptor)
    (victims : List PageId) (request step : Nat) : Except SimError Bool :=
  match policy with
  | .tinyLfu tiny => if victims.isEmpty then .ok true else admitTiny tiny residents candidate victims
  | .router state =>
    if state.active.isEmpty then .ok true
    else admitRouter policy catalog residents candidate victims request step
  | _ => .ok true

def planDemandVictims (policy : PolicyState) (catalog : PageCatalog) (residents : Residents) (plan : DemandPlan) :
    Except SimError (Option (List PageId)) :=
  if plan.candidate.chargeBytes > plan.capacityBytes ∨ policy.isNoCache then .ok none
  else
    let available := wrappingSub plan.capacityBytes plan.residentBytes
    if plan.candidate.chargeBytes ≤ available then .ok (some [])
    else do
      let needed := plan.candidate.chargeBytes - available
      let (bytes,victims) ← demandVictims needed 0
        (sortByKey (policy.demandKey catalog plan.request plan.step) (residentValues residents))
      if bytes < needed then .ok none
      else
        let admitted ← policy.admitDemand catalog residents plan.candidate victims plan.request plan.step
        .ok (if admitted then some victims else none)

structure PrefetchVictims where
  bytes : Nat
  weightedScore : Nat
  victims : List PageId
  deriving DecidableEq, Repr

def prefetchKey (policy : PolicyState) (catalog : PageCatalog) (request targetStep : Nat) (entry : ResidentEntry) :
    Nat ×ₗ Nat ×ₗ PageId :=
  toLex (policy.activeScore request targetStep (catalog.page entry.page),recency entry)

def prefetchVictims (score : ResidentEntry → Nat) (needed : Nat) :
    Nat → Nat → List ResidentEntry → Except SimError PrefetchVictims
  | bytes, weighted, [] => .ok ⟨bytes,weighted,[]⟩
  | bytes, weighted, entry::rest => do
    let bytes ← okOr (.counterOverflow "prefetch victim bytes") (checkedAdd bytes entry.chargeBytes)
    let weighted ← okOr (.counterOverflow "prefetch victim score")
      (checkedWideAdd weighted (score entry * entry.chargeBytes))
    if bytes ≥ needed then .ok ⟨bytes,weighted,[entry.page]⟩
    else
      let more ← prefetchVictims score needed bytes weighted rest
      .ok {more with victims := entry.page::more.victims}

def planPrefetchVictims (policy : PolicyState) (catalog : PageCatalog) (residents : Residents) (plan : PrefetchPlan) :
    Except SimError (Option (List PageId)) := do
  let required ← plan.absentPages.foldlM (fun total id =>
    okOr (.counterOverflow "prefetch group charge") (checkedAdd total (catalog.page id).chargeBytes)) 0
  if required > plan.capacityBytes then .ok none
  else
    let available := wrappingSub plan.capacityBytes plan.residentBytes
    if required ≤ available then .ok (some [])
    else
      let needed := required - available
      let probation := (residentValues residents).filter (fun entry => entry.segment = .probation)
      let chosen ← prefetchVictims
        (fun entry => policy.activeScore plan.request plan.targetStep (catalog.page entry.page)) needed 0 0
        (sortByKey (policy.prefetchKey catalog plan.request plan.targetStep) probation)
      if chosen.bytes < needed then .ok none
      else
        let candidateValue ← okOr (.counterOverflow "prefetch candidate score")
          (checkedWideMul plan.candidateScore required)
        .ok (if chosen.weightedScore > 0 ∧ candidateValue ≤ chosen.weightedScore then none else some chosen.victims)

end PolicyState

end RunnelMoe.Sim
