import Mathlib.Data.Finset.Dedup
import Mathlib.Data.List.MinMax
import Mathlib.Data.List.Sort
import RunnelMoe.Bitmasks
import RunnelMoe.SimMetrics
import RunnelMoe.SimTrace

/-! Offline reference algorithms: the replay of farthest next use for a uniform page
geometry, and a bounded dynamic program over resident subsets for pages that differ in
charge or cost. Signals are ignored by both. The log of decisions stands for the bytes
that the source hashes. -/
namespace RunnelMoe.Sim
open Words KeyedSum Results Bitmasks
open Std (ExtTreeMap)

def maxExactPages : Nat := 18
def maxExactDemands : Nat := 200

def ordered (pages : Finset PageId) : List PageId :=
  Quot.liftOn pages.val (List.insertionSort (· ≤ ·)) (fun _ _ same =>
    List.Perm.eq_of_pairwise' (List.pairwise_insertionSort _ _) (List.pairwise_insertionSort _ _)
      ((List.perm_insertionSort _ _).trans (same.trans (List.perm_insertionSort _ _).symm)))

theorem orderedVal (pages : Finset PageId) : (ordered pages : Multiset PageId) = pages.val := by
  obtain ⟨val,nodup⟩ := pages
  induction val using Quot.ind with
  | mk entries => exact Quot.sound (List.perm_insertionSort _ _)

theorem memOrdered {pages : Finset PageId} {page : PageId} : page ∈ ordered pages ↔ page ∈ pages := by
  rw [← Multiset.mem_coe,orderedVal,Finset.mem_val]

theorem orderedNodup (pages : Finset PageId) : (ordered pages).Nodup := by
  rw [← Multiset.coe_nodup,orderedVal]
  exact pages.nodup

def uniformPage (first : PageDescriptor) (_ : Unit) (page : PageDescriptor) : Except SimError Unit :=
  let id := page.id
  let charge := page.chargeBytes
  let cost := page.logicalBytes
  let firstCharge := first.chargeBytes
  let firstCost := first.logicalBytes
  if charge ≠ firstCharge then
    .error (.unsupportedOracleGeometry s!"page {id} charge {charge} differs from uniform charge {firstCharge}")
  else if cost ≠ firstCost then
    .error (.unsupportedOracleGeometry s!"page {id} logical cost {cost} differs from uniform cost {firstCost}")
  else .ok ()

def uniformGeometry (pages : List PageDescriptor) : Except SimError (Nat × Nat) :=
  match pages with
  -- An empty trace performs no division and has a zero optimum.
  | [] => .ok (1,0)
  | first::rest =>
    if first.chargeBytes = 0 then
      .error (.unsupportedOracleGeometry "Bélády requires a positive uniform charge")
    else do
      rest.foldlM (uniformPage first) ()
      .ok (first.chargeBytes,first.logicalBytes)

inductive BeladyAction where
  | hit
  | bypass
  | admission
  deriving DecidableEq, Repr

structure BeladyDecision where
  ordinal : Nat
  page : PageId
  action : BeladyAction
  victim : Option PageId
  deriving DecidableEq, Repr

structure BeladyState where
  future : ExtTreeMap PageId (List Nat)
  residents : Finset PageId
  residentCharge : Nat
  metrics : SimulationMetrics
  decisions : List BeladyDecision
  demandOrdinal : Nat

structure BeladyReplay where
  metrics : SimulationMetrics
  decisions : List BeladyDecision
  oracleOptimal : Bool

def futureDemand (scan : ExtTreeMap PageId (List Nat) × Nat) (page : PageId) : ExtTreeMap PageId (List Nat) × Nat :=
  (scan.1.insert page (scan.1[page]?.getD [] ++ [scan.2]),saturatingAdd scan.2 1)

def futureDemands (demands : List PageId) : ExtTreeMap PageId (List Nat) := (demands.foldl futureDemand (∅,0)).1

def popCurrentDemand (future : ExtTreeMap PageId (List Nat)) (page : PageId) :
    Except SimError (ExtTreeMap PageId (List Nat)) :=
  match future[page]? with
  | some (_::later) => .ok (future.insert page later)
  | _ => .error (.invalidConfig "Bélády future-demand index became inconsistent")

def nextUse (future : ExtTreeMap PageId (List Nat)) (page : PageId) : Nat :=
  (future[page]?.bind List.head?).getD maxWord

-- Equal next uses evict the candidate first, then the greatest identifier.
def victimKey (candidate : PageId) (future : ExtTreeMap PageId (List Nat)) (page : PageId) : Nat ×ₗ Bool ×ₗ PageId :=
  toLex (nextUse future page,toLex (decide (page = candidate),page))

def laterVictim (candidate : PageId) (future : ExtTreeMap PageId (List Nat)) (best page : PageId) : PageId :=
  if victimKey candidate future best ≤ victimKey candidate future page then page else best

def farthestVictim (residents : Finset PageId) (candidate : PageId) (future : ExtTreeMap PageId (List Nat)) : PageId :=
  match ordered residents ++ [candidate] with
  | [] => candidate
  | first::rest => rest.foldl (laterVictim candidate future) first

def BeladyState.admitPage (s : BeladyState) (page charge : Nat) : Except SimError BeladyState := do
  let residentCharge ← add s.residentCharge charge "belady resident charge"
  let metrics ← s.metrics.countAdmission residentCharge
  .ok {s with residents := insert page s.residents, residentCharge := residentCharge, metrics := metrics}

def BeladyState.bypass (s : BeladyState) : Except SimError BeladyState := do
  let metrics ← s.metrics.countBypass
  .ok {s with metrics := metrics}

def BeladyState.evict (s : BeladyState) (victim charge : Nat) : Except SimError BeladyState :=
  match checkedSub s.residentCharge charge with
  | none => .error (.counterOverflow "belady resident charge subtraction")
  | some residentCharge => do
    let metrics ← s.metrics.countEviction charge
    .ok {s with residents := s.residents.erase victim, residentCharge := residentCharge, metrics := metrics}

def BeladyState.updateDecision (s : BeladyState) (page : PageId) (action : BeladyAction) (victim : Option PageId) :
    BeladyState :=
  {s with decisions := s.decisions ++ [⟨s.demandOrdinal,page,action,victim⟩]}

def BeladyState.miss (s : BeladyState) (page charge slotCapacity : Nat) : Except SimError BeladyState :=
  if slotCapacity = 0 then do
    let s ← s.bypass
    .ok (s.updateDecision page .bypass none)
  else if s.residents.card < slotCapacity then do
    let s ← s.admitPage page charge
    .ok (s.updateDecision page .admission none)
  else
    let victim := farthestVictim s.residents page s.future
    if victim = page then do
      let s ← s.bypass
      .ok (s.updateDecision page .bypass none)
    else do
      let s ← s.evict victim charge
      let s ← s.admitPage page charge
      .ok (s.updateDecision page .admission (some victim))

def BeladyState.serve (s : BeladyState) (page logicalBytes charge slotCapacity : Nat) : Except SimError BeladyState :=
  if page ∈ s.residents then do
    let metrics ← s.metrics.countOrdinaryHit logicalBytes
    .ok (({s with metrics := metrics}).updateDecision page .hit none)
  else do
    let metrics ← s.metrics.countMiss logicalBytes
    ({s with metrics := metrics}).miss page charge slotCapacity

def beladyDemand (trace : ValidatedTrace) (capacityBytes charge slotCapacity : Nat) (s : BeladyState) (page : PageId) :
    Except SimError BeladyState := do
  let future ← popCurrentDemand s.future page
  let metrics ← s.metrics.countDemand (trace.page page).logicalBytes
  let s ← ({s with future := future, metrics := metrics}).serve page (trace.page page).logicalBytes charge slotCapacity
  requireConfig (s.residentCharge ≤ capacityBytes) "Bélády resident charge exceeded capacity"
  let ordinal ← add s.demandOrdinal 1 "belady demand ordinal"
  .ok {s with demandOrdinal := ordinal}

def simulateBelady (trace : ValidatedTrace) (capacityBytes : Nat) : Except SimError BeladyReplay := do
  let (charge,_) ← uniformGeometry trace.pages
  let slotCapacity := min (capacityBytes / charge) trace.pages.length
  let s ← trace.demands.foldlM (beladyDemand trace capacityBytes charge slotCapacity)
    ⟨futureDemands trace.demands,∅,0,.zero,[],0⟩
  let metrics ← ({s.metrics with finalResidentChargeBytes := s.residentCharge}).finish
  .ok ⟨metrics,s.decisions,true⟩

structure Exploration where
  explored : Nat
  frontier : ExtTreeMap Nat Nat

def consumeStateBudget (explored maximum : Nat) : Except SimError Nat :=
  match checkedAdd explored 1 with
  | none => .error (.exactOracleLimit "state budget overflowed")
  | some explored =>
    if explored > maximum then .error (.exactOracleLimit s!"explored more than {maximum} transition states")
    else .ok explored

def insertMinimum (frontier : ExtTreeMap Nat Nat) (state cost : Nat) : ExtTreeMap Nat Nat :=
  frontier.insert state (match frontier[state]? with
    | none => cost
    | some current => min current cost)

def subsetChargeFrom (charges : List Nat) (remaining total : Nat) : Except SimError Nat :=
  if _ : remaining = 0 then .ok total
  else match checkedAdd total (charges.getD (trailingZeros remaining) 0) with
    | none => .error (.counterOverflow "exact resident charge")
    | some total => subsetChargeFrom charges (remaining &&& (remaining - 1)) total
termination_by remaining
decreasing_by exact clearedLess ‹_›

def subsetCharge (mask : Nat) (charges : List Nat) : Except SimError Nat := subsetChargeFrom charges mask 0

def admitRetained (charges : List Nat) (capacityBytes maximum bit missCost : Nat) (exploration : Exploration)
    (retained : Nat) : Except SimError Exploration := do
  let explored ← consumeStateBudget exploration.explored maximum
  let retainedCharge ← subsetCharge retained charges
  .ok ⟨explored,
    if (checkedAdd retainedCharge (charges.getD bit 0)).any (fun charge => charge ≤ capacityBytes) then
      insertMinimum exploration.frontier (retained ||| 1 <<< bit) missCost
    else exploration.frontier⟩

def exploreState (charges logicalCosts : List Nat) (capacityBytes maximum bit : Nat) (next : Exploration)
    (row : Nat × Nat) : Except SimError Exploration :=
  let state := row.1
  let cost := row.2
  if state &&& 1 <<< bit ≠ 0 then do
    let explored ← consumeStateBudget next.explored maximum
    .ok ⟨explored,insertMinimum next.frontier state cost⟩
  else do
    let missCost ← add cost (logicalCosts.getD bit 0) "exact variable-byte cost"
    let explored ← consumeStateBudget next.explored maximum
    let next : Exploration := ⟨explored,insertMinimum next.frontier state missCost⟩
    if charges.getD bit 0 ≤ capacityBytes then
      (submasks state).foldlM (admitRetained charges capacityBytes maximum bit missCost) next
    else .ok next

def exploreDemand (orderedPages : List PageId) (charges logicalCosts : List Nat) (capacityBytes maximum : Nat)
    (exploration : Exploration) (page : PageId) : Except SimError Exploration :=
  exploration.frontier.toList.foldlM
    (exploreState charges logicalCosts capacityBytes maximum (orderedPages.idxOf page)) ⟨exploration.explored,∅⟩

def ValidatedTrace.charges (trace : ValidatedTrace) (pages : List PageId) : List Nat :=
  pages.map (fun page => (trace.page page).chargeBytes)
def ValidatedTrace.logicalCosts (trace : ValidatedTrace) (pages : List PageId) : List Nat :=
  pages.map (fun page => (trace.page page).logicalBytes)

def exactVariableByteCost (trace : ValidatedTrace) (capacityBytes : Nat) (limits : SimLimits) : Except SimError Nat :=
  let demands := trace.demands
  let orderedPages := ordered demands.toFinset
  let demandCount := demands.length
  let pageCount := orderedPages.length
  if limits.maxExactOracleStates = 0 then
    .error (.exactOracleLimit "max_exact_oracle_states must be positive")
  else if demandCount > maxExactDemands then
    .error (.exactOracleLimit s!"{demandCount} demands exceed the 200-demand limit")
  else if pageCount > maxExactPages then
    .error (.exactOracleLimit s!"{pageCount} distinct demanded pages exceed the 18-page limit")
  else if demands.isEmpty then .ok 0
  else do
    let final ← demands.foldlM
      (exploreDemand orderedPages (trace.charges orderedPages) (trace.logicalCosts orderedPages) capacityBytes
        limits.maxExactOracleStates)
      ⟨1,(∅ : ExtTreeMap Nat Nat).insert 0 0⟩
    match (final.frontier.toList.map Prod.snd).min? with
      | none => .error (.invalidConfig "exact oracle produced no terminal state")
      | some cost => .ok cost

end RunnelMoe.Sim
