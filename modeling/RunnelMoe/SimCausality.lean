import RunnelMoe.SimReplay

/-! Causality of the online policies. A change of the policy that no plan sees passes
through every step of the kernel, and the metadata ceiling is part of no plan: it is
compared with what was recorded, and what was recorded stays below it. So a replay of a
common beginning ends the same way whatever comes after it. -/
namespace RunnelMoe.Sim
open Words KeyedSum Results Vectors
open Std (ExtTreeMap)

structure Alike (p q : PolicyState) : Prop where
  segment : q.initialSegment = p.initialSegment
  target : q.protectedTarget = p.protectedTarget
  demand : ∀ catalog residents plan,
    q.planDemandVictims catalog residents plan = p.planDemandVictims catalog residents plan
  prefetch : ∀ catalog residents plan,
    q.planPrefetchVictims catalog residents plan = p.planPrefetchVictims catalog residents plan

def Kernel.mapPolicy (change : PolicyState → PolicyState) (k : Kernel) : Kernel := {k with policy := change k.policy}

section Changes
variable {catalog : PageCatalog} {capacityBytes : Nat} {change : PolicyState → PolicyState}

theorem wastedChanged (k : Kernel) (entry : ResidentEntry) :
    (k.mapPolicy change).accountWastedPrefetch entry = (k.accountWastedPrefetch entry).map (Kernel.mapPolicy change) := by
  unfold Kernel.accountWastedPrefetch
  split
  · rw [mapBind]
    rfl
  · rfl

theorem evictChanged (k : Kernel) (page : PageId) :
    (k.mapPolicy change).evict page = (k.evict page).map (Kernel.mapPolicy change) := by
  have lookup : (k.mapPolicy change).residents[page]? = k.residents[page]? := rfl
  unfold Kernel.evict
  rw [lookup]
  cases k.residents[page]? with
  | none => rfl
  | some entry =>
    have wasted : (Kernel.mapPolicy change {k with residents := k.residents.erase page}).accountWastedPrefetch entry = _ :=
      wastedChanged _ entry
    simp only [mapBind]
    refine (congrArg (· >>= _) wasted).trans ?_
    rw [bindMap]
    rfl

theorem touchChanged (k : Kernel) : (k.mapPolicy change).nextTouch = k.nextTouch.map (Kernel.mapPolicy change) := by
  unfold Kernel.nextTouch
  rw [mapBind]
  rfl

theorem offerChanged (k : Kernel) (id : PageId) :
    (k.mapPolicy change).offerPrefetch catalog id = (k.offerPrefetch catalog id).map (Kernel.mapPolicy change) := by
  unfold Kernel.offerPrefetch
  rw [mapBind]
  rfl

theorem redundantChanged (k : Kernel) (id : PageId) :
    (k.mapPolicy change).redundantPrefetch catalog id =
      (k.redundantPrefetch catalog id).map (Kernel.mapPolicy change) := by
  unfold Kernel.redundantPrefetch
  show (if id ∈ k.residents then _ else _) = _
  split
  · rw [mapBind]
    rfl
  · rfl

theorem dropsChanged (k : Kernel) (pages : List PageId) :
    (k.mapPolicy change).dropPrefetches catalog pages =
      (k.dropPrefetches catalog pages).map (Kernel.mapPolicy change) := by
  refine mapFold (fun k id => ?_) pages k
  unfold Kernel.dropPrefetch
  rw [mapBind]
  rfl

variable (alike : ∀ policy, Alike policy (change policy))
include alike

theorem insertChanged (k : Kernel) (page : PageDescriptor) (touch : Nat) (unused : Bool) :
    (k.mapPolicy change).insert capacityBytes page touch unused =
      (k.insert capacityBytes page touch unused).map (Kernel.mapPolicy change) := by
  unfold Kernel.insert
  rw [mapBind]
  congr 1
  funext bytes
  show (if _ then _ else if page.id ∈ k.residents then _ else _) = _
  split
  · rfl
  split
  · rfl
  rw [mapBind]
  simp only [Kernel.mapPolicy,(alike k.policy).segment]
  rfl

theorem hitChanged (k : Kernel) (sequence : Nat) (page : PageDescriptor) (entry : ResidentEntry) :
    (k.mapPolicy change).demandHit sequence page entry =
      (k.demandHit sequence page entry).map (Kernel.mapPolicy change) := by
  unfold Kernel.demandHit
  split
  all_goals
    simp only [mapBind,Kernel.onHit,Kernel.hashEvent,Kernel.mapPolicy,PolicyState.onHit,(alike k.policy).target]
    rfl

theorem missChanged (k : Kernel) (sequence request step : Nat) (page : PageDescriptor) :
    (k.mapPolicy change).demandMiss catalog capacityBytes sequence request step page =
      (k.demandMiss catalog capacityBytes sequence request step page).map (Kernel.mapPolicy change) := by
  unfold Kernel.demandMiss
  rw [mapBind]
  congr 1
  funext metrics
  simp only [mapBind]
  show (change k.policy).planDemandVictims _ _ _ >>= _ = _
  rw [(alike k.policy).demand]
  congr 1
  funext planned
  cases planned with
  | none =>
    rw [mapBind]
    rfl
  | some victims =>
    have evicted : victims.foldlM Kernel.evict (Kernel.mapPolicy change {k with metrics := metrics}) = _ :=
      mapFold evictChanged victims _
    simp only [mapBind]
    refine (congrArg (· >>= _) evicted).trans ?_
    rw [bindMap]
    congr 1
    funext k
    refine (congrArg (· >>= _) (insertChanged alike k page k.touch false)).trans ?_
    rw [bindMap]
    rfl

theorem admitChanged (k : Kernel) (id : PageId) :
    (k.mapPolicy change).admitPrefetch catalog capacityBytes id =
      (k.admitPrefetch catalog capacityBytes id).map (Kernel.mapPolicy change) := by
  unfold Kernel.admitPrefetch
  rw [touchChanged,bindMap,mapBind]
  congr 1
  funext k
  rw [mapBind]
  refine (congrArg (· >>= _) (insertChanged alike k _ k.touch true)).trans ?_
  rw [bindMap]
  congr 1
  funext k
  rw [mapBind]
  rfl

theorem tryChanged (k : Kernel) (group : PrefetchGroup) (budget : PrefetchBudget) (redundant absent : List PageId) :
    (k.mapPolicy change).tryPrefetch catalog capacityBytes group budget redundant absent =
      (k.tryPrefetch catalog capacityBytes group budget redundant absent).map
        (Prod.map (Kernel.mapPolicy change) id) := by
  have dropped (tag : DecisionTag) : (do
      let k ← (k.mapPolicy change).dropPrefetches catalog absent
      .ok (k.hashPrefetchDecision group.sequence tag group.pageIds redundant absent [],budget)) =
      Except.map (Prod.map (Kernel.mapPolicy change) id) (do
        let k ← k.dropPrefetches catalog absent
        .ok (k.hashPrefetchDecision group.sequence tag group.pageIds redundant absent [],budget)) := by
    rw [dropsChanged,bindMap,mapBind]
    rfl
  unfold Kernel.tryPrefetch
  simp only
  split
  · rfl
  split
  · exact dropped .prefetchDropPageLimit
  rw [mapBind]
  congr 1
  funext loadBytes
  split
  · exact dropped .prefetchDropByteLimit
  rw [mapBind]
  show (change k.policy).planPrefetchVictims _ _ _ >>= _ = _
  rw [(alike k.policy).prefetch]
  congr 1
  funext planned
  cases planned with
  | none => exact dropped .prefetchDropAdmission
  | some victims =>
    simp only [mapBind]
    refine (congrArg (· >>= _) (mapFold evictChanged victims k)).trans ?_
    rw [bindMap]
    congr 1
    funext k
    refine (congrArg (· >>= _) (mapFold (admitChanged alike) absent k)).trans ?_
    rw [bindMap]
    rfl

theorem groupChanged (k : Kernel) (group : PrefetchGroup) (budget : PrefetchBudget) :
    (k.mapPolicy change).prefetchGroup catalog capacityBytes group budget =
      (k.prefetchGroup catalog capacityBytes group budget).map (Prod.map (Kernel.mapPolicy change) id) := by
  unfold Kernel.prefetchGroup
  simp only [mapBind]
  refine (congrArg (· >>= _) (mapFold offerChanged group.pageIds k)).trans ?_
  rw [bindMap]
  congr 1
  funext k
  refine (congrArg (· >>= _) (mapFold redundantChanged group.pageIds k)).trans ?_
  rw [bindMap]
  congr 1
  funext k
  exact tryChanged alike k ..

theorem groupsChanged (sequence request targetStep layer : Nat) (selected : List ExpertPrediction) (k : Kernel)
    (budget : PrefetchBudget) :
    selected.foldlM (Kernel.prefetchExpert catalog capacityBytes sequence request targetStep layer)
        (k.mapPolicy change,budget) =
      (selected.foldlM (Kernel.prefetchExpert catalog capacityBytes sequence request targetStep layer) (k,budget)).map
        (Prod.map (Kernel.mapPolicy change) id) := by
  have each (s : Kernel × PrefetchBudget) (prediction : ExpertPrediction) :
      Kernel.prefetchExpert catalog capacityBytes sequence request targetStep layer
          (Prod.map (Kernel.mapPolicy change) id s) prediction =
        (Kernel.prefetchExpert catalog capacityBytes sequence request targetStep layer s prediction).map
          (Prod.map (Kernel.mapPolicy change) id) := by
    unfold Kernel.prefetchExpert
    show (if s.2.remainingPages = 0 then _ else _) = _
    split
    · rfl
    · exact groupChanged alike ..
  exact mapFold each selected (k,budget)

theorem demandChanged {k : Kernel} (sequence request step : Nat) (id : PageId)
    (entering : (change k.policy).enterDemandStep request step = (k.policy.enterDemandStep request step).map change)
    (observed : ∀ policy, (change policy).observeDemand id = change (policy.observeDemand id)) :
    (k.mapPolicy change).demand catalog capacityBytes sequence request step id =
      (k.demand catalog capacityBytes sequence request step id).map (Kernel.mapPolicy change) := by
  unfold Kernel.demand
  simp only [mapBind]
  refine (congrArg (· >>= _) entering).trans ?_
  rw [bindMap]
  congr 1
  funext policy
  congr 1
  funext metrics
  rw [observed]
  have touched : (Kernel.mapPolicy change {k with policy := policy.observeDemand id, metrics := metrics}).nextTouch = _ :=
    touchChanged _
  refine (congrArg (· >>= _) touched).trans ?_
  rw [bindMap]
  congr 1
  funext k
  have lookup : (k.mapPolicy change).residents[id]? = k.residents[id]? := rfl
  rw [lookup]
  cases k.residents[id]? with
  | some entry => exact hitChanged alike ..
  | none => exact missChanged alike ..

theorem signalChanged {k : Kernel} (sequence request targetStep layer : Nat) (predictions : List ExpertPrediction)
    (configured : ∀ policy, (change policy).routerConfig = policy.routerConfig)
    (enabled : ∀ policy, (change policy).prefetchEnabled = policy.prefetchEnabled)
    (recording : signalPolicy (change k.policy) request targetStep layer predictions =
      (signalPolicy k.policy request targetStep layer predictions).map change) :
    (k.mapPolicy change).signal catalog capacityBytes sequence request targetStep layer predictions =
      (k.signal catalog capacityBytes sequence request targetStep layer predictions).map (Kernel.mapPolicy change) := by
  unfold signalPolicy at recording
  unfold Kernel.signal
  rw [configured] at recording
  have same : (k.mapPolicy change).policy.routerConfig = k.policy.routerConfig := configured k.policy
  rw [same]
  cases config : k.policy.routerConfig with
  | none => rfl
  | some config' =>
    rw [config] at recording
    simp only at recording ⊢
    split
    · rfl
    rw [mapBind]
    refine (congrArg (· >>= _) recording).trans ?_
    rw [bindMap]
    congr 1
    funext policy
    rw [enabled]
    split
    · rfl
    rw [mapBind]
    refine (congrArg (· >>= _) (groupsChanged alike sequence request targetStep layer _ {k with policy := policy} _)).trans ?_
    rw [bindMap]
    rfl

end Changes

def Kernel.ceiled (limit : Nat) : Kernel → Kernel := Kernel.mapPolicy (PolicyState.ceiled limit)

section Ceilings
variable {catalog : PageCatalog} {capacityBytes limit : Nat} {past rest more : List TraceEvent} {policy : PolicyState}

theorem ceiledAlike (limit : Nat) (policy : PolicyState) : Alike policy (policy.ceiled limit) := by
  cases policy with
  | router state => exact ⟨rfl,rfl,fun _ _ _ => rfl,fun _ _ _ => rfl⟩
  | noCache | lru | slru | tinyLfu => exact ⟨rfl,rfl,fun _ _ _ => rfl,fun _ _ _ => rfl⟩

theorem enterCeiled (request step : Nat) :
    (policy.ceiled limit).enterDemandStep request step =
      (policy.enterDemandStep request step).map (PolicyState.ceiled limit) := by
  cases policy with
  | noCache | lru | slru | tinyLfu => rfl
  | router state =>
    have entered := enterAdorned id id id (fun _ => limit) state request step
    simp only [PolicyState.ceiled,PolicyState.enterDemandStep,mapBind]
    refine (congrArg (· >>= _) entered).trans ?_
    rw [bindMap]
    rfl

theorem recordRouterCeiled {state : RouterState} {predictions : List ExpertPrediction} (request targetStep layer : Nat)
    (live : state.currentMetadataBytes ≤ state.recordedMetadataBytes)
    (own : state.recordedMetadataBytes + signalBytes predictions.length ≤ state.metadataLimitBytes)
    (other : state.recordedMetadataBytes + signalBytes predictions.length ≤ limit) :
    ({state with metadataLimitBytes := limit} : RouterState).recordSignal request targetStep layer predictions =
      (state.recordSignal request targetStep layer predictions).map
        (fun state => {state with metadataLimitBytes := limit}) := by
  unfold RouterState.recordSignal
  simp only
  split
  · rfl
  rename_i size
  split
  · rfl
  simp only [mapBind]
  cases charged : routerSignalMetadataBytes (scoresOf predictions).size with
  | error e => rfl
  | ok charge =>
    have cost := endsValue (signalBytesSafe _) charged
    rw [not_not.mp size] at cost
    show okOr _ _ >>= _ = okOr _ _ >>= _
    cases stored : okOr (.counterOverflow "current router metadata") (checkedAdd state.currentMetadataBytes charge) with
    | error e => rfl
    | ok current =>
      have sum := endsValue (checkedSafe ..) stored
      show okOr _ _ >>= _ = okOr _ _ >>= _
      cases counted : okOr (.counterOverflow "recorded router metadata")
          (checkedAdd state.recordedMetadataBytes charge) with
      | error e => rfl
      | ok recorded =>
        have sum' := endsValue (checkedSafe ..) counted
        show (if _ then _ else _) = Except.map _ (if _ then _ else _)
        rw [if_neg (by omega),if_neg (by omega)]
        rfl

theorem recordCeiled {sequence request targetStep layer : Nat} {predictions : List ExpertPrediction}
    (kept : PolicyKept past (.routerSignal sequence request targetStep layer predictions :: rest) policy)
    (other : PolicyKept past (.routerSignal sequence request targetStep layer predictions :: more)
      (policy.ceiled limit)) :
    signalPolicy (policy.ceiled limit) request targetStep layer predictions =
      (signalPolicy policy request targetStep layer predictions).map (PolicyState.ceiled limit) := by
  cases policy with
  | noCache | lru | slru | tinyLfu => rfl
  | router state =>
    obtain ⟨spent,sound,ceiling⟩ := kept
    obtain ⟨spent',sound',ceiling'⟩ := other
    have length := selectedLength state.config predictions
    have own : state.recordedMetadataBytes = spent := sound.recorded
    have same : state.recordedMetadataBytes = spent' := sound'.recorded
    simp only [List.map_cons,List.sum_cons,eventBytes,← length] at ceiling ceiling'
    simp only [PolicyState.ceiled,signalPolicy,PolicyState.routerConfig,PolicyState.recordSignal]
    split
    · rfl
    rename_i some_
    rw [List.isEmpty_iff_length_eq_zero] at some_
    rw [if_neg some_] at ceiling ceiling'
    rw [recordRouterCeiled request targetStep layer (sound.current.trans sound.peak) (by omega) (by omega),bindMap,mapBind]
    rfl

theorem eventCeiled {event : TraceEvent} {k : Kernel} (kept : PolicyKept past (event::rest) k.policy)
    (other : PolicyKept past (event::more) (k.policy.ceiled limit)) :
    (k.ceiled limit).event catalog capacityBytes event =
      (k.event catalog capacityBytes event).map (Kernel.ceiled limit) := by
  cases event with
  | demand sequence request step id =>
    refine demandChanged (ceiledAlike limit) sequence request step id (enterCeiled request step) (fun policy => ?_)
    cases policy <;> rfl
  | routerSignal sequence request targetStep layer predictions =>
    refine signalChanged (ceiledAlike limit) sequence request targetStep layer predictions (fun policy => ?_)
      (fun policy => ?_) (recordCeiled kept other)
    · cases policy <;> rfl
    · cases policy <;> rfl

theorem eventsCeiled (catalogued : Catalogued catalog) {events : List TraceEvent} {k : Kernel}
    (causal : Causal past (events ++ rest)) (causal' : Causal past (events ++ more))
    (running : Running catalog capacityBytes past (events ++ rest) k)
    (running' : Running catalog capacityBytes past (events ++ more) (k.ceiled limit)) :
    events.foldlM (Kernel.event catalog capacityBytes) (k.ceiled limit) =
      (events.foldlM (Kernel.event catalog capacityBytes) k).map (Kernel.ceiled limit) := by
  induction events generalizing past k with
  | nil => rfl
  | cons event later ih =>
    have stepped : (k.ceiled limit).event catalog capacityBytes event = _ := eventCeiled running.policy running'.policy
    rw [List.foldlM_cons,List.foldlM_cons,mapBind,stepped,bindMap]
    cases ended : k.event catalog capacityBytes event with
    | error e => rfl
    | ok next =>
      rw [ended] at stepped
      have after := (endsValue (eventSafe catalogued causal running) ended).1
      have after' := (endsValue (eventSafe catalogued causal' running') stepped).1
      exact ih (causalStep causal) (causalStep causal') after after'

end Ceilings

section Traces
variable {first second : ValidatedTrace} {config : SimulationConfig} {start start' : Kernel}

theorem catalogSame (pages : first.pages = second.pages) : first.catalog = second.catalog := by
  obtain ⟨scan,scanned,indexed⟩ := bindOk.mp first.pagesValid
  obtain ⟨scan',scanned',indexed'⟩ := bindOk.mp second.pagesValid
  rw [← pages,← List.map_id first.pages] at scanned'
  cases pagesScanned id (fun _ => ⟨rfl,rfl⟩) scanned scanned'
  have same := Except.ok.inj (indexed.symm.trans indexed')
  unfold ValidatedTrace.catalog
  rw [pages,(Prod.mk.inj same).1,(Prod.mk.inj same).2]

theorem newCeiled (made : Kernel.new first config = .ok start) (made' : Kernel.new second config = .ok start') :
    ∃ limit, start = start'.ceiled limit := by
  obtain ⟨limit,policy,-,created,rfl⟩ := newOk.mp made
  obtain ⟨ceiling,policy',-,created',rfl⟩ := newOk.mp made'
  rw [policyNewCeiled config.policy config.capacityBytes ceiling limit,created'] at created
  cases created
  exact ⟨limit,rfl⟩

/- The ceiling is blanked on both sides: everything else of the two outcomes is the
same, down to the error. -/
theorem replayCausal {past rest more : List TraceEvent} (pages : first.pages = second.pages)
    (parts : first.events = past ++ rest) (parts' : second.events = past ++ more)
    (made : Kernel.new first config = .ok start) (made' : Kernel.new second config = .ok start') :
    (past.foldlM (Kernel.event first.catalog config.capacityBytes) start).map (Kernel.ceiled 0) =
      (past.foldlM (Kernel.event second.catalog config.capacityBytes) start').map (Kernel.ceiled 0) := by
  obtain ⟨limit,rfl⟩ := newCeiled made made'
  have running := newRunning made
  have running' := newRunning made'
  have causal := traceCausal first
  have causal' := traceCausal second
  rw [catalogSame pages,parts] at running
  rw [parts'] at running' causal'
  rw [parts] at causal
  rw [catalogSame pages,eventsCeiled (traceCatalogued second) causal' causal running' running]
  cases past.foldlM (Kernel.event second.catalog config.capacityBytes) start' with
  | error e => rfl
  | ok k =>
    refine congrArg Except.ok ?_
    simp only [Kernel.ceiled,Kernel.mapPolicy]
    cases k.policy <;> rfl

end Traces

theorem reroutedValid :
    (validateRecords ⟨headerKind,traceSchema,"rerouted",4,6,64,prefetchModel⟩
      [⟨0,10,64,.expert 0 0 0⟩,⟨1,20,64,.expert 0 1 0⟩,⟨2,30,64,.expert 0 1 1⟩,⟨3,5,64,.shared⟩]
      [.demand 0 1 0 0,.demand 1 1 0 3,.routerSignal 2 1 1 0 [⟨1,600000⟩,⟨0,100000⟩],.demand 3 1 1 2,
        .routerSignal 4 1 2 0 [⟨0,700000⟩],.demand 5 1 2 0]
      defaultLimits).toOption.isSome := by decide +kernel

def rerouted : ValidatedTrace := value _ reroutedValid

theorem reroutedStart : (Kernel.new rerouted prefetching).toOption.isSome := by decide +kernel

theorem routedCausal :
    (value _ routedPrefetches).residents.size = 3 ∧
      ((routed.events.take 3).foldlM (Kernel.event routed.catalog 192) (value _ routedStart)).map (Kernel.ceiled 0) =
        ((routed.events.take 3).foldlM (Kernel.event rerouted.catalog 192) (value _ reroutedStart)).map
          (Kernel.ceiled 0) := by
  refine ⟨by decide +kernel,?_⟩
  refine @replayCausal routed rerouted prefetching _ _ _ (routed.events.drop 3) (rerouted.events.drop 3) ?_
    (List.take_append_drop 3 routed.events).symm ?_ (valueOk routedStart) (valueOk reroutedStart)
  · decide +kernel
  · decide +kernel

end RunnelMoe.Sim
