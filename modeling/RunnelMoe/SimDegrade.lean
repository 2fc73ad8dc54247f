import RunnelMoe.SimCausality
import RunnelMoe.SimLists

/-! Routers that fall back. A router that has recorded no signal plans as SLRU does, and
a router that may not prefetch a byte keeps what a router that only admits keeps. Two
runs are compared on what serves demands: signals only add to the counters of offers
and to the log. -/
namespace RunnelMoe.Sim
open Words KeyedSum Results Vectors
open Std (ExtTreeMap)

def DecisionTag.ofDemand : DecisionTag → Bool
  | .demandUsefulPrefetchHit | .demandHit | .demandMissBypass | .demandMissAdmit => true
  | _ => false

def Decision.ofDemand : Decision → Bool
  | .event _ tag _ _ => tag.ofDemand
  | .prefetch _ _ _ _ _ _ => false

def SimulationMetrics.unoffered (m : SimulationMetrics) : SimulationMetrics :=
  {m with
    prefetchOffered := 0, prefetchOfferedBytes := 0, prefetchRedundant := 0, prefetchRedundantBytes := 0,
    prefetchDropped := 0, prefetchDroppedBytes := 0}

def Kernel.demandSide (recount : SimulationMetrics → SimulationMetrics) (k : Kernel) : Kernel :=
  {k with metrics := recount k.metrics, decisions := k.decisions.filter Decision.ofDemand}

structure Recounts (recount : SimulationMetrics → SimulationMetrics) : Prop where
  demand : ∀ m bytes, (recount m).countDemand bytes = (m.countDemand bytes).map recount
  ordinaryHit : ∀ m bytes, (recount m).countOrdinaryHit bytes = (m.countOrdinaryHit bytes).map recount
  usefulHit : ∀ m bytes, (recount m).countUsefulHit bytes = (m.countUsefulHit bytes).map recount
  miss : ∀ m bytes, (recount m).countMiss bytes = (m.countMiss bytes).map recount
  bypass : ∀ m, (recount m).countBypass = m.countBypass.map recount
  eviction : ∀ m bytes, (recount m).countEviction bytes = (m.countEviction bytes).map recount
  admission : ∀ m bytes, (recount m).countAdmission bytes = (m.countAdmission bytes).map recount
  wasted : ∀ m bytes, (recount m).countWasted bytes = (m.countWasted bytes).map recount

theorem sameRecounts : Recounts id :=
  have same {A : Type} (x : Except SimError A) : x = x.map id := by cases x <;> rfl
  ⟨fun _ _ => same _,fun _ _ => same _,fun _ _ => same _,fun _ _ => same _,fun _ => same _,fun _ _ => same _,
    fun _ _ => same _,fun _ _ => same _⟩

theorem unofferedRecounts : Recounts SimulationMetrics.unoffered := by
  constructor
  · intro m bytes
    simp only [SimulationMetrics.countDemand,mapBind]
    rfl
  · intro m bytes
    simp only [SimulationMetrics.countOrdinaryHit,mapBind]
    rfl
  · intro m bytes
    simp only [SimulationMetrics.countUsefulHit,mapBind]
    rfl
  · intro m bytes
    simp only [SimulationMetrics.countMiss,mapBind]
    rfl
  · intro m
    simp only [SimulationMetrics.countBypass,mapBind]
    rfl
  · intro m bytes
    simp only [SimulationMetrics.countEviction,mapBind]
    rfl
  · intro m bytes
    simp only [SimulationMetrics.countAdmission,mapBind]
    rfl
  · intro m bytes
    simp only [SimulationMetrics.countWasted,mapBind]
    rfl

section Sides
variable {catalog : PageCatalog} {capacityBytes : Nat} {recount : SimulationMetrics → SimulationMetrics}

variable {sequence : Nat} {victims : List PageId}

theorem sideLogged (recount : SimulationMetrics → SimulationMetrics) (k : Kernel) (tag : DecisionTag)
    {page : Option PageId} (kept : tag.ofDemand = true) :
    (k.hashEvent sequence tag page victims).demandSide recount =
      (k.demandSide recount).hashEvent sequence tag page victims := by
  simp [Kernel.demandSide,Kernel.hashEvent,List.filter_append,Decision.ofDemand,kept]

theorem sideUnlogged {k : Kernel} {tag : DecisionTag} {page : Option PageId} (dropped : tag.ofDemand = false) :
    (k.hashEvent sequence tag page victims).demandSide recount = k.demandSide recount := by
  simp [Kernel.demandSide,Kernel.hashEvent,List.filter_append,Decision.ofDemand,dropped]

theorem sidePrefetch {k : Kernel} {tag : DecisionTag} {offered redundant others : List PageId} :
    (k.hashPrefetchDecision sequence tag offered redundant others victims).demandSide recount = k.demandSide recount := by
  simp [Kernel.demandSide,Kernel.hashPrefetchDecision,List.filter_append,Decision.ofDemand]

theorem touchSide (k : Kernel) :
    (k.demandSide recount).nextTouch = k.nextTouch.map (Kernel.demandSide recount) := by
  unfold Kernel.nextTouch
  rw [mapBind]
  rfl

variable (recounts : Recounts recount)
include recounts

theorem wastedSide (k : Kernel) (entry : ResidentEntry) :
    (k.demandSide recount).accountWastedPrefetch entry =
      (k.accountWastedPrefetch entry).map (Kernel.demandSide recount) := by
  unfold Kernel.accountWastedPrefetch
  split
  · show (recount k.metrics).countWasted _ >>= _ = _
    rw [recounts.wasted,bindMap,mapBind]
    rfl
  · rfl

theorem evictSide (k : Kernel) (page : PageId) :
    (k.demandSide recount).evict page = (k.evict page).map (Kernel.demandSide recount) := by
  have lookup : (k.demandSide recount).residents[page]? = k.residents[page]? := rfl
  unfold Kernel.evict
  rw [lookup]
  cases k.residents[page]? with
  | none => rfl
  | some entry =>
    have wasted : (Kernel.demandSide recount {k with residents := k.residents.erase page}).accountWastedPrefetch entry =
      _ := wastedSide recounts _ entry
    simp only [mapBind]
    refine (congrArg (· >>= _) wasted).trans ?_
    rw [bindMap]
    congr 1
    funext k
    congr 1
    funext bytes
    show (recount k.metrics).countEviction _ >>= _ = _
    rw [recounts.eviction,bindMap]
    rfl

theorem insertSide (k : Kernel) (page : PageDescriptor) (touch : Nat) (unused : Bool) :
    (k.demandSide recount).insert capacityBytes page touch unused =
      (k.insert capacityBytes page touch unused).map (Kernel.demandSide recount) := by
  unfold Kernel.insert
  rw [mapBind]
  congr 1
  funext bytes
  show (if _ then _ else if page.id ∈ k.residents then _ else _) = _
  split
  · rfl
  split
  · rfl
  show (recount k.metrics).countAdmission _ >>= _ = _
  rw [recounts.admission,bindMap,mapBind]
  rfl

theorem hitSide (k : Kernel) (sequence : Nat) (page : PageDescriptor) (entry : ResidentEntry) :
    (k.demandSide recount).demandHit sequence page entry =
      (k.demandHit sequence page entry).map (Kernel.demandSide recount) := by
  unfold Kernel.demandHit
  split
  · show (recount k.metrics).countUsefulHit _ >>= _ = _
    rw [recounts.usefulHit,bindMap,mapBind]
    congr 1
    funext metrics
    exact congrArg (fun k : Kernel => Except.ok (k.onHit page.id))
      (sideLogged recount {k with
        residents := k.residents.insert page.id {entry with prefetchedUnused := false}, metrics := metrics}
        .demandUsefulPrefetchHit rfl).symm
  · show (recount k.metrics).countOrdinaryHit _ >>= _ = _
    rw [recounts.ordinaryHit,bindMap,mapBind]
    congr 1
    funext metrics
    exact congrArg (fun k : Kernel => Except.ok (k.onHit page.id))
      (sideLogged recount {k with metrics := metrics} .demandHit rfl).symm

theorem missSide (k : Kernel) (sequence request step : Nat) (page : PageDescriptor) :
    (k.demandSide recount).demandMiss catalog capacityBytes sequence request step page =
      (k.demandMiss catalog capacityBytes sequence request step page).map (Kernel.demandSide recount) := by
  unfold Kernel.demandMiss
  show (recount k.metrics).countMiss _ >>= _ = _
  rw [recounts.miss,bindMap,mapBind]
  congr 1
  funext metrics
  simp only [mapBind]
  congr 1
  funext planned
  cases planned with
  | none =>
    show (recount metrics).countBypass >>= _ = _
    rw [recounts.bypass,bindMap,mapBind]
    congr 1
    funext metrics
    exact congrArg Except.ok (sideLogged recount {k with metrics := metrics} .demandMissBypass rfl).symm
  | some victims =>
    have evicted : victims.foldlM Kernel.evict (Kernel.demandSide recount {k with metrics := metrics}) = _ :=
      mapFold (evictSide recounts) victims _
    simp only [mapBind]
    refine (congrArg (· >>= _) evicted).trans ?_
    rw [bindMap]
    congr 1
    funext k
    refine (congrArg (· >>= _) (insertSide recounts k page k.touch false)).trans ?_
    rw [bindMap]
    congr 1
    funext k
    exact congrArg Except.ok (sideLogged recount k .demandMissAdmit rfl).symm

theorem demandSided (k : Kernel) (sequence request step : Nat) (id : PageId) :
    (k.demandSide recount).demand catalog capacityBytes sequence request step id =
      (k.demand catalog capacityBytes sequence request step id).map (Kernel.demandSide recount) := by
  unfold Kernel.demand
  simp only [mapBind]
  congr 1
  funext policy
  show (recount k.metrics).countDemand _ >>= _ = _
  rw [recounts.demand,bindMap]
  congr 1
  funext metrics
  have touched : (Kernel.demandSide recount
      {k with policy := policy.observeDemand id, metrics := metrics}).nextTouch = _ := touchSide _
  refine (congrArg (· >>= _) touched).trans ?_
  rw [bindMap]
  congr 1
  funext k
  have lookup : (k.demandSide recount).residents[id]? = k.residents[id]? := rfl
  rw [lookup]
  cases k.residents[id]? with
  | some entry => exact hitSide recounts ..
  | none => exact missSide recounts ..

end Sides

section Finish
variable {recount : SimulationMetrics → SimulationMetrics} {change : PolicyState → PolicyState}

theorem finishSide (k : Kernel) : (k.demandSide id).finish = k.finish.map (Kernel.demandSide id) := by
  unfold Kernel.finish
  rw [mapBind]
  refine (congrArg (· >>= _) (mapFold (wastedSide sameRecounts) _ k)).trans ?_
  rw [bindMap]
  simp only [mapBind]
  rfl

theorem finishChanged (same : ∀ policy, (change policy).finishMetadata = policy.finishMetadata) (k : Kernel) :
    (k.mapPolicy change).finish = k.finish.map (Kernel.mapPolicy change) := by
  unfold Kernel.finish
  rw [mapBind]
  refine (congrArg (· >>= _) (mapFold wastedChanged _ k)).trans ?_
  rw [bindMap]
  simp only [mapBind,Kernel.mapPolicy,same]
  rfl

end Finish

def PolicyState.routedBy (router : RouterState) : PolicyState → PolicyState
  | .slru target => if target = router.protectedTarget then .router router else .slru target
  | policy => policy

section Unsignalled
variable {router : RouterState} {catalog : PageCatalog} {capacityBytes : Nat}

theorem unsignalledScore (none : router.active = ∅) (request step : Nat) (page : PageDescriptor) :
    (PolicyState.router router).activeScore request step page = 0 := by
  simp only [PolicyState.activeScore,none,ExtTreeMap.getElem?_empty]
  split <;> rfl

theorem unsignalledAlike (none : router.active = ∅) (target : Nat) (same : target = router.protectedTarget) :
    Alike (.slru target) (.router router) := by
  have scores (request step : Nat) (page : PageDescriptor) :
      (PolicyState.router router).activeScore request step page =
        (PolicyState.slru target).activeScore request step page := unsignalledScore none request step page
  refine ⟨rfl,congrArg some same.symm,fun catalog residents plan => ?_,fun catalog residents plan => ?_⟩
  · have keys : (PolicyState.router router).demandKey catalog plan.request plan.step =
        (PolicyState.slru target).demandKey catalog plan.request plan.step := by
      funext e
      simp only [PolicyState.demandKey,scores]
      rfl
    have admits (victims : List PageId) :
        (PolicyState.router router).admitDemand catalog residents plan.candidate victims plan.request plan.step =
          .ok true := by
      simp [PolicyState.admitDemand,none]
    simp only [PolicyState.planDemandVictims,keys,admits]
    rfl
  · have keys : (PolicyState.router router).prefetchKey catalog plan.request plan.targetStep =
        (PolicyState.slru target).prefetchKey catalog plan.request plan.targetStep := by
      funext e
      simp only [PolicyState.prefetchKey,scores]
    simp only [PolicyState.planPrefetchVictims,keys,scores]

theorem routedAlike (none : router.active = ∅) (policy : PolicyState) : Alike policy (policy.routedBy router) := by
  cases policy with
  | slru target =>
    by_cases same : target = router.protectedTarget
    · simp only [PolicyState.routedBy,if_pos same]
      exact unsignalledAlike none target same
    · simp only [PolicyState.routedBy,if_neg same]
      exact ⟨rfl,rfl,fun _ _ _ => rfl,fun _ _ _ => rfl⟩
  | noCache | lru | tinyLfu | router => exact ⟨rfl,rfl,fun _ _ _ => rfl,fun _ _ _ => rfl⟩

theorem routedDemand (none : router.active = ∅) {k : Kernel} (policy : k.policy = .slru router.protectedTarget)
    (sequence request step : Nat) (id : PageId) :
    (k.mapPolicy (PolicyState.routedBy router)).demand catalog capacityBytes sequence request step id =
      (k.demand catalog capacityBytes sequence request step id).map
        (Kernel.mapPolicy (PolicyState.routedBy router)) := by
  refine demandChanged (routedAlike none) sequence request step id ?_ (fun policy => ?_)
  · have absent : router.active[request]? = Option.none := by simp [none]
    simp [policy,PolicyState.routedBy,PolicyState.enterDemandStep,RouterState.enterDemandStep,absent,Except.map]
    rfl
  · cases policy with
    | slru target =>
      by_cases same : target = router.protectedTarget <;> simp [PolicyState.routedBy,same,PolicyState.observeDemand]
    | noCache | lru | tinyLfu | router => rfl

theorem unselected {config : RouterPolicyConfig} {predictions : List ExpertPrediction}
    (below : ∀ p ∈ predictions, p.scorePpm < config.minimumScorePpm) : Kernel.selectPredictions config predictions = [] := by
  have none : predictions.filter (fun p => p.scorePpm ≥ config.minimumScorePpm) = [] := by
    rw [List.filter_eq_nil_iff]
    intro p member
    have low := below p member
    simpa using low
  rw [Kernel.selectPredictions,none]
  simp [sortByKey]

/- A run of the router is the run of SLRU, down to the error, but for the log of signals. -/
theorem routedReached {trace : ValidatedTrace} {fraction : Nat} {past rest : List TraceEvent} (none : router.active = ∅)
    (below : ∀ event ∈ trace.events, ∀ p ∈ event.predictions, p.scorePpm < router.config.minimumScorePpm)
    (target : router.protectedTarget = capacityBytes * fraction / ppm)
    (made : Kernel.new trace ⟨capacityBytes,.slru fraction⟩ = .ok (Kernel.fresh (.slru router.protectedTarget)))
    (parts : trace.events = past ++ rest) :
    (past.foldlM (Kernel.event trace.catalog capacityBytes) (Kernel.fresh (.router router))).map (Kernel.demandSide id) =
      (past.foldlM (Kernel.event trace.catalog capacityBytes) (Kernel.fresh (.slru router.protectedTarget))).map
        (fun k => (k.mapPolicy (PolicyState.routedBy router)).demandSide id) := by
  induction past using List.reverseRecOn generalizing rest with
  | nil =>
    have begins : (Kernel.fresh (.slru router.protectedTarget)).mapPolicy (PolicyState.routedBy router) =
        Kernel.fresh (.router router) := by simp [Kernel.mapPolicy,Kernel.fresh,PolicyState.routedBy]
    exact congrArg (fun k : Kernel => Except.ok (k.demandSide id)) begins.symm
  | append_singleton past event ih =>
    rw [List.append_assoc,List.singleton_append] at parts
    have before := ih parts
    rw [List.foldlM_append,List.foldlM_append,mapBind,mapBind]
    refine bindTogether (ih parts) (fun k' k reached' reached same => ?_)
    have policy : k.policy = .slru router.protectedTarget := by
      rw [target]
      exact slruReached made parts reached
    simp only [List.foldlM_cons,List.foldlM_nil,bind_pure]
    cases event with
    | demand sequence request step page =>
      calc (k'.demand trace.catalog capacityBytes sequence request step page).map (Kernel.demandSide id)
          = (k'.demandSide id).demand trace.catalog capacityBytes sequence request step page :=
            (demandSided sameRecounts ..).symm
        _ = ((k.mapPolicy (PolicyState.routedBy router)).demand trace.catalog capacityBytes sequence request step
            page).map (Kernel.demandSide id) := by rw [same,demandSided sameRecounts]
        _ = _ := by
          rw [routedDemand none policy,mapTwice]
          rfl
    | routerSignal sequence request targetStep layer predictions =>
      have routed : k'.policy = .router router := by
        have carried : k'.policy = k.policy.routedBy router := congrArg Kernel.policy same
        rw [carried,policy,PolicyState.routedBy,if_pos rfl]
      have none : Kernel.selectPredictions router.config predictions = [] :=
        unselected (below (.routerSignal sequence request targetStep layer predictions) (by rw [parts]; simp))
      have ignored : k.signal trace.catalog capacityBytes sequence request targetStep layer predictions =
          .ok (k.hashEvent sequence .signalIgnored Option.none []) := by
        simp only [Kernel.signal,policy,PolicyState.routerConfig]
      have empty : k'.signal trace.catalog capacityBytes sequence request targetStep layer predictions =
          .ok (k'.hashEvent sequence .signalEmpty Option.none []) := by
        simp only [Kernel.signal,routed,PolicyState.routerConfig,none,List.isEmpty_nil,if_true]
      simp only [Kernel.event,ignored,empty,Except.map]
      rw [sideUnlogged rfl,same]
      exact congrArg Except.ok (sideUnlogged (k := k.mapPolicy (PolicyState.routedBy router)) rfl).symm

theorem unsignalledMetadata (config : RouterPolicyConfig) (prefetch : Bool) (capacityBytes : Nat) (policy : PolicyState) :
    (policy.routedBy (.fresh config prefetch capacityBytes 0)).finishMetadata = policy.finishMetadata := by
  cases policy with
  | slru target =>
    simp only [PolicyState.routedBy]
    by_cases same : target = (RouterState.fresh config prefetch capacityBytes 0).protectedTarget
    · rw [if_pos same]
      rfl
    · rw [if_neg same]
  | noCache | lru | tinyLfu | router => rfl

theorem unsignalledCeiling {events : List TraceEvent} {config : RouterPolicyConfig}
    (below : ∀ event ∈ events, ∀ p ∈ event.predictions, p.scorePpm < config.minimumScorePpm) :
    (events.map (eventBytes config)).sum = 0 := by
  rw [List.sum_eq_zero_iff]
  intro bytes member
  obtain ⟨event,inside,rfl⟩ := List.mem_map.mp member
  cases event with
  | demand => rfl
  | routerSignal sequence request targetStep layer predictions =>
    have none := selectedLength config predictions
    have unselected : Kernel.selectPredictions config predictions = [] := unselected (below _ inside)
    rw [unselected,List.length_nil] at none
    simp only [eventBytes,← none,if_true]

end Unsignalled

def RouterPolicyConfig.spent (config : RouterPolicyConfig) : RouterPolicyConfig :=
  {config with maxPrefetchBytesPerSignal := 0}

def RouterState.idle : RouterState → RouterState := RouterState.adorned id RouterPolicyConfig.spent (fun _ => false) id

def PolicyState.idle : PolicyState → PolicyState
  | .router state => .router state.idle
  | policy => policy

section Idle
variable {catalog : PageCatalog} {capacityBytes request step targetStep layer : Nat} {predictions : List ExpertPrediction}
  {policy : PolicyState}

theorem idleAlike (policy : PolicyState) : Alike policy policy.idle := by
  cases policy with
  | router state => exact ⟨rfl,rfl,fun _ _ _ => rfl,fun _ _ _ => rfl⟩
  | noCache | lru | slru | tinyLfu => exact ⟨rfl,rfl,fun _ _ _ => rfl,fun _ _ _ => rfl⟩

theorem enterIdle (policy : PolicyState) (request step : Nat) :
    policy.idle.enterDemandStep request step = (policy.enterDemandStep request step).map PolicyState.idle := by
  cases policy with
  | noCache | lru | slru | tinyLfu => rfl
  | router state =>
    have entered := enterAdorned id RouterPolicyConfig.spent (fun _ => false) id state request step
    simp only [PolicyState.idle,PolicyState.enterDemandStep,mapBind]
    refine (congrArg (· >>= _) entered).trans ?_
    rw [bindMap]
    rfl

theorem recordIdle (state : RouterState) :
    state.idle.recordSignal request targetStep layer predictions =
      (state.recordSignal request targetStep layer predictions).map RouterState.idle :=
  recordAdorned id RouterPolicyConfig.spent (fun _ => false) state request targetStep layer predictions

theorem signalIdle (policy : PolicyState) :
    signalPolicy policy.idle request targetStep layer predictions =
      (signalPolicy policy request targetStep layer predictions).map PolicyState.idle := by
  cases policy with
  | noCache | lru | slru | tinyLfu => rfl
  | router state =>
    have selected : Kernel.selectPredictions state.idle.config predictions =
        Kernel.selectPredictions state.config predictions := rfl
    simp only [PolicyState.idle,signalPolicy,PolicyState.routerConfig,PolicyState.recordSignal,selected,recordIdle,bindMap]
    split
    · rfl
    · rw [mapBind]
      rfl

def Kernel.idleSide (k : Kernel) : Kernel := (k.mapPolicy PolicyState.idle).demandSide SimulationMetrics.unoffered

theorem idleDemand (k : Kernel) (sequence : Nat) (id : PageId) :
    k.idleSide.demand catalog capacityBytes sequence request step id =
      (k.demand catalog capacityBytes sequence request step id).map Kernel.idleSide := by
  have changed : (k.mapPolicy PolicyState.idle).demand catalog capacityBytes sequence request step id = _ :=
    demandChanged idleAlike sequence request step id (enterIdle ..) (fun policy => by cases policy <;> rfl)
  rw [Kernel.idleSide,demandSided unofferedRecounts,changed,mapTwice]
  rfl

variable {trace : ValidatedTrace} {k : Kernel} {sequence : Nat}

theorem idleGroup {group : PrefetchGroup} {budget : PrefetchBudget}
    {out : Kernel × PrefetchBudget} {expert : Nat} (tried : Tried trace.catalog capacityBytes group budget k out)
    (members : group.pageIds = trace.catalog.groupPages layer expert) (spent : budget.remainingBytes = 0) :
    out.1.demandSide SimulationMetrics.unoffered = k.demandSide SimulationMetrics.unoffered ∧
      out.2.remainingBytes = 0 := by
  cases tried with
  | redundant | dropped => exact ⟨sidePrefetch,spent⟩
  | admitted some_ pages bytes =>
    obtain ⟨id,rest,first⟩ := List.exists_cons_of_ne_nil some_
    have member : id ∈ group.pageIds := List.mem_of_mem_filter (by
      rw [absentPages] at first
      rw [first]
      exact List.mem_cons_self)
    have positive := (groupedValid (members ▸ member)).positive
    rw [first,logicalCons] at bytes
    omega

theorem idleGroups {pages : Nat} (sound : Sound trace.catalog capacityBytes 0 0 k) :
    Safe (fun s => s.1.demandSide SimulationMetrics.unoffered = k.demandSide SimulationMetrics.unoffered)
      (predictions.foldlM (Kernel.prefetchExpert trace.catalog capacityBytes sequence request targetStep layer)
        (k,⟨pages,0⟩)) := by
  refine endsMono (endsFold (fun _ (s : Kernel × PrefetchBudget) => Sound trace.catalog capacityBytes 0 0 s.1 ∧
      s.1.demandSide SimulationMetrics.unoffered = k.demandSide SimulationMetrics.unoffered ∧ s.2.remainingBytes = 0)
    ⟨sound,rfl,rfl⟩ (fun prediction rest s _ kept => ?_)) (fun _ kept => kept.2.1)
  obtain ⟨sound,same,spent⟩ := kept
  unfold Kernel.prefetchExpert
  split
  · exact ⟨sound,same,spent⟩
  · refine endsMono (groupTried (traceCatalogued trace) (groupDistinct trace layer prediction.expert) sound)
      (fun out done => ?_)
    obtain ⟨kept,left⟩ := idleGroup done.1 rfl spent
    exact ⟨done.2,kept.trans same,left⟩

theorem prefetchSignal {k' : Kernel} {state : RouterState}
    (sound : Sound trace.catalog capacityBytes 0 0 k) (router : k.policy = .router state)
    (spent : state.config.maxPrefetchBytesPerSignal = 0)
    (ok : k.signal trace.catalog capacityBytes sequence request targetStep layer predictions = .ok k') :
    k'.demandSide SimulationMetrics.unoffered =
      ({k with policy := k'.policy} : Kernel).demandSide SimulationMetrics.unoffered := by
  simp only [Kernel.signal,router,PolicyState.routerConfig] at ok
  split at ok
  · cases ok
    exact sideUnlogged rfl
  · obtain ⟨policy,recorded,ok⟩ := bindOk.mp ok
    split at ok
    · cases ok
      exact sideUnlogged rfl
    · obtain ⟨out,fold,last⟩ := bindOk.mp ok
      cases last
      rw [spent] at fold
      have same := endsValue (idleGroups (recordedSound sound policy)) fold
      have carried : out.1.policy = policy := congrArg Kernel.policy same
      rw [carried]
      exact same

theorem admitSignal {state : RouterState} (router : k.policy = .router state)
    {next : PolicyState} (recorded : signalPolicy k.policy request targetStep layer predictions = .ok next)
    (disabled : next.prefetchEnabled = false) :
    ∃ k', k.signal catalog capacityBytes sequence request targetStep layer predictions = .ok k' ∧ k'.policy = next ∧
      k'.demandSide SimulationMetrics.unoffered =
        ({k with policy := next} : Kernel).demandSide SimulationMetrics.unoffered := by
  simp only [signalPolicy,router,PolicyState.routerConfig] at recorded
  simp only [Kernel.signal,router,PolicyState.routerConfig]
  split
  · rename_i none
    simp only [PolicyState.recordSignal,none,if_true] at recorded
    cases recorded
    refine ⟨_,rfl,router,?_⟩
    rw [sideUnlogged rfl,← router]
  · rw [recorded]
    refine ⟨({k with policy := next} : Kernel).hashEvent sequence .signalAdmissionOnly none [],?_,rfl,sideUnlogged rfl⟩
    show (if _ then _ else _) = _
    rw [disabled]
    rfl

end Idle

section Runs
variable {trace : ValidatedTrace} {capacityBytes : Nat} {config : RouterPolicyConfig} {past rest : List TraceEvent}
  {start start' : Kernel}

theorem idleReached (made : Kernel.new trace ⟨capacityBytes,.routerPrefetch {config with maxPrefetchBytesPerSignal := 0}⟩ = .ok start)
    (made' : Kernel.new trace ⟨capacityBytes,.routerAdmit config⟩ = .ok start') (begins : start.idleSide = start'.idleSide)
    (parts : trace.events = past ++ rest) {k : Kernel}
    (reached : past.foldlM (Kernel.event trace.catalog capacityBytes) start = .ok k) :
    ∃ k', past.foldlM (Kernel.event trace.catalog capacityBytes) start' = .ok k' ∧ k.idleSide = k'.idleSide := by
  induction past using List.reverseRecOn generalizing rest k with
  | nil =>
    rw [foldNil.mp reached]
    exact ⟨start',rfl,begins⟩
  | append_singleton past event ih =>
    rw [List.append_assoc,List.singleton_append] at parts
    rw [List.foldlM_append] at reached
    obtain ⟨middle,before,last⟩ := bindOk.mp reached
    obtain ⟨_,stepped,done⟩ := foldCons.mp last
    cases foldNil.mp done
    obtain ⟨middle',before',same⟩ := ih parts before
    rw [List.foldlM_append,before']
    suffices next : ∃ k', middle'.event trace.catalog capacityBytes event = .ok k' ∧ k.idleSide = k'.idleSide by
      obtain ⟨k',stepped',same⟩ := next
      exact ⟨k',foldCons.mpr ⟨k',stepped',foldNil.mpr rfl⟩,same⟩
    cases event with
    | demand sequence request step id =>
      have served : middle.idleSide.demand trace.catalog capacityBytes sequence request step id = _ :=
        idleDemand middle sequence id
      have served' : middle'.idleSide.demand trace.catalog capacityBytes sequence request step id = _ :=
        idleDemand middle' sequence id
      have stepped : middle.demand trace.catalog capacityBytes sequence request step id = .ok k := stepped
      rw [← same,served,stepped] at served'
      obtain ⟨k',ended,image⟩ := mapOk.mp served'.symm
      exact ⟨k',ended,image.symm⟩
    | routerSignal sequence request targetStep layer predictions =>
      obtain ⟨state,router,settled,-⟩ := routerReached rfl made parts before
      obtain ⟨state',router',-,disabled⟩ := routerReached rfl made' parts before'
      have side := prefetchSignal (reachedRunning made parts before).sound router (by rw [settled]) stepped
      have recorded : signalPolicy middle.policy request targetStep layer predictions = .ok k.policy := by
        cases reachedStepped made parts before stepped with
        | signal recorded => exact recorded
      have policies : middle.policy.idle = middle'.policy.idle := congrArg Kernel.policy same
      have recorded' : signalPolicy middle'.policy.idle request targetStep layer predictions = .ok k.policy.idle := by
        rw [← policies,signalIdle,recorded]
        rfl
      rw [signalIdle] at recorded'
      obtain ⟨next,ended,image⟩ := mapOk.mp recorded'
      have kept := signalledSettings ended
      rw [router'] at kept
      have off : next.prefetchEnabled = false := by
        cases next with
        | router state =>
          simp only [PolicyState.settings,PolicyState.router.injEq,RouterState.mk.injEq] at kept
          exact kept.2.2.1.trans disabled
        | noCache | lru | slru | tinyLfu => rfl
      obtain ⟨k',signalled,policy,side'⟩ := admitSignal router' ended off
      refine ⟨k',signalled,?_⟩
      have left : k.idleSide = ({middle with policy := k.policy} : Kernel).idleSide :=
        congrArg (Kernel.mapPolicy PolicyState.idle) side
      have right : k'.idleSide = ({middle' with policy := next} : Kernel).idleSide :=
        congrArg (Kernel.mapPolicy PolicyState.idle) side'
      rw [left,right]
      have swapped := congrArg (Kernel.mapPolicy (fun _ => k.policy.idle)) same
      show ({middle.idleSide with policy := k.policy.idle} : Kernel) = {middle'.idleSide with policy := next.idle}
      rw [image]
      exact swapped

structure Serving where
  residents : Residents
  residentBytes : Nat
  touch : Nat
  metrics : SimulationMetrics
  decisions : List Decision

def Serving.of (k : Kernel) : Serving := ⟨k.residents,k.residentBytes,k.touch,k.metrics,k.decisions⟩

def Kernel.serving (recount : SimulationMetrics → SimulationMetrics) (k : Kernel) : Serving :=
  .of (k.demandSide recount)

theorem admitStarts (made : Kernel.new trace ⟨capacityBytes,.routerPrefetch {config with maxPrefetchBytesPerSignal := 0}⟩ = .ok start) :
    ∃ start', Kernel.new trace ⟨capacityBytes,.routerAdmit config⟩ = .ok start' ∧ start.idleSide = start'.idleSide := by
  obtain ⟨valid,limited,rfl⟩ := routerStarts rfl made
  have accepted : config.Accepted := ⟨valid.score,valid.experts,valid.pages,valid.fraction⟩
  exact ⟨_,newOk.mpr ⟨_,_,limited,(routedNewOk rfl).mpr ⟨accepted,rfl⟩,rfl⟩,rfl⟩

theorem slruServes {spec : PolicySpec} (router : spec.router? = some config)
    (below : ∀ event ∈ trace.events, ∀ p ∈ event.predictions, p.scorePpm < config.minimumScorePpm)
    (made : Kernel.new trace ⟨capacityBytes,spec⟩ = .ok start) :
    ∃ start', Kernel.new trace ⟨capacityBytes,.slru config.protectedFractionPpm⟩ = .ok start' ∧
      (∀ past rest, trace.events = past ++ rest →
        (past.foldlM (Kernel.event trace.catalog capacityBytes) start).map (Kernel.serving id) =
          (past.foldlM (Kernel.event trace.catalog capacityBytes) start').map (Kernel.serving id)) ∧
      (start.run trace capacityBytes).map Kernel.metrics = (start'.run trace capacityBytes).map Kernel.metrics := by
  obtain ⟨valid,-,rfl⟩ := routerStarts router made
  rw [unsignalledCeiling below]
  have made' : Kernel.new trace ⟨capacityBytes,.slru config.protectedFractionPpm⟩ =
      .ok (.fresh (.slru (RouterState.fresh config spec.prefetches capacityBytes 0).protectedTarget)) :=
    newOk.mpr ⟨0,_,rfl,bindOk.mpr ⟨_,fractionOk.mpr ⟨valid.fraction,rfl⟩,rfl⟩,rfl⟩
  have same {past rest : List TraceEvent} (parts : trace.events = past ++ rest) :
      (past.foldlM (Kernel.event trace.catalog capacityBytes)
        (.fresh (.router (.fresh config spec.prefetches capacityBytes 0)))).map (Kernel.demandSide id) = _ :=
    routedReached rfl below rfl made' parts
  refine ⟨_,made',fun past rest parts => ?_,?_⟩
  · have sides := congrArg (Except.map Serving.of) (same parts)
    rw [mapTwice,mapTwice] at sides
    exact sides
  · have whole := same (List.append_nil trace.events).symm
    unfold Kernel.run
    rw [mapBind,mapBind]
    refine bindTogether whole (fun k k' _ _ side => ?_)
    have ends := finishChanged (unsignalledMetadata config spec.prefetches capacityBytes) k'
    have left : (k.finish).map Kernel.metrics = ((k.demandSide id).finish).map Kernel.metrics := by
      rw [finishSide,mapTwice]
      rfl
    rw [left,side,finishSide,ends,mapTwice,mapTwice]
    rfl

theorem routersDegrade (trace : ValidatedTrace) (capacityBytes : Nat) (config : RouterPolicyConfig) :
    ((∀ event ∈ trace.events, ∀ p ∈ event.predictions, p.scorePpm < config.minimumScorePpm) →
      ∀ spec start, spec.router? = some config → Kernel.new trace ⟨capacityBytes,spec⟩ = .ok start →
      ∃ start', Kernel.new trace ⟨capacityBytes,.slru config.protectedFractionPpm⟩ = .ok start' ∧
        (∀ past rest, trace.events = past ++ rest →
          (past.foldlM (Kernel.event trace.catalog capacityBytes) start).map (Kernel.serving id) =
            (past.foldlM (Kernel.event trace.catalog capacityBytes) start').map (Kernel.serving id)) ∧
        (start.run trace capacityBytes).map Kernel.metrics = (start'.run trace capacityBytes).map Kernel.metrics) ∧
    ∀ start, Kernel.new trace ⟨capacityBytes,.routerPrefetch {config with maxPrefetchBytesPerSignal := 0}⟩ = .ok start →
      ∃ start', Kernel.new trace ⟨capacityBytes,.routerAdmit config⟩ = .ok start' ∧
        ∀ past rest k, trace.events = past ++ rest →
          past.foldlM (Kernel.event trace.catalog capacityBytes) start = .ok k →
          ∃ k', past.foldlM (Kernel.event trace.catalog capacityBytes) start' = .ok k' ∧
            k.serving SimulationMetrics.unoffered = k'.serving SimulationMetrics.unoffered := by
  refine ⟨fun below spec start router made => slruServes router below made,fun start made => ?_⟩
  obtain ⟨start',made',begins⟩ := admitStarts made
  refine ⟨start',made',fun past rest k parts reached => ?_⟩
  obtain ⟨k',reached',same⟩ := idleReached made made' begins parts reached
  have serving : Serving.of k.idleSide = Serving.of k'.idleSide := congrArg Serving.of same
  exact ⟨k',reached',serving⟩

end Runs

def deaf : RouterPolicyConfig := ⟨500000,700000,2,4,1000⟩
def idled : RouterPolicyConfig := ⟨500000,1,2,4,0⟩

theorem deafStart : (Kernel.new routed ⟨192,.routerPrefetch deaf⟩).toOption.isSome := by decide +kernel

theorem idledStart : (Kernel.new routed ⟨192,.routerPrefetch idled⟩).toOption.isSome := by decide +kernel

theorem idledRun : (routed.events.foldlM (Kernel.event routed.catalog 192) (value _ idledStart)).toOption.isSome := by
  decide +kernel

theorem routedDegrades :
    (∃ start, Kernel.new routed ⟨192,.slru 500000⟩ = .ok start ∧
      ((value _ deafStart).run routed 192).map Kernel.metrics = (start.run routed 192).map Kernel.metrics) ∧
    (value _ idledRun).metrics.prefetchDropped = 2 ∧
    ∃ start k, Kernel.new routed ⟨192,.routerAdmit idled⟩ = .ok start ∧
      routed.events.foldlM (Kernel.event routed.catalog 192) start = .ok k ∧
      (value _ idledRun).serving SimulationMetrics.unoffered = k.serving SimulationMetrics.unoffered := by
  obtain ⟨start,made,-,runs⟩ := (routersDegrade routed 192 deaf).1 (by decide +kernel) (.routerPrefetch deaf) _ rfl
    (valueOk deafStart)
  obtain ⟨start',made',same⟩ := (routersDegrade routed 192 idled).2 _ (valueOk idledStart)
  obtain ⟨k,reached,serving⟩ := same routed.events [] _ (List.append_nil _).symm (valueOk idledRun)
  exact ⟨⟨start,made,runs⟩,by decide +kernel,start',k,made',reached,serving⟩

end RunnelMoe.Sim
