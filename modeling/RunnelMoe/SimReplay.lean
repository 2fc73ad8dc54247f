import RunnelMoe.SimRouter

/-! A replay of a validated trace keeps the kernel consistent from event to event, so
the only error it can end in is a counter that leaves its word. -/
namespace RunnelMoe.Sim
open Words KeyedSum Results Vectors
open Std (ExtTreeMap)

def eventBytes (config : RouterPolicyConfig) : TraceEvent → Nat
  | .demand _ _ _ _ => 0
  | .routerSignal _ _ _ _ predictions =>
    let selected := min (predictions.filter (fun p => p.scorePpm ≥ config.minimumScorePpm)).length
      config.maxExpertsPerSignal
    if selected = 0 then 0 else signalBytes selected

def PolicySpec.router? : PolicySpec → Option RouterPolicyConfig
  | .routerAdmit config | .routerPrefetch config => some config
  | _ => none

theorem ceilingSafe (events : List TraceEvent) (spec : PolicySpec) :
    Safe (fun limit => ∀ config, spec.router? = some config → limit = (events.map (eventBytes config)).sum)
      (routerMetadataLimit events spec) := by
  have sums (config : RouterPolicyConfig) :
      Safe (· = 0 + (events.map (eventBytes config)).sum) (events.foldlM (signalCeiling config) 0) := by
    refine sumSafe (fun sum event _ => ?_) 0
    cases event with
    | demand => exact rfl
    | routerSignal sequence request targetStep layer predictions =>
      simp only [eventBytes,signalCeiling]
      split
      · exact rfl
      · refine endsBind (signalBytesSafe _) (fun _ same => ?_)
        subst same
        exact checkedSafe ..
  cases spec with
  | routerAdmit config | routerPrefetch config =>
    refine endsMono (sums config) (fun limit same other found => ?_)
    cases Option.some.inj found
    rw [same,Nat.zero_add]
  | noCache | lru | slru | tinyLfu | belady => exact fun _ found => by cases found

-- The past is listed latest first.
def PolicyKept (past rest : List TraceEvent) : PolicyState → Prop
  | .router state => ∃ spent, RouterSound (past.filterMap TraceEvent.target?) spent state ∧
      spent + (rest.map (eventBytes state.config)).sum = state.metadataLimitBytes
  | _ => True

section Policies
variable {past rest : List TraceEvent} {policy : PolicyState} {config : RouterPolicyConfig}
  {sequence request step targetStep layer : Nat} {id : PageId} {predictions : List ExpertPrediction}

theorem observedKept (kept : PolicyKept past rest policy) : PolicyKept past rest (policy.observeDemand id) := by
  cases policy with
  | router state => exact kept
  | noCache | lru | slru | tinyLfu => exact trivial

theorem enteredKept (kept : PolicyKept past (.demand sequence request step id :: rest) policy) :
    Safe (PolicyKept (.demand sequence request step id :: past) rest) (policy.enterDemandStep request step) := by
  cases policy with
  | router state =>
    obtain ⟨spent,sound,ceiling⟩ := kept
    refine endsBind (enterSafe sound) (fun next entered => ?_)
    obtain ⟨sound,active,current,rfl⟩ := entered
    refine ⟨spent,sound,?_⟩
    rwa [List.map_cons,List.sum_cons,eventBytes,Nat.zero_add] at ceiling
  | noCache | lru | slru | tinyLfu => exact trivial

theorem selectedLength (config : RouterPolicyConfig) (predictions : List ExpertPrediction) :
    (Kernel.selectPredictions config predictions).length =
      min (predictions.filter (fun p => p.scorePpm ≥ config.minimumScorePpm)).length config.maxExpertsPerSignal := by
  rw [Kernel.selectPredictions,List.length_take,(sortByKeyPerm ..).length_eq,Nat.min_comm]

theorem selectedDistinct (config : RouterPolicyConfig) (distinct : (predictions.map ExpertPrediction.expert).Nodup) :
    ((Kernel.selectPredictions config predictions).map ExpertPrediction.expert).Nodup := by
  have kept := distinct.sublist
    ((List.filter_sublist (p := fun p => p.scorePpm ≥ config.minimumScorePpm)).map ExpertPrediction.expert)
  have sorted := ((sortByKeyPerm (fun p => toLex (OrderDual.toDual p.scorePpm,p.expert))
    (predictions.filter (fun p => p.scorePpm ≥ config.minimumScorePpm))).map ExpertPrediction.expert).nodup_iff.mpr kept
  exact sorted.sublist ((List.take_sublist ..).map _)

theorem soundOlder {targets more : List (Nat × Nat × Nat)} {spent : Nat} {state : RouterState}
    (sound : RouterSound targets spent state) (subset : targets ⊆ more) : RouterSound more spent state := by
  refine ⟨sound.live,fun r signals found => ?_,sound.current,sound.peak,sound.recorded⟩
  have held := sound.held r signals found
  exact ⟨held.some,held.scored,fun key signal inside => subset (held.emitted key signal inside)⟩

theorem signalledKept
    (kept : PolicyKept past (.routerSignal sequence request targetStep layer predictions :: rest) policy)
    (distinct : (predictions.map ExpertPrediction.expert).Nodup)
    (fresh : (request,targetStep,layer) ∉ past.filterMap TraceEvent.target?) :
    Safe (PolicyKept (.routerSignal sequence request targetStep layer predictions :: past) rest)
      (signalPolicy policy request targetStep layer predictions) := by
  cases policy with
  | noCache | lru | slru | tinyLfu => exact trivial
  | router state =>
    obtain ⟨spent,sound,ceiling⟩ := kept
    have length := selectedLength state.config predictions
    rw [List.map_cons,List.sum_cons,eventBytes,← length] at ceiling
    simp only [signalPolicy,PolicyState.routerConfig,PolicyState.recordSignal]
    split
    · rename_i none
      rw [List.isEmpty_iff_length_eq_zero] at none
      rw [if_pos none,Nat.zero_add] at ceiling
      exact ⟨spent,soundOlder sound (List.subset_cons_self _ _),ceiling⟩
    · rename_i some_
      rw [List.isEmpty_iff_length_eq_zero] at some_
      rw [if_neg some_] at ceiling
      have recorded := recordSafe sound (selectedDistinct state.config distinct)
        (fun none => some_ (congrArg List.length none)) fresh (by omega)
      refine endsBind recorded (fun next after => ?_)
      obtain ⟨sound,same,limit⟩ := after
      refine ⟨_,sound,?_⟩
      rw [same,limit]
      omega

end Policies

inductive Groups (catalog : PageCatalog) (capacityBytes : Nat) (k : Kernel) : Kernel → Prop where
  | recorded (policy : PolicyState) (decisions : List Decision) :
      Groups catalog capacityBytes k {k with policy := policy, decisions := decisions}
  | tried {middle : Kernel} {group : PrefetchGroup} {budget : PrefetchBudget} {out : Kernel × PrefetchBudget}
      (before : Groups catalog capacityBytes k middle) (tried : Tried catalog capacityBytes group budget middle out) :
      Groups catalog capacityBytes k out.1

inductive Stepped (catalog : PageCatalog) (capacityBytes : Nat) (k k' : Kernel) : TraceEvent → Prop where
  | demand {sequence request step : Nat} {id : PageId} {policy : PolicyState}
      (entered : k.policy.enterDemandStep request step = .ok policy)
      (served : Served catalog capacityBytes sequence request step id
        (k.demanded (policy.observeDemand id) (catalog.page id).logicalBytes) k') :
      Stepped catalog capacityBytes k k' (.demand sequence request step id)
  | signal {sequence request targetStep layer : Nat} {predictions : List ExpertPrediction}
      (recorded : signalPolicy k.policy request targetStep layer predictions = .ok k'.policy)
      (groups : Groups catalog capacityBytes k k') :
      Stepped catalog capacityBytes k k' (.routerSignal sequence request targetStep layer predictions)

structure Running (catalog : PageCatalog) (capacityBytes : Nat) (past rest : List TraceEvent) (k : Kernel) : Prop where
  sound : Sound catalog capacityBytes 0 0 k
  policy : PolicyKept past rest k.policy

structure Causal (past rest : List TraceEvent) : Prop where
  targets : ((past.reverse ++ rest).filterMap TraceEvent.target?).Nodup
  experts : ∀ event ∈ rest, (event.predictions.map ExpertPrediction.expert).Nodup

section Events
variable {catalog : PageCatalog} {capacityBytes : Nat} {past rest : List TraceEvent} {event : TraceEvent} {k : Kernel}

theorem causalStep (causal : Causal past (event::rest)) : Causal (event::past) rest := by
  refine ⟨?_,fun other member => causal.experts other (List.mem_cons_of_mem _ member)⟩
  have targets := causal.targets
  rwa [List.reverse_cons,List.append_assoc,List.singleton_append]

theorem causalFresh {sequence request targetStep layer : Nat} {predictions : List ExpertPrediction}
    (causal : Causal past (.routerSignal sequence request targetStep layer predictions :: rest)) :
    (request,targetStep,layer) ∉ past.filterMap TraceEvent.target? := by
  intro seen
  have targets := causal.targets
  rw [List.filterMap_append,List.nodup_append] at targets
  refine targets.2.2 (request,targetStep,layer) ?_ (request,targetStep,layer) List.mem_cons_self rfl
  rw [List.filterMap_reverse]
  exact List.mem_reverse.mpr seen

theorem eventSafe (catalogued : Catalogued catalog) (causal : Causal past (event::rest))
    (running : Running catalog capacityBytes past (event::rest) k) :
    Safe (fun k' => Running catalog capacityBytes (event::past) rest k' ∧ Stepped catalog capacityBytes k k' event)
      (k.event catalog capacityBytes event) := by
  cases event with
  | demand sequence request step id =>
    have entering := enteredKept running.policy
    refine endsMono (demandServed catalogued running.sound (endsMono entering (fun _ _ => trivial))) ?_
    rintro k' ⟨policy,entered,served⟩
    have kept : PolicyKept (.demand sequence request step id :: past) rest policy := endsValue entering entered
    refine ⟨⟨servedSound catalogued running.sound served,?_⟩,.demand entered served⟩
    rw [servedPolicy served]
    exact observedKept kept
  | routerSignal sequence request targetStep layer predictions =>
    have distinct := causal.experts _ List.mem_cons_self
    have recording := signalledKept running.policy distinct (causalFresh causal)
    refine endsMono (signalSafe (Groups catalog capacityBytes k) catalogued running.sound
      (endsMono recording (fun _ _ => trivial)) .recorded (fun _ _ _ _ _ before tried => .tried before tried)) ?_
    rintro k' ⟨sound,groups,recorded⟩
    exact ⟨⟨sound,endsValue recording recorded⟩,.signal recorded groups⟩

theorem eventsSafe (catalogued : Catalogued catalog) {events : List TraceEvent} (causal : Causal past (events ++ rest))
    (running : Running catalog capacityBytes past (events ++ rest) k) :
    Safe (Running catalog capacityBytes (events.reverse ++ past) rest)
      (events.foldlM (Kernel.event catalog capacityBytes) k) := by
  induction events generalizing past k with
  | nil => exact running
  | cons event more ih =>
    rw [List.foldlM_cons,List.reverse_cons,List.append_assoc]
    refine endsBind (eventSafe catalogued causal running) (fun next after => ?_)
    exact ih (causalStep causal) after.1

end Events

section Finish
variable {catalog : PageCatalog} {capacityBytes : Nat} {past : List TraceEvent} {k : Kernel}

theorem sumFiltered {A : Type} {keep : A → Bool} {weight : A → Nat} (items : List A)
    (zero : ∀ a, keep a = false → weight a = 0) : ((items.filter keep).map weight).sum = (items.map weight).sum := by
  induction items with
  | nil => rfl
  | cons a rest ih =>
    cases kept : keep a with
    | true => simp [kept,ih]
    | false => simp [kept,ih,zero a kept]

def unusedEntries (residents : Residents) : List ResidentEntry :=
  (residentValues residents).filter ResidentEntry.prefetchedUnused

theorem unusedSums (residents : Residents) :
    ((unusedEntries residents).map ResidentEntry.unused).sum = unusedTotal residents ∧
      ((unusedEntries residents).map ResidentEntry.unusedBytes).sum = unusedBytesTotal residents := by
  unfold unusedEntries unusedTotal unusedBytesTotal total
  constructor
  · rw [sumFiltered _ (fun e used => by simp [ResidentEntry.unused,used]),residentValues,List.map_map]
    rfl
  · rw [sumFiltered _ (fun e used => by simp [ResidentEntry.unusedBytes,used]),residentValues,List.map_map]
    rfl

theorem unusedWasted {entries : List ResidentEntry}
    (balanced : Balanced k.metrics 0 0 (entries.map ResidentEntry.unused).sum (entries.map ResidentEntry.unusedBytes).sum) :
    Safe (fun k' => Balanced k'.metrics 0 0 0 0 ∧ ∃ wasted bytes,
        k' = {k with metrics := {k.metrics with prefetchWasted := wasted, prefetchWastedBytes := bytes}})
      (entries.foldlM Kernel.accountWastedPrefetch k) := by
  induction entries generalizing k with
  | nil => exact ⟨balanced,_,_,rfl⟩
  | cons e rest ih =>
    rw [List.foldlM_cons]
    refine endsBind (wastedAccounted k e) (fun next same => ?_)
    subst same
    have admitted := balanced.admitted
    have admittedBytes := balanced.admittedBytes
    rw [List.map_cons,List.sum_cons] at admitted admittedBytes
    refine endsMono (ih {balanced with admitted := ?_, admittedBytes := ?_}) ?_
    · show k.metrics.prefetchUseful + (k.metrics.prefetchWasted + e.unused) + _ = k.metrics.prefetchAdmitted
      omega
    · show k.metrics.prefetchUsefulBytes + (k.metrics.prefetchWastedBytes + e.unusedBytes) + _ =
        k.metrics.prefetchLoadBytes
      omega
    · rintro k' ⟨after,wasted,bytes,same⟩
      exact ⟨after,wasted,bytes,same⟩

theorem metadataSafe {policy : PolicyState} (kept : PolicyKept past [] policy) :
    Safe (fun _ => True) policy.finishMetadata := by
  cases policy with
  | noCache | lru | slru | tinyLfu => exact trivial
  | router state =>
    obtain ⟨spent,sound,ceiling⟩ := kept
    exact finishRouterSafe sound ceiling

theorem finishedSafe (running : Running catalog capacityBytes past [] k) :
    Safe (fun k' => ∃ wasted bytes metadata limit, k' = {k with metrics := {k.metrics with
        prefetchWasted := wasted, prefetchWastedBytes := bytes, finalResidentChargeBytes := k.residentBytes,
        policyMetadataBytes := metadata, policyMetadataLimitBytes := limit,
        totalPhysicalLoadBytes := k.metrics.demandLoadBytes + k.metrics.prefetchLoadBytes}}) k.finish := by
  have balanced := running.sound.balanced
  obtain ⟨count,bytes⟩ := unusedSums k.residents
  rw [← count,← bytes] at balanced
  refine endsBind (unusedWasted balanced) (fun _ after => ?_)
  obtain ⟨after,wasted,wastedBytes,rfl⟩ := after
  refine endsBind (metadataSafe running.policy) (fun metadata _ => ?_)
  refine endsBind (finishSafe ⟨after.accesses,after.accessBytes,after.fills,after.offered,after.offeredBytes,
    after.admitted,after.admittedBytes⟩) (fun _ same => ?_)
  subst same
  exact ⟨_,_,_,_,rfl⟩

end Finish

section Replays
variable {trace : ValidatedTrace} {config : SimulationConfig} {start k : Kernel}

theorem traceCatalogued (trace : ValidatedTrace) : Catalogued trace.catalog :=
  ⟨pageIdentity trace,groupDistinct trace⟩

theorem traceCausal (trace : ValidatedTrace) : Causal [] trace.events :=
  ⟨(signalsDistinct trace).1,(signalsDistinct trace).2⟩

def RouterState.fresh (config : RouterPolicyConfig) (prefetch : Bool) (capacityBytes limit : Nat) : RouterState :=
  ⟨capacityBytes * config.protectedFractionPpm / ppm,config,prefetch,∅,0,0,0,limit⟩

def Kernel.fresh (policy : PolicyState) : Kernel := ⟨policy,∅,0,.zero,[],0⟩

def PolicySpec.prefetches : PolicySpec → Bool
  | .routerPrefetch _ => true
  | _ => false

structure RouterPolicyConfig.Accepted (config : RouterPolicyConfig) : Prop where
  score : config.minimumScorePpm ≤ 1000000
  experts : config.maxExpertsPerSignal ≠ 0
  pages : config.maxPagesPerSignal ≠ 0
  fraction : config.protectedFractionPpm ≤ 1000000

variable {capacityBytes ceiling : Nat} {policy : PolicyState} {spec : PolicySpec} {settings : RouterPolicyConfig}

theorem fractionOk {fraction target : Nat} : fractionTarget capacityBytes fraction = .ok target ↔
    fraction ≤ 1000000 ∧ target = capacityBytes * fraction / ppm := by
  rw [fractionTarget,guardOk,Nat.not_lt,Except.ok.injEq,eq_comm]

theorem routerNewOk {prefetch : Bool} {state : RouterState} : RouterState.new settings prefetch capacityBytes ceiling = .ok state ↔
    settings.Accepted ∧ state = .fresh settings prefetch capacityBytes ceiling := by
  simp only [RouterState.new,guardOk,bindOk,fractionOk,not_or,Nat.not_lt]
  constructor
  · rintro ⟨score,⟨experts,pages⟩,_,⟨fraction,rfl⟩,last⟩
    cases last
    exact ⟨⟨score,experts,pages,fraction⟩,rfl⟩
  · rintro ⟨valid,rfl⟩
    exact ⟨valid.score,⟨valid.experts,valid.pages⟩,_,⟨valid.fraction,rfl⟩,rfl⟩

theorem routedNewOk (router : spec.router? = some settings) : PolicyState.new spec capacityBytes ceiling = .ok policy ↔
    settings.Accepted ∧ policy = .router (.fresh settings spec.prefetches capacityBytes ceiling) := by
  cases spec with
  | routerAdmit given | routerPrefetch given =>
    cases Option.some.inj router
    simp only [PolicyState.new,bindOk,routerNewOk]
    constructor
    · rintro ⟨_,⟨valid,rfl⟩,last⟩
      cases last
      exact ⟨valid,rfl⟩
    · rintro ⟨valid,rfl⟩
      exact ⟨_,⟨valid,rfl⟩,rfl⟩
  | noCache | lru | slru | tinyLfu | belady => contradiction

theorem newRouter (ok : PolicyState.new spec capacityBytes ceiling = .ok policy) : policy.routerConfig = spec.router? := by
  cases spec with
  | routerAdmit settings | routerPrefetch settings =>
    rw [((routedNewOk rfl).mp ok).2]
    rfl
  | slru | tinyLfu =>
    obtain ⟨_,-,last⟩ := bindOk.mp ok
    cases last
    rfl
  | noCache | lru =>
    cases ok
    rfl
  | belady => contradiction

theorem newOk : Kernel.new trace config = .ok start ↔ ∃ ceiling policy, routerMetadataLimit trace.events config.policy = .ok ceiling ∧
    PolicyState.new config.policy config.capacityBytes ceiling = .ok policy ∧ start = .fresh policy := by
  simp only [Kernel.new,bindOk,Except.ok.injEq,eq_comm (b := start)]
  exact ⟨fun ⟨ceiling,limited,policy,made⟩ => ⟨ceiling,policy,limited,made⟩,
    fun ⟨ceiling,policy,limited,made⟩ => ⟨ceiling,limited,policy,made⟩⟩

theorem routerStarts (router : config.policy.router? = some settings) (made : Kernel.new trace config = .ok start) :
    settings.Accepted ∧ routerMetadataLimit trace.events config.policy = .ok (trace.events.map (eventBytes settings)).sum ∧
      start = .fresh (.router (.fresh settings config.policy.prefetches config.capacityBytes
        (trace.events.map (eventBytes settings)).sum)) := by
  obtain ⟨ceiling,policy,limited,created,rfl⟩ := newOk.mp made
  cases endsValue (ceilingSafe trace.events config.policy) limited settings router
  obtain ⟨valid,rfl⟩ := (routedNewOk router).mp created
  exact ⟨valid,limited,rfl⟩

theorem slruStarts {fraction : Nat} (made : Kernel.new trace ⟨capacityBytes,.slru fraction⟩ = .ok start) :
    start = .fresh (.slru (capacityBytes * fraction / ppm)) := by
  obtain ⟨ceiling,policy,-,created,rfl⟩ := newOk.mp made
  obtain ⟨target,divided,last⟩ := bindOk.mp created
  cases last
  rw [(fractionOk.mp divided).2]

theorem emptySound (catalog : PageCatalog) (capacityBytes : Nat) (policy : PolicyState) :
    Sound catalog capacityBytes 0 0 (.fresh policy) := by
  have none (weight : PageId → ResidentEntry → Nat) : total weight (∅ : Residents) = 0 := totalEmpty weight
  refine ⟨⟨everyEmpty _,(none _).symm,Nat.zero_le _⟩,?_⟩
  rw [unusedTotal,unusedBytesTotal,Kernel.fresh,none,none]
  exact ⟨rfl,rfl,rfl,rfl,rfl,rfl,rfl⟩

theorem policyNewKept {events : List TraceEvent} (ok : PolicyState.new spec capacityBytes ceiling = .ok policy)
    (exact_ : ∀ settings, spec.router? = some settings → ceiling = (events.map (eventBytes settings)).sum) :
    PolicyKept [] events policy := by
  cases router : spec.router? with
  | some settings =>
    obtain ⟨-,rfl⟩ := (routedNewOk router).mp ok
    refine ⟨0,⟨(totalEmpty _).symm,everyEmpty _,Nat.le_refl _,Nat.le_refl _,rfl⟩,?_⟩
    rw [Nat.zero_add]
    exact (exact_ settings router).symm
  | none =>
    have unrouted := newRouter ok
    rw [router] at unrouted
    cases policy with
    | router => contradiction
    | noCache | lru | slru | tinyLfu => exact trivial

theorem newRunning (made : Kernel.new trace config = .ok start) :
    Running trace.catalog config.capacityBytes [] trace.events start := by
  obtain ⟨ceiling,policy,limited,created,rfl⟩ := newOk.mp made
  exact ⟨emptySound ..,policyNewKept created (endsValue (ceilingSafe trace.events config.policy) limited)⟩

def PolicyState.ceiled (limit : Nat) : PolicyState → PolicyState
  | .router state => .router {state with metadataLimitBytes := limit}
  | policy => policy

theorem routerNewCeiled (settings : RouterPolicyConfig) (prefetch : Bool) (capacityBytes ceiling limit : Nat) :
    RouterState.new settings prefetch capacityBytes limit =
      (RouterState.new settings prefetch capacityBytes ceiling).map
        (fun state => {state with metadataLimitBytes := limit}) := by
  unfold RouterState.new
  split
  · rfl
  split
  · rfl
  rw [mapBind]
  rfl

theorem policyNewCeiled (spec : PolicySpec) (capacityBytes ceiling limit : Nat) :
    PolicyState.new spec capacityBytes limit =
      (PolicyState.new spec capacityBytes ceiling).map (PolicyState.ceiled limit) := by
  unfold PolicyState.new
  cases spec with
  | routerAdmit settings | routerPrefetch settings =>
    simp only
    rw [routerNewCeiled settings _ capacityBytes ceiling limit,bindMap,mapBind]
    rfl
  | slru | tinyLfu =>
    simp only
    rw [mapBind]
    rfl
  | noCache | lru | belady => rfl

theorem acceptedAny {spec : PolicySpec}
    (ok : PolicyState.new spec capacityBytes ceiling = .ok policy) (other : Nat) :
    ∃ policy', PolicyState.new spec capacityBytes other = .ok policy' := by
  rw [policyNewCeiled spec capacityBytes ceiling other,ok]
  exact ⟨_,rfl⟩

theorem kernelSafe (trace : ValidatedTrace)
    (accepted : PolicyState.new config.policy config.capacityBytes ceiling = .ok policy) :
    Safe (fun _ => True) (do
      let k ← Kernel.new trace config
      k.run trace config.capacityBytes) := by
  have creating : Safe (fun _ => True) (Kernel.new trace config) := by
    refine endsBind (ceilingSafe trace.events config.policy) (fun limit _ => ?_)
    obtain ⟨policy',created⟩ := acceptedAny accepted limit
    rw [created]
    exact trivial
  refine endsBindOk creating (fun start made _ => ?_)
  have running := newRunning made
  have causal := traceCausal trace
  rw [← List.append_nil trace.events] at running causal
  refine endsBind (eventsSafe (traceCatalogued trace) causal running) (fun k after => ?_)
  exact endsMono (finishedSafe after) (fun _ _ => trivial)

section Reached
variable {past rest later : List TraceEvent} {event : TraceEvent} {k' : Kernel}

theorem reachedRunning (made : Kernel.new trace config = .ok start) (parts : trace.events = past ++ rest)
    (reached : past.foldlM (Kernel.event trace.catalog config.capacityBytes) start = .ok k) :
    Running trace.catalog config.capacityBytes past.reverse rest k := by
  have running := newRunning made
  have causal := traceCausal trace
  rw [parts] at running causal
  have after := endsValue (eventsSafe (traceCatalogued trace) causal running) reached
  rwa [List.append_nil] at after

theorem reachedStepped (made : Kernel.new trace config = .ok start) (parts : trace.events = past ++ event::later)
    (reached : past.foldlM (Kernel.event trace.catalog config.capacityBytes) start = .ok k)
    (stepped : k.event trace.catalog config.capacityBytes event = .ok k') :
    Stepped trace.catalog config.capacityBytes k k' event := by
  have causal := traceCausal trace
  rw [parts] at causal
  have ahead : Causal past.reverse (event::later) := by
    refine ⟨?_,fun other member => causal.experts other (List.mem_append_right _ member)⟩
    simpa using causal.targets
  exact (endsValue (eventSafe (traceCatalogued trace) ahead (reachedRunning made parts reached)) stepped).2

theorem nextMember (next : ∃ later, trace.events = past ++ event::later) : event ∈ trace.events := by
  obtain ⟨later,parts⟩ := next
  rw [parts]
  simp

/- What holds at the start and is kept by every step of a consistent kernel holds in
every state that a replay reaches; the condition may speak about the events before. -/
theorem reachedInvariant (Inv : List TraceEvent → Kernel → Prop) (made : Kernel.new trace config = .ok start)
    (first : Inv [] start)
    (kept : ∀ past event k k', (∃ later, trace.events = past ++ event::later) →
      past.foldlM (Kernel.event trace.catalog config.capacityBytes) start = .ok k → Inv past k →
      Sound trace.catalog config.capacityBytes 0 0 k → k.event trace.catalog config.capacityBytes event = .ok k' →
      Stepped trace.catalog config.capacityBytes k k' event → Inv (past ++ [event]) k')
    (parts : trace.events = past ++ rest)
    (reached : past.foldlM (Kernel.event trace.catalog config.capacityBytes) start = .ok k) : Inv past k := by
  induction past using List.reverseRecOn generalizing rest k with
  | nil =>
    rw [foldNil.mp reached]
    exact first
  | append_singleton past event ih =>
    rw [List.foldlM_append] at reached
    obtain ⟨middle,before,last⟩ := bindOk.mp reached
    obtain ⟨_,stepped,done⟩ := foldCons.mp last
    cases foldNil.mp done
    rw [List.append_assoc,List.singleton_append] at parts
    exact kept past event middle k ⟨rest,parts⟩ before (ih parts before) (reachedRunning made parts before).sound stepped
      (reachedStepped made parts before stepped)

end Reached

theorem simulatedOnline (online : config.policy ≠ .belady) :
    simulate trace config = (do
      let k ← Kernel.new trace config
      let k ← k.run trace config.capacityBytes
      .ok ⟨resultSchema,trace.header.traceId,config.policy.name,config.policy,config.capacityBytes,false,k.metrics,
        .inr k.decisions⟩) := by
  unfold simulate
  cases spec : config.policy with
  | belady => contradiction
  | _ => rfl

theorem simulatedRun {result : SimulationResult} (online : config.policy ≠ .belady)
    (ok : simulate trace config = .ok result) :
    ∃ start k, Kernel.new trace config = .ok start ∧ start.run trace config.capacityBytes = .ok k ∧
      result.metrics = k.metrics ∧ result.decisions = .inr k.decisions := by
  rw [simulatedOnline online] at ok
  obtain ⟨start,made,ok⟩ := bindOk.mp ok
  obtain ⟨k,ran,last⟩ := bindOk.mp ok
  cases last
  exact ⟨start,k,made,ran,rfl,rfl⟩

theorem newOnline {limit : Nat}
    (accepted : PolicyState.new config.policy config.capacityBytes limit = .ok policy) : config.policy ≠ .belady := by
  intro offline
  rw [offline] at accepted
  contradiction

theorem simulateSafe {limit : Nat}
    (accepted : PolicyState.new config.policy config.capacityBytes limit = .ok policy) :
    Safe (fun _ => True) (simulate trace config) := by
  rw [simulatedOnline (newOnline accepted),← bind_assoc]
  exact endsBind (kernelSafe trace accepted) (fun _ _ => trivial)

theorem replayConsistent {ceiling : Nat} {policy : PolicyState}
    (accepted : PolicyState.new config.policy config.capacityBytes ceiling = .ok policy) :
    (∀ error, simulate trace config = .error error → ∃ counter, error = .counterOverflow counter) ∧
      ∀ start past rest k, Kernel.new trace config = .ok start → trace.events = past ++ rest →
        past.foldlM (Kernel.event trace.catalog config.capacityBytes) start = .ok k →
        Sound trace.catalog config.capacityBytes 0 0 k ∧
          ∀ event later k', rest = event::later → k.event trace.catalog config.capacityBytes event = .ok k' →
            Stepped trace.catalog config.capacityBytes k k' event := by
  constructor
  · intro error failed
    have overflow : Safe (fun _ => True) (simulate trace config) := simulateSafe accepted
    rw [failed] at overflow
    cases error with
    | counterOverflow counter => exact ⟨counter,rfl⟩
    | _ => exact overflow.elim
  · intro start past rest k made parts reached
    refine ⟨(reachedRunning made parts reached).sound,fun event later k' next stepped => ?_⟩
    subst next
    exact reachedStepped made parts reached stepped

end Replays

theorem routedValid :
    (validateRecords ⟨headerKind,traceSchema,"routed",4,5,64,prefetchModel⟩
      [⟨0,10,64,.expert 0 0 0⟩,⟨1,20,64,.expert 0 1 0⟩,⟨2,30,64,.expert 0 1 1⟩,⟨3,5,64,.shared⟩]
      [.demand 0 1 0 0,.demand 1 1 0 3,.routerSignal 2 1 1 0 [⟨1,600000⟩,⟨0,100000⟩],.demand 3 1 1 1,.demand 4 1 1 2]
      defaultLimits).toOption.isSome := by decide +kernel

def routed : ValidatedTrace := value _ routedValid

def prefetching : SimulationConfig := ⟨192,.routerPrefetch ⟨500000,1,2,4,1000⟩⟩

theorem routedAccepted : (PolicyState.new prefetching.policy prefetching.capacityBytes 0).toOption.isSome := by
  decide +kernel

theorem routedStart : (Kernel.new routed prefetching).toOption.isSome := by decide +kernel

theorem routedPrefetches : ((routed.events.take 3).foldlM (Kernel.event routed.catalog 192)
    (value _ routedStart)).toOption.isSome := by decide +kernel

theorem routedConsistent :
    (∀ error, simulate routed prefetching = .error error → ∃ counter, error = .counterOverflow counter) ∧
      (value _ routedPrefetches).residents.size = 3 ∧ Sound routed.catalog 192 0 0 (value _ routedPrefetches) := by
  obtain ⟨errors,steps⟩ := @replayConsistent routed prefetching 0 _ (valueOk routedAccepted)
  refine ⟨errors,by decide +kernel,?_⟩
  exact (steps _ (routed.events.take 3) (routed.events.drop 3) _ (valueOk routedStart)
    (List.take_append_drop 3 routed.events).symm (valueOk routedPrefetches)).1

end RunnelMoe.Sim
