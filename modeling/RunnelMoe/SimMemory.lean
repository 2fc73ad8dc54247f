import RunnelMoe.SimAccepts
import RunnelMoe.SimIsolation
import RunnelMoe.SimSegments

/-! Router memory is exact. A signal is held from the event that emits it until its
request moves past the target; a demand retires its own request's signals only, so what
is held for other requests may be stale until their next demand. -/
namespace RunnelMoe.Sim
open Words KeyedSum Results Vectors
open Std (ExtTreeMap)

def Emitted (settings : RouterPolicyConfig) (past : List TraceEvent) (request target layer : Nat) (signal : ActiveSignal) :
    Prop :=
  ∃ sequence predictions, .routerSignal sequence request target layer predictions ∈ past ∧
    Kernel.selectPredictions settings predictions ≠ [] ∧
    ∀ expert score, signal.scores[expert]? = some score ↔
      (⟨expert,score⟩ : ExpertPrediction) ∈ Kernel.selectPredictions settings predictions

def Pending (past : List TraceEvent) (request target : Nat) : Prop :=
  ∀ sequence step id, .demand sequence request step id ∈ past → step ≤ target

def Remembers (settings : RouterPolicyConfig) (past : List TraceEvent) (state : RouterState) : Prop :=
  ∀ request target layer signal, state.signalAt request target layer = some signal ↔
    Emitted settings past request target layer signal ∧ Pending past request target

theorem scoresInserted (predictions : List ExpertPrediction) (distinct : (predictions.map ExpertPrediction.expert).Nodup)
    (scores : ExtTreeMap Nat Nat) (expert score : Nat) :
    (predictions.foldl (fun scores p => scores.insert p.expert p.scorePpm) scores)[expert]? = some score ↔
      (⟨expert,score⟩ : ExpertPrediction) ∈ predictions ∨
        expert ∉ predictions.map ExpertPrediction.expert ∧ scores[expert]? = some score := by
  induction predictions generalizing scores with
  | nil => simp
  | cons p rest ih =>
    rw [List.map_cons,List.nodup_cons] at distinct
    rw [List.foldl_cons,ih distinct.2,getInsert,List.map_cons,List.mem_cons,List.mem_cons]
    by_cases here : expert = p.expert
    · subst here
      have later : (⟨p.expert,score⟩ : ExpertPrediction) ∉ rest := fun member =>
        distinct.1 (List.mem_map.mpr ⟨_,member,rfl⟩)
      cases p
      simp_all [eq_comm]
    · have other : (⟨expert,score⟩ : ExpertPrediction) ≠ p := fun same => here (same ▸ rfl)
      simp [here,other]

theorem scoresExact {predictions : List ExpertPrediction} (distinct : (predictions.map ExpertPrediction.expert).Nodup)
    (signal : ActiveSignal) :
    signal = ⟨scoresOf predictions⟩ ↔
      ∀ expert score, signal.scores[expert]? = some score ↔ (⟨expert,score⟩ : ExpertPrediction) ∈ predictions := by
  have inserted (expert score) := scoresInserted predictions distinct ∅ expert score
  simp only [ExtTreeMap.getElem?_empty,reduceCtorEq,and_false,or_false] at inserted
  constructor
  · rintro rfl expert score
    exact inserted expert score
  · intro same
    have scores : signal.scores = scoresOf predictions := by
      ext expert score
      rw [same,scoresOf,inserted]
    cases signal
    rw [← scores]

section Retirement
variable {state next : RouterState} {request step : Nat} {signals : ExtTreeMap SignalKey ActiveSignal}

theorem retiredExact (signals : ExtTreeMap SignalKey ActiveSignal) (step : Nat) (key : SignalKey) :
    key ∈ (retiredRows signals step).map Prod.fst ↔ key ∈ signals ∧ key.targetStep < step := by
  have ordered : signals.toList.Pairwise (fun a b => compare a.1 b.1 = .lt) := ExtTreeMap.ordered_keys_toList
  have front : retiredRows signals step = signals.toList.filter (fun row => row.1.targetStep < step) := by
    refine takeWhileFilter ordered (fun a b before late => ?_)
    have below : a.1 < b.1 := compare_lt_iff_lt.mp before
    have steps : a.1.targetStep ≤ b.1.targetStep := by
      rcases Prod.Lex.lt_iff.mp (show toLex (a.1.targetStep,a.1.layer) < toLex (b.1.targetStep,b.1.layer) from below) with
        less | ⟨same,-⟩
      · exact Nat.le_of_lt less
      · exact Nat.le_of_eq same
    have limit : b.1.targetStep < step := by simpa using late
    simpa using Nat.lt_of_le_of_lt steps limit
  rw [front,List.mem_map]
  simp only [List.mem_filter,decide_eq_true_eq]
  constructor
  · rintro ⟨row,⟨member,late⟩,rfl⟩
    refine ⟨?_,late⟩
    rw [ExtTreeMap.mem_iff_isSome_getElem?,memToList.mp member]
    rfl
  · rintro ⟨held,late⟩
    obtain ⟨signal,found⟩ := Option.isSome_iff_exists.mp (ExtTreeMap.mem_iff_isSome_getElem?.mp held)
    exact ⟨(key,signal),⟨memToList.mpr found,late⟩,rfl⟩

theorem keptExact (signals : ExtTreeMap SignalKey ActiveSignal) (step target layer : Nat) :
    (keptSignals signals step)[(⟨target,layer⟩ : SignalKey)]? =
      if target < step then none else signals[(⟨target,layer⟩ : SignalKey)]? := by
  rw [keptSignals,erasedAll]
  simp only [retiredExact]
  by_cases late : target < step
  · rw [if_pos late]
    split
    · rfl
    · rename_i absent
      simp only [late,and_true,ExtTreeMap.mem_iff_isSome_getElem?] at absent
      simpa using absent
  · rw [if_neg late,if_neg (fun retired => late retired.2)]

theorem enteredActive (ok : state.enterDemandStep request step = .ok next) :
    next.config = state.config ∧ next.active = match state.active[request]? with
      | none => state.active
      | some signals => keptActive state.active request step signals := by
  unfold RouterState.enterDemandStep at ok
  cases found : state.active[request]? with
  | none =>
    simp only [found] at ok
    cases ok
    exact ⟨rfl,rfl⟩
  | some signals =>
    simp only [found] at ok
    obtain ⟨_,-,ok⟩ := bindOk.mp ok
    obtain ⟨_,-,ok⟩ := bindOk.mp ok
    cases ok
    exact ⟨rfl,rfl⟩

theorem enteredSignals (ok : state.enterDemandStep request step = .ok next) (other target layer : Nat) :
    next.signalAt other target layer = if other = request ∧ target < step then none else state.signalAt other target layer := by
  have active := (enteredActive ok).2
  unfold RouterState.signalAt
  rw [active]
  cases found : state.active[request]? with
  | none =>
    simp only
    split
    · rename_i here
      rw [here.1,found]
      rfl
    · rfl
  | some signals =>
    have kept := keptExact signals step target layer
    simp only [keptActive]
    by_cases here : other = request
    · subst here
      rw [found]
      simp only [true_and,Option.bind_some]
      rw [← kept]
      split
      · rename_i none
        rw [ExtTreeMap.isEmpty_iff] at none
        rw [getErase,if_pos rfl,none]
        simp
      · rw [getInsert,if_pos rfl]
        rfl
    · simp only [here,false_and,if_false]
      split
      · rw [getErase,if_neg here]
      · rw [getInsert,if_neg here]

end Retirement

theorem recordedSignals {state next : RouterState} {request target layer : Nat} {predictions : List ExpertPrediction}
    (ok : state.recordSignal request target layer predictions = .ok next) (other target' layer' : Nat) :
    next.config = state.config ∧ next.signalAt other target' layer' =
      if other = request ∧ target' = target ∧ layer' = layer then some ⟨scoresOf predictions⟩
      else state.signalAt other target' layer' := by
  simp only [RouterState.recordSignal,guardOk] at ok
  obtain ⟨-,-,ok⟩ := ok
  obtain ⟨_,-,ok⟩ := bindOk.mp ok
  obtain ⟨_,-,ok⟩ := bindOk.mp ok
  obtain ⟨_,-,ok⟩ := bindOk.mp ok
  obtain ⟨-,ok⟩ := guardOk.mp ok
  cases ok
  refine ⟨rfl,?_⟩
  unfold RouterState.signalAt
  simp only [getInsert]
  by_cases here : other = request
  · subst here
    simp only [true_and,if_true,Option.bind_some,getInsert,SignalKey.mk.injEq]
    cases state.active[other]? with
    | none => simp
    | some signals => rfl
  · simp only [here,false_and,if_false]

section Steps
variable {settings : RouterPolicyConfig} {past : List TraceEvent} {state next : RouterState}
  {sequence request step target layer : Nat} {id : PageId} {predictions : List ExpertPrediction} {policy : PolicyState}

def MemoryAt (settings : RouterPolicyConfig) (past : List TraceEvent) (policy : PolicyState) : Prop :=
  ∃ state, policy = .router state ∧ state.config = settings ∧ Remembers settings past state

theorem demandEmitted {signal : ActiveSignal} {other : Nat} :
    Emitted settings (past ++ [.demand sequence request step id]) other target layer signal ↔
      Emitted settings past other target layer signal := by
  simp [Emitted]

theorem demandPending {other : Nat} :
    Pending (past ++ [.demand sequence request step id]) other target ↔
      Pending past other target ∧ ¬(other = request ∧ target < step) := by
  unfold Pending
  simp only [List.mem_append,List.mem_singleton,TraceEvent.demand.injEq]
  constructor
  · intro all
    refine ⟨fun sequence step id member => all sequence step id (.inl member),?_⟩
    rintro ⟨rfl,late⟩
    exact absurd (all sequence step id (.inr ⟨rfl,rfl,rfl,rfl⟩)) (Nat.not_le.mpr late)
  · rintro ⟨before,here⟩ sequence' step' id' (member | ⟨-,same,rfl,-⟩)
    · exact before sequence' step' id' member
    · exact Nat.not_lt.mp (fun late => here ⟨same,late⟩)

theorem signalPending {other target' : Nat} :
    Pending (past ++ [.routerSignal sequence request target layer predictions]) other target' ↔
      Pending past other target' := by
  simp [Pending]

theorem demandRemembers (remembers : Remembers settings past state)
    (ok : state.enterDemandStep request step = .ok next) :
    Remembers settings (past ++ [.demand sequence request step id]) next := by
  intro other target layer signal
  rw [enteredSignals ok,demandEmitted,demandPending,← and_assoc,← remembers other target layer signal]
  split
  · rename_i retired
    simp [retired]
  · rename_i held
    simp [held]

theorem emptyRemembers (remembers : Remembers settings past state)
    (none : Kernel.selectPredictions settings predictions = []) :
    Remembers settings (past ++ [.routerSignal sequence request target layer predictions]) state := by
  intro other target' layer' signal
  rw [remembers other target' layer' signal,signalPending]
  refine and_congr_left' ⟨?_,?_⟩
  · rintro ⟨sequence',predictions',member,rest⟩
    exact ⟨sequence',predictions',List.mem_append_left _ member,rest⟩
  · rintro ⟨sequence',predictions',member,some_,scores⟩
    rcases List.mem_append.mp member with before | here
    · exact ⟨sequence',predictions',before,some_,scores⟩
    · cases List.mem_singleton.mp here
      exact absurd none some_

theorem recordRemembers (remembers : Remembers settings past state)
    (distinct : (predictions.map ExpertPrediction.expert).Nodup)
    (some_ : Kernel.selectPredictions settings predictions ≠ [])
    (fresh : ∀ sequence predictions, .routerSignal sequence request target layer predictions ∉ past)
    (pending : Pending past request target)
    (ok : state.recordSignal request target layer (Kernel.selectPredictions settings predictions) = .ok next) :
    Remembers settings (past ++ [.routerSignal sequence request target layer predictions]) next := by
  intro other target' layer' signal
  rw [(recordedSignals ok other target' layer').2,signalPending]
  split
  · rename_i here
    obtain ⟨rfl,rfl,rfl⟩ := here
    rw [Option.some.injEq,eq_comm,scoresExact (selectedDistinct settings distinct)]
    constructor
    · intro scores
      exact ⟨⟨sequence,predictions,by simp,some_,scores⟩,pending⟩
    · rintro ⟨⟨sequence',predictions',member,-,scores⟩,-⟩
      rcases List.mem_append.mp member with before | last
      · exact absurd before (fresh sequence' predictions')
      · cases List.mem_singleton.mp last
        exact scores
  · rename_i elsewhere
    rw [remembers other target' layer' signal]
    refine and_congr_left' ⟨?_,?_⟩
    · rintro ⟨sequence',predictions',member,rest⟩
      exact ⟨sequence',predictions',List.mem_append_left _ member,rest⟩
    · rintro ⟨sequence',predictions',member,rest⟩
      rcases List.mem_append.mp member with before | last
      · exact ⟨sequence',predictions',before,rest⟩
      · cases List.mem_singleton.mp last
        exact absurd ⟨rfl,rfl,rfl⟩ elsewhere

theorem enteredMemory (memory : MemoryAt settings past policy) {entered : PolicyState}
    (ok : policy.enterDemandStep request step = .ok entered) :
    MemoryAt settings (past ++ [.demand sequence request step id]) (entered.observeDemand id) := by
  obtain ⟨state,rfl,same,remembers⟩ := memory
  obtain ⟨next,after,last⟩ := bindOk.mp ok
  cases last
  exact ⟨next,rfl,(enteredActive after).1.trans same,demandRemembers remembers after⟩

theorem signalledMemory (memory : MemoryAt settings past policy)
    (distinct : (predictions.map ExpertPrediction.expert).Nodup)
    (fresh : ∀ sequence predictions, .routerSignal sequence request target layer predictions ∉ past)
    (pending : Pending past request target) {recorded : PolicyState}
    (ok : signalPolicy policy request target layer predictions = .ok recorded) :
    MemoryAt settings (past ++ [.routerSignal sequence request target layer predictions]) recorded := by
  obtain ⟨state,rfl,rfl,remembers⟩ := memory
  simp only [signalPolicy,PolicyState.routerConfig,PolicyState.recordSignal] at ok
  split at ok
  · rename_i none
    cases ok
    exact ⟨state,rfl,rfl,emptyRemembers remembers (List.isEmpty_iff.mp none)⟩
  · rename_i some_
    obtain ⟨next,after,last⟩ := bindOk.mp ok
    cases last
    refine ⟨next,rfl,(recordedSignals after 0 0 0).1,?_⟩
    exact recordRemembers remembers distinct (fun none => some_ (List.isEmpty_iff.mpr none)) fresh pending after

end Steps

section Positions
variable {pages : List PageDescriptor} {limits : SimLimits} {events past later : List TraceEvent}
  {sequence request step target layer : Nat} {id : PageId} {predictions : List ExpertPrediction} {event : TraceEvent}

theorem pastAt (parts : events = past ++ later) (member : event ∈ past) : ∃ j, j < past.length ∧ events[j]? = some event := by
  obtain ⟨j,here⟩ := List.mem_iff_getElem?.mp member
  have inside : j < past.length := (List.getElem?_eq_some_iff.mp here).1
  refine ⟨j,inside,?_⟩
  rw [parts,List.getElem?_append_left inside,here]

theorem hereAt (parts : events = past ++ event::later) : events[past.length]? = some event := by
  rw [parts]
  simp

theorem causalPending (causal : CausalEvents pages limits events)
    (parts : events = past ++ .routerSignal sequence request target layer predictions :: later) :
    Pending past request target := by
  intro sequence' step id member
  obtain ⟨j,before,demanded⟩ := pastAt parts member
  exact Nat.le_of_lt ((causal.ahead _ request target layer predictions ⟨sequence,hereAt parts⟩).1 j step id before
    ⟨sequence',demanded⟩)

theorem causalUnseen (causal : CausalEvents pages limits events)
    (parts : events = past ++ .routerSignal sequence request target layer predictions :: later) (sequence' : Nat)
    (predictions' : List ExpertPrediction) : .routerSignal sequence' request target layer predictions' ∉ past := by
  intro member
  obtain ⟨j,before,emitted⟩ := pastAt parts member
  have same := causal.unique _ _ request target layer _ _ ⟨sequence',emitted⟩ ⟨sequence,hereAt parts⟩
  exact Nat.ne_of_lt before same

theorem causalBefore (causal : CausalEvents pages limits events)
    (parts : events = past ++ .demand sequence request step id :: later) : Pending past request step := by
  intro sequence' step' id' member
  obtain ⟨j,before,demanded⟩ := pastAt parts member
  exact causal.monotone j _ request step' step id' id before ⟨sequence',demanded⟩ ⟨sequence,hereAt parts⟩

end Positions

section Memory
variable {trace : ValidatedTrace} {config : SimulationConfig} {settings : RouterPolicyConfig} {start k : Kernel}
  {past rest : List TraceEvent}

theorem traceEventsCausal (trace : ValidatedTrace) : CausalEvents trace.pages trace.limits trace.events := by
  obtain ⟨accepted,realized⟩ := (eventsScannedOk (pagesIndexed trace.pagesValid)).mp trace.eventsValid
  exact scannedCausal accepted realized

theorem newMemory (router : config.policy.router? = some settings) (made : Kernel.new trace config = .ok start) :
    MemoryAt settings [] start.policy ∧
      ∃ state, start.policy = .router state ∧ routerMetadataLimit trace.events config.policy = .ok state.metadataLimitBytes := by
  obtain ⟨-,limited,rfl⟩ := routerStarts router made
  refine ⟨⟨_,rfl,rfl,fun request target layer signal => ?_⟩,_,rfl,limited⟩
  simp [RouterState.signalAt,RouterState.fresh,Emitted]

theorem reachedMemory (router : config.policy.router? = some settings) (made : Kernel.new trace config = .ok start)
    (parts : trace.events = past ++ rest)
    (reached : past.foldlM (Kernel.event trace.catalog config.capacityBytes) start = .ok k) :
    MemoryAt settings past k.policy := by
  refine reachedInvariant (fun past k => MemoryAt settings past k.policy) made (newMemory router made).1 ?_ parts reached
  intro past event k k' next _ memory _ _ stepped
  cases stepped with
  | demand entered served =>
    rw [servedPolicy served]
    exact enteredMemory memory entered
  | signal recorded =>
    have distinct := (signalsDistinct trace).2 _ (nextMember next)
    obtain ⟨later,parts⟩ := next
    have causal := traceEventsCausal trace
    exact signalledMemory memory distinct (causalUnseen causal parts) (causalPending causal parts) recorded

structure Ledger (state : RouterState) : Prop where
  occupied : Every state.active (fun _ signals => signals.isEmpty = false)
  live : state.currentMetadataBytes = activeBytes state.active
  peak : state.currentMetadataBytes ≤ state.peakMetadataBytes

theorem soundLedger {targets : List (Nat × Nat × Nat)} {spent : Nat} {state : RouterState}
    (sound : RouterSound targets spent state) : Ledger state :=
  ⟨fun request signals found => (sound.held request signals found).some,sound.live,sound.current⟩

theorem reachedLimit (router : config.policy.router? = some settings) (made : Kernel.new trace config = .ok start)
    (parts : trace.events = past ++ rest)
    (reached : past.foldlM (Kernel.event trace.catalog config.capacityBytes) start = .ok k) {state : RouterState}
    (same : k.policy = .router state) :
    routerMetadataLimit trace.events config.policy = .ok state.metadataLimitBytes := by
  obtain ⟨first,policy,limited⟩ := (newMemory router made).2
  have kept := reachedSettings made parts reached
  rw [same,policy] at kept
  have limits := congrArg RouterState.metadataLimitBytes (PolicyState.router.inj kept)
  rw [limited]
  exact congrArg Except.ok limits.symm

theorem heldNone {state : RouterState} (ledger : Ledger state) (request : Nat) :
    state.active[request]? = none ↔ ∀ target layer, state.signalAt request target layer = none := by
  unfold RouterState.signalAt
  constructor
  · intro none target layer
    rw [none]
    rfl
  · intro nothing
    cases found : state.active[request]? with
    | none => rfl
    | some signals =>
      have empty : signals = ∅ := by
        ext key
        have here := nothing key.targetStep key.layer
        rw [found] at here
        simpa using congrArg (· = some _) here
      have some_ := ledger.occupied request signals found
      rw [empty] at some_
      simp at some_

theorem routerMemoryExact (router : config.policy.router? = some settings) (made : Kernel.new trace config = .ok start)
    (parts : trace.events = past ++ rest)
    (reached : past.foldlM (Kernel.event trace.catalog config.capacityBytes) start = .ok k) :
    ∃ state, k.policy = .router state ∧ Ledger state ∧
      (rest = [] → routerMetadataLimit trace.events config.policy = .ok state.recordedMetadataBytes) ∧
      ∀ sequence request step id later entered, rest = .demand sequence request step id :: later →
        k.policy.enterDemandStep request step = .ok entered →
        ∃ planning, entered.observeDemand id = .router planning ∧ Ledger planning ∧
          (∀ target layer signal, planning.signalAt request target layer = some signal ↔
            Emitted settings past request target layer signal ∧ step ≤ target) ∧
          (planning.active[request]? = none ↔
            ∀ target layer signal, Emitted settings past request target layer signal → target < step) := by
  obtain ⟨state,policy,same,remembers⟩ := reachedMemory router made parts reached
  have kept := (reachedRunning made parts reached).policy
  rw [policy] at kept
  obtain ⟨spent,sound,ceiling⟩ := kept
  refine ⟨state,policy,soundLedger sound,?_,?_⟩
  · rintro rfl
    have limit := reachedLimit router made parts reached policy
    rw [sound.recorded]
    simpa [← ceiling] using limit
  · rintro sequence request step id later entered rfl ok
    rw [policy] at ok
    obtain ⟨planning,after,last⟩ := bindOk.mp ok
    cases last
    have ledger := soundLedger (endsValue (enterSafe sound) after).1
    have pending := causalBefore (traceEventsCausal trace) parts
    have remembered : Remembers settings (past ++ [.demand sequence request step id]) planning :=
      demandRemembers remembers after
    have holds (target layer : Nat) (signal : ActiveSignal) : planning.signalAt request target layer = some signal ↔
        Emitted settings past request target layer signal ∧ step ≤ target := by
      rw [remembered request target layer signal,demandEmitted,demandPending]
      refine and_congr_right' ⟨fun both => Nat.not_lt.mp (fun late => both.2 ⟨rfl,late⟩),fun ahead => ⟨?_,?_⟩⟩
      · exact fun sequence' step' id' member => (pending sequence' step' id' member).trans ahead
      · exact fun late => Nat.not_lt.mpr ahead late.2
    refine ⟨planning,rfl,ledger,holds,?_⟩
    rw [heldNone ledger]
    constructor
    · intro nothing target layer signal emitted
      refine Nat.not_le.mp (fun ahead => ?_)
      have found := (holds target layer signal).mpr ⟨emitted,ahead⟩
      rw [nothing target layer] at found
      contradiction
    · intro passed target layer
      cases found : planning.signalAt request target layer with
      | none => rfl
      | some signal =>
        obtain ⟨emitted,ahead⟩ := (holds target layer signal).mp found
        exact absurd (passed target layer signal emitted) (Nat.not_lt.mpr ahead)

end Memory

theorem routedEnters : ((value _ routedPrefetches).policy.enterDemandStep 1 1).toOption.isSome := by decide +kernel

theorem routedRemembers :
    ∃ planning, (value _ routedEnters).observeDemand 1 = .router planning ∧ Ledger planning ∧
      planning.signalAt 1 1 0 = some ⟨scoresOf [⟨1,600000⟩,⟨0,100000⟩]⟩ := by
  have selected : Kernel.selectPredictions ⟨500000,1,2,4,1000⟩ [⟨1,600000⟩,⟨0,100000⟩] =
    [⟨1,600000⟩,⟨0,100000⟩] := by decide
  obtain ⟨state,policy,-,-,plans⟩ := @routerMemoryExact routed prefetching ⟨500000,1,2,4,1000⟩ _ _ (routed.events.take 3)
    (routed.events.drop 3) rfl (valueOk routedStart) (List.take_append_drop 3 routed.events).symm (valueOk routedPrefetches)
  obtain ⟨planning,same,ledger,holds,-⟩ := plans 3 1 1 1 [.demand 4 1 1 2] _ rfl (valueOk routedEnters)
  refine ⟨planning,same,ledger,(holds 1 0 _).mpr ⟨⟨2,[⟨1,600000⟩,⟨0,100000⟩],?_,?_,?_⟩,Nat.le_refl 1⟩⟩
  · exact List.mem_of_getElem? (i := 2) rfl
  · rw [selected]
    exact List.cons_ne_nil _ _
  · rw [selected]
    exact (scoresExact (by decide) _).mp rfl

end RunnelMoe.Sim
