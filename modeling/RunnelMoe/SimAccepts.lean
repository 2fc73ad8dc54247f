import RunnelMoe.SimTrace

/-! The event streams that validation accepts. The scan knows the latest step of each
request, the realized steps and the targets of the signals so far; what it accepts is
stated here by position, without the scan. Steps of a request never decrease, so the
latest step is the greatest one, and a target above it can only be realized later. -/
namespace RunnelMoe.Sim
open Words KeyedSum Results
open Std (ExtTreeMap)

structure PredictionsValid (pages : List PageDescriptor) (limits : SimLimits) (layer : Nat)
    (predictions : List ExpertPrediction) : Prop where
  bounded : predictions.length ≤ limits.maxPredictionsPerSignal
  distinct : (predictions.map ExpertPrediction.expert).Nodup
  owned : ∀ p ∈ predictions, ∃ page ∈ pages, ∃ ordinal, page.role = .expert layer p.expert ordinal
  scores : (predictions.map ExpertPrediction.scorePpm).sum ≤ 1000000

def DemandAt (events : List TraceEvent) (i request step : Nat) (id : PageId) : Prop :=
  ∃ sequence, events[i]? = some (.demand sequence request step id)

def SignalAt (events : List TraceEvent) (i request target layer : Nat) (predictions : List ExpertPrediction) : Prop :=
  ∃ sequence, events[i]? = some (.routerSignal sequence request target layer predictions)

structure CausalEvents (pages : List PageDescriptor) (limits : SimLimits) (events : List TraceEvent) : Prop where
  dense : ∀ i (event : TraceEvent), events[i]? = some event → event.sequence = i
  known : ∀ i request step id, DemandAt events i request step id → ∃ page ∈ pages, page.id = id
  monotone : ∀ i j request step step' id id', i < j → DemandAt events i request step id →
    DemandAt events j request step' id' → step ≤ step'
  ahead : ∀ i request target layer predictions, SignalAt events i request target layer predictions →
    (∀ j step id, j < i → DemandAt events j request step id → step < target) ∧
      ∃ j id, i < j ∧ DemandAt events j request target id
  unique : ∀ i j request target layer predictions predictions', SignalAt events i request target layer predictions →
    SignalAt events j request target layer predictions' → i = j
  predicted : ∀ i request target layer predictions, SignalAt events i request target layer predictions →
    PredictionsValid pages limits layer predictions

structure PageIndexes (pages : List PageDescriptor) (pageIndex : ExtTreeMap PageId Nat)
    (expertPages : ExtTreeMap ExpertKey (List PageId)) : Prop where
  ids : ∀ id, id ∈ pageIndex ↔ ∃ page ∈ pages, page.id = id
  experts : ∀ layer expert, (⟨layer,expert⟩ : ExpertKey) ∈ expertPages ↔
    ∃ page ∈ pages, ∃ ordinal, page.role = .expert layer expert ordinal

section Catalog
variable {header : TraceHeader} {pages : List PageDescriptor}

theorem expertGrouped (scan : CatalogScan) (index : Nat) (role : PageClass) (key : ExpertKey) :
    key ∈ (scan.added index role).expertOrdinals ↔
      key ∈ scan.expertOrdinals ∨ ∃ ordinal, role = .expert key.layer key.expert ordinal := by
  cases role with
  | shared => simp [CatalogScan.added]
  | expert layer expert ordinal =>
    simp only [CatalogScan.added,ExtTreeMap.mem_insert,compare_eq_iff_eq,PageClass.expert.injEq]
    cases key
    simp [ExpertKey.mk.injEq,or_comm]

theorem expertsGrouped {start : Nat} {scan out : CatalogScan}
    (ok : (pages.zipIdx start).foldlM (validatePage header) scan = .ok out) (key : ExpertKey) :
    key ∈ out.expertOrdinals ↔ key ∈ scan.expertOrdinals ∨
      ∃ page ∈ pages, ∃ ordinal, page.role = .expert key.layer key.expert ordinal := by
  induction pages generalizing start scan with
  | nil =>
    rw [List.zipIdx_nil,foldNil] at ok
    simp [ok]
  | cons page rest ih =>
    rw [List.zipIdx_cons,foldCons] at ok
    obtain ⟨next,one,later⟩ := ok
    rw [ih later,(pageValidated one).2,expertGrouped]
    simp [or_assoc]

theorem pagesIndexed {pageIndex : ExtTreeMap PageId Nat} {expertPages : ExtTreeMap ExpertKey (List PageId)}
    (valid : validatePages header pages = .ok (pageIndex,expertPages)) : PageIndexes pages pageIndex expertPages := by
  obtain ⟨scan,scanned,same⟩ := bindOk.mp valid
  cases same
  have start : ∀ i, (CatalogScan.empty.pageIndex)[i]? = if i < 0 then some i else none := fun i => by
    simp [CatalogScan.empty]
  obtain ⟨index,rows⟩ := catalogScanned scanned start
  simp only [Nat.zero_add] at index rows
  constructor
  · intro id
    rw [ExtTreeMap.mem_iff_isSome_getElem?,index]
    constructor
    · intro inside
      have below : id < pages.length := by
        by_contra outside
        simp [outside] at inside
      exact ⟨_,List.getElem_mem below,(rows id _ (List.getElem?_eq_getElem below)).id⟩
    · intro found
      obtain ⟨page,member,same⟩ := found
      obtain ⟨i,here⟩ := List.mem_iff_getElem?.mp member
      obtain ⟨below,-⟩ := List.getElem?_eq_some_iff.mp here
      rw [← same,(rows i page here).id]
      simp [below]
  · intro layer expert
    have grouped := expertsGrouped scanned ⟨layer,expert⟩
    simpa [CatalogScan.empty] using grouped

end Catalog

section Predictions
variable {pages : List PageDescriptor} {pageIndex : ExtTreeMap PageId Nat}
  {expertPages : ExtTreeMap ExpertKey (List PageId)} {limits : SimLimits} {eventIndex layer : Nat}

theorem predictionAccepted {scan next : PredictionScan} {p : ExpertPrediction} :
    validatePrediction eventIndex layer expertPages scan p = .ok next ↔
      (scan.scoreSum + p.scorePpm ≤ scoreScalePpm ∧ p.expert ∉ scan.experts ∧
        (⟨layer,p.expert⟩ : ExpertKey) ∈ expertPages) ∧
      next = ⟨p.expert::scan.experts,scan.scoreSum + p.scorePpm⟩ := by
  have word : scoreScalePpm < modulus := by decide
  simp only [validatePrediction]
  rw [guardOk]
  by_cases fits : scan.scoreSum + p.scorePpm < modulus
  · simp only [checkedAdd,if_pos fits,guardOk,not_not,Nat.not_lt,Except.ok.injEq]
    constructor
    · intro ok
      obtain ⟨-,sum,fresh,owned,same⟩ := ok
      exact ⟨⟨sum,fresh,owned⟩,same.symm⟩
    · intro ok
      obtain ⟨⟨sum,fresh,owned⟩,same⟩ := ok
      exact ⟨by omega,sum,fresh,owned,same.symm⟩
  · simp only [checkedAdd,if_neg fits]
    constructor
    · intro ok
      cases ok.2
    · intro ok
      exact absurd ok.1.1 (by omega)

theorem predictionsAccepted (eventIndex layer : Nat) (expertPages : ExtTreeMap ExpertKey (List PageId))
    (predictions : List ExpertPrediction) (scan : PredictionScan) (small : scan.scoreSum ≤ scoreScalePpm) :
    (∃ out, predictions.foldlM (validatePrediction eventIndex layer expertPages) scan = .ok out) ↔
      (predictions.map ExpertPrediction.expert).Nodup ∧
      (∀ p ∈ predictions, p.expert ∉ scan.experts ∧ (⟨layer,p.expert⟩ : ExpertKey) ∈ expertPages) ∧
      scan.scoreSum + (predictions.map ExpertPrediction.scorePpm).sum ≤ scoreScalePpm := by
  induction predictions generalizing scan with
  | nil =>
    simp only [foldNil,exists_eq,List.map_nil,List.nodup_nil,List.sum_nil,Nat.add_zero,small,true_and,and_true]
    simp
  | cons p rest ih =>
    simp only [foldCons,predictionAccepted,List.map_cons,List.sum_cons,List.nodup_cons,List.forall_mem_cons]
    constructor
    · intro ok
      obtain ⟨out,next,⟨⟨sum,fresh,owned⟩,same⟩,later⟩ := ok
      subst same
      obtain ⟨distinct,each,total⟩ := (ih _ sum).mp ⟨out,later⟩
      refine ⟨⟨?_,distinct⟩,⟨⟨fresh,owned⟩,fun q member => ?_⟩,?_⟩
      · intro member
        obtain ⟨q,inside,same⟩ := List.mem_map.mp member
        exact (each q inside).1 (by simp [same])
      · exact ⟨fun seen => (each q member).1 (List.mem_cons_of_mem _ seen),(each q member).2⟩
      · simp only at total
        omega
    · intro valid
      obtain ⟨⟨different,distinct⟩,⟨⟨fresh,owned⟩,each⟩,total⟩ := valid
      have sum : scan.scoreSum + p.scorePpm ≤ scoreScalePpm := by omega
      have others : ∀ q ∈ rest, q.expert ∉ p.expert::scan.experts ∧ (⟨layer,q.expert⟩ : ExpertKey) ∈ expertPages := by
        intro q member
        refine ⟨fun seen => ?_,(each q member).2⟩
        rcases List.mem_cons.mp seen with same | older
        · exact different (List.mem_map.mpr ⟨q,member,same⟩)
        · exact (each q member).1 older
      obtain ⟨out,later⟩ := (ih ⟨p.expert::scan.experts,scan.scoreSum + p.scorePpm⟩ sum).mpr
        ⟨distinct,others,by simp only; omega⟩
      exact ⟨out,_,⟨⟨sum,fresh,owned⟩,rfl⟩,later⟩

theorem signalAccepted (indexes : PageIndexes pages pageIndex expertPages) (limits : SimLimits) (eventIndex layer : Nat)
    (predictions : List ExpertPrediction) (done : Unit) :
    validatePredictions eventIndex layer predictions expertPages limits = .ok done ↔
      PredictionsValid pages limits layer predictions := by
  have all := predictionsAccepted eventIndex layer expertPages predictions ⟨[],0⟩ (Nat.zero_le _)
  unfold validatePredictions
  simp only [guardOk,bindOk,Nat.not_lt]
  constructor
  · intro ok
    obtain ⟨bounded,out,scanned,-⟩ := ok
    obtain ⟨distinct,each,total⟩ := all.mp ⟨out,scanned⟩
    refine ⟨bounded,distinct,fun p member => (indexes.experts layer p.expert).mp (each p member).2,?_⟩
    simpa [scoreScalePpm] using total
  · intro valid
    obtain ⟨out,scanned⟩ := all.mpr ⟨valid.distinct,
      fun p member => ⟨List.not_mem_nil,(indexes.experts layer p.expert).mpr (valid.owned p member)⟩,
      by simpa [scoreScalePpm] using valid.scores⟩
    exact ⟨valid.bounded,out,scanned,trivial⟩

end Predictions

def EventScan.after (scan : EventScan) : TraceEvent → EventScan
  | .demand _ request step _ => {scan with
      latestRealizedStep := scan.latestRealizedStep.insert request step,
      realizedSteps := (request,step) :: scan.realizedSteps}
  | .routerSignal _ request target layer _ => {scan with
      signalTargets := (request,target,layer) :: scan.signalTargets}

def EventScan.Accepts (pages : List PageDescriptor) (limits : SimLimits) (scan : EventScan) : TraceEvent → Prop
  | .demand _ request step id => (∃ page ∈ pages, page.id = id) ∧
      ∀ latest, scan.latestRealizedStep[request]? = some latest → latest ≤ step
  | .routerSignal _ request target layer predictions =>
      (∀ latest, scan.latestRealizedStep[request]? = some latest → latest < target) ∧
      (request,target,layer) ∉ scan.signalTargets ∧ PredictionsValid pages limits layer predictions

def scannedEvents (events : List TraceEvent) : EventScan := events.foldl EventScan.after ⟨∅,[],[]⟩

section Scan
variable {pages : List PageDescriptor} {pageIndex : ExtTreeMap PageId Nat}
  {expertPages : ExtTreeMap ExpertKey (List PageId)} {limits : SimLimits} {events : List TraceEvent}
  {request step target layer : Nat}

theorem latestRefuses {latest : Option Nat} {refuses : Nat → Bool} (passes : Nat → Prop)
    (either : ∀ n, refuses n = false ↔ passes n) :
    ¬latest.any refuses = true ↔ ∀ n, latest = some n → passes n := by
  cases latest with
  | none => simp
  | some n => simp [← either]

theorem eventAccepted (indexes : PageIndexes pages pageIndex expertPages) {scan next : EventScan} {event : TraceEvent}
    {index : Nat} :
    validateEvent pageIndex expertPages limits scan (event,index) = .ok next ↔
      (event.sequence = index ∧ scan.Accepts pages limits event) ∧ next = scan.after event := by
  simp only [validateEvent,guardOk,not_not]
  cases event with
  | demand sequence request step id =>
    simp only [guardOk,not_not,indexes.ids,Except.ok.injEq,EventScan.Accepts,EventScan.after]
    rw [latestRefuses (· ≤ step) (by simp),and_assoc,and_assoc]
    simp only [eq_comm]
  | routerSignal sequence request target layer predictions =>
    simp only [guardOk,EventScan.Accepts,EventScan.after,and_assoc]
    rw [latestRefuses (· < target) (by simp)]
    have predicted := signalAccepted indexes limits index layer predictions ()
    cases checked : validatePredictions index layer predictions expertPages limits with
    | error e =>
      have refused : ¬PredictionsValid pages limits layer predictions := fun valid => by
        rw [predicted.mpr valid] at checked
        contradiction
      simp [refused]
    | ok done =>
      have valid := predicted.mp checked
      simp only [valid,Except.ok.injEq,true_and]
      simp only [eq_comm]

theorem realizedScanned {scan : EventScan} :
    (request,step) ∈ (events.foldl EventScan.after scan).realizedSteps ↔
      (request,step) ∈ scan.realizedSteps ∨ ∃ sequence id, .demand sequence request step id ∈ events := by
  induction events generalizing scan with
  | nil => simp
  | cons event rest ih =>
    rw [List.foldl_cons,ih]
    cases event with
    | demand =>
      simp only [EventScan.after,List.mem_cons,Prod.mk.injEq,TraceEvent.demand.injEq,exists_or]
      simp
      tauto
    | routerSignal => simp [EventScan.after]

theorem targetsScanned {scan : EventScan} :
    (request,target,layer) ∈ (events.foldl EventScan.after scan).signalTargets ↔
      (request,target,layer) ∈ scan.signalTargets ∨
        ∃ sequence predictions, .routerSignal sequence request target layer predictions ∈ events := by
  induction events generalizing scan with
  | nil => simp
  | cons event rest ih =>
    rw [List.foldl_cons,ih]
    cases event with
    | demand => simp [EventScan.after]
    | routerSignal =>
      simp only [EventScan.after,List.mem_cons,Prod.mk.injEq,TraceEvent.routerSignal.injEq,exists_or]
      simp
      tauto

theorem latestScanned {scan : EventScan} {latest : Nat}
    (found : (events.foldl EventScan.after scan).latestRealizedStep[request]? = some latest) :
    scan.latestRealizedStep[request]? = some latest ∨ ∃ sequence id, .demand sequence request latest id ∈ events := by
  induction events generalizing scan with
  | nil => exact .inl found
  | cons event rest ih =>
    rcases ih found with before | later
    · cases event with
      | routerSignal => exact .inl before
      | demand sequence other step id =>
        simp only [EventScan.after,getInsert] at before
        split at before
        · rename_i same
          cases Option.some.inj before
          exact .inr ⟨sequence,id,by simp [same]⟩
        · exact .inl before
    · obtain ⟨sequence,id,member⟩ := later
      exact .inr ⟨sequence,id,List.mem_cons_of_mem _ member⟩

theorem scannedNext {i : Nat} {event : TraceEvent} (here : events[i]? = some event) :
    scannedEvents (events.take (i + 1)) = (scannedEvents (events.take i)).after event := by
  simp [scannedEvents,List.take_add_one,here]

/- The invariant of the scan: the latest step is at least every step before it. -/
theorem latestAbove (accepted : ∀ i event, events[i]? = some event →
      (scannedEvents (events.take i)).Accepts pages limits event) {n j : Nat} (before : j < n) {id : PageId}
    (demanded : DemandAt events j request step id) :
    ∃ latest, (scannedEvents (events.take n)).latestRealizedStep[request]? = some latest ∧ step ≤ latest := by
  induction n with
  | zero => contradiction
  | succ n ih =>
    obtain ⟨sequence,here⟩ := demanded
    rcases Nat.lt_succ_iff_lt_or_eq.mp before with older | same
    · obtain ⟨latest,found,above⟩ := ih older
      cases event : events[n]? with
      | none =>
        rw [List.take_of_length_le (by simpa using event)] at found
        rw [List.take_of_length_le (by have := List.getElem?_eq_none_iff.mp event; omega)]
        exact ⟨latest,found,above⟩
      | some event' =>
        rw [scannedNext event]
        cases event' with
        | routerSignal => exact ⟨latest,found,above⟩
        | demand sequence' other step' id' =>
          have passed := (accepted n _ event).2 
          simp only [EventScan.after,getInsert]
          split
          · rename_i same
            subst same
            exact ⟨step',rfl,above.trans (passed latest found)⟩
          · exact ⟨latest,found,above⟩
    · subst same
      rw [scannedNext here]
      exact ⟨step,by simp [EventScan.after],Nat.le_refl _⟩

theorem takenDemand {i : Nat} : (∃ sequence id, .demand sequence request step id ∈ events.take i) ↔
    ∃ j id, j < i ∧ DemandAt events j request step id := by
  simp only [List.mem_take_iff_getElem]
  constructor
  · intro found
    obtain ⟨sequence,id,j,below,same⟩ := found
    refine ⟨j,id,by omega,sequence,?_⟩
    rw [List.getElem?_eq_getElem (by omega),same]
  · intro found
    obtain ⟨j,id,before,sequence,here⟩ := found
    obtain ⟨inside,same⟩ := List.getElem?_eq_some_iff.mp here
    exact ⟨sequence,id,j,by omega,same⟩

theorem scanAccepted (indexes : PageIndexes pages pageIndex expertPages) {out : EventScan} :
    events.zipIdx.foldlM (validateEvent pageIndex expertPages limits) ⟨∅,[],[]⟩ = .ok out ↔
      out = scannedEvents events ∧ ∀ i event, events[i]? = some event →
        event.sequence = i ∧ (scannedEvents (events.take i)).Accepts pages limits event := by
  have indexed (s : EventScan) (rows : List (TraceEvent × Nat)) :
      rows.foldl (fun s row => s.after row.1) s = (rows.map Prod.fst).foldl EventScan.after s := by
    rw [List.foldl_map]
  rw [foldAccepts (fun s row => row.1.sequence = row.2 ∧ s.Accepts pages limits row.1) (fun s row => s.after row.1)
    (fun s row next => eventAccepted indexes)]
  simp only [indexed,List.map_take,List.zipIdx_map_fst]
  refine and_congr_right (fun _ => ?_)
  constructor
  · intro each i event here
    exact each i (event,i) (by simp [here])
  · intro each i row here
    rw [List.getElem?_zipIdx] at here
    obtain ⟨event,found,same⟩ := Option.map_eq_some_iff.mp here
    subst same
    simpa [scannedEvents] using each i event found

theorem targetsAccepted {realized : List (Nat × Nat)} {targets : List (Nat × Nat × Nat)} :
    targets.foldlM (validateTarget realized) () = .ok () ↔ ∀ a ∈ targets, (a.1,a.2.1) ∈ realized := by
  rw [foldAccepts (fun _ a => (a.1,a.2.1) ∈ realized) (fun _ _ => ())]
  · simp only [List.mem_iff_getElem?]
    exact ⟨fun both a found => both.2 _ a found.choose_spec,fun each => ⟨trivial,fun i a here => each a ⟨i,here⟩⟩⟩
  · intro s a next
    simp only [validateTarget]
    split <;> simp_all

theorem eventsScannedOk (indexes : PageIndexes pages pageIndex expertPages) :
    validateEvents events pageIndex expertPages limits = .ok () ↔
      (∀ i event, events[i]? = some event →
        event.sequence = i ∧ (scannedEvents (events.take i)).Accepts pages limits event) ∧
      ∀ a ∈ (scannedEvents events).signalTargets, (a.1,a.2.1) ∈ (scannedEvents events).realizedSteps := by
  unfold validateEvents
  simp only [bindOk,scanAccepted indexes,targetsAccepted,(List.perm_insertionSort byTarget _).mem_iff]
  constructor
  · intro ok
    obtain ⟨scan,⟨same,each⟩,targets⟩ := ok
    subst same
    exact ⟨each,targets⟩
  · intro ok
    exact ⟨_,⟨rfl,ok.1⟩,ok.2⟩

end Scan

section Accepted
variable {header : TraceHeader} {pages : List PageDescriptor} {pageIndex : ExtTreeMap PageId Nat}
  {expertPages : ExtTreeMap ExpertKey (List PageId)} {limits : SimLimits} {events : List TraceEvent}

theorem scannedCausal
    (accepted : ∀ i event, events[i]? = some event →
      event.sequence = i ∧ (scannedEvents (events.take i)).Accepts pages limits event)
    (realized : ∀ a ∈ (scannedEvents events).signalTargets, (a.1,a.2.1) ∈ (scannedEvents events).realizedSteps) :
    CausalEvents pages limits events := by
  have above {n j request step : Nat} {id : PageId} (before : j < n) (demanded : DemandAt events j request step id) :=
    latestAbove (fun i event here => (accepted i event here).2) before demanded
  have earlier {i request target layer : Nat} {predictions : List ExpertPrediction}
      (signalled : SignalAt events i request target layer predictions) {j step : Nat} {id : PageId} (before : j < i)
      (demanded : DemandAt events j request step id) : step < target := by
    obtain ⟨sequence,here⟩ := signalled
    obtain ⟨latest,found,below⟩ := above before demanded
    have later := (accepted i _ here).2.1 latest found
    omega
  refine ⟨fun i event here => (accepted i event here).1,?_,?_,?_,?_,?_⟩
  · intro i request step id demanded
    obtain ⟨sequence,here⟩ := demanded
    exact (accepted i _ here).2.1
  · intro i j request step step' id id' before first second
    obtain ⟨latest,found,below⟩ := above before first
    obtain ⟨sequence,here⟩ := second
    have later := (accepted j _ here).2.2 latest found
    omega
  · intro i request target layer predictions signalled
    refine ⟨fun j step id before demanded => earlier signalled before demanded,?_⟩
    obtain ⟨sequence,here⟩ := signalled
    have emitted : (request,target,layer) ∈ (scannedEvents events).signalTargets :=
      targetsScanned.mpr (.inr ⟨sequence,predictions,List.mem_of_getElem? here⟩)
    have found := realizedScanned.mp (realized _ emitted)
    simp only [List.not_mem_nil,false_or] at found
    obtain ⟨sequence',id,member⟩ := found
    obtain ⟨j,there⟩ := List.mem_iff_getElem?.mp member
    refine ⟨j,id,?_,sequence',there⟩
    by_contra notAfter
    rcases Nat.lt_or_eq_of_le (Nat.le_of_not_lt notAfter) with before | same
    · exact Nat.lt_irrefl _ (earlier ⟨sequence,here⟩ before ⟨sequence',there⟩)
    · subst same
      rw [here] at there
      cases there
  · intro i j request target layer predictions predictions' first second
    obtain ⟨sequence,here⟩ := first
    obtain ⟨sequence',there⟩ := second
    have never {a b : Nat} {s s' : Nat} {ps ps' : List ExpertPrediction} (before : a < b)
        (left : events[a]? = some (.routerSignal s request target layer ps))
        (right : events[b]? = some (.routerSignal s' request target layer ps')) : False := by
      refine (accepted b _ right).2.2.1 (targetsScanned.mpr (.inr ⟨s,ps,?_⟩))
      obtain ⟨inside,same⟩ := List.getElem?_eq_some_iff.mp left
      exact List.mem_take_iff_getElem.mpr ⟨a,by omega,same⟩
    rcases Nat.lt_trichotomy i j with before | same | after
    · exact (never before here there).elim
    · exact same
    · exact (never after there here).elim
  · intro i request target layer predictions signalled
    obtain ⟨sequence,here⟩ := signalled
    exact (accepted i _ here).2.2.2

theorem causalScanned (causal : CausalEvents pages limits events) :
    (∀ i event, events[i]? = some event →
      event.sequence = i ∧ (scannedEvents (events.take i)).Accepts pages limits event) ∧
    ∀ a ∈ (scannedEvents events).signalTargets, (a.1,a.2.1) ∈ (scannedEvents events).realizedSteps := by
  have seen {i request latest : Nat}
      (found : (scannedEvents (events.take i)).latestRealizedStep[request]? = some latest) :
      ∃ j id, j < i ∧ DemandAt events j request latest id := by
    rcases latestScanned found with none | demanded
    · simp at none
    · exact takenDemand.mp demanded
  constructor
  · intro i event here
    refine ⟨causal.dense i event here,?_⟩
    cases event with
    | demand sequence request step id =>
      refine ⟨causal.known i request step id ⟨sequence,here⟩,fun latest found => ?_⟩
      obtain ⟨j,id',before,demanded⟩ := seen found
      exact causal.monotone j i request latest step id' id before demanded ⟨sequence,here⟩
    | routerSignal sequence request target layer predictions =>
      refine ⟨fun latest found => ?_,fun member => ?_,causal.predicted i request target layer predictions ⟨sequence,here⟩⟩
      · obtain ⟨j,id,before,demanded⟩ := seen found
        exact (causal.ahead i request target layer predictions ⟨sequence,here⟩).1 j latest id before demanded
      · rcases targetsScanned.mp member with none | emitted
        · contradiction
        · obtain ⟨sequence',predictions',inside⟩ := emitted
          obtain ⟨j,below,same⟩ := List.mem_take_iff_getElem.mp inside
          have there : SignalAt events j request target layer predictions' :=
            ⟨sequence',by rw [List.getElem?_eq_getElem (by omega),same]⟩
          have equal := causal.unique i j request target layer predictions predictions' ⟨sequence,here⟩ there
          omega
  · intro a member
    rcases targetsScanned.mp member with none | emitted
    · contradiction
    · obtain ⟨sequence,predictions,inside⟩ := emitted
      obtain ⟨i,here⟩ := List.mem_iff_getElem?.mp inside
      obtain ⟨j,id,-,sequence',there⟩ := (causal.ahead i a.1 a.2.1 a.2.2 predictions ⟨sequence,here⟩).2
      exact realizedScanned.mpr (.inr ⟨sequence',id,List.mem_of_getElem? there⟩)

theorem validatedExactlyCausal (valid : validatePages header pages = .ok (pageIndex,expertPages))
    (events : List TraceEvent) (limits : SimLimits) :
    validateEvents events pageIndex expertPages limits = .ok () ↔ CausalEvents pages limits events := by
  rw [eventsScannedOk (pagesIndexed valid)]
  exact ⟨fun ok => scannedCausal ok.1 ok.2,causalScanned⟩

end Accepted

def signalledHeader : TraceHeader := ⟨headerKind,traceSchema,"signalled",2,3,64,prefetchModel⟩
def signalledPages : List PageDescriptor := [⟨0,10,64,.expert 0 3 0⟩,⟨1,20,64,.shared⟩]
def signalledEvents : List TraceEvent := [.demand 0 7 0 1,.routerSignal 1 7 2 0 [⟨3,600000⟩],.demand 2 7 2 0]

theorem signalledIndexed : (validatePages signalledHeader signalledPages).toOption.isSome := by decide +kernel

theorem signalledCausal :
    CausalEvents signalledPages defaultLimits signalledEvents ∧
      ¬CausalEvents signalledPages defaultLimits [.demand 0 7 2 0,.routerSignal 1 7 2 0 [⟨3,600000⟩]] := by
  have exactly := validatedExactlyCausal (valueOk signalledIndexed)
  constructor
  · exact (exactly signalledEvents defaultLimits).mp (by decide +kernel)
  · rw [← exactly]
    decide +kernel

end RunnelMoe.Sim
