import Mathlib.Data.List.Sort
import RunnelMoe.Results
import RunnelMoe.SimModel

/-! Validation of a cache trace. The catalog is dense in its identifiers, byte sizes
are positive multiples of the quantum, and the event stream is causal: a signal comes
before the step it targets, and that step is realized later. A validated trace carries
the proof that it passed. -/
namespace RunnelMoe.Sim
open Words KeyedSum Results
open Std (ExtTreeMap)

def headerKind : String := "header"
def maxTraceIdBytes : Nat := 64
def scoreScalePpm : Nat := 1000000
def maxPageIndex : Nat := 4294967295

def traceIdStart (c : Char) : Bool := c.isLower || c.isDigit
def traceIdRest (c : Char) : Bool := traceIdStart c || c = '.' || c = '_' || c = '-'

def validTraceId (traceId : String) : Bool :=
  match traceId.toList with
  | [] => false
  | first::rest => rest.length < maxTraceIdBytes && traceIdStart first && rest.all traceIdRest

def validateHeader (header : TraceHeader) (limits : SimLimits) : Except SimError Unit :=
  let schema := header.schema
  let model := header.prefetchModel
  let pages := header.pageCount
  let events := header.eventCount
  let maxPages := limits.maxPages
  let maxEvents := limits.maxEvents
  if header.kind ≠ headerKind then .error (.invalidTrace "header kind must be \"header\"")
  else if schema ≠ traceSchema then .error (.invalidTrace ("unsupported trace schema " ++ debugString schema))
  else if model ≠ prefetchModel then .error (.invalidTrace ("unsupported prefetch model " ++ debugString model))
  else if !validTraceId header.traceId then
    .error (.invalidTrace "trace_id must be 1-64 bytes and match [a-z0-9][a-z0-9._-]*")
  else if pages > maxPages then
    .error (.invalidTrace s!"header declares {pages} pages, limit is {maxPages}")
  else if events > maxEvents then
    .error (.invalidTrace s!"header declares {events} events, limit is {maxEvents}")
  else if header.chargeQuantum = 0 then .error (.invalidTrace "charge_quantum must be greater than zero")
  else .ok ()

structure CatalogScan where
  pageIndex : ExtTreeMap PageId Nat
  expertTuples : List (Nat × Nat × Nat)
  expertOrdinals : ExtTreeMap ExpertKey (List (Nat × PageId))

def CatalogScan.empty : CatalogScan := ⟨∅,[],∅⟩

def CatalogScan.addExpert (scan : CatalogScan) (page : PageDescriptor) : Except SimError CatalogScan :=
  match page.role with
  | .shared => .ok scan
  | .expert layer expert ordinal =>
    if (layer,expert,ordinal) ∈ scan.expertTuples then
      .error (.invalidTrace s!"duplicate expert page tuple ({layer}, {expert}, {ordinal})")
    else
      let key : ExpertKey := ⟨layer,expert⟩
      .ok {scan with
        expertTuples := (layer,expert,ordinal) :: scan.expertTuples,
        expertOrdinals := scan.expertOrdinals.insert key
          (scan.expertOrdinals[key]?.getD [] ++ [(ordinal,page.id)])}

def validatePage (header : TraceHeader) (scan : CatalogScan) (row : PageDescriptor × Nat) :
    Except SimError CatalogScan :=
  let page := row.1
  let index := row.2
  let id := page.id
  if index > maxPageIndex then .error (.invalidTrace "page index does not fit in u32")
  else if id ≠ index then .error (.invalidTrace s!"catalog page {index} must have id {index}, found {id}")
  else if page.logicalBytes = 0 ∨ page.chargeBytes = 0 then
    .error (.invalidTrace s!"page {id} byte sizes must be greater than zero")
  else if page.logicalBytes > page.chargeBytes then
    .error (.invalidTrace s!"page {id} logical_bytes exceeds charge_bytes")
  else if page.chargeBytes % header.chargeQuantum ≠ 0 then
    .error (.invalidTrace s!"page {id} charge_bytes is not divisible by charge_quantum")
  else ({scan with pageIndex := scan.pageIndex.insert id index} : CatalogScan).addExpert page

def byOrdinal (a b : Nat × PageId) : Prop := toLex a ≤ toLex b
instance byOrdinalDecidable : DecidableRel byOrdinal := fun a b => by unfold byOrdinal; infer_instance

def validatePages (header : TraceHeader) (pages : List PageDescriptor) :
    Except SimError (ExtTreeMap PageId Nat × ExtTreeMap ExpertKey (List PageId)) := do
  let scan ← pages.zipIdx.foldlM (validatePage header) .empty
  .ok (scan.pageIndex,scan.expertOrdinals.map (fun _ entries => (entries.insertionSort byOrdinal).map Prod.snd))

structure PredictionScan where
  experts : List Nat
  scoreSum : Nat

def validatePrediction (eventIndex layer : Nat) (expertPages : ExtTreeMap ExpertKey (List PageId))
    (scan : PredictionScan) (prediction : ExpertPrediction) : Except SimError PredictionScan :=
  let expert := prediction.expert
  if prediction.scorePpm > scoreScalePpm then
    .error (.invalidTrace s!"router event {eventIndex} score exceeds 1,000,000 ppm")
  else match checkedAdd scan.scoreSum prediction.scorePpm with
    | none => .error (.invalidTrace "router score sum overflow")
    | some scoreSum =>
      if scoreSum > scoreScalePpm then
        .error (.invalidTrace s!"router event {eventIndex} scores sum above 1,000,000 ppm")
      else if expert ∈ scan.experts then
        .error (.invalidTrace s!"router event {eventIndex} repeats expert {expert}")
      else if ¬(⟨layer,expert⟩ : ExpertKey) ∈ expertPages then
        .error (.invalidTrace s!"router event {eventIndex} references expert {expert} absent from layer {layer}")
      else .ok ⟨expert::scan.experts,scoreSum⟩

def validatePredictions (eventIndex layer : Nat) (predictions : List ExpertPrediction)
    (expertPages : ExtTreeMap ExpertKey (List PageId)) (limits : SimLimits) : Except SimError Unit := do
  let count := predictions.length
  let limit := limits.maxPredictionsPerSignal
  if count > limit then
    .error (.invalidTrace s!"router event {eventIndex} contains {count} predictions, limit is {limit}")
  else
    let _ ← predictions.foldlM (validatePrediction eventIndex layer expertPages) ⟨[],0⟩
    .ok ()

structure EventScan where
  latestRealizedStep : ExtTreeMap Nat Nat
  realizedSteps : List (Nat × Nat)
  signalTargets : List (Nat × Nat × Nat)

def validateEvent (pageIndex : ExtTreeMap PageId Nat) (expertPages : ExtTreeMap ExpertKey (List PageId))
    (limits : SimLimits) (scan : EventScan) (row : TraceEvent × Nat) : Except SimError EventScan :=
  let index := row.2
  let found := row.1.sequence
  if found ≠ index then .error (.invalidTrace s!"event {index} must have sequence {index}, found {found}")
  else match row.1 with
    | .demand _ request step page =>
      if ¬page ∈ pageIndex then .error (.invalidTrace s!"demand event {index} references unknown page {page}")
      else if scan.latestRealizedStep[request]?.any (fun latest => step < latest) then
        .error (.invalidTrace s!"request {request} demand step {step} regresses from its latest realized step")
      else .ok {scan with
        latestRealizedStep := scan.latestRealizedStep.insert request step,
        realizedSteps := (request,step) :: scan.realizedSteps}
    | .routerSignal _ request targetStep layer predictions =>
      if scan.latestRealizedStep[request]?.any (fun latest => targetStep ≤ latest) then
        .error (.invalidTrace
          s!"request {request} router target step {targetStep} is not later than its latest realized step")
      else if (request,targetStep,layer) ∈ scan.signalTargets then
        .error (.invalidTrace s!"duplicate router signal target ({request}, {targetStep}, {layer})")
      else match validatePredictions index layer predictions expertPages limits with
        | .error e => .error e
        | .ok _ => .ok {scan with signalTargets := (request,targetStep,layer) :: scan.signalTargets}

def byTarget (a b : Nat × Nat × Nat) : Prop := toLex (a.1,toLex a.2) ≤ toLex (b.1,toLex b.2)
instance byTargetDecidable : DecidableRel byTarget := fun a b => by unfold byTarget; infer_instance

def validateTarget (realizedSteps : List (Nat × Nat)) (_ : Unit) (target : Nat × Nat × Nat) : Except SimError Unit :=
  let request := target.1
  let targetStep := target.2.1
  let layer := target.2.2
  if (request,targetStep) ∈ realizedSteps then .ok ()
  else .error (.invalidTrace
    s!"router signal target ({request}, {targetStep}, {layer}) has no later realized demand")

-- The targets are visited in the order of the source's set.
def validateEvents (events : List TraceEvent) (pageIndex : ExtTreeMap PageId Nat)
    (expertPages : ExtTreeMap ExpertKey (List PageId)) (limits : SimLimits) : Except SimError Unit := do
  let scan ← events.zipIdx.foldlM (validateEvent pageIndex expertPages limits) ⟨∅,[],[]⟩
  (scan.signalTargets.insertionSort byTarget).foldlM (validateTarget scan.realizedSteps) ()

structure ValidatedTrace where
  header : TraceHeader
  pages : List PageDescriptor
  pageIndex : ExtTreeMap PageId Nat
  expertPages : ExtTreeMap ExpertKey (List PageId)
  events : List TraceEvent
  limits : SimLimits
  headerValid : validateHeader header limits = .ok ()
  pageCount : header.pageCount = pages.length
  eventCount : header.eventCount = events.length
  pagesValid : validatePages header pages = .ok (pageIndex,expertPages)
  eventsValid : validateEvents events pageIndex expertPages limits = .ok ()

/- The checks of the parser on records that are already decoded. A declared count that is
not the number of records is reported as the serializer reports it. -/
def validateRecords (header : TraceHeader) (pages : List PageDescriptor) (events : List TraceEvent) (limits : SimLimits) :
    Except SimError ValidatedTrace :=
  let declaredPages := header.pageCount
  let declaredEvents := header.eventCount
  let received := pages.length
  let receivedEvents := events.length
  match headerValid : validateHeader header limits with
  | .error e => .error e
  | .ok _ =>
    if pageCount : header.pageCount = pages.length then
      if eventCount : header.eventCount = events.length then
        match pagesValid : validatePages header pages with
        | .error e => .error e
        | .ok (pageIndex,expertPages) =>
          match eventsValid : validateEvents events pageIndex expertPages limits with
          | .error e => .error e
          | .ok _ =>
            .ok ⟨header,pages,pageIndex,expertPages,events,limits,headerValid,pageCount,eventCount,pagesValid,eventsValid⟩
      else .error (.invalidTrace
        s!"header declares {declaredEvents} events but serializer received {receivedEvents}")
    else .error (.invalidTrace s!"header declares {declaredPages} pages but serializer received {received}")

def ValidatedTrace.catalog (trace : ValidatedTrace) : PageCatalog := ⟨trace.pages,trace.pageIndex,trace.expertPages⟩
def ValidatedTrace.page (trace : ValidatedTrace) (id : PageId) : PageDescriptor := trace.catalog.page id
def ValidatedTrace.demands (trace : ValidatedTrace) : List PageId := trace.events.filterMap TraceEvent.page?

structure PageValid (header : TraceHeader) (page : PageDescriptor) (index : Nat) : Prop where
  id : page.id = index
  positive : 0 < page.logicalBytes
  charged : page.logicalBytes ≤ page.chargeBytes
  divisible : page.chargeBytes % header.chargeQuantum = 0

variable {scan next out : CatalogScan} {page : PageDescriptor} {header : TraceHeader} {index start : Nat}
  {pages : List PageDescriptor}

def CatalogScan.added (scan : CatalogScan) (id : PageId) : PageClass → CatalogScan
  | .shared => {scan with pageIndex := scan.pageIndex.insert id id}
  | .expert layer expert ordinal =>
    ⟨scan.pageIndex.insert id id,(layer,expert,ordinal) :: scan.expertTuples,scan.expertOrdinals.insert ⟨layer,expert⟩
      (scan.expertOrdinals[(⟨layer,expert⟩ : ExpertKey)]?.getD [] ++ [(ordinal,id)])⟩

theorem expertAdded (ok : ({scan with pageIndex := scan.pageIndex.insert page.id page.id} : CatalogScan).addExpert page = .ok next) :
    next = scan.added page.id page.role := by
  unfold CatalogScan.addExpert at ok
  split at ok
  · rename_i role
    cases ok
    rw [role]
    rfl
  · rename_i role
    obtain ⟨-,ok⟩ := guardOk.mp ok
    cases ok
    rw [role]
    rfl

theorem pageValidated (ok : validatePage header scan (page,index) = .ok next) :
    PageValid header page index ∧ next = scan.added index page.role := by
  simp only [validatePage,guardOk,ne_eq,not_not] at ok
  obtain ⟨-,rfl,positive,charged,divisible,ok⟩ := ok
  exact ⟨⟨rfl,by omega,by omega,divisible⟩,expertAdded ok⟩

theorem addedIndex (role : PageClass) : (scan.added index role).pageIndex = scan.pageIndex.insert index index := by
  cases role <;> rfl

theorem pagesScanned {other : TraceHeader} {out' : CatalogScan}
    (change : PageDescriptor → PageDescriptor) (same : ∀ page, (change page).id = page.id ∧ (change page).role = page.role)
    (ok : (pages.zipIdx start).foldlM (validatePage header) scan = .ok out)
    (ok' : ((pages.map change).zipIdx start).foldlM (validatePage other) scan = .ok out') : out' = out := by
  induction pages generalizing start scan with
  | nil => exact (foldNil.mp ok').trans (foldNil.mp ok).symm
  | cons page rest ih =>
    rw [List.zipIdx_cons,foldCons] at ok
    rw [List.map_cons,List.zipIdx_cons,foldCons] at ok'
    obtain ⟨next,valid,later⟩ := ok
    obtain ⟨next',valid',later'⟩ := ok'
    rw [(pageValidated valid).2] at later
    rw [(pageValidated valid').2,(same page).2] at later'
    exact ih later later'

theorem catalogScanned (ok : (pages.zipIdx start).foldlM (validatePage header) scan = .ok out)
    (before : ∀ i, scan.pageIndex[i]? = if i < start then some i else none) :
    (∀ i, out.pageIndex[i]? = if i < start + pages.length then some i else none) ∧
      ∀ i page, pages[i]? = some page → PageValid header page (start + i) := by
  induction pages generalizing start scan with
  | nil =>
    rw [List.zipIdx_nil,foldNil] at ok
    subst ok
    exact ⟨before,nofun⟩
  | cons first rest ih =>
    rw [List.zipIdx_cons,foldCons] at ok
    obtain ⟨next,one,later⟩ := ok
    obtain ⟨valid,rfl⟩ := pageValidated one
    have after : ∀ i, (scan.added start first.role).pageIndex[i]? = if i < start + 1 then some i else none := by
      intro i
      rw [addedIndex,getInsert,before i]
      split
      · rename_i here
        rw [if_pos (by omega),here]
      · split <;> split <;> first | rfl | omega
    obtain ⟨index,rows⟩ := ih later after
    refine ⟨fun i => ?_,fun i page found => ?_⟩
    · rw [index i,List.length_cons]
      congr 1
      exact propext ⟨fun h => by omega,fun h => by omega⟩
    · cases i with
      | zero =>
        cases Option.some.inj found
        exact valid
      | succ i =>
        have row := rows i page found
        rwa [Nat.add_assoc,Nat.add_comm 1 i] at row

section Validated
variable (trace : ValidatedTrace)

theorem catalogValid : (∀ i, trace.pageIndex[i]? = if i < trace.pages.length then some i else none) ∧
    ∀ i page, trace.pages[i]? = some page → PageValid trace.header page i := by
  obtain ⟨scan,scanned,same⟩ := bindOk.mp trace.pagesValid
  have start : ∀ i, (CatalogScan.empty.pageIndex)[i]? = if i < 0 then some i else none := fun i => by
    simp [CatalogScan.empty]
  obtain ⟨index,rows⟩ := catalogScanned scanned start
  have indexed : scan.pageIndex = trace.pageIndex := congrArg Prod.fst (Except.ok.inj same)
  rw [indexed] at index
  refine ⟨fun i => ?_,fun i page found => ?_⟩
  · rw [index i,Nat.zero_add]
  · have row := rows i page found
    rwa [Nat.zero_add] at row

variable {trace}

theorem pageKnown {id : PageId} (known : id < trace.pages.length) : trace.pages[id]? = some (trace.page id) := by
  have index := (catalogValid trace).1 id
  rw [if_pos known] at index
  simp only [ValidatedTrace.page,ValidatedTrace.catalog,PageCatalog.page,index]
  rw [List.getD_eq_getElem?_getD,List.getElem?_eq_getElem known,Option.getD_some]

theorem pageMember {id : PageId} (known : id < trace.pages.length) : trace.page id ∈ trace.pages :=
  List.mem_of_getElem? (pageKnown known)

theorem demandKnown {id : PageId} (member : id ∈ trace.demands) : id < trace.pages.length := by
  obtain ⟨event,inside,demanded⟩ := List.mem_filterMap.mp member
  obtain ⟨scan,scanned,-⟩ := bindOk.mp trace.eventsValid
  obtain ⟨i,here⟩ := List.mem_iff_getElem?.mp inside
  have row : (event,i) ∈ trace.events.zipIdx := List.mem_zipIdx_iff_getElem?.mpr here
  obtain ⟨before,after,one⟩ := foldEach scanned row
  cases event with
  | routerSignal => contradiction
  | demand sequence request step page =>
    cases Option.some.inj demanded
    simp only [validateEvent] at one
    split at one
    · contradiction
    split at one
    · contradiction
    rename_i present
    by_contra unknown
    have index := (catalogValid trace).1 id
    rw [if_neg unknown] at index
    exact present (fun member => absurd (ExtTreeMap.mem_iff_isSome_getElem?.mp member) (by simp [index]))

theorem demandedValid {sequence request step : Nat} {id : PageId}
    (member : .demand sequence request step id ∈ trace.events) : PageValid trace.header (trace.catalog.page id) id :=
  (catalogValid trace).2 id _ (pageKnown (demandKnown (List.mem_filterMap.mpr ⟨_,member,rfl⟩)))

end Validated

def TraceEvent.target? : TraceEvent → Option (Nat × Nat × Nat)
  | .demand _ _ _ _ => none
  | .routerSignal _ request targetStep layer _ => some (request,targetStep,layer)

def TraceEvent.predictions : TraceEvent → List ExpertPrediction
  | .demand _ _ _ _ => []
  | .routerSignal _ _ _ _ predictions => predictions

def GroupsBelow (limit : Nat) (ordinals : ExtTreeMap ExpertKey (List (Nat × PageId))) : Prop :=
  Every ordinals (fun _ rows => (rows.map Prod.snd).Nodup ∧ ∀ row ∈ rows, row.2 < limit)

theorem pageGrouped (before : GroupsBelow index scan.expertOrdinals) (role : PageClass) :
    GroupsBelow (index + 1) (scan.added index role).expertOrdinals := by
  have older : GroupsBelow (index + 1) scan.expertOrdinals := fun key rows found =>
    ⟨(before key rows found).1,fun row member => Nat.lt_succ_of_lt ((before key rows found).2 row member)⟩
  cases role with
  | shared => exact older
  | expert layer expert ordinal =>
    refine everyInsert older ?_
    have rows : ((scan.expertOrdinals[(⟨layer,expert⟩ : ExpertKey)]?.getD []).map Prod.snd).Nodup ∧
        ∀ row ∈ scan.expertOrdinals[(⟨layer,expert⟩ : ExpertKey)]?.getD [], row.2 < index := by
      cases found : scan.expertOrdinals[(⟨layer,expert⟩ : ExpertKey)]? with
      | none => simp
      | some rows => exact before _ rows found
    refine ⟨?_,fun row member => ?_⟩
    · rw [List.map_append,List.map_cons,List.map_nil,List.nodup_append]
      refine ⟨rows.1,List.nodup_singleton _,fun a left b right same => ?_⟩
      obtain ⟨row,member,rfl⟩ := List.mem_map.mp left
      have below := rows.2 row member
      rw [same,List.mem_singleton.mp right] at below
      exact Nat.lt_irrefl index below
    · rcases List.mem_append.mp member with old | new
      · exact Nat.lt_succ_of_lt (rows.2 row old)
      · rw [List.mem_singleton.mp new]
        exact Nat.lt_succ_self index

theorem groupsScanned (ok : (pages.zipIdx start).foldlM (validatePage header) scan = .ok out)
    (before : GroupsBelow start scan.expertOrdinals) : GroupsBelow (start + pages.length) out.expertOrdinals := by
  induction pages generalizing start scan with
  | nil =>
    rw [List.zipIdx_nil,foldNil] at ok
    subst ok
    exact before
  | cons first rest ih =>
    rw [List.zipIdx_cons,foldCons] at ok
    obtain ⟨next,one,later⟩ := ok
    rw [(pageValidated one).2] at later
    have grouped := ih later (pageGrouped before first.role)
    rwa [Nat.add_assoc,Nat.add_comm 1] at grouped

theorem groupRows (trace : ValidatedTrace) (layer expert : Nat) :
    (trace.catalog.groupPages layer expert).Nodup ∧
      ∀ id ∈ trace.catalog.groupPages layer expert, id < trace.pages.length := by
  obtain ⟨scan,scanned,same⟩ := bindOk.mp trace.pagesValid
  have grouped := groupsScanned scanned (everyEmpty _)
  have maps : _ = trace.expertPages := congrArg Prod.snd (Except.ok.inj same)
  unfold PageCatalog.groupPages ValidatedTrace.catalog
  simp only [← maps,ExtTreeMap.getElem?_map]
  cases found : scan.expertOrdinals[(⟨layer,expert⟩ : ExpertKey)]? with
  | none => exact ⟨List.nodup_nil,nofun⟩
  | some rows =>
    have sorted := (List.perm_insertionSort byOrdinal rows).map Prod.snd
    obtain ⟨distinct,below⟩ := grouped _ rows found
    refine ⟨sorted.nodup_iff.mpr distinct,fun id member => ?_⟩
    obtain ⟨row,inside,rfl⟩ := List.mem_map.mp (sorted.mem_iff.mp member)
    simpa using below row inside

theorem groupDistinct (trace : ValidatedTrace) (layer expert : Nat) :
    (trace.catalog.groupPages layer expert).Nodup := (groupRows trace layer expert).1

theorem groupedValid {trace : ValidatedTrace} {layer expert : Nat} {id : PageId}
    (member : id ∈ trace.catalog.groupPages layer expert) : PageValid trace.header (trace.catalog.page id) id :=
  (catalogValid trace).2 id _ (pageKnown ((groupRows trace layer expert).2 id member))

theorem pageIdentity (trace : ValidatedTrace) (id : PageId) : (trace.catalog.page id).id = id := by
  obtain ⟨index,rows⟩ := catalogValid trace
  by_cases known : id < trace.pages.length
  · exact (rows id _ (pageKnown known)).id
  · have absent := index id
    rw [if_neg known] at absent
    simp only [PageCatalog.page,ValidatedTrace.catalog,absent]
    rfl

theorem predictionsScanned {eventIndex layer : Nat} {expertPages : ExtTreeMap ExpertKey (List PageId)}
    {predictions : List ExpertPrediction} {scan out : PredictionScan}
    (ok : predictions.foldlM (validatePrediction eventIndex layer expertPages) scan = .ok out)
    (before : scan.experts.Nodup) : (predictions.map ExpertPrediction.expert).Nodup ∧
      ∀ p ∈ predictions, p.expert ∉ scan.experts := by
  induction predictions generalizing scan with
  | nil => simp
  | cons p rest ih =>
    obtain ⟨next,one,later⟩ := foldCons.mp ok
    simp only [validatePrediction] at one
    split at one
    · contradiction
    split at one
    · contradiction
    split at one
    · contradiction
    split at one
    · contradiction
    rename_i fresh
    split at one
    · contradiction
    cases one
    obtain ⟨distinct,others⟩ := ih later (List.nodup_cons.mpr ⟨fresh,before⟩)
    refine ⟨List.nodup_cons.mpr ⟨fun member => ?_,distinct⟩,fun q member inside => ?_⟩
    · obtain ⟨q,later,same⟩ := List.mem_map.mp member
      exact others q later (same ▸ List.mem_cons_self)
    · rcases List.mem_cons.mp member with rfl | later
      · exact fresh inside
      · exact others q later (List.mem_cons_of_mem _ inside)

theorem eventsScanned {pageIndex : ExtTreeMap PageId Nat} {expertPages : ExtTreeMap ExpertKey (List PageId)}
    {limits : SimLimits} {events : List TraceEvent} {scan out : EventScan}
    (ok : (events.zipIdx start).foldlM (validateEvent pageIndex expertPages limits) scan = .ok out) :
    (events.filterMap TraceEvent.target?).Nodup ∧
      (∀ target ∈ events.filterMap TraceEvent.target?, target ∉ scan.signalTargets) ∧
      ∀ event ∈ events, (event.predictions.map ExpertPrediction.expert).Nodup := by
  induction events generalizing start scan with
  | nil => simp
  | cons event rest ih =>
    rw [List.zipIdx_cons,foldCons] at ok
    obtain ⟨next,one,later⟩ := ok
    obtain ⟨distinct,fresh,experts⟩ := ih later
    simp only [validateEvent] at one
    split at one
    · contradiction
    cases event with
    | demand sequence request step page =>
      simp only at one
      split at one
      · contradiction
      split at one
      · contradiction
      cases one
      refine ⟨distinct,fresh,fun event member => ?_⟩
      rcases List.mem_cons.mp member with rfl | inside
      · exact List.nodup_nil
      · exact experts event inside
    | routerSignal sequence request targetStep layer predictions =>
      simp only at one
      split at one
      · contradiction
      split at one
      · contradiction
      rename_i unseen
      split at one
      · contradiction
      rename_i valid
      cases one
      refine ⟨List.nodup_cons.mpr ⟨fun member => fresh _ member List.mem_cons_self,distinct⟩,?_,?_⟩
      · intro target member inside
        rcases List.mem_cons.mp member with rfl | later
        · exact unseen inside
        · exact fresh target later (List.mem_cons_of_mem _ inside)
      · intro event member
        rcases List.mem_cons.mp member with rfl | inside
        · unfold validatePredictions at valid
          simp only at valid
          split at valid
          · contradiction
          · obtain ⟨_,scanned,-⟩ := bindOk.mp valid
            exact (predictionsScanned scanned List.nodup_nil).1
        · exact experts event inside

theorem signalsDistinct (trace : ValidatedTrace) : (trace.events.filterMap TraceEvent.target?).Nodup ∧
    ∀ event ∈ trace.events, (event.predictions.map ExpertPrediction.expert).Nodup := by
  obtain ⟨scan,scanned,-⟩ := bindOk.mp trace.eventsValid
  obtain ⟨distinct,-,experts⟩ := eventsScanned scanned
  exact ⟨distinct,experts⟩

end RunnelMoe.Sim
