import RunnelMoe.SimReplay

/-! Admission of an expert. All its absent pages come in together, and its resident
pages are among the pages that may have to leave for them: a resident page of the
expert stays exactly when the free bytes and the pages that leave before it suffice. -/
namespace RunnelMoe.Sim
open Words KeyedSum Results Vectors PolicyState
open Std (ExtTreeMap)

def CatalogScan.members (scan : CatalogScan) (layer expert : Nat) : List PageId :=
  (scan.expertOrdinals[(⟨layer,expert⟩ : ExpertKey)]?.getD []).map Prod.snd

section Members
variable {header : TraceHeader} {layer expert : Nat} {id : PageId}

theorem pageMembers (scan : CatalogScan) (index : Nat) (role : PageClass) : id ∈ (scan.added index role).members layer expert ↔
    id ∈ scan.members layer expert ∨ id = index ∧ ∃ ordinal, role = .expert layer expert ordinal := by
  cases role with
  | shared => simp [CatalogScan.members,CatalogScan.added]
  | expert layer' expert' ordinal =>
    unfold CatalogScan.members
    simp only [CatalogScan.added,PageClass.expert.injEq,getInsert,ExpertKey.mk.injEq]
    by_cases here : layer = layer' ∧ expert = expert'
    · obtain ⟨rfl,rfl⟩ := here
      simp
    · rw [if_neg here]
      constructor
      · exact .inl
      · rintro (old | ⟨-,_,rfl,rfl,-⟩)
        · exact old
        · exact absurd ⟨rfl,rfl⟩ here

theorem scannedMembers {pages : List PageDescriptor} {start : Nat} {scan out : CatalogScan}
    (ok : (pages.zipIdx start).foldlM (validatePage header) scan = .ok out) :
    id ∈ out.members layer expert ↔ id ∈ scan.members layer expert ∨
      ∃ i page ordinal, pages[i]? = some page ∧ id = start + i ∧ page.role = .expert layer expert ordinal := by
  induction pages generalizing start scan with
  | nil =>
    rw [List.zipIdx_nil,foldNil] at ok
    subst ok
    simp
  | cons first rest ih =>
    rw [List.zipIdx_cons,foldCons] at ok
    obtain ⟨next,one,later⟩ := ok
    rw [ih later,(pageValidated one).2,pageMembers,or_assoc]
    refine or_congr_right ⟨?_,?_⟩
    · rintro (⟨here,ordinal,role⟩ | ⟨i,page,ordinal,found,place,role⟩)
      · exact ⟨0,first,ordinal,rfl,here,role⟩
      · exact ⟨i + 1,page,ordinal,found,place.trans (Nat.succ_add_eq_add_succ start i),role⟩
    · rintro ⟨i,page,ordinal,found,place,role⟩
      cases i with
      | zero =>
        cases Option.some.inj found
        exact .inl ⟨place,ordinal,role⟩
      | succ i => exact .inr ⟨i,page,ordinal,found,place.trans (Nat.succ_add_eq_add_succ start i).symm,role⟩

theorem groupMembers (trace : ValidatedTrace) (layer expert : Nat) (id : PageId) :
    id ∈ trace.catalog.groupPages layer expert ↔
      ∃ page ∈ trace.pages, page.id = id ∧ ∃ ordinal, page.role = .expert layer expert ordinal := by
  obtain ⟨scan,scanned,same⟩ := bindOk.mp trace.pagesValid
  have maps : _ = trace.expertPages := congrArg Prod.snd (Except.ok.inj same)
  have grouped : id ∈ trace.catalog.groupPages layer expert ↔ id ∈ scan.members layer expert := by
    unfold PageCatalog.groupPages ValidatedTrace.catalog CatalogScan.members
    simp only [← maps,ExtTreeMap.getElem?_map]
    cases scan.expertOrdinals[(⟨layer,expert⟩ : ExpertKey)]? with
    | none => rfl
    | some rows => exact ((List.perm_insertionSort byOrdinal rows).map Prod.snd).mem_iff
  rw [grouped,scannedMembers scanned]
  constructor
  · rintro (none | ⟨i,page,ordinal,found,rfl,role⟩)
    · simp [CatalogScan.members,CatalogScan.empty] at none
    · have valid := (catalogValid trace).2 i page found
      exact ⟨page,List.mem_of_getElem? found,by rw [valid.id,Nat.zero_add],ordinal,role⟩
  · rintro ⟨page,member,rfl,ordinal,role⟩
    obtain ⟨i,found⟩ := List.getElem?_of_mem member
    have valid := (catalogValid trace).2 i page found
    exact .inr ⟨i,page,ordinal,found,by rw [valid.id,Nat.zero_add],role⟩

end Members

section Spared
variable {catalog : PageCatalog} {capacityBytes : Nat} {group : PrefetchGroup} {budget : PrefetchBudget} {k : Kernel}

def Kernel.bytesBefore (catalog : PageCatalog) (k : Kernel) (request targetStep : Nat) (e : ResidentEntry) : Nat :=
  ((((residentValues k.residents).filter (fun other => other.segment = .probation)).filter (fun other =>
    k.policy.prefetchKey catalog request targetStep other < k.policy.prefetchKey catalog request targetStep e)).map
      ResidentEntry.chargeBytes).sum

def Spared (catalog : PageCatalog) (capacityBytes : Nat) (group : PrefetchGroup) (k : Kernel) : Prop :=
  ∀ id ∈ group.pageIds, ∀ e, k.residents[id]? = some e → e.segment = .probation →
    chargesTotal catalog (absentPages k.residents group.pageIds) ≤
      (capacityBytes - k.residentBytes) + k.bytesBefore catalog group.request group.targetStep e

theorem prefetchedMembers (catalogued : Catalogued catalog) (k : Kernel) (pages : List PageId) (id : PageId) :
    id ∈ (k.prefetchedAll catalog pages).residents ↔ id ∈ k.residents ∨ id ∈ pages := by
  induction pages generalizing k with
  | nil => simp [Kernel.prefetchedAll]
  | cons page rest ih =>
    refine (ih (k.prefetched catalog page)).trans ?_
    rw [prefetchedResidents catalogued,ExtTreeMap.mem_insert,List.mem_cons,compare_eq_iff_eq]
    tauto

theorem prefetchedDecisions (catalog : PageCatalog) (k : Kernel) (pages : List PageId) :
    (k.prefetchedAll catalog pages).decisions = k.decisions := by
  induction pages generalizing k with
  | nil => rfl
  | cons id rest ih => exact ih (k.prefetched catalog id)

theorem evictedMembers (k : Kernel) (victims : List PageId) (id : PageId) :
    id ∈ (k.evictedAll victims).residents ↔ id ∈ k.residents ∧ id ∉ victims := by
  rw [ExtTreeMap.mem_iff_isSome_getElem?,allLookup,ExtTreeMap.mem_iff_isSome_getElem?]
  split <;> simp_all

theorem prefetchKeys (entries : Every k.residents (EntrySound catalog)) (request targetStep : Nat) :
    (((residentValues k.residents).filter (fun e => e.segment = .probation)).map
      (k.policy.prefetchKey catalog request targetStep)).Nodup := by
  have pages := (valuePages entries).sublist
    ((List.filter_sublist (p := fun e : ResidentEntry => e.segment = .probation)).map ResidentEntry.page)
  refine List.Nodup.of_map (fun key => (ofLex (ofLex key).2).2) ?_
  rw [List.map_map]
  exact pages

theorem victimIff (stocked : Stocked catalog capacityBytes k) {request targetStep score : Nat} {absent victims : List PageId}
    (planned : k.policy.planPrefetchVictims catalog k.residents
      ⟨k.residentBytes,capacityBytes,absent,request,targetStep,score⟩ = .ok (some victims))
    {id : PageId} {e : ResidentEntry} (present : k.residents[id]? = some e) :
    id ∈ victims ↔ e.segment = .probation ∧
      (capacityBytes - k.residentBytes) + k.bytesBefore catalog request targetStep e < chargesTotal catalog absent := by
  have same := endsValue (planPrefetchExact k.policy stocked.within) planned
  unfold PolicyState.plannedPrefetch at same
  simp only at same
  split at same
  · contradiction
  split at same
  · rename_i room
    cases same
    have fits : chargesTotal catalog absent ≤ capacityBytes - k.residentBytes := room
    simp
    omega
  rename_i short
  split at same
  · contradiction
  split at same
  · contradiction
  cases same
  have short : capacityBytes - k.residentBytes < chargesTotal catalog absent := Nat.lt_of_not_le short
  have listed : e ∈ residentValues k.residents := List.mem_map.mpr ⟨(id,e),memToList.mpr present,rfl⟩
  have inside : e ∈ (residentValues k.residents).filter (fun e => e.segment = .probation) ↔ e.segment = .probation := by
    rw [List.mem_filter,and_iff_right listed,decide_eq_true_iff]
  have taken : id ∈ List.map ResidentEntry.page (takeEnough ResidentEntry.chargeBytes
        (chargesTotal catalog absent - (capacityBytes - k.residentBytes)) 0
        (k.policy.prefetchOrder catalog k.residents request targetStep)) ↔
      e ∈ takeEnough ResidentEntry.chargeBytes (chargesTotal catalog absent - (capacityBytes - k.residentBytes)) 0
        (k.policy.prefetchOrder catalog k.residents request targetStep) := by
    constructor
    · intro member
      obtain ⟨other,chosen,here⟩ := List.mem_map.mp member
      have listed := (sortByKeyPerm ..).subset ((takeEnoughPrefix ..).subset chosen)
      obtain ⟨page,found⟩ := memValues (List.mem_of_mem_filter listed)
      have own := (stocked.entries page other found).page
      rw [own] at here
      subst here
      cases Option.some.inj (found.symm.trans present)
      exact chosen
    · intro chosen
      exact List.mem_map.mpr ⟨e,chosen,(stocked.entries id e present).page⟩
  refine taken.trans ?_
  by_cases probation : e.segment = .probation
  · rw [and_iff_right probation]
    refine (takenSorted _ (by omega) (prefetchKeys stocked.entries request targetStep) (inside.mpr probation)).trans ?_
    show k.bytesBefore catalog request targetStep e < _ ↔ _
    omega
  · simp only [probation,false_and,iff_false]
    intro chosen
    exact probation (inside.mp ((sortByKeyPerm ..).subset ((takeEnoughPrefix ..).subset chosen)))

theorem triedAdmission {out : Kernel × PrefetchBudget} {sequence : Nat} {offered redundant absent victims : List PageId}
    (tried : Tried catalog capacityBytes group budget k out)
    (admitted : out.1.decisions = k.decisions ++ [.prefetch sequence .prefetchAdmit offered redundant absent victims]) :
    k.policy.planPrefetchVictims catalog k.residents
        ⟨k.residentBytes,capacityBytes,absentPages k.residents group.pageIds,group.request,group.targetStep,
          group.prediction.scorePpm⟩ = .ok (some victims) ∧
      out.1.residents = (((k.offeredGroup catalog group.pageIds).evictedAll victims).prefetchedAll catalog
        (absentPages k.residents group.pageIds)).residents := by
  have logged {tag : DecisionTag} {left right others gone : List PageId} {before : List Decision}
      (same : before = k.decisions)
      (log : before ++ [.prefetch group.sequence tag left right others gone] =
        k.decisions ++ [.prefetch sequence .prefetchAdmit offered redundant absent victims]) :
      tag = .prefetchAdmit ∧ gone = victims := by
    subst same
    obtain ⟨-,tag,-,-,-,gone⟩ := Decision.prefetch.inj (List.singleton_inj.mp (List.append_cancel_left log))
    exact ⟨tag,gone⟩
  cases tried with
  | redundant none => exact absurd (logged rfl admitted).1 (by decide)
  | dropped some_ refused =>
    cases refused with
    | pageLimit | byteLimit | admission => exact absurd (logged rfl admitted).1 (by decide)
  | @admitted chosen some_ pages bytes planned frees =>
    have frame := (prefetchedDecisions catalog ((k.offeredGroup catalog group.pageIds).evictedAll chosen)
      (absentPages k.residents group.pageIds)).trans (allFrame ..).2.2
    obtain ⟨-,rfl⟩ := logged frame admitted
    exact ⟨planned,rfl⟩

theorem admittedWhole (catalogued : Catalogued catalog) (stocked : Stocked catalog capacityBytes k) {victims : List PageId}
    (planned : k.policy.planPrefetchVictims catalog k.residents
      ⟨k.residentBytes,capacityBytes,absentPages k.residents group.pageIds,group.request,group.targetStep,
        group.prediction.scorePpm⟩ = .ok (some victims)) :
    ((∀ id ∈ group.pageIds, id ∈ (((k.offeredGroup catalog group.pageIds).evictedAll victims).prefetchedAll catalog
        (absentPages k.residents group.pageIds)).residents) ↔ Spared catalog capacityBytes group k) ∧
      ((∀ id ∈ victims, id ∉ group.pageIds) ↔ Spared catalog capacityBytes group k) := by
  have whole (id : PageId) : id ∈ (((k.offeredGroup catalog group.pageIds).evictedAll victims).prefetchedAll catalog
      (absentPages k.residents group.pageIds)).residents ↔
        (id ∈ k.residents ∧ id ∉ victims) ∨ id ∈ absentPages k.residents group.pageIds := by
    rw [prefetchedMembers catalogued,evictedMembers]
    rfl
  have spared : Spared catalog capacityBytes group k ↔ ∀ id ∈ group.pageIds, id ∈ k.residents → id ∉ victims := by
    constructor
    · intro spared id member present victim
      obtain ⟨e,found⟩ := Option.isSome_iff_exists.mp (ExtTreeMap.mem_iff_isSome_getElem?.mp present)
      obtain ⟨probation,early⟩ := (victimIff stocked planned found).mp victim
      have late := spared id member e found probation
      omega
    · intro kept id member e found probation
      by_contra early
      have present : id ∈ k.residents := by
        rw [ExtTreeMap.mem_iff_isSome_getElem?,found]
        rfl
      exact kept id member present ((victimIff stocked planned found).mpr ⟨probation,by omega⟩)
  constructor
  · rw [spared]
    refine forall₂_congr (fun id member => ?_)
    rw [whole,absentPages,List.mem_filter]
    simp only [member,true_and,decide_eq_true_eq]
    tauto
  · rw [spared]
    have resident := (endsValue (planPrefetchSafe k.policy stocked.entries stocked.within) planned victims rfl).resident
    constructor
    · exact fun apart id member _ victim => apart id victim member
    · exact fun kept id victim member => kept id member (resident id victim) victim

end Spared

/- A run reaches a signal and, after the experts before it, tries the group of one
prediction. -/
structure ExpertTried (trace : ValidatedTrace) (capacityBytes : Nat) (config : RouterPolicyConfig)
    (sequence request targetStep layer : Nat) (prediction : ExpertPrediction) (middle after : Kernel × PrefetchBudget) :
    Prop where
  run : ∃ start past rest k predictions front back policy,
    Kernel.new trace ⟨capacityBytes,.routerPrefetch config⟩ = .ok start ∧
    trace.events = past ++ .routerSignal sequence request targetStep layer predictions :: rest ∧
    past.foldlM (Kernel.event trace.catalog capacityBytes) start = .ok k ∧
    Kernel.selectPredictions config predictions = front ++ prediction::back ∧
    k.policy.recordSignal request targetStep layer (front ++ prediction::back) = .ok policy ∧
    front.foldlM (Kernel.prefetchExpert trace.catalog capacityBytes sequence request targetStep layer)
      ({k with policy := policy},⟨config.maxPagesPerSignal,config.maxPrefetchBytesPerSignal⟩) = .ok middle
  tried : Kernel.prefetchExpert trace.catalog capacityBytes sequence request targetStep layer middle prediction = .ok after

section Runs
variable {trace : ValidatedTrace} {capacityBytes : Nat} {config : RouterPolicyConfig}
  {sequence request targetStep layer : Nat} {prediction : ExpertPrediction} {middle after : Kernel × PrefetchBudget}
  {offered redundant absent victims : List PageId}

theorem triedGroup
    (expert : ExpertTried trace capacityBytes config sequence request targetStep layer prediction middle after) :
    Sound trace.catalog capacityBytes 0 0 middle.1 ∧ (after = middle ∨ Tried trace.catalog capacityBytes
      ⟨sequence,request,targetStep,prediction,trace.catalog.groupPages layer prediction.expert⟩ middle.2 middle.1 after) := by
  have catalogued := traceCatalogued trace
  obtain ⟨start,past,rest,k,predictions,front,back,policy,made,parts,reached,-,-,before⟩ := expert.run
  have running := (reachedRunning made parts reached).sound
  have sound := (endsValue (groupsSafe (fun _ => True) (k := {k with policy := policy}) catalogued
    ⟨⟨running.stocked.entries,running.stocked.bytes,running.stocked.within⟩,running.balanced⟩ trivial
    (fun _ _ _ _ _ _ _ => trivial)) before).1
  refine ⟨sound,?_⟩
  have tried := expert.tried
  unfold Kernel.prefetchExpert at tried
  split at tried
  · exact .inl (Except.ok.inj tried).symm
  · exact .inr (endsValue (groupTried catalogued (catalogued.groups layer prediction.expert) sound) tried).1

/- Whenever an expert is admitted, all its pages are resident right after exactly when
its resident pages were spared, and that is exactly when no victim is a page of it. -/
theorem expertKeptWhole
    (expert : ExpertTried trace capacityBytes config sequence request targetStep layer prediction middle after)
    (admitted : after.1.decisions =
      middle.1.decisions ++ [.prefetch sequence .prefetchAdmit offered redundant absent victims]) :
    ((∀ page ∈ trace.pages, ∀ ordinal, page.role = .expert layer prediction.expert ordinal →
        page.id ∈ after.1.residents) ↔
      Spared trace.catalog capacityBytes
        ⟨sequence,request,targetStep,prediction,trace.catalog.groupPages layer prediction.expert⟩ middle.1) ∧
    ((∀ page ∈ trace.pages, ∀ ordinal, page.role = .expert layer prediction.expert ordinal → page.id ∉ victims) ↔
      Spared trace.catalog capacityBytes
        ⟨sequence,request,targetStep,prediction,trace.catalog.groupPages layer prediction.expert⟩ middle.1) := by
  obtain ⟨sound,same | tried⟩ := triedGroup expert
  · rw [same] at admitted
    simp at admitted
  have group (P : PageId → Prop) : (∀ page ∈ trace.pages, ∀ ordinal,
      page.role = .expert layer prediction.expert ordinal → P page.id) ↔
        ∀ id ∈ trace.catalog.groupPages layer prediction.expert, P id := by
    constructor
    · intro each id member
      obtain ⟨page,inside,rfl,ordinal,role⟩ := (groupMembers trace layer prediction.expert id).mp member
      exact each page inside ordinal role
    · intro each page inside ordinal role
      exact each page.id ((groupMembers trace layer prediction.expert page.id).mpr ⟨page,inside,rfl,ordinal,role⟩)
  obtain ⟨planned,residents⟩ := triedAdmission tried admitted
  obtain ⟨whole,apart⟩ := admittedWhole (traceCatalogued trace) sound.stocked planned
  rw [group (· ∈ after.1.residents),group (· ∉ victims),residents]
  refine ⟨whole,?_⟩
  rw [← apart]
  exact ⟨fun each id victim member => each id member victim,fun each id member victim => each id victim member⟩

end Runs

theorem splitValid :
    (validateRecords ⟨headerKind,traceSchema,"split",2,3,64,prefetchModel⟩
      [⟨0,64,64,.expert 0 0 0⟩,⟨1,128,128,.expert 0 0 1⟩]
      [.demand 0 1 0 0,.routerSignal 1 1 1 0 [⟨0,600000⟩],.demand 2 1 1 1] defaultLimits).toOption.isSome := by
  decide +kernel

def split : ValidatedTrace := value _ splitValid

def splitting : RouterPolicyConfig := ⟨500000,1,1,4,1000⟩

theorem splitStart : (Kernel.new split ⟨128,.routerPrefetch splitting⟩).toOption.isSome := by decide +kernel

theorem splitSignalled : ((split.events.take 2).foldlM (Kernel.event split.catalog 128)
    (value _ splitStart)).toOption.isSome := by decide +kernel

theorem expertSplit :
    (value _ splitSignalled).decisions.getLast? = some (.prefetch 1 .prefetchAdmit [0,1] [0] [1] [0]) ∧
      (⟨0,64,64,.expert 0 0 0⟩ : PageDescriptor) ∈ split.pages ∧ 0 ∉ (value _ splitSignalled).residents := by
  decide +kernel

theorem splitDemanded : ((split.events.take 1).foldlM (Kernel.event split.catalog 128)
    (value _ splitStart)).toOption.isSome := by decide +kernel

theorem splitRecorded :
    ((value _ splitDemanded).policy.recordSignal 1 1 0 [⟨0,600000⟩]).toOption.isSome := by decide +kernel

def splitMiddle : Kernel × PrefetchBudget :=
  ({value _ splitDemanded with policy := value _ splitRecorded},⟨4,1000⟩)

theorem splitTried :
    (Kernel.prefetchExpert split.catalog 128 1 1 1 0 splitMiddle ⟨0,600000⟩).toOption.isSome := by decide +kernel

theorem splitNotSpared :
    ¬Spared split.catalog 128 ⟨1,1,1,⟨0,600000⟩,split.catalog.groupPages 0 0⟩ splitMiddle.1 := by
  have expert : ExpertTried split 128 splitting 1 1 1 0 ⟨0,600000⟩ splitMiddle (value _ splitTried) := by
    refine ⟨⟨_,split.events.take 1,split.events.drop 2,_,[⟨0,600000⟩],[],[],_,valueOk splitStart,by decide +kernel,
      valueOk splitDemanded,by decide +kernel,valueOk splitRecorded,rfl⟩,valueOk splitTried⟩
  have admitted : (value _ splitTried).1.decisions =
      splitMiddle.1.decisions ++ [.prefetch 1 .prefetchAdmit [0,1] [0] [1] [0]] := by decide +kernel
  rw [← (expertKeptWhole expert admitted).1]
  intro whole
  exact absurd (whole ⟨0,64,64,.expert 0 0 0⟩ (by decide +kernel) 0 rfl) (by decide +kernel)

end RunnelMoe.Sim
