import RunnelMoe.SimSegments

/-! Segmented LRU as two recency lists. The reference keeps the pages of each segment
from the least recent on and moves them as the policy is described; the kernel keeps one
touch for each page. The two make the same decisions when the pages that one hit demotes
enter probation by page id. -/
namespace RunnelMoe.Sim
open Words KeyedSum Results Vectors Queues PolicyState
open Std (ExtTreeMap)

structure TwoLists where
  probation : List PageId
  protectedPages : List PageId
  decisions : List Decision
  deriving DecidableEq, Repr

def byId : List PageId → List PageId := sortByKey id

namespace TwoLists

section Reference
variable (catalog : PageCatalog) (capacityBytes target : Nat) (arrange : List PageId → List PageId)

def record (s : TwoLists) (sequence : Nat) (tag : DecisionTag) (page : Option PageId) (victims : List PageId) : TwoLists :=
  {s with decisions := s.decisions ++ [.event sequence tag page victims]}

def promote (s : TwoLists) (id : PageId) : TwoLists :=
  {s with
    probation := s.probation.erase id ++ arrange (shed catalog.charge target (s.protectedPages ++ [id])).1,
    protectedPages := (shed catalog.charge target (s.protectedPages ++ [id])).2}

def hit (s : TwoLists) (id : PageId) : TwoLists :=
  if id ∈ s.protectedPages then {s with protectedPages := s.protectedPages.erase id ++ [id]}
  else if catalog.charge id ≤ target then s.promote catalog target arrange id
  else {s with probation := s.probation.erase id ++ [id]}

def miss (s : TwoLists) (sequence : Nat) (id : PageId) : TwoLists :=
  if capacityBytes < catalog.charge id then s.record sequence .demandMissBypass (some id) []
  else
    let victims := (shed catalog.charge (capacityBytes - catalog.charge id) (s.probation ++ s.protectedPages)).1
    ({s with
      probation := s.probation.filter (· ∉ victims) ++ [id],
      protectedPages := s.protectedPages.filter (· ∉ victims)} : TwoLists).record sequence .demandMissAdmit (some id) victims

def event (s : TwoLists) : TraceEvent → TwoLists
  | .demand sequence _ _ id =>
    if id ∈ s.probation ∨ id ∈ s.protectedPages then
      (s.hit catalog target arrange id).record sequence .demandHit (some id) []
    else s.miss catalog capacityBytes sequence id
  | .routerSignal sequence _ _ _ _ => s.record sequence .signalIgnored none []

def run (events : List TraceEvent) : TwoLists :=
  events.foldl (event catalog capacityBytes target arrange) ⟨[],[],[]⟩

def demotedBy (s : TwoLists) : TraceEvent → List PageId
  | .demand _ _ _ id =>
    if id ∈ s.probation ∧ catalog.charge id ≤ target then (shed catalog.charge target (s.protectedPages ++ [id])).1 else []
  | .routerSignal _ _ _ _ _ => []

end Reference

end TwoLists

section Plans
variable {catalog : PageCatalog} {residents : Residents} {pages : List PageId} {policy : PolicyState}
  {residentBytes capacityBytes request step : Nat} {id : PageId}

theorem listedEntries (entries : Every residents (EntrySound catalog)) (known : ∀ p ∈ pages, ∃ e, residents[p]? = some e) :
    (pages.filterMap (fun p => residents[p]?)).map ResidentEntry.page = pages := by
  induction pages with
  | nil => rfl
  | cons p rest ih =>
    obtain ⟨e,found⟩ := known p List.mem_cons_self
    rw [List.filterMap_cons_some found,List.map_cons,(entries p e found).page,
      ih (fun q member => known q (List.mem_cons_of_mem _ member))]

/- The victims are what has to leave at the front of the list for the page to fit. -/
theorem planSheds {R : Type} [LinearOrder R] {rank : ResidentEntry → R} (entries : Every residents (EntrySound catalog))
    (queued : Queued (fun _ => True) rank residents pages) (caches : policy.isNoCache = false)
    (admits : ∀ victims, policy.admitDemand catalog residents (catalog.page id) victims request step = .ok true)
    (alike : ∀ (a b : PageId) v w, residents[a]? = some v → residents[b]? = some w →
      toLex (rank v,a) < toLex (rank w,b) →
      policy.demandKey catalog request step v < policy.demandKey catalog request step w)
    (bytes : residentBytes = chargeTotal residents) (within : residentBytes ≤ capacityBytes)
    {planned : Option (List PageId)} (ok : policy.planDemandVictims catalog residents
      ⟨residentBytes,capacityBytes,catalog.page id,request,step⟩ = .ok planned) :
    planned = if capacityBytes < catalog.charge id then none
      else some (shed catalog.charge (capacityBytes - catalog.charge id) pages).1 := by
  have sum := bytes.trans (queuedTotal catalog.charge queued (fun p e found => (entries p e found).charge))
  have known (p) (member : p ∈ pages) : ∃ e, residents[p]? = some e := by
    obtain ⟨e,found,-⟩ := (queued.members p).mp member
    exact ⟨e,found⟩
  have charge : (catalog.page id).chargeBytes = catalog.charge id := rfl
  unfold planDemandVictims at ok
  simp only [wrappingSubExact within,caches,Bool.false_eq_true,or_false,charge,gt_iff_lt] at ok
  by_cases large : capacityBytes < catalog.charge id
  · rw [if_pos large] at ok ⊢
    exact (Except.ok.inj ok).symm
  rw [if_neg large] at ok ⊢
  split at ok
  · rw [shedNone (by omega)]
    exact (Except.ok.inj ok).symm
  · rename_i short
    obtain ⟨chosen,found,ok⟩ := bindOk.mp ok
    have same := endsValue (demandVictimsSafe ..) found
    subst same
    have ordered : sortByKey (policy.demandKey catalog request step) (residentValues residents) =
        pages.filterMap (fun p => residents[p]?) := sortedQueue queued alike
    have charges (e : ResidentEntry) (member : e ∈ pages.filterMap (fun p => residents[p]?)) :
        e.chargeBytes = catalog.charge e.page := by
      obtain ⟨p,-,found⟩ := List.mem_filterMap.mp member
      have sound := entries p e found
      rw [sound.charge,sound.page]
      rfl
    have victims : (takeEnough ResidentEntry.chargeBytes (catalog.charge id - (capacityBytes - residentBytes)) 0
        (pages.filterMap (fun p => residents[p]?))).map ResidentEntry.page =
        (shed catalog.charge (capacityBytes - catalog.charge id) pages).1 := by
      rw [takeEnoughMapped _ charges,listedEntries entries known]
      exact shedEnough (by omega) pages (by omega)
    have freed : ((takeEnough ResidentEntry.chargeBytes (catalog.charge id - (capacityBytes - residentBytes)) 0
        (pages.filterMap (fun p => residents[p]?))).map ResidentEntry.chargeBytes).sum =
        ((shed catalog.charge (capacityBytes - catalog.charge id) pages).1.map catalog.charge).sum := by
      rw [← victims,List.map_map]
      congr 1
      refine List.map_congr_left (fun e member => ?_)
      exact charges e ((takeEnoughPrefix ..).subset member)
    have kept := shedWithin catalog.charge (capacityBytes - catalog.charge id) pages
    have parts := congrArg (fun l => (l.map catalog.charge).sum)
      (shedParts catalog.charge (capacityBytes - catalog.charge id) pages)
    simp only [List.map_append,List.sum_append] at parts
    simp only [ordered,victims,freed,Nat.zero_add] at ok
    rw [if_neg (by omega)] at ok
    obtain ⟨admitted,answer,last⟩ := bindOk.mp ok
    cases Except.ok.inj ((admits _).symm.trans answer)
    exact (Except.ok.inj last).symm

end Plans

structure Lists (residents : Residents) (s : TwoLists) : Prop where
  probation : Listed .probation residents s.probation
  protectedPages : Listed .protectedSegment residents s.protectedPages
  segments : Every residents (fun _ e => e.segment ≠ .lru ∧ e.prefetchedUnused = false)

section Hits
variable {catalog : PageCatalog} {residents : Residents} {s : TwoLists} {target touch : Nat} {page : PageId}
  {e : ResidentEntry}

variable {segment : Segment} {pages : List PageId}

theorem listedApart {other : Segment} (listed : Listed segment residents pages)
    (present : residents[page]? = some e) (kind : e.segment = other) (different : other ≠ segment) : page ∉ pages := by
  intro inside
  obtain ⟨e',found,same⟩ := (listed.members page).mp inside
  cases Option.some.inj (found.symm.trans present)
  exact different (kind.symm.trans same)

theorem listedHere (listed : Listed segment residents pages)
    (present : residents[page]? = some e) (kind : e.segment = segment) : page ∈ pages :=
  (listed.members page).mpr ⟨e,present,kind⟩

theorem touchedListed (listed : Listed segment residents pages)
    (touched : Every residents (fun _ e => e.lastTouch ≤ touch)) (kind : e.segment = segment) :
    Listed segment (residents.insert page {e with lastTouch := touch + 1}) (pages.erase page ++ [page]) :=
  queuedLast listed page kind (fun a w _ found _ => Nat.lt_succ_of_le (touched a w found))

theorem untouchedListed {other : Segment} (listed : Listed segment residents pages)
    (present : residents[page]? = some e) (kind : e.segment = other) (different : other ≠ segment) {new : ResidentEntry}
    (same : new.segment = other) : Listed segment (residents.insert page new) pages := by
  have moved := queuedOut listed page (v := new) (fun there => different (same.symm.trans there))
  rwa [List.erase_of_not_mem (listedApart listed present kind different)] at moved

theorem promotedLists (entries : Every residents (EntrySound catalog)) (lists : Lists residents s)
    (touched : Every residents (fun _ e => e.lastTouch ≤ touch)) (present : residents[page]? = some e)
    (kind : e.segment = .probation) :
    Lists (rebalanceProtected target (touch + 1) (protectedEntries (promoted residents page e (touch + 1))).length
      (promoted residents page e (touch + 1))) (s.promote catalog target (byId) page) := by
  have after := promotedListed lists.protectedPages touched present kind
  have entries' := promotedEntries entries present (touch + 1)
  obtain ⟨out,balances,kept,-,lookup⟩ := rebalancedList entries' after target (touch + 1)
  have parts := shedParts catalog.charge target (s.protectedPages ++ [page])
  have enough : (shed catalog.charge target (s.protectedPages ++ [page])).1.length ≤
      (protectedEntries (promoted residents page e (touch + 1))).length := by
    have all := (protectedPages entries' after).length_eq
    have count := congrArg List.length parts
    rw [List.length_append] at count
    rw [List.length_map] at all
    omega
  rw [balancesRebalanced balances enough]
  have moved (a) (inside : a ∈ (shed catalog.charge target (s.protectedPages ++ [page])).1) :
      ∃ f, (promoted residents page e (touch + 1))[a]? = some f ∧ f.segment = .protectedSegment :=
    (after.members a).mp (parts ▸ List.mem_append_left _ inside)
  have probation : Listed .probation (promoted residents page e (touch + 1)) (s.probation.erase page) :=
    queuedOut lists.probation page (by simp)
  refine ⟨?_,kept,fun q f found => ?_⟩
  · refine queuedTogether (r := touch + 1) probation ?_ (fun a inside there => ?_) (fun a outside => ?_) (fun a inside => ?_)
      (fun a w found other => ?_)
    · have front := List.sublist_append_left (shed catalog.charge target (s.protectedPages ++ [page])).1
        (shed catalog.charge target (s.protectedPages ++ [page])).2
      rw [parts] at front
      exact (queuedNodup after).sublist front
    · obtain ⟨f,found,kind'⟩ := moved a there
      exact listedApart probation found kind' (by decide) inside
    · rw [lookup a,if_neg outside]
    · obtain ⟨f,found,-⟩ := moved a inside
      exact ⟨f.demotedAt (touch + 1),by rw [lookup a,if_pos inside,found]; rfl,rfl,rfl⟩
    · rw [promoted,getInsert] at found
      split at found
      · cases Option.some.inj found
        contradiction
      · exact Nat.lt_succ_of_le (touched a w found)
  · have before : ∀ f, (promoted residents page e (touch + 1))[q]? = some f →
        f.segment ≠ .lru ∧ f.prefetchedUnused = false := by
      intro f found
      rw [promoted,getInsert] at found
      split at found
      · cases Option.some.inj found
        exact ⟨by simp,rfl⟩
      · exact lists.segments q f found
    rw [lookup q] at found
    split at found
    · obtain ⟨f',there,same⟩ := Option.map_eq_some_iff.mp found
      subst same
      exact ⟨by simp [ResidentEntry.demotedAt],(before f' there).2⟩
    · exact before f found

theorem hitLists (entries : Every residents (EntrySound catalog)) (lists : Lists residents s)
    (touched : Every residents (fun _ e => e.lastTouch ≤ touch)) (present : residents[page]? = some e)
    (positive : 0 < catalog.charge page) :
    Lists ((PolicyState.slru target).onHit residents page (touch + 1)) (s.hit catalog target (byId) page) := by
  obtain ⟨kind,used⟩ := lists.segments page e present
  have charge : e.chargeBytes = catalog.charge page := (entries page e present).charge
  have segments : Every (residents.insert page {e with lastTouch := touch + 1})
      (fun _ e => e.segment ≠ .lru ∧ e.prefetchedUnused = false) := everyInsert lists.segments ⟨kind,used⟩
  have either : e.segment = .probation ∨ e.segment = .protectedSegment := by
    cases segment : e.segment with
    | lru => exact (kind segment).elim
    | probation => exact .inl rfl
    | protectedSegment => exact .inr rfl
  unfold PolicyState.onHit TwoLists.hit
  simp only [present,PolicyState.protectedTarget]
  rcases either with probation | protected_
  · rw [if_neg (listedApart lists.protectedPages present probation (by decide))]
    by_cases fits : catalog.charge page ≤ target
    · rw [if_pos ⟨probation,by omega,charge ▸ fits⟩,if_pos fits]
      have same : residents.insert page {e with lastTouch := touch + 1, segment := .protectedSegment} =
          promoted residents page e (touch + 1) := by
        unfold promoted
        rw [used]
      rw [same]
      exact promotedLists entries lists touched present probation
    · rw [if_neg (fun all => fits (charge ▸ all.2.2)),if_neg fits]
      exact ⟨touchedListed lists.probation touched probation,
        untouchedListed lists.protectedPages present probation (by decide) probation,segments⟩
  · rw [if_pos (listedHere lists.protectedPages present protected_),if_neg (fun all => by simp [protected_] at all)]
    exact ⟨untouchedListed lists.probation present protected_ (by decide) protected_,
      touchedListed lists.protectedPages touched protected_,segments⟩

end Hits

section Steps
variable {catalog : PageCatalog} {capacityBytes target request step : Nat} {s : TwoLists} {k k' : Kernel}
  {event : TraceEvent} {residents : Residents} {id : PageId}

def slruRank (e : ResidentEntry) : Nat ×ₗ Nat := toLex (PolicyState.segmentRank (.slru 0) e,e.lastTouch)

theorem bothQueued (lists : Lists residents s) :
    Queued (fun _ => True) slruRank residents (s.probation ++ s.protectedPages) := by
  have later {pages : List PageId} {segment : Segment} (listed : Listed segment residents pages) :
      pages.Pairwise (Precedes slruRank residents) := by
    refine listed.ordered.imp_of_mem (fun {a b} left right before v w here there => ?_)
    obtain ⟨v',found,kind⟩ := (listed.members a).mp left
    obtain ⟨w',found',kind'⟩ := (listed.members b).mp right
    cases Option.some.inj (found.symm.trans here)
    cases Option.some.inj (found'.symm.trans there)
    have order := Prod.Lex.toLex_lt_toLex.mp (before v w here there)
    simp only [slruRank,PolicyState.segmentRank,kind,kind',Prod.Lex.toLex_lt_toLex,lt_irrefl,true_and,false_or,
      EmbeddingLike.apply_eq_iff_eq,Prod.mk.injEq]
    exact order
  refine ⟨fun p => ?_,List.pairwise_append.mpr ⟨later lists.probation,later lists.protectedPages,?_⟩⟩
  · rw [List.mem_append,lists.probation.members,lists.protectedPages.members]
    constructor
    · intro inside
      rcases inside with ⟨e,found,-⟩ | ⟨e,found,-⟩
      · exact ⟨e,found,trivial⟩
      · exact ⟨e,found,trivial⟩
    · intro inside
      obtain ⟨e,found,-⟩ := inside
      cases segment : e.segment with
      | lru => exact ((lists.segments p e found).1 segment).elim
      | probation => exact .inl ⟨e,found,segment⟩
      | protectedSegment => exact .inr ⟨e,found,segment⟩
  · intro a left b right v w here there
    obtain ⟨v',found,kind⟩ := (lists.probation.members a).mp left
    obtain ⟨w',found',kind'⟩ := (lists.protectedPages.members b).mp right
    cases Option.some.inj (found.symm.trans here)
    cases Option.some.inj (found'.symm.trans there)
    simp [slruRank,PolicyState.segmentRank,kind,kind',Prod.Lex.toLex_lt_toLex]

theorem slruPlanned (stocked : Stocked catalog capacityBytes k) (lists : Lists k.residents s)
    {planned : Option (List PageId)}
    (ok : (PolicyState.slru target).planDemandVictims catalog k.residents
      ⟨k.residentBytes,capacityBytes,catalog.page id,request,step⟩ = .ok planned) :
    planned = if capacityBytes < catalog.charge id then none else
      some (shed catalog.charge (capacityBytes - catalog.charge id) (s.probation ++ s.protectedPages)).1 := by
  refine planSheds stocked.entries (bothQueued lists) rfl (fun _ => rfl) (fun a b v w here there before => ?_)
    stocked.bytes stocked.within ok
  have page := (stocked.entries a v here).page
  have page' := (stocked.entries b w there).page
  simp only [slruRank,Prod.Lex.toLex_lt_toLex,EmbeddingLike.apply_eq_iff_eq,Prod.mk.injEq] at before
  simp only [demandKey,PolicyState.activeScore,recency,Prod.Lex.toLex_lt_toLex,page,page',lt_irrefl,true_and,false_or]
  have ranks (e : ResidentEntry) : PolicyState.segmentRank (.slru target) e = PolicyState.segmentRank (.slru 0) e := rfl
  rw [ranks,ranks]
  tauto

theorem admittedLists (catalogued : Catalogued catalog) {touch : Nat} (policy : k.policy = .slru target)
    (lists : Lists k.residents s) (touched : Every k.residents (fun _ e => e.lastTouch ≤ touch))
    (absent : k.residents[id]? = none) (victims : List PageId) :
    Lists ((k.evictedAll victims).inserted (catalog.page id) (touch + 1) false).residents
      {s with
        probation := s.probation.filter (· ∉ victims) ++ [id],
        protectedPages := s.protectedPages.filter (· ∉ victims)} := by
  have lookup := allLookup k victims
  have old (a : PageId) (w : ResidentEntry) (found : (k.evictedAll victims).residents[a]? = some w) :
      k.residents[a]? = some w := by
    rw [lookup a] at found
    split at found
    · contradiction
    · exact found
  have unlisted {segment : Segment} {pages : List PageId} (listed : Listed segment k.residents pages) :
      id ∉ pages.filter (· ∉ victims) := by
    intro inside
    obtain ⟨e,found,-⟩ := (listed.members id).mp (List.mem_filter.mp inside).1
    rw [absent] at found
    contradiction
  have initial : (k.evictedAll victims).policy.initialSegment = .probation := by
    rw [(allFrame k victims).1,policy]
    rfl
  unfold Kernel.inserted
  rw [catalogued.identity,initial]
  refine ⟨?_,?_,everyInsert (fun a w found => lists.segments a w (old a w found)) ⟨by simp,rfl⟩⟩
  · have moved := queuedLast (queuedWithout lists.probation lookup) id
      (v := ⟨id,(catalog.page id).chargeBytes,(catalog.page id).logicalBytes,touch + 1,.probation,false⟩) rfl
      (fun a w _ found _ => Nat.lt_succ_of_le (touched a w (old a w found)))
    rwa [List.erase_of_not_mem (unlisted lists.probation)] at moved
  · have moved := queuedOut (queuedWithout lists.protectedPages lookup) id
      (v := ⟨id,(catalog.page id).chargeBytes,(catalog.page id).logicalBytes,touch + 1,.probation,false⟩) (by simp)
    rwa [List.erase_of_not_mem (unlisted lists.protectedPages)] at moved

theorem hitDecisions (s : TwoLists) (arrange : List PageId → List PageId) :
    (s.hit catalog target arrange id).decisions = s.decisions := by
  unfold TwoLists.hit
  split
  · rfl
  split
  · rfl
  · rfl

theorem missLists (catalogued : Catalogued catalog) {sequence : Nat} (stocked : Stocked catalog capacityBytes k)
    (lists : Lists k.residents s) (touched : Every k.residents (fun _ e => e.lastTouch ≤ k.touch))
    (absent : k.residents[id]? = none)
    (served : Served catalog capacityBytes sequence request step id
      (k.demanded (.slru target) (catalog.page id).logicalBytes) k') (log : k.decisions = s.decisions) :
    Lists k'.residents (s.miss catalog capacityBytes sequence id) ∧
      k'.decisions = (s.miss catalog capacityBytes sequence id).decisions := by
  unfold TwoLists.miss
  have gone : (k.demanded (.slru target) (catalog.page id).logicalBytes).residents[id]? = none := absent
  cases served with
  | hit found =>
    rw [gone] at found
    contradiction
  | useful found =>
    rw [gone] at found
    contradiction
  | bypass _ planned =>
    have plan := slruPlanned stocked lists planned
    by_cases large : capacityBytes < catalog.charge id
    · rw [if_pos large]
      exact ⟨⟨lists.probation,lists.protectedPages,lists.segments⟩,congrArg (· ++ _) log⟩
    · rw [if_neg large] at plan
      contradiction
  | @admitted victims _ planned _ =>
    have plan := slruPlanned stocked lists planned
    by_cases large : capacityBytes < catalog.charge id
    · rw [if_pos large] at plan
      contradiction
    · rw [if_neg large] at plan ⊢
      have same := Option.some.inj plan
      rw [← same]
      have after := admittedLists catalogued
        (k := (k.demanded (.slru target) (catalog.page id).logicalBytes).missed (catalog.page id).logicalBytes)
        rfl lists touched absent victims
      have frame := (allFrame ((k.demanded (.slru target) (catalog.page id).logicalBytes).missed
        (catalog.page id).logicalBytes) victims).2.2
      exact ⟨⟨after.probation,after.protectedPages,after.segments⟩,congrArg (· ++ _) (frame.trans log)⟩

theorem steppedLists (catalogued : Catalogued catalog) (stocked : Stocked catalog capacityBytes k)
    (policy : k.policy = .slru target) (touched : Every k.residents (fun _ e => e.lastTouch ≤ k.touch))
    (lists : Lists k.residents s) (log : k.decisions = s.decisions)
    (positive : ∀ sequence request step id, event = .demand sequence request step id → 0 < catalog.charge id)
    (ok : k.event catalog capacityBytes event = .ok k') (stepped : Stepped catalog capacityBytes k k' event) :
    Lists k'.residents (s.event catalog capacityBytes target byId event) ∧
      k'.decisions = (s.event catalog capacityBytes target byId event).decisions := by
  cases stepped with
  | @demand sequence request step id next entered served =>
    rw [policy] at entered
    cases entered
    unfold TwoLists.event
    cases found : k.residents[id]? with
    | none =>
      have outside : ¬(id ∈ s.probation ∨ id ∈ s.protectedPages) := by
        rw [lists.probation.members,lists.protectedPages.members,found]
        simp
      simp only [if_neg outside]
      exact missLists catalogued stocked lists touched found served log
    | some e =>
      have inside : id ∈ s.probation ∨ id ∈ s.protectedPages := by
        have member := ((bothQueued lists).members id).mpr ⟨e,found,trivial⟩
        exact List.mem_append.mp member
      simp only [if_pos inside]
      have here : (k.demanded (PolicyState.observeDemand id (.slru target)) (catalog.page id).logicalBytes).residents[id]? =
        some e := found
      cases served with
      | hit =>
        have after : Lists ((PolicyState.slru target).onHit k.residents id (k.touch + 1))
            (s.hit catalog target byId id) :=
          hitLists stocked.entries lists touched found (positive _ _ _ _ rfl)
        exact ⟨⟨after.probation,after.protectedPages,after.segments⟩,congrArg (· ++ _) (log.trans (hitDecisions ..).symm)⟩
      | useful there unused =>
        cases Option.some.inj (there.symm.trans here)
        rw [(lists.segments id e found).2] at unused
        contradiction
      | bypass absent =>
        rw [here] at absent
        contradiction
      | admitted absent =>
        rw [here] at absent
        contradiction
  | signal =>
    simp only [Kernel.event,Kernel.signal,policy,PolicyState.routerConfig] at ok
    cases ok
    exact ⟨⟨lists.probation,lists.protectedPages,lists.segments⟩,congrArg (· ++ _) log⟩

end Steps

section Runs
variable {catalog : PageCatalog} {capacityBytes target fraction : Nat} {trace : ValidatedTrace} {start k : Kernel}
  {past rest : List TraceEvent}

theorem runStep (arrange : List PageId → List PageId) (past : List TraceEvent) (event : TraceEvent) :
    TwoLists.run catalog capacityBytes target arrange (past ++ [event]) =
      (TwoLists.run catalog capacityBytes target arrange past).event catalog capacityBytes target arrange event := by
  unfold TwoLists.run
  rw [List.foldl_append]
  rfl

theorem eventArranged {s : TwoLists} {event : TraceEvent}
    (ordered : byId (s.demotedBy catalog target event) = s.demotedBy catalog target event) :
    s.event catalog capacityBytes target id event = s.event catalog capacityBytes target byId event := by
  cases event with
  | routerSignal => rfl
  | demand sequence request step page =>
    unfold TwoLists.event
    simp only
    split
    · rename_i inside
      congr 1
      unfold TwoLists.hit
      split
      · rfl
      · rename_i outside
        split
        · rename_i fits
          simp only [TwoLists.demotedBy,if_pos (And.intro (inside.resolve_right outside) fits)] at ordered
          unfold TwoLists.promote
          rw [ordered]
          rfl
        · rfl
    · rfl

theorem runArranged {past : List TraceEvent}
    (ordered : ∀ before event after, past = before ++ event :: after →
      ((TwoLists.run catalog capacityBytes target byId before).demotedBy catalog target event).Pairwise (· ≤ ·)) :
    TwoLists.run catalog capacityBytes target id past = TwoLists.run catalog capacityBytes target byId past := by
  induction past using List.reverseRecOn with
  | nil => rfl
  | append_singleton past event ih =>
    have before := ih (fun early event' after split => ordered early event' (after ++ [event]) (by rw [split]; simp))
    rw [runStep,runStep,before]
    exact eventArranged (List.Pairwise.insertionSort_eq (ordered past event [] rfl))

theorem slruKept {k k' : Kernel} {event : TraceEvent} (policy : k.policy = .slru target)
    (stepped : Stepped catalog capacityBytes k k' event) : k'.policy = .slru target := by
  cases stepped with
  | demand entered served =>
    rw [policy] at entered
    cases entered
    exact servedPolicy served
  | signal recorded =>
    rw [policy] at recorded
    exact (Except.ok.inj recorded).symm

theorem slruReached (made : Kernel.new trace ⟨capacityBytes,.slru fraction⟩ = .ok start)
    (parts : trace.events = past ++ rest)
    (reached : past.foldlM (Kernel.event trace.catalog capacityBytes) start = .ok k) :
    k.policy = .slru (capacityBytes * fraction / ppm) :=
  reachedInvariant (fun _ k => k.policy = .slru (capacityBytes * fraction / ppm)) made
    (congrArg Kernel.policy (slruStarts made))
    (fun _ _ _ _ _ _ kept _ _ stepped => slruKept kept stepped) parts reached

theorem slruTwoLists (made : Kernel.new trace ⟨capacityBytes,.slru fraction⟩ = .ok start)
    (parts : trace.events = past ++ rest)
    (reached : past.foldlM (Kernel.event trace.catalog capacityBytes) start = .ok k) :
    (Lists k.residents (TwoLists.run trace.catalog capacityBytes (capacityBytes * fraction / ppm) byId past) ∧
      k.decisions = (TwoLists.run trace.catalog capacityBytes (capacityBytes * fraction / ppm) byId past).decisions) ∧
    ((∀ before event after, past = before ++ event :: after →
        ((TwoLists.run trace.catalog capacityBytes (capacityBytes * fraction / ppm) byId before).demotedBy trace.catalog
          (capacityBytes * fraction / ppm) event).Pairwise (· ≤ ·)) →
      TwoLists.run trace.catalog capacityBytes (capacityBytes * fraction / ppm) id past =
        TwoLists.run trace.catalog capacityBytes (capacityBytes * fraction / ppm) byId past) := by
  refine ⟨?_,runArranged⟩
  refine (reachedInvariant (fun past k =>
    (k.policy = .slru (capacityBytes * fraction / ppm) ∧
      Segmented (capacityBytes * fraction / ppm) k.touch k.residents) ∧
      Lists k.residents (TwoLists.run trace.catalog capacityBytes (capacityBytes * fraction / ppm) byId past) ∧
      k.decisions = (TwoLists.run trace.catalog capacityBytes (capacityBytes * fraction / ppm) byId past).decisions)
    made ?_ ?_ parts reached).2
  · rw [slruStarts made]
    exact ⟨⟨rfl,segmentedEmpty ..⟩,⟨queuedEmpty,queuedEmpty,everyEmpty _⟩,rfl⟩
  · intro past event k k' next _ kept sound ok stepped
    obtain ⟨⟨policy,segmented⟩,lists,log⟩ := kept
    have divided : k.policy.protectedTarget = some (capacityBytes * fraction / ppm) := by
      rw [policy]
      rfl
    have after := (steppedSegmented (traceCatalogued trace) sound.stocked.entries divided segmented stepped).1
    rw [runStep]
    refine ⟨⟨slruKept policy stepped,after⟩,
      steppedLists (traceCatalogued trace) sound.stocked policy segmented.touched lists log ?_ ok stepped⟩
    intro sequence request step id same
    subst same
    have valid := demandedValid (nextMember next)
    exact Nat.lt_of_lt_of_le valid.positive valid.charged

end Runs

theorem demotionsRun : (demotions.events.foldlM (Kernel.event demotions.catalog 256)
    (value _ demotionsStart)).toOption.isSome := by decide +kernel

-- The kernel evicts the demoted page of the smaller id, the lists the less recent one.
theorem demotionsReordered :
    (value _ demotionsRun).decisions.getLast? = some (.event 6 .demandMissAdmit (some 3) [0]) ∧
      (TwoLists.run demotions.catalog 256 128 id demotions.events).decisions.getLast? =
        some (.event 6 .demandMissAdmit (some 3) [1]) := by decide +kernel

theorem demotionsById :
    (value _ demotionsRun).decisions = (TwoLists.run demotions.catalog 256 128 byId demotions.events).decisions :=
  (slruTwoLists (valueOk demotionsStart) (List.append_nil _).symm (valueOk demotionsRun)).1.2

end RunnelMoe.Sim
