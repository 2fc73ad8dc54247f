import RunnelMoe.SimGroups
import RunnelMoe.SimSegments

/-! The frame of a router signal. The selected experts are tried one after the other
against one budget: each group brings in all its absent pages or none, takes its room
from probation alone, and leaves every other entry as it is. A later group sees the
residents that the earlier ones left. -/
namespace RunnelMoe.Sim
open Words KeyedSum Results Vectors
open Std (ExtTreeMap)

def DecisionTag.grouped : DecisionTag → Bool
  | .prefetchRedundant | .prefetchDropPageLimit | .prefetchDropByteLimit | .prefetchDropAdmission | .prefetchAdmit => true
  | _ => false

structure GroupOutcome where
  tag : Option DecisionTag
  admitted : List PageId
  victims : List PageId
  deriving DecidableEq, Repr

structure GroupFrame (sequence : Nat) (pages : List PageId) (before after : Kernel) (o : GroupOutcome) : Prop where
  logged : after.decisions = before.decisions ++ (o.tag.map (fun tag => Decision.prefetch sequence tag pages
    (presentPages before.residents pages) (absentPages before.residents pages) o.victims)).toList
  whole : o.admitted = if o.tag = some .prefetchAdmit then absentPages before.residents pages else []
  probation : ∀ id ∈ o.victims, ∃ e, before.residents[id]? = some e ∧ e.segment = .probation
  distinct : o.victims.Nodup
  apart : ∀ id ∈ o.victims, id ∉ o.admitted
  evicted : ∀ id ∈ o.victims, after.residents[id]? = none
  loaded : ∀ id ∈ o.admitted, ∃ e, after.residents[id]? = some e ∧ e.segment = .probation ∧ e.prefetchedUnused = true
  kept : ∀ id : PageId, id ∉ o.victims → id ∉ o.admitted → after.residents[id]? = before.residents[id]?
  quiet : o.tag ≠ some .prefetchAdmit → o.victims = [] ∧ after.residents = before.residents

inductive Course (catalog : PageCatalog) (capacityBytes sequence request targetStep layer : Nat) :
    Kernel × PrefetchBudget → List ExpertPrediction → List GroupOutcome → Kernel × PrefetchBudget → Prop where
  | done (s : Kernel × PrefetchBudget) : Course catalog capacityBytes sequence request targetStep layer s [] [] s
  | next {s middle out : Kernel × PrefetchBudget} {prediction : ExpertPrediction} {rest : List ExpertPrediction}
      {o : GroupOutcome} {later : List GroupOutcome}
      (ran : Kernel.prefetchExpert catalog capacityBytes sequence request targetStep layer s prediction = .ok middle)
      (frame : GroupFrame sequence (catalog.groupPages layer prediction.expert) s.1 middle.1 o)
      (course : Course catalog capacityBytes sequence request targetStep layer middle rest later out) :
      Course catalog capacityBytes sequence request targetStep layer s (prediction::rest) (o::later) out

section Frames
variable {catalog : PageCatalog} {capacityBytes sequence request targetStep layer : Nat} {k : Kernel}

theorem prefetchedLookup (catalogued : Catalogued catalog) (k : Kernel) (pages : List PageId) (id : PageId) :
    (id ∉ pages → (k.prefetchedAll catalog pages).residents[id]? = k.residents[id]?) ∧
      (id ∈ pages → ∃ e, (k.prefetchedAll catalog pages).residents[id]? = some e ∧
        e.segment = k.policy.initialSegment ∧ e.prefetchedUnused = true) := by
  induction pages generalizing k with
  | nil => exact ⟨fun _ => rfl,nofun⟩
  | cons page rest ih =>
    obtain ⟨outside,inside⟩ := ih (k.prefetched catalog page)
    have first := prefetchedResidents catalogued k page
    constructor
    · intro absent
      rw [List.mem_cons,not_or] at absent
      refine (outside absent.2).trans ?_
      rw [first,getInsertOther _ _ absent.1]
    · intro member
      by_cases later : id ∈ rest
      · exact inside later
      · rcases List.mem_cons.mp member with rfl | again
        · have found := outside later
          rw [first,getInsertSame] at found
          exact ⟨_,found,rfl,rfl⟩
        · exact absurd again later

structure Charged (catalog : PageCatalog) (budget left : PrefetchBudget) (o : GroupOutcome) : Prop where
  pages : left.remainingPages + o.admitted.length = budget.remainingPages
  bytes : left.remainingBytes + logicalTotal catalog o.admitted = budget.remainingBytes

theorem unchangedFrame {pages : List PageId} {before after : Kernel} {tag : Option DecisionTag}
    (refused : tag ≠ some .prefetchAdmit) (same : after.residents = before.residents)
    (logged : after.decisions = before.decisions ++ (tag.map (fun tag => Decision.prefetch sequence tag pages
      (presentPages before.residents pages) (absentPages before.residents pages) [])).toList) :
    GroupFrame sequence pages before after ⟨tag,[],[]⟩ where
  logged := logged
  whole := (if_neg refused).symm
  probation := nofun
  distinct := .nil
  apart := nofun
  evicted := nofun
  loaded := nofun
  kept _ _ _ := by rw [same]
  quiet _ := ⟨rfl,same⟩

theorem admittedFrame (catalogued : Catalogued catalog) (stocked : Stocked catalog capacityBytes k)
    (divided : k.policy.initialSegment = .probation) {group : PrefetchGroup} {victims : List PageId}
    (planned : k.policy.planPrefetchVictims catalog k.residents
      ⟨k.residentBytes,capacityBytes,absentPages k.residents group.pageIds,group.request,group.targetStep,
        group.prediction.scorePpm⟩ = .ok (some victims))
    (distinct : victims.Nodup) (resident : ∀ id ∈ victims, id ∈ k.residents) :
    GroupFrame group.sequence group.pageIds k
      ((((k.offeredGroup catalog group.pageIds).evictedAll victims).prefetchedAll catalog
          (absentPages k.residents group.pageIds)).hashPrefetchDecision group.sequence .prefetchAdmit group.pageIds
          (presentPages k.residents group.pageIds) (absentPages k.residents group.pageIds) victims)
      ⟨some .prefetchAdmit,absentPages k.residents group.pageIds,victims⟩ := by
  have lookup (id : PageId) := prefetchedLookup catalogued ((k.offeredGroup catalog group.pageIds).evictedAll victims)
    (absentPages k.residents group.pageIds) id
  have freed (id : PageId) := allLookup (k.offeredGroup catalog group.pageIds) victims id
  have frame := allFrame (k.offeredGroup catalog group.pageIds) victims
  have apart : ∀ id ∈ victims, id ∉ absentPages k.residents group.pageIds := by
    intro id victim absent
    have out := (List.mem_filter.mp absent).2
    simp only [decide_eq_true_eq] at out
    exact out (resident id victim)
  refine ⟨?_,rfl,?_,distinct,apart,?_,?_,?_,fun other => absurd rfl other⟩
  · show (Kernel.prefetchedAll ..).decisions ++ _ = _
    rw [prefetchedDecisions,frame.2.2]
    rfl
  · intro id victim
    obtain ⟨e,found⟩ := Option.isSome_iff_exists.mp (ExtTreeMap.mem_iff_isSome_getElem?.mp (resident id victim))
    exact ⟨e,found,((victimIff stocked planned found).mp victim).1⟩
  · intro id victim
    refine ((lookup id).1 (apart id victim)).trans ?_
    rw [freed,if_pos victim]
  · intro id member
    obtain ⟨e,found,segment,unused⟩ := (lookup id).2 member
    refine ⟨e,found,?_,unused⟩
    rw [segment,frame.1]
    exact divided
  · intro id spared absent
    refine ((lookup id).1 absent).trans ?_
    rw [freed,if_neg spared]
    rfl

theorem triedFrame (catalogued : Catalogued catalog) (stocked : Stocked catalog capacityBytes k)
    (divided : k.policy.initialSegment = .probation) {group : PrefetchGroup} {budget : PrefetchBudget}
    {out : Kernel × PrefetchBudget} (tried : Tried catalog capacityBytes group budget k out) :
    ∃ o, GroupFrame group.sequence group.pageIds k out.1 o ∧ Charged catalog budget out.2 o ∧
      ∃ tag, o.tag = some tag ∧ tag.grouped = true := by
  cases tried with
  | redundant none =>
    refine ⟨⟨some .prefetchRedundant,[],[]⟩,unchangedFrame (by decide) rfl ?_,⟨rfl,rfl⟩,_,rfl,rfl⟩
    rw [none]
    rfl
  | @dropped tag some_ refused =>
    have kind : some tag ≠ some .prefetchAdmit ∧ tag.grouped = true := by
      cases refused with
      | pageLimit | byteLimit | admission => decide
    exact ⟨⟨some tag,[],[]⟩,unchangedFrame kind.1 rfl rfl,⟨rfl,rfl⟩,_,rfl,kind.2⟩
  | admitted some_ pages bytes planned frees =>
    exact ⟨_,admittedFrame catalogued stocked divided planned frees.distinct frees.resident,
      ⟨Nat.sub_add_cancel pages,Nat.sub_add_cancel bytes⟩,_,rfl,rfl⟩

theorem expertFrame (catalogued : Catalogued catalog) {s out : Kernel × PrefetchBudget} {prediction : ExpertPrediction}
    (sound : Sound catalog capacityBytes 0 0 s.1) (divided : s.1.policy.initialSegment = .probation)
    (ran : Kernel.prefetchExpert catalog capacityBytes sequence request targetStep layer s prediction = .ok out) :
    Sound catalog capacityBytes 0 0 out.1 ∧ out.1.policy = s.1.policy ∧
      ∃ o, GroupFrame sequence (catalog.groupPages layer prediction.expert) s.1 out.1 o ∧ Charged catalog s.2 out.2 o ∧
        (o.tag = none ∧ s.2.remainingPages = 0 ∨ ∃ tag, o.tag = some tag ∧ tag.grouped = true) := by
  unfold Kernel.prefetchExpert at ran
  split at ran
  · rename_i spent
    cases ran
    exact ⟨sound,rfl,⟨none,[],[]⟩,unchangedFrame (by decide) rfl (List.append_nil _).symm,⟨rfl,rfl⟩,.inl ⟨rfl,spent⟩⟩
  · obtain ⟨tried,after⟩ := endsValue (groupTried catalogued (catalogued.groups layer prediction.expert) sound) ran
    obtain ⟨o,frame,charged,tagged⟩ := triedFrame catalogued sound.stocked divided tried
    exact ⟨after,triedPolicy tried,o,frame,charged,.inr tagged⟩

end Frames

section Courses
variable {catalog : PageCatalog} {capacityBytes sequence request targetStep layer : Nat}
  {s out : Kernel × PrefetchBudget} {selected : List ExpertPrediction} {outcomes : List GroupOutcome}

theorem courseTaken (catalogued : Catalogued catalog) (sound : Sound catalog capacityBytes 0 0 s.1)
    (divided : s.1.policy.initialSegment = .probation)
    (ran : selected.foldlM (Kernel.prefetchExpert catalog capacityBytes sequence request targetStep layer) s = .ok out) :
    ∃ outcomes, Course catalog capacityBytes sequence request targetStep layer s selected outcomes out ∧
      out.2.remainingPages + (outcomes.map (fun o => o.admitted.length)).sum = s.2.remainingPages ∧
      out.2.remainingBytes + (outcomes.map (fun o => logicalTotal catalog o.admitted)).sum = s.2.remainingBytes := by
  induction selected generalizing s with
  | nil =>
    cases foldNil.mp ran
    exact ⟨[],.done _,rfl,rfl⟩
  | cons prediction rest ih =>
    obtain ⟨middle,first,later⟩ := foldCons.mp ran
    obtain ⟨after,policy,o,frame,charged,-⟩ := expertFrame catalogued sound divided first
    obtain ⟨outcomes,course,pages,bytes⟩ := ih after (policy ▸ divided) later
    have here := charged.pages
    have hereBytes := charged.bytes
    refine ⟨o::outcomes,.next first frame course,?_,?_⟩
    · rw [List.map_cons,List.sum_cons]
      omega
    · rw [List.map_cons,List.sum_cons]
      omega

variable {id : PageId} {e : ResidentEntry}

theorem frameKept {pages : List PageId} {before after : Kernel} {o : GroupOutcome}
    (frame : GroupFrame sequence pages before after o) (present : before.residents[id]? = some e)
    (spared : id ∉ o.victims) : after.residents[id]? = some e := by
  rw [frame.kept id spared]
  · exact present
  · rw [frame.whole]
    split
    · intro member
      have out := (List.mem_filter.mp member).2
      simp [ExtTreeMap.mem_iff_isSome_getElem?,present] at out
    · exact List.not_mem_nil

theorem courseKept (course : Course catalog capacityBytes sequence request targetStep layer s selected outcomes out) (present : s.1.residents[id]? = some e)
    (spared : ∀ o ∈ outcomes, id ∉ o.victims) : out.1.residents[id]? = some e := by
  induction course with
  | done => exact present
  | next ran frame course ih =>
    have here := frameKept frame present (spared _ List.mem_cons_self)
    exact ih here (fun o member => spared o (List.mem_cons_of_mem _ member))

theorem courseProtected (course : Course catalog capacityBytes sequence request targetStep layer s selected outcomes out) (present : s.1.residents[id]? = some e) (kind : e.segment ≠ .probation) :
    ∀ o ∈ outcomes, id ∉ o.victims := by
  induction course with
  | done => exact nofun
  | @next s middle out prediction rest o later ran frame course ih =>
    have here : id ∉ o.victims := by
      intro victim
      obtain ⟨e',found,probation⟩ := frame.probation id victim
      cases Option.some.inj (found.symm.trans present)
      exact kind probation
    intro other member
    rcases List.mem_cons.mp member with rfl | after
    · exact here
    · exact ih (frameKept frame present here) other after

end Courses

section Signalled
variable {trace : ValidatedTrace} {config : SimulationConfig} {settings : RouterPolicyConfig} {start k k' : Kernel}
  {past later : List TraceEvent} {sequence request targetStep layer : Nat} {predictions : List ExpertPrediction}

theorem signalFramed (prefetches : config.policy = .routerPrefetch settings) (made : Kernel.new trace config = .ok start)
    (parts : trace.events = past ++ .routerSignal sequence request targetStep layer predictions :: later)
    (reached : past.foldlM (Kernel.event trace.catalog config.capacityBytes) start = .ok k)
    (stepped : k.event trace.catalog config.capacityBytes
      (.routerSignal sequence request targetStep layer predictions) = .ok k') :
    ∃ recorded outcomes middle left,
      Course trace.catalog config.capacityBytes sequence request targetStep layer
        ({k with policy := recorded},⟨settings.maxPagesPerSignal,settings.maxPrefetchBytesPerSignal⟩)
        (Kernel.selectPredictions settings predictions) outcomes (middle,left) ∧
      k'.residents = middle.residents ∧
      (outcomes.map (fun o => o.admitted.length)).sum ≤ settings.maxPagesPerSignal ∧
      (outcomes.map (fun o => logicalTotal trace.catalog o.admitted)).sum ≤ settings.maxPrefetchBytesPerSignal ∧
      (∀ (id : PageId) (e : ResidentEntry), k.residents[id]? = some e → (∀ o ∈ outcomes, id ∉ o.victims) →
        k'.residents[id]? = some e) ∧
      ∀ (id : PageId) (e : ResidentEntry), k.residents[id]? = some e → e.segment = .protectedSegment →
        (∀ o ∈ outcomes, id ∉ o.victims) ∧ k'.residents[id]? = some e := by
  have router : config.policy.router? = some settings := congrArg PolicySpec.router? prefetches
  obtain ⟨state,policy,rfl,enabled⟩ := routerReached router made parts reached
  rw [prefetches] at enabled
  have sound := (reachedRunning made parts reached).sound
  simp only [Kernel.event,Kernel.signal,policy,PolicyState.routerConfig] at stepped
  split at stepped
  · rename_i none
    cases stepped
    rw [List.isEmpty_iff.mp none]
    exact ⟨k.policy,[],k,_,.done _,rfl,Nat.zero_le _,Nat.zero_le _,fun _ _ present _ => present,
      fun _ _ present _ => ⟨fun _ listed => absurd listed List.not_mem_nil,present⟩⟩
  rename_i some_
  obtain ⟨recorded,after,stepped⟩ := bindOk.mp stepped
  simp only [PolicyState.recordSignal,if_neg some_] at after
  obtain ⟨next,noted,last⟩ := bindOk.mp after
  cases last
  have still : next.prefetch = true := by
    obtain ⟨_,_,_,_,same⟩ := recordedFrame noted
    rw [same]
    exact enabled
  simp only [PolicyState.prefetchEnabled,still,Bool.not_true,Bool.false_eq_true,if_false] at stepped
  obtain ⟨⟨middle,left⟩,ran,last⟩ := bindOk.mp stepped
  cases last
  obtain ⟨outcomes,course,pages,bytes⟩ :=
    courseTaken (traceCatalogued trace) (recordedSound sound (.router next)) rfl ran
  refine ⟨_,outcomes,middle,left,course,rfl,?_,?_,fun id e present spared => courseKept course present spared,?_⟩
  · exact Nat.le.intro ((Nat.add_comm ..).trans pages)
  · exact Nat.le.intro ((Nat.add_comm ..).trans bytes)
  · intro id e present kind
    have spared := courseProtected course present (by rw [kind]; decide)
    exact ⟨spared,courseKept course present spared⟩

end Signalled

theorem routedFilled : ((routed.events.take 2).foldlM (Kernel.event routed.catalog 192)
    (value _ routedStart)).toOption.isSome := by decide +kernel

theorem routedSignalled : ((value _ routedFilled).event routed.catalog 192
    (.routerSignal 2 1 1 0 [⟨1,600000⟩,⟨0,100000⟩])).toOption.isSome := by decide +kernel

theorem routedFramed :
    (1 ∈ (value _ routedSignalled).residents ∧ 2 ∈ (value _ routedSignalled).residents) ∧
      ∃ recorded outcomes middle left,
        Course routed.catalog 192 2 1 1 0 ({value _ routedFilled with policy := recorded},⟨4,1000⟩)
          [⟨1,600000⟩,⟨0,100000⟩] outcomes (middle,left) ∧
        (value _ routedSignalled).residents = middle.residents ∧
        (outcomes.map (fun o => o.admitted.length)).sum ≤ 4 := by
  refine ⟨by decide +kernel,?_⟩
  obtain ⟨recorded,outcomes,middle,left,course,same,pages,-⟩ := @signalFramed routed prefetching ⟨500000,1,2,4,1000⟩ _ _ _
    (routed.events.take 2) (routed.events.drop 3) _ _ _ _ _ rfl (valueOk routedStart) rfl (valueOk routedFilled)
    (valueOk routedSignalled)
  exact ⟨recorded,outcomes,middle,left,course,same,pages⟩

end RunnelMoe.Sim
