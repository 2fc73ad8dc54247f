import RunnelMoe.SimKernel

/-! Victim plans. Whatever order a policy prefers, its plan names distinct resident
pages whose charges make room for the candidates, and planning fails only when a sum
leaves its word. A hit changes touches and segments and nothing else. -/
namespace RunnelMoe.Sim
open Words KeyedSum Results Vectors PolicyState
open Std (ExtTreeMap)

theorem wideAddSafe (total value : Nat) (counter : String) :
    Safe (· = total + value) (okOr (.counterOverflow counter) (checkedWideAdd total value)) := by
  unfold checkedWideAdd
  split
  · exact rfl
  · exact trivial

theorem wideMulSafe (first second : Nat) (counter : String) :
    Safe (· = first * second) (okOr (.counterOverflow counter) (checkedWideMul first second)) := by
  unfold checkedWideMul
  split
  · exact rfl
  · exact trivial

theorem wideTotalSafe (counter : String) (weight : PageId → Nat) (victims : List PageId) :
    Safe (· = (victims.map weight).sum) (wideTotal counter weight victims) := by
  have sums := sumSafe (fun sum id (_ : id ∈ victims) => wideAddSafe sum (weight id) counter) 0
  rwa [Nat.zero_add] at sums

theorem pageTotalSafe (catalog : PageCatalog) (weight : PageDescriptor → Nat) (counter : String) (pages : List PageId) :
    Safe (· = (pages.map (fun id => weight (catalog.page id))).sum) (pages.foldlM (fun total id =>
      okOr (.counterOverflow counter) (checkedAdd total (weight (catalog.page id)))) 0) := by
  have sums := sumSafe (fun sum id (_ : id ∈ pages) => checkedSafe sum (weight (catalog.page id)) counter) 0
  rwa [Nat.zero_add] at sums

structure Frees (residents : Residents) (residentBytes capacityBytes required : Nat) (victims : List PageId) : Prop where
  distinct : victims.Nodup
  resident : ∀ page ∈ victims, page ∈ residents
  enough : residentBytes + required ≤ capacityBytes + (victims.map (residentCharge residents)).sum

section Entries
variable {catalog : PageCatalog} {residents : Residents}

theorem memValues {e : ResidentEntry} (member : e ∈ residentValues residents) : ∃ page : PageId, residents[page]? = some e := by
  obtain ⟨⟨page,_⟩,inside,rfl⟩ := List.mem_map.mp member
  exact ⟨page,memToList.mp inside⟩

theorem valuePages (entries : Every residents (EntrySound catalog)) :
    ((residentValues residents).map ResidentEntry.page).Nodup := by
  have same : (residentValues residents).map ResidentEntry.page = residents.toList.map Prod.fst := by
    rw [residentValues,List.map_map]
    refine List.map_congr_left (fun row member => ?_)
    exact (entries row.1 row.2 (memToList.mp member)).page
  rw [same]
  exact keysNodup residents

theorem chosenFrees {chosen sorted values : List ResidentEntry} {needed residentBytes capacityBytes required : Nat}
    (entries : Every residents (EntrySound catalog)) (some_ : values.Sublist (residentValues residents))
    (order : sorted.Perm values) (front : chosen <+: sorted)
    (bytes : needed ≤ (chosen.map ResidentEntry.chargeBytes).sum)
    (missing : residentBytes + required ≤ capacityBytes + needed) :
    Frees residents residentBytes capacityBytes required (chosen.map ResidentEntry.page) := by
  have known (e) (member : e ∈ chosen) : residents[e.page]? = some e := by
    obtain ⟨page,present⟩ := memValues (some_.subset (order.subset (front.subset member)))
    rw [(entries page e present).page]
    exact present
  refine ⟨?_,?_,?_⟩
  · have all := (valuePages entries).sublist (some_.map ResidentEntry.page)
    exact ((order.map ResidentEntry.page).nodup_iff.mpr all).sublist (front.sublist.map _)
  · intro page member
    obtain ⟨e,inside,rfl⟩ := List.mem_map.mp member
    rw [ExtTreeMap.mem_iff_isSome_getElem?,known e inside]
    rfl
  · have charges : (chosen.map ResidentEntry.page).map (residentCharge residents) =
        chosen.map ResidentEntry.chargeBytes := by
      rw [List.map_map]
      refine List.map_congr_left (fun e member => ?_)
      rw [Function.comp_apply,residentCharge,known e member]
      rfl
    rw [charges]
    omega

end Entries

theorem demandVictimsSafe (needed bytes : Nat) (entries : List ResidentEntry) :
    Safe (· = (bytes + ((takeEnough ResidentEntry.chargeBytes needed bytes entries).map ResidentEntry.chargeBytes).sum,
        (takeEnough ResidentEntry.chargeBytes needed bytes entries).map ResidentEntry.page))
      (demandVictims needed bytes entries) := by
  induction entries generalizing bytes with
  | nil => exact rfl
  | cons e rest ih =>
    unfold demandVictims takeEnough
    refine endsBind (checkedSafe ..) (fun _ same => ?_)
    subst same
    split
    · exact rfl
    · refine endsBind (ih _) (fun _ same => ?_)
      subst same
      simp [Ends,Nat.add_assoc]

def PolicyState.admits (policy : PolicyState) (catalog : PageCatalog) (residents : Residents) (candidate : PageDescriptor)
    (victims : List PageId) (request step : Nat) : Bool :=
  match policy with
  | .tinyLfu tiny => victims.isEmpty ||
      (victims.map tiny.estimate).sum * candidate.chargeBytes <
        tiny.estimate candidate.id * (victims.map (residentCharge residents)).sum
  | .router state => state.active.isEmpty ||
      (policy.activeScore request step candidate = 0 ∧
        (victims.map (fun id => policy.activeScore request step (catalog.page id))).sum = 0) ||
      (victims.map (fun id => policy.activeScore request step (catalog.page id))).sum * candidate.chargeBytes <
        policy.activeScore request step candidate * (victims.map (residentCharge residents)).sum
  | _ => true

theorem admitExact (policy : PolicyState) (catalog : PageCatalog) (residents : Residents) (candidate : PageDescriptor)
    (victims : List PageId) (request step : Nat) :
    Safe (· = policy.admits catalog residents candidate victims request step)
      (policy.admitDemand catalog residents candidate victims request step) := by
  cases policy with
  | tinyLfu tiny =>
    simp only [admitDemand,PolicyState.admits]
    split
    · rename_i none
      simp only [none,Bool.true_or]
      exact rfl
    · rename_i some_
      refine endsBind (wideTotalSafe ..) (fun _ charge => endsBind (wideTotalSafe ..) (fun _ frequency => ?_))
      refine endsBind (wideMulSafe ..) (fun _ density => endsBind (wideMulSafe ..) (fun _ density' => ?_))
      subst charge frequency density density'
      simp only [Bool.not_eq_true] at some_
      simp only [some_,Bool.false_or]
      exact rfl
  | router state =>
    simp only [admitDemand,PolicyState.admits]
    split
    · rename_i none
      simp only [none,Bool.true_or]
      exact rfl
    · rename_i some_
      simp only [Bool.not_eq_true] at some_
      refine endsBind (wideTotalSafe ..) (fun _ charge => endsBind (wideTotalSafe ..) (fun _ score => ?_))
      subst charge score
      simp only [some_,Bool.false_or]
      split
      · rename_i zero
        simp only [zero,and_self,decide_true,Bool.true_or]
        exact rfl
      · rename_i scored
        refine endsBind (wideMulSafe ..) (fun _ density => endsBind (wideMulSafe ..) (fun _ density' => ?_))
        subst density density'
        simp only [scored,decide_false,Bool.false_or]
        exact rfl
  | noCache | lru | slru => exact rfl

def PolicyState.plannedDemand (policy : PolicyState) (catalog : PageCatalog) (residents : Residents) (plan : DemandPlan) :
    Option (List PageId) :=
  let available := plan.capacityBytes - plan.residentBytes
  let chosen := takeEnough ResidentEntry.chargeBytes (plan.candidate.chargeBytes - available) 0
    (sortByKey (policy.demandKey catalog plan.request plan.step) (residentValues residents))
  if plan.candidate.chargeBytes > plan.capacityBytes ∨ policy.isNoCache then none
  else if plan.candidate.chargeBytes ≤ available then some []
  else if (chosen.map ResidentEntry.chargeBytes).sum < plan.candidate.chargeBytes - available then none
  else if policy.admits catalog residents plan.candidate (chosen.map ResidentEntry.page) plan.request plan.step then
    some (chosen.map ResidentEntry.page)
  else none

section Demands
variable (policy : PolicyState) {catalog : PageCatalog} {residents : Residents} {plan : DemandPlan}

theorem planDemandExact (within : plan.residentBytes ≤ plan.capacityBytes) :
    Safe (· = policy.plannedDemand catalog residents plan) (policy.planDemandVictims catalog residents plan) := by
  unfold planDemandVictims PolicyState.plannedDemand
  rw [wrappingSubExact within]
  simp only
  split
  · exact rfl
  split
  · exact rfl
  refine endsBind (demandVictimsSafe ..) (fun _ same => ?_)
  subst same
  simp only [Nat.zero_add]
  split
  · exact rfl
  · refine endsBind (admitExact ..) (fun admitted same => ?_)
    subst same
    exact rfl

theorem plannedDemandFrees {victims : List PageId} (entries : Every residents (EntrySound catalog))
    (within : plan.residentBytes ≤ plan.capacityBytes) (planned : policy.plannedDemand catalog residents plan = some victims) :
    Frees residents plan.residentBytes plan.capacityBytes plan.candidate.chargeBytes victims := by
  unfold PolicyState.plannedDemand at planned
  simp only at planned
  split at planned
  · contradiction
  split at planned
  · cases planned
    exact ⟨List.nodup_nil,by simp,by simp; omega⟩
  split at planned
  · contradiction
  rename_i short
  split at planned
  · cases planned
    exact chosenFrees entries (List.Sublist.refl _) (sortByKeyPerm ..) (takeEnoughPrefix ..)
      (Nat.le_of_not_lt short) (by omega)
  · contradiction

theorem planDemandSafe (entries : Every residents (EntrySound catalog)) (within : plan.residentBytes ≤ plan.capacityBytes) :
    Safe (fun planned => ∀ victims, planned = some victims →
        Frees residents plan.residentBytes plan.capacityBytes plan.candidate.chargeBytes victims)
      (policy.planDemandVictims catalog residents plan) := by
  refine endsMono (planDemandExact policy within) (fun planned same victims found => ?_)
  exact plannedDemandFrees policy entries within (same.symm.trans found)

end Demands

theorem prefetchVictimsSafe (score : ResidentEntry → Nat) (needed bytes weighted : Nat) (entries : List ResidentEntry) :
    Safe (· = ⟨bytes + ((takeEnough ResidentEntry.chargeBytes needed bytes entries).map ResidentEntry.chargeBytes).sum,
        weighted + ((takeEnough ResidentEntry.chargeBytes needed bytes entries).map
          (fun e => score e * e.chargeBytes)).sum,
        (takeEnough ResidentEntry.chargeBytes needed bytes entries).map ResidentEntry.page⟩)
      (prefetchVictims score needed bytes weighted entries) := by
  induction entries generalizing bytes weighted with
  | nil => exact rfl
  | cons e rest ih =>
    unfold prefetchVictims takeEnough
    refine endsBind (checkedSafe ..) (fun _ same => endsBind (wideAddSafe ..) (fun _ same' => ?_))
    subst same same'
    split
    · exact rfl
    · refine endsBind (ih ..) (fun more found => ?_)
      subst found
      simp [Ends,Nat.add_assoc]

def PolicyState.prefetchOrder (policy : PolicyState) (catalog : PageCatalog) (residents : Residents)
    (request targetStep : Nat) : List ResidentEntry :=
  sortByKey (policy.prefetchKey catalog request targetStep)
    ((residentValues residents).filter (fun e => e.segment = .probation))

def PolicyState.plannedPrefetch (policy : PolicyState) (catalog : PageCatalog) (residents : Residents)
    (plan : PrefetchPlan) : Option (List PageId) :=
  let required := (plan.absentPages.map (fun id => (catalog.page id).chargeBytes)).sum
  let available := plan.capacityBytes - plan.residentBytes
  let chosen := takeEnough ResidentEntry.chargeBytes (required - available) 0
    (policy.prefetchOrder catalog residents plan.request plan.targetStep)
  let weighted := (chosen.map (fun e =>
    policy.activeScore plan.request plan.targetStep (catalog.page e.page) * e.chargeBytes)).sum
  if required > plan.capacityBytes then none
  else if required ≤ available then some []
  else if (chosen.map ResidentEntry.chargeBytes).sum < required - available then none
  else if weighted > 0 ∧ plan.candidateScore * required ≤ weighted then none
  else some (chosen.map ResidentEntry.page)

section Prefetches
variable (policy : PolicyState) {catalog : PageCatalog} {residents : Residents} {plan : PrefetchPlan}

theorem planPrefetchExact (within : plan.residentBytes ≤ plan.capacityBytes) :
    Safe (· = policy.plannedPrefetch catalog residents plan) (policy.planPrefetchVictims catalog residents plan) := by
  unfold planPrefetchVictims PolicyState.plannedPrefetch PolicyState.prefetchOrder
  rw [wrappingSubExact within]
  refine endsBind (pageTotalSafe ..) (fun required same => ?_)
  subst same
  simp only
  split
  · exact rfl
  split
  · exact rfl
  refine endsBind (prefetchVictimsSafe ..) (fun chosen same => ?_)
  subst same
  simp only [Nat.zero_add]
  split
  · exact rfl
  · refine endsBind (wideMulSafe ..) (fun value same => ?_)
    subst same
    exact rfl

theorem plannedPrefetchFrees {victims : List PageId} (entries : Every residents (EntrySound catalog))
    (within : plan.residentBytes ≤ plan.capacityBytes)
    (planned : policy.plannedPrefetch catalog residents plan = some victims) :
    Frees residents plan.residentBytes plan.capacityBytes
      (plan.absentPages.map (fun id => (catalog.page id).chargeBytes)).sum victims := by
  unfold PolicyState.plannedPrefetch at planned
  simp only at planned
  split at planned
  · contradiction
  split at planned
  · cases planned
    exact ⟨List.nodup_nil,by simp,by simp; omega⟩
  split at planned
  · contradiction
  rename_i short
  split at planned
  · contradiction
  · cases planned
    exact chosenFrees entries List.filter_sublist (sortByKeyPerm ..) (takeEnoughPrefix ..) (Nat.le_of_not_lt short)
      (by omega)

theorem planPrefetchSafe (entries : Every residents (EntrySound catalog)) (within : plan.residentBytes ≤ plan.capacityBytes) :
    Safe (fun planned => ∀ victims, planned = some victims → Frees residents plan.residentBytes plan.capacityBytes
        (plan.absentPages.map (fun id => (catalog.page id).chargeBytes)).sum victims)
      (policy.planPrefetchVictims catalog residents plan) := by
  refine endsMono (planPrefetchExact policy within) (fun planned same victims found => ?_)
  exact plannedPrefetchFrees policy entries within (same.symm.trans found)

end Prefetches

end RunnelMoe.Sim
