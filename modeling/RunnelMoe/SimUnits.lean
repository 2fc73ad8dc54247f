import RunnelMoe.SimSegments

/-! Units of size. Counting bytes in another unit multiplies every size, and a policy
reads sizes only to compare them: with all sizes multiplied alike it plans the same
victims. The target of the protected segment is a quotient and no multiple, but it
admits the same pages, because what it is compared with is a multiple. -/
namespace RunnelMoe.Sim
open Words KeyedSum Results Vectors PolicyState
open Std (ExtTreeMap)

def PageDescriptor.scaled (scale : Nat) (p : PageDescriptor) : PageDescriptor :=
  {p with logicalBytes := scale * p.logicalBytes, chargeBytes := scale * p.chargeBytes}

def ResidentEntry.scaled (scale : Nat) (e : ResidentEntry) : ResidentEntry :=
  {e with chargeBytes := scale * e.chargeBytes, logicalBytes := scale * e.logicalBytes}

def scaledResidents (scale : Nat) (residents : Residents) : Residents := residents.map (fun _ e => e.scaled scale)

def Scales (scale limit limit' : Nat) : Prop := ∀ n, n ≤ limit ↔ scale * n ≤ limit'

structure Enlarged (scale : Nat) (catalog catalog' : PageCatalog) : Prop where
  page : ∀ id, catalog'.page id = (catalog.page id).scaled scale
  group : ∀ layer expert, catalog'.groupPages layer expert = catalog.groupPages layer expert

section Multiples
variable {scale : Nat} {residents : Residents} {page : PageId} {e : ResidentEntry}

theorem scaledFound (scale : Nat) (residents : Residents) (page : PageId) :
    (scaledResidents scale residents)[page]? = residents[page]?.map (ResidentEntry.scaled scale) := by
  simp [scaledResidents]

theorem scaledInsert (scale : Nat) (residents : Residents) (page : PageId) (e : ResidentEntry) :
    scaledResidents scale (residents.insert page e) = (scaledResidents scale residents).insert page (e.scaled scale) := by
  apply ExtTreeMap.ext_getElem?
  intro id
  rw [scaledFound,getInsert,getInsert,scaledFound]
  split <;> rfl

theorem scaledErase (scale : Nat) (residents : Residents) (page : PageId) :
    scaledResidents scale (residents.erase page) = (scaledResidents scale residents).erase page := by
  apply ExtTreeMap.ext_getElem?
  intro id
  rw [scaledFound,getErase,getErase,scaledFound]
  split <;> rfl

theorem scaledValues (scale : Nat) (residents : Residents) :
    residentValues (scaledResidents scale residents) = (residentValues residents).map (ResidentEntry.scaled scale) := by
  simp [residentValues,scaledResidents,ExtTreeMap.toList_map,Function.comp_def]

theorem scalesFraction (positive : 0 < scale) (capacityBytes fraction : Nat) :
    Scales scale (capacityBytes * fraction / ppm) (scale * capacityBytes * fraction / ppm) := by
  intro n
  have unit : 0 < ppm := by decide
  rw [Nat.le_div_iff_mul_le unit,Nat.le_div_iff_mul_le unit,Nat.mul_assoc,Nat.mul_assoc]
  exact (Nat.mul_le_mul_left_iff positive).symm

end Multiples

theorem argminMapped {A B R : Type} [LinearOrder R] (f : A → B) (key : B → R) (items : List A) :
    (items.map f).argmin key = (items.argmin (fun a => key (f a))).map f := by
  induction items using List.reverseRecOn with
  | nil => rfl
  | append_singleton items a ih =>
    rw [List.map_append,List.map_singleton,List.argmin_concat,List.argmin_concat,ih]
    cases items.argmin (fun a => key (f a)) with
    | none => rfl
    | some b =>
      simp only [Option.map_some]
      split <;> rfl

def PolicyState.rescaled (scale target : Nat) : PolicyState → PolicyState
  | .slru _ => .slru target
  | .router state => .router {state with
      protectedTarget := target,
      config := {state.config with maxPrefetchBytesPerSignal := scale * state.config.maxPrefetchBytesPerSignal}}
  | policy => policy

def Retargets (scale target : Nat) (policy : PolicyState) : Prop :=
  ∀ own, policy.protectedTarget = some own → Scales scale own target

theorem rescaledTarget (scale target : Nat) (policy : PolicyState) :
    (policy.rescaled scale target).protectedTarget = policy.protectedTarget.map (fun _ => target) := by
  cases policy <;> rfl

section Hits
variable {scale target target' touch : Nat} {residents : Residents} {page : PageId} {e : ResidentEntry}
  {policy : PolicyState}

theorem protectedScaled (scale : Nat) (residents : Residents) :
    protectedEntries (scaledResidents scale residents) =
      (protectedEntries residents).map (ResidentEntry.scaled scale) := by
  rw [protectedEntries,scaledValues,List.filter_map]
  rfl

theorem demotedScaled (targets : Scales scale target target') (touch : Nat) (residents : Residents) :
    demoteOne target' touch (scaledResidents scale residents) =
      (demoteOne target touch residents).map (scaledResidents scale) := by
  have sum : ((protectedEntries (scaledResidents scale residents)).map ResidentEntry.chargeBytes).sum =
      scale * ((protectedEntries residents).map ResidentEntry.chargeBytes).sum := by
    rw [protectedScaled,List.map_map]
    exact List.sum_map_mul_left ..
  have least : (protectedEntries (scaledResidents scale residents)).argmin recency =
      ((protectedEntries residents).argmin recency).map (ResidentEntry.scaled scale) := by
    rw [protectedScaled]
    exact argminMapped (ResidentEntry.scaled scale) recency _
  unfold demoteOne
  rw [sum,least]
  simp only [← targets _]
  split
  · rfl
  cases (protectedEntries residents).argmin recency with
  | none => rfl
  | some victim =>
    have found : (scaledResidents scale residents)[(victim.scaled scale).page]? = _ := scaledFound scale residents victim.page
    simp only [Option.map_some,found]
    cases residents[victim.page]? with
    | none => rfl
    | some demoted =>
      simp only [Option.map_some,scaledInsert]
      rfl

theorem rebalancedScaled (targets : Scales scale target target') (touch rounds : Nat) (residents : Residents) :
    rebalanceProtected target' touch rounds (scaledResidents scale residents) =
      scaledResidents scale (rebalanceProtected target touch rounds residents) := by
  induction rounds generalizing residents with
  | zero => rfl
  | succ rounds ih =>
    unfold rebalanceProtected
    rw [demotedScaled targets]
    cases demoteOne target touch residents with
    | none => rfl
    | some next => exact ih next

theorem hitScaled (positive : 0 < scale) (targets : Retargets scale target policy) (touch : Nat)
    (present : residents[page]? = some e) (charge : 0 < e.chargeBytes) :
    (policy.rescaled scale target).onHit (scaledResidents scale residents) page touch =
      scaledResidents scale (policy.onHit residents page touch) := by
  have found : (scaledResidents scale residents)[page]? = some (e.scaled scale) := by
    rw [scaledFound,present]
    rfl
  have touched := scaledInsert scale residents page {e with lastTouch := touch}
  have moved := scaledInsert scale residents page {e with lastTouch := touch, segment := .protectedSegment}
  unfold PolicyState.onHit
  rw [rescaledTarget]
  cases divided : policy.protectedTarget with
  | none =>
    simp only [found,present]
    exact touched.symm
  | some own =>
    have same := targets own divided
    simp only [found,present,Option.map_some]
    by_cases promotes : e.segment = .probation ∧ 0 < own ∧ e.chargeBytes ≤ own
    · obtain ⟨kind,-,small⟩ := promotes
      have large := (same e.chargeBytes).mp small
      have grown := Nat.mul_pos positive charge
      rw [if_pos ⟨kind,by omega,large⟩,if_pos ⟨kind,by omega,small⟩]
      show rebalanceProtected target touch (protectedEntries ((scaledResidents scale residents).insert page
        (ResidentEntry.scaled scale {e with lastTouch := touch, segment := .protectedSegment}))).length _ = _
      rw [← moved,protectedScaled,List.length_map]
      exact (congrArg _ moved.symm).trans (rebalancedScaled same ..)
    · have stays : ¬((e.scaled scale).segment = .probation ∧ 0 < target ∧ (e.scaled scale).chargeBytes ≤ target) :=
        fun all => by
          have small := (same e.chargeBytes).mpr all.2.2
          exact promotes ⟨all.1,by omega,small⟩
      rw [if_neg promotes,if_neg stays]
      exact touched.symm

end Hits

section Plans
variable {scale target : Nat} {catalog catalog' : PageCatalog} {residents : Residents} {policy : PolicyState}

theorem rescaledScore (scale target : Nat) (policy : PolicyState) (request step : Nat) (page : PageDescriptor) :
    (policy.rescaled scale target).activeScore request step (page.scaled scale) = policy.activeScore request step page := by
  cases policy <;> rfl

theorem rescaledScores (enlarged : Enlarged scale catalog catalog') (policy : PolicyState) (target request step : Nat)
    (id : PageId) :
    (policy.rescaled scale target).activeScore request step (catalog'.page id) =
      policy.activeScore request step (catalog.page id) := by
  rw [enlarged.page,rescaledScore]

theorem scaledCharge (scale : Nat) (residents : Residents) (id : PageId) :
    residentCharge (scaledResidents scale residents) id = scale * residentCharge residents id := by
  unfold residentCharge
  rw [scaledFound]
  cases residents[id]? <;> rfl

theorem scaledCharges (scale : Nat) (residents : Residents) (victims : List PageId) :
    (victims.map (residentCharge (scaledResidents scale residents))).sum =
      scale * (victims.map (residentCharge residents)).sum := by
  rw [← List.sum_map_mul_left]
  exact congrArg List.sum (List.map_congr_left (fun id _ => scaledCharge scale residents id))

theorem densityScaled (positive : 0 < scale) (first second charge total : Nat) :
    first * (scale * charge) < second * (scale * total) ↔ first * charge < second * total := by
  rw [Nat.mul_left_comm,Nat.mul_left_comm second]
  exact Nat.mul_lt_mul_left positive

theorem admitsScaled (positive : 0 < scale) (enlarged : Enlarged scale catalog catalog') (policy : PolicyState)
    (target : Nat) (residents : Residents) (candidate : PageDescriptor) (victims : List PageId) (request step : Nat) :
    (policy.rescaled scale target).admits catalog' (scaledResidents scale residents) (candidate.scaled scale) victims
        request step = policy.admits catalog residents candidate victims request step := by
  cases policy with
  | noCache | lru | slru => rfl
  | tinyLfu tiny =>
    simp only [PolicyState.rescaled,PolicyState.admits,scaledCharges]
    exact congrArg _ (decide_eq_decide.mpr (densityScaled positive ..))
  | router state =>
    have scores := rescaledScores enlarged (.router state) target request step
    have score := rescaledScore scale target (.router state) request step candidate
    simp only [PolicyState.rescaled] at scores score
    simp only [PolicyState.rescaled,PolicyState.admits,scaledCharges,scores,score]
    exact congrArg _ (decide_eq_decide.mpr (densityScaled positive ..))

theorem takenScaled (positive : 0 < scale) (needed : Nat) (entries : List ResidentEntry) :
    takeEnough ResidentEntry.chargeBytes (scale * needed) 0 (entries.map (ResidentEntry.scaled scale)) =
      (takeEnough ResidentEntry.chargeBytes needed 0 entries).map (ResidentEntry.scaled scale) :=
  takeEnoughScaled positive (ResidentEntry.scaled scale) (fun _ _ => rfl) needed 0

theorem chargesScaled (scale : Nat) (entries : List ResidentEntry) :
    ((entries.map (ResidentEntry.scaled scale)).map ResidentEntry.chargeBytes).sum =
      scale * (entries.map ResidentEntry.chargeBytes).sum := by
  rw [List.map_map]
  exact List.sum_map_mul_left ..

theorem pagesScaled (scale : Nat) (entries : List ResidentEntry) :
    (entries.map (ResidentEntry.scaled scale)).map ResidentEntry.page = entries.map ResidentEntry.page := by
  rw [List.map_map]
  rfl

theorem demandScaled (positive : 0 < scale) (enlarged : Enlarged scale catalog catalog') (target : Nat)
    (residentBytes capacityBytes : Nat) (candidate : PageDescriptor) (request step : Nat) :
    (policy.rescaled scale target).plannedDemand catalog' (scaledResidents scale residents)
        ⟨scale * residentBytes,scale * capacityBytes,candidate.scaled scale,request,step⟩ =
      policy.plannedDemand catalog residents ⟨residentBytes,capacityBytes,candidate,request,step⟩ := by
  have order : sortByKey ((policy.rescaled scale target).demandKey catalog' request step)
      (residentValues (scaledResidents scale residents)) =
      (sortByKey (policy.demandKey catalog request step) (residentValues residents)).map (ResidentEntry.scaled scale) := by
    rw [scaledValues]
    refine sortByKeyMapped _ _ (fun e _ => ?_)
    unfold PolicyState.demandKey
    rw [show (e.scaled scale).page = e.page from rfl,rescaledScores enlarged]
    cases policy <;> rfl
  have none : (policy.rescaled scale target).isNoCache = policy.isNoCache := by cases policy <;> rfl
  unfold PolicyState.plannedDemand
  simp only [PageDescriptor.scaled,← Nat.mul_sub,none,order,takenScaled positive,chargesScaled,pagesScaled,gt_iff_lt,
    Nat.mul_lt_mul_left positive,Nat.mul_le_mul_left_iff positive]
  have admits := admitsScaled positive enlarged policy target residents candidate
  simp only [PageDescriptor.scaled] at admits
  simp only [admits]

theorem prefetchScaled (positive : 0 < scale) (enlarged : Enlarged scale catalog catalog') (target : Nat)
    (residentBytes capacityBytes : Nat) (absent : List PageId) (request targetStep score : Nat) :
    (policy.rescaled scale target).plannedPrefetch catalog' (scaledResidents scale residents)
        ⟨scale * residentBytes,scale * capacityBytes,absent,request,targetStep,score⟩ =
      policy.plannedPrefetch catalog residents ⟨residentBytes,capacityBytes,absent,request,targetStep,score⟩ := by
  have required : (absent.map (fun id => (catalog'.page id).chargeBytes)).sum =
      scale * (absent.map (fun id => (catalog.page id).chargeBytes)).sum := by
    simp only [enlarged.page,PageDescriptor.scaled]
    exact List.sum_map_mul_left ..
  have order : (policy.rescaled scale target).prefetchOrder catalog' (scaledResidents scale residents) request targetStep =
      (policy.prefetchOrder catalog residents request targetStep).map (ResidentEntry.scaled scale) := by
    unfold PolicyState.prefetchOrder
    rw [scaledValues,List.filter_map]
    refine sortByKeyMapped _ _ (fun e _ => ?_)
    unfold PolicyState.prefetchKey
    rw [show (e.scaled scale).page = e.page from rfl,rescaledScores enlarged]
    rfl
  have weighted (entries : List ResidentEntry) : ((entries.map (ResidentEntry.scaled scale)).map (fun e =>
      (policy.rescaled scale target).activeScore request targetStep (catalog'.page e.page) * e.chargeBytes)).sum =
      scale * (entries.map (fun e => policy.activeScore request targetStep (catalog.page e.page) * e.chargeBytes)).sum := by
    rw [List.map_map,← List.sum_map_mul_left]
    refine congrArg List.sum (List.map_congr_left (fun e _ => ?_))
    show (policy.rescaled scale target).activeScore request targetStep (catalog'.page e.page) * (scale * e.chargeBytes) = _
    rw [rescaledScores enlarged,Nat.mul_left_comm]
  unfold PolicyState.plannedPrefetch
  simp only [required,← Nat.mul_sub,order,takenScaled positive,chargesScaled,pagesScaled,weighted,gt_iff_lt,
    Nat.mul_lt_mul_left positive,Nat.mul_le_mul_left_iff positive,Nat.mul_left_comm score scale,Nat.mul_pos_iff_of_pos_left positive]

end Plans

end RunnelMoe.Sim
