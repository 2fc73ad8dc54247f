import RunnelMoe.SimPlans

/-! Router memory of other requests and other steps does not reach a demand. A plan reads
the signals through the scores of one request and one step; the branch that only asks
whether any signal is held at all comes to the same answer, since without scores every
candidate is admitted. -/
namespace RunnelMoe.Sim
open Words KeyedSum Results Vectors PolicyState
open Std (ExtTreeMap)

def RouterState.signalAt (state : RouterState) (request step layer : Nat) : Option ActiveSignal :=
  state.active[request]?.bind (fun signals => signals[(⟨step,layer⟩ : SignalKey)]?)

def Agree (request step : Nat) (left right : RouterState) : Prop :=
  ∀ layer, left.signalAt request step layer = right.signalAt request step layer

section Agreement
variable {left right : RouterState} {request step : Nat} {catalog : PageCatalog} {residents : Residents}

theorem scoreAt (state : RouterState) (request step : Nat) (page : PageDescriptor) :
    (PolicyState.router state).activeScore request step page = match page.role with
      | .shared => 0
      | .expert layer expert _ => ((state.signalAt request step layer).bind (fun signal => signal.scores[expert]?)).getD 0 := by
  unfold activeScore RouterState.signalAt
  cases page.role with
  | shared => rfl
  | expert layer expert ordinal =>
    simp only
    cases state.active[request]? with
    | none => rfl
    | some signals =>
      cases found : signals[(⟨step,layer⟩ : SignalKey)]? with
      | none => simp only [Option.bind_some,found,Option.bind_none,Option.getD_none]
      | some signal => simp only [Option.bind_some,found]

theorem agreeScores (agree : Agree request step left right) (page : PageDescriptor) :
    (PolicyState.router left).activeScore request step page = (PolicyState.router right).activeScore request step page := by
  rw [scoreAt,scoreAt]
  cases page.role with
  | shared => rfl
  | expert layer expert ordinal =>
    simp only
    rw [agree layer]

theorem agreeKeys (agree : Agree request step left right) :
    (PolicyState.router left).demandKey catalog request step = (PolicyState.router right).demandKey catalog request step := by
  funext entry
  rw [demandKey,demandKey,agreeScores agree]
  rfl

variable {victims : List PageId}

theorem wideTotalFits {counter : String} {weight : PageId → Nat}
    (fits : (victims.map weight).sum < wideModulus) : wideTotal counter weight victims = .ok (victims.map weight).sum := by
  have rest : ∀ total, total + (victims.map weight).sum < wideModulus →
      victims.foldlM (fun total id => okOr (.counterOverflow counter) (checkedWideAdd total (weight id))) total =
        .ok (total + (victims.map weight).sum) := by
    clear fits
    induction victims with
    | nil => exact fun _ _ => rfl
    | cons id rest ih =>
      intro total fits
      rw [List.map_cons,List.sum_cons] at fits ⊢
      refine foldCons.mpr ⟨total + weight id,okOrSome.mpr ?_,?_⟩
      · rw [checkedWideAdd,if_pos (by omega)]
      · rw [ih (total + weight id) (by omega),Nat.add_assoc]
  rw [wideTotal,rest 0 (by omega),Nat.zero_add]

theorem unscoredAdmits {state : RouterState} (none : ∀ page, (PolicyState.router state).activeScore request step page = 0)
    {candidate : PageDescriptor} (fits : (victims.map (residentCharge residents)).sum < wideModulus) :
    (PolicyState.router state).admitDemand catalog residents candidate victims request step = .ok true := by
  have scores : (victims.map (fun id => (PolicyState.router state).activeScore request step (catalog.page id))).sum = 0 := by
    simp only [none]
    simp
  unfold admitDemand
  simp only
  split
  · rfl
  · unfold admitRouter
    rw [wideTotalFits fits,wideTotalFits (by rw [scores]; decide)]
    simp only [bind,Except.bind]
    rw [if_pos ⟨none candidate,scores⟩]

theorem unsignalled {state : RouterState} (none : state.active.isEmpty = true) (page : PageDescriptor) :
    (PolicyState.router state).activeScore request step page = 0 := by
  rw [ExtTreeMap.isEmpty_iff] at none
  rw [scoreAt]
  cases page.role with
  | shared => rfl
  | expert layer expert ordinal => simp [RouterState.signalAt,none]

theorem agreeAdmits (agree : Agree request step left right) {candidate : PageDescriptor}
    (fits : (victims.map (residentCharge residents)).sum < wideModulus) :
    (PolicyState.router left).admitDemand catalog residents candidate victims request step =
      (PolicyState.router right).admitDemand catalog residents candidate victims request step := by
  have scores := agreeScores agree
  by_cases none : left.active.isEmpty = true ∨ right.active.isEmpty = true
  · -- Then neither side has a score for this request and step.
    have zero (page : PageDescriptor) : (PolicyState.router right).activeScore request step page = 0 := by
      rcases none with none | none
      · rw [← scores]
        exact unsignalled none page
      · exact unsignalled none page
    rw [unscoredAdmits (fun page => (scores page).trans (zero page)) fits,unscoredAdmits zero fits]
  · obtain ⟨someLeft,someRight⟩ := not_or.mp none
    unfold admitDemand
    simp only
    rw [if_neg someLeft,if_neg someRight]
    unfold admitRouter
    simp only [scores]

theorem demandVictimsFit {needed bytes total : Nat} {entries : List ResidentEntry}
    (small : bytes < modulus) (ok : demandVictims needed bytes entries = .ok (total,victims)) : total < modulus := by
  induction entries generalizing bytes victims with
  | nil =>
    cases ok
    exact small
  | cons entry rest ih =>
    obtain ⟨sum,added,ok⟩ := bindOk.mp ok
    have fits := (checkedAddSome.mp (okOrSome.mp added))
    split at ok
    · cases ok
      exact fits.2 ▸ fits.1
    · obtain ⟨out,more,ok⟩ := bindOk.mp ok
      cases ok
      exact ih (fits.2 ▸ fits.1) more

theorem victimCharges (keyed : Every residents (fun id entry => entry.page = id)) {needed total : Nat}
    {entries : List ResidentEntry} (among : ∀ entry ∈ entries, entry ∈ residentValues residents)
    (ok : demandVictims needed 0 entries = .ok (total,victims)) :
    (victims.map (residentCharge residents)).sum < wideModulus := by
  have fits := demandVictimsFit (by decide) ok
  have chosen := endsValue (demandVictimsSafe needed 0 entries) ok
  obtain ⟨counted,named⟩ := Prod.mk.inj chosen
  have charges : victims.map (residentCharge residents) =
      (takeEnough ResidentEntry.chargeBytes needed 0 entries).map ResidentEntry.chargeBytes := by
    rw [named,List.map_map]
    refine List.map_congr_left (fun entry member => ?_)
    obtain ⟨page,present⟩ := memValues (among entry ((takeEnoughPrefix ..).subset member))
    rw [Function.comp_apply,residentCharge,keyed page entry present,present]
    rfl
  rw [charges]
  have narrow : modulus ≤ wideModulus := by decide
  omega

end Agreement

theorem demandPlanIsolated {left right : RouterState} {request step : Nat} (agree : Agree request step left right)
    (catalog : PageCatalog) {residents : Residents} (keyed : Every residents (fun id entry => entry.page = id))
    (residentBytes capacityBytes : Nat) (candidate : PageDescriptor) :
    (PolicyState.router left).planDemandVictims catalog residents ⟨residentBytes,capacityBytes,candidate,request,step⟩ =
      (PolicyState.router right).planDemandVictims catalog residents
        ⟨residentBytes,capacityBytes,candidate,request,step⟩ := by
  unfold planDemandVictims
  simp only [isNoCache,agreeKeys agree]
  split
  · rfl
  split
  · rfl
  cases chosen : demandVictims (candidate.chargeBytes - wrappingSub capacityBytes residentBytes) 0
      (sortByKey ((PolicyState.router right).demandKey catalog request step) (residentValues residents)) with
  | error stop => rfl
  | ok out =>
    obtain ⟨total,victims⟩ := out
    have fits := victimCharges keyed (fun entry member => (sortByKeyPerm _ _).subset member) chosen
    simp only [bind,Except.bind,agreeAdmits agree fits]

def quietRouter : RouterState := ⟨64,⟨500000,1,1,1,64⟩,false,∅,0,0,0,32⟩

def expectingRouter : RouterState :=
  {quietRouter with active := (∅ : ActiveSignals).insert 2 ((∅ : ExtTreeMap SignalKey ActiveSignal).insert ⟨0,0⟩
    ⟨(∅ : ExtTreeMap Nat Nat).insert 0 700000⟩)}

def expertCatalog : PageCatalog where
  pages := [⟨0,10,64,.expert 0 0 0⟩,⟨1,10,64,.shared⟩]
  pageIndex := ((∅ : ExtTreeMap PageId Nat).insert 0 0).insert 1 1
  expertPages := (∅ : ExtTreeMap ExpertKey (List PageId)).insert ⟨0,0⟩ [0]

theorem expectedElsewhere : (PolicyState.router expectingRouter).planDemandVictims expertCatalog
    ((∅ : Residents).insert 0 ⟨0,64,10,1,.probation,false⟩) ⟨64,64,⟨1,10,64,.shared⟩,1,0⟩ = .ok (some [0]) := by
  have agree : Agree 1 0 expectingRouter quietRouter := by
    intro layer
    simp [RouterState.signalAt,expectingRouter,quietRouter]
  have keyed : Every ((∅ : Residents).insert 0 ⟨0,64,10,1,.probation,false⟩) (fun id entry => entry.page = id) :=
    everyInsert (everyEmpty _) rfl
  rw [demandPlanIsolated agree expertCatalog keyed]
  decide +kernel

end RunnelMoe.Sim
