import RunnelMoe.SimBelady

/-! The exact dynamic program over resident subsets. Bit i of a state stands for the
i-th demanded page. Each demand replaces the frontier by what its states offer: a hit
keeps the state, a miss bypasses or admits beside any retained submask that fits. The
frontier keeps one cost for each state, the least of those offered. -/
namespace RunnelMoe.Sim
open Words KeyedSum Results Bitmasks OfflinePaging
open Std (ExtTreeMap)

structure Collects (offers : Nat → Nat → Prop) (before after : ExtTreeMap Nat Nat) : Prop where
  sound : ∀ state cost, after[state]? = some cost → before[state]? = some cost ∨ offers state cost
  least : ∀ state cost, before[state]? = some cost ∨ offers state cost → ∃ less ≤ cost, after[state]? = some less

section Collect
variable {offers more : Nat → Nat → Prop} {before middle after : ExtTreeMap Nat Nat}

theorem collectNone (frontier : ExtTreeMap Nat Nat) : Collects (fun _ _ => False) frontier frontier :=
  ⟨fun _ _ found => .inl found,fun _ cost offered => ⟨cost,le_rfl,offered.elim id False.elim⟩⟩

theorem collectBoth (first : Collects offers before middle) (second : Collects more middle after) :
    Collects (fun state cost => offers state cost ∨ more state cost) before after := by
  constructor
  · intro state cost found
    rcases second.sound state cost found with old | new
    · exact (first.sound state cost old).imp_right .inl
    · exact .inr (.inr new)
  · intro state cost offered
    have kept : (before[state]? = some cost ∨ offers state cost) ∨ more state cost := by tauto
    rcases kept with early | late
    · obtain ⟨less,bound,reached⟩ := first.least state cost early
      obtain ⟨lesser,bound',found⟩ := second.least state less (.inl reached)
      exact ⟨lesser,bound'.trans bound,found⟩
    · exact second.least state cost (.inr late)

theorem collectSame (same : ∀ state cost, offers state cost ↔ more state cost) (collects : Collects offers before after) :
    Collects more before after :=
  ⟨fun state cost found => (collects.sound state cost found).imp_right (same state cost).mp,
    fun state cost offered => collects.least state cost (offered.imp_right (same state cost).mpr)⟩

theorem collectOne (frontier : ExtTreeMap Nat Nat) (state cost : Nat) :
    Collects (fun s c => s = state ∧ c = cost) frontier (insertMinimum frontier state cost) := by
  constructor
  · intro s c found
    rw [insertMinimum,getInsert] at found
    split at found
    · rename_i here
      subst here
      cases old : frontier[s]? with
      | none =>
        rw [old] at found
        exact .inr ⟨rfl,(Option.some.inj found).symm⟩
      | some current =>
        rw [old] at found
        have least := Option.some.inj found
        rcases Nat.le_total current cost with small | small
        · exact .inl (congrArg some ((Nat.min_eq_left small).symm.trans least))
        · exact .inr ⟨rfl,(least.symm.trans (Nat.min_eq_right small))⟩
    · exact .inl found
  · intro s c offered
    rw [insertMinimum,getInsert]
    split
    · rename_i here
      subst here
      cases old : frontier[s]? with
      | none =>
        rw [old] at offered
        rcases offered with found | ⟨-,rfl⟩
        · contradiction
        · exact ⟨c,le_rfl,rfl⟩
      | some current =>
        rw [old] at offered
        rcases offered with found | ⟨-,rfl⟩
        · exact ⟨_,(Nat.min_le_left _ _).trans (Option.some.inj found).le,rfl⟩
        · exact ⟨_,Nat.min_le_right _ _,rfl⟩
    · rename_i other
      rcases offered with found | ⟨here,-⟩
      · exact ⟨c,le_rfl,found⟩
      · exact absurd here other

theorem collectFold {I : Type} {step : Exploration → I → Except SimError Exploration} (offer : I → Nat → Nat → Prop)
    (collects : ∀ exploration item next, step exploration item = .ok next →
      Collects (offer item) exploration.frontier next.frontier)
    {items : List I} {exploration out : Exploration} (ok : items.foldlM step exploration = .ok out) :
    Collects (fun state cost => ∃ item ∈ items, offer item state cost) exploration.frontier out.frontier := by
  induction items generalizing exploration with
  | nil =>
    rw [foldNil.mp ok]
    exact collectSame (fun _ _ => by simp) (collectNone _)
  | cons item rest ih =>
    obtain ⟨next,first,later⟩ := foldCons.mp ok
    exact collectSame (fun _ _ => by simp) (collectBoth (collects _ _ _ first) (ih later))

end Collect

theorem subsetCharged (charges : List Nat) {remaining total result : Nat}
    (ok : subsetChargeFrom charges remaining total = .ok result) :
    result = total + ∑ bit ∈ members remaining, charges.getD bit 0 := by
  induction remaining using Nat.strongRecOn generalizing total with
  | ind remaining ih =>
    rw [subsetChargeFrom] at ok
    split at ok
    · rename_i none
      cases ok
      rw [none,membersZero,Finset.sum_empty,Nat.add_zero]
    · rename_i positive
      split at ok
      · contradiction
      · rename_i sum added
        rw [ih _ (clearedLess positive) ok,(checkedAddSome.mp added).2,membersSum _ positive,Nat.add_assoc]

section Demand
variable {charges logicalCosts : List Nat} {capacityBytes maximum bit missCost : Nat} {exploration next : Exploration}

def Retains (charges : List Nat) (capacityBytes bit retained : Nat) : Prop :=
  ∑ i ∈ members retained, charges.getD i 0 + charges.getD bit 0 ≤ capacityBytes

theorem retainedCollects (word : capacityBytes < modulus) (retained : Nat)
    (ok : admitRetained charges capacityBytes maximum bit missCost exploration retained = .ok next) :
    Collects (fun state cost => Retains charges capacityBytes bit retained ∧ state = retained ||| 1 <<< bit ∧ cost = missCost)
      exploration.frontier next.frontier := by
  obtain ⟨explored,-,ok⟩ := bindOk.mp ok
  obtain ⟨charge,charged,last⟩ := bindOk.mp ok
  cases last
  have exact := subsetCharged charges charged
  rw [Nat.zero_add] at exact
  have decided : (checkedAdd charge (charges.getD bit 0)).any (fun total => total ≤ capacityBytes) = true ↔
      Retains charges capacityBytes bit retained := by
    rw [Retains,← exact]
    cases done : checkedAdd charge (charges.getD bit 0) with
    | none =>
      have large := checkedAddNone.mp done
      exact ⟨nofun,fun small => absurd small (by omega)⟩
    | some total => rw [Option.any_some,decide_eq_true_eq,(checkedAddSome.mp done).2]
  by_cases retains : Retains charges capacityBytes bit retained
  · rw [if_pos (decided.mpr retains)]
    exact collectSame (fun _ _ => by simp [retains]) (collectOne _ _ _)
  · rw [if_neg fun fits => retains (decided.mp fits)]
    exact collectSame (fun _ _ => by simp [retains]) (collectNone _)

inductive Offers (charges logicalCosts : List Nat) (capacityBytes bit state cost : Nat) : Nat → Nat → Prop where
  | hit (present : bit ∈ members state) : Offers charges logicalCosts capacityBytes bit state cost state cost
  | bypass (absent : bit ∉ members state) :
      Offers charges logicalCosts capacityBytes bit state cost state (cost + logicalCosts.getD bit 0)
  | fill {retained} (absent : bit ∉ members state) (subset : members retained ⊆ members state)
      (retains : Retains charges capacityBytes bit retained) :
      Offers charges logicalCosts capacityBytes bit state cost (retained ||| 1 <<< bit) (cost + logicalCosts.getD bit 0)

theorem stateCollects (word : capacityBytes < modulus) (row : Nat × Nat)
    (ok : exploreState charges logicalCosts capacityBytes maximum bit exploration row = .ok next) :
    Collects (Offers charges logicalCosts capacityBytes bit row.1 row.2) exploration.frontier next.frontier := by
  unfold exploreState at ok
  simp only at ok
  split at ok
  · rename_i set
    have present := (bitSet row.1 bit).mp set
    obtain ⟨explored,-,last⟩ := bindOk.mp ok
    cases last
    refine collectSame (fun state cost => ?_) (collectOne _ row.1 row.2)
    constructor
    · rintro ⟨rfl,rfl⟩
      exact .hit present
    · intro offered
      cases offered with
      | hit => exact ⟨rfl,rfl⟩
      | bypass absent | fill absent => exact absurd present absent
  · rename_i clear
    have absent : bit ∉ members row.1 := fun member => clear ((bitSet row.1 bit).mpr member)
    obtain ⟨missCost,paid,ok⟩ := bindOk.mp ok
    obtain ⟨explored,-,ok⟩ := bindOk.mp ok
    have price := (addOk.mp paid).2
    subst price
    have bypass := collectOne exploration.frontier row.1 (row.2 + logicalCosts.getD bit 0)
    split at ok
    · have admits := collectFold _ (fun _ retained _ => retainedCollects word retained) ok
      refine collectSame (fun state cost => ?_) (collectBoth bypass admits)
      constructor
      · rintro (⟨rfl,rfl⟩ | ⟨retained,submask,retains,rfl,rfl⟩)
        · exact .bypass absent
        · exact .fill absent (memSubmasks.mp submask) retains
      · intro offered
        cases offered with
        | hit present => exact absurd present absent
        | bypass => exact .inl ⟨rfl,rfl⟩
        | @fill retained _ subset retains => exact .inr ⟨retained,memSubmasks.mpr subset,retains,rfl,rfl⟩
    · rename_i large
      cases ok
      refine collectSame (fun state cost => ?_) bypass
      constructor
      · rintro ⟨rfl,rfl⟩
        exact .bypass absent
      · intro offered
        cases offered with
        | hit present => exact absurd present absent
        | bypass => exact ⟨rfl,rfl⟩
        | fill _ _ retains =>
          refine absurd ?_ large
          exact (Nat.le_add_left _ _).trans retains

theorem demandCollects (word : capacityBytes < modulus) {orderedPages : List PageId} {page : PageId}
    (ok : exploreDemand orderedPages charges logicalCosts capacityBytes maximum exploration page = .ok next) :
    (∀ state cost, next.frontier[state]? = some cost → ∃ old spent, exploration.frontier[old]? = some spent ∧
      Offers charges logicalCosts capacityBytes (orderedPages.idxOf page) old spent state cost) ∧
    ∀ old spent state cost, exploration.frontier[old]? = some spent →
      Offers charges logicalCosts capacityBytes (orderedPages.idxOf page) old spent state cost →
      ∃ less ≤ cost, next.frontier[state]? = some less := by
  have collects := collectFold _ (fun _ row _ => stateCollects word row) ok
  constructor
  · intro state cost found
    rcases collects.sound state cost found with none | ⟨⟨old,spent⟩,member,offered⟩
    · simp at none
    · exact ⟨old,spent,memToList.mp member,offered⟩
  · intro old spent state cost found offered
    exact collects.least state cost (.inr ⟨(old,spent),memToList.mpr found,offered⟩)

end Demand

section Masks
variable {trace : ValidatedTrace} {orderedPages : List PageId} {capacityBytes : Nat}

def held (orderedPages : List PageId) (state : Nat) : Finset PageId :=
  orderedPages.toFinset.filter (fun page => orderedPages.idxOf page ∈ members state)

variable {state : Nat} {page : PageId}

theorem memHeld :
    page ∈ held orderedPages state ↔ page ∈ orderedPages ∧ orderedPages.idxOf page ∈ members state := by
  simp [held]

theorem heldZero : held orderedPages 0 = ∅ := by simp [held,membersZero]

theorem heldBit (known : page ∈ orderedPages) :
    page ∈ held orderedPages state ↔ orderedPages.idxOf page ∈ members state := by simp [memHeld,known]

theorem heldInsert (known : page ∈ orderedPages) (state : Nat) :
    held orderedPages (state ||| 1 <<< orderedPages.idxOf page) = insert page (held orderedPages state) := by
  ext other
  rw [memHeld,Finset.mem_insert,memHeld,membersOr,Finset.mem_insert]
  constructor
  · rintro ⟨inside,same | member⟩
    · exact .inl ((List.idxOf_inj inside).mp same)
    · exact .inr ⟨inside,member⟩
  · rintro (rfl | ⟨inside,member⟩)
    · exact ⟨known,.inl rfl⟩
    · exact ⟨inside,.inr member⟩

theorem heldSubset {small large : Nat} (subset : members small ⊆ members large) :
    held orderedPages small ⊆ held orderedPages large := by
  intro page member
  rw [memHeld] at member ⊢
  exact ⟨member.1,subset member.2⟩

theorem heldOf {pages : Finset PageId} (subset : pages ⊆ held orderedPages state) :
    ∃ mask, members mask ⊆ members state ∧ held orderedPages mask = pages := by
  refine ⟨Finset.equivBitIndices.symm (pages.image orderedPages.idxOf),?_,?_⟩
  · rw [membersOf]
    intro bit member
    obtain ⟨page,inside,rfl⟩ := Finset.mem_image.mp member
    exact (memHeld.mp (subset inside)).2
  · ext page
    rw [memHeld,membersOf,Finset.mem_image]
    constructor
    · rintro ⟨known,other,inside,same⟩
      have other_known := (memHeld.mp (subset inside)).1
      rwa [(List.idxOf_inj other_known).mp same] at inside
    · intro inside
      exact ⟨(memHeld.mp (subset inside)).1,page,inside,rfl⟩

theorem heldCharge (weight : PageId → Nat) (distinct : orderedPages.Nodup)
    (bounded : ∀ bit ∈ members state, bit < orderedPages.length) :
    ∑ bit ∈ members state, (orderedPages.map weight).getD bit 0 = ∑ page ∈ held orderedPages state, weight page := by
  refine (Finset.sum_nbij orderedPages.idxOf ?_ ?_ ?_ ?_).symm
  · exact fun page member => (memHeld.mp member).2
  · exact fun a inside b _ same => (List.idxOf_inj (memHeld.mp inside).1).mp same
  · intro bit member
    have inside := bounded bit member
    have known : orderedPages[bit] ∈ orderedPages := List.getElem_mem inside
    have position := distinct.idxOf_getElem bit inside
    exact ⟨orderedPages[bit],memHeld.mpr ⟨known,by rw [position]; exact member⟩,position⟩
  · intro page member
    rw [List.getD_eq_getElem?_getD,List.getElem?_map,List.getElem?_idxOf (memHeld.mp member).1]
    rfl

def reaches (orderedPages : List PageId) (frontier : ExtTreeMap Nat Nat) (residents : Finset PageId) (spent : Nat) : Prop :=
  ∃ state, frontier[state]? = some spent ∧ residents = held orderedPages state

def InRange (orderedPages : List PageId) (frontier : ExtTreeMap Nat Nat) : Prop :=
  ∀ state cost, frontier[state]? = some cost → ∀ bit ∈ members state, bit < orderedPages.length

theorem mapAt (weight : PageId → Nat) (known : page ∈ orderedPages) :
    (orderedPages.map weight).getD (orderedPages.idxOf page) 0 = weight page := by
  rw [List.getD_eq_getElem?_getD,List.getElem?_map,List.getElem?_idxOf known]
  rfl

section Explored
variable {maximum state cost next paid : Nat} {page : PageId}

theorem retainsFits {retained : Nat} (distinct : orderedPages.Nodup) (known : page ∈ orderedPages)
    (bounded : ∀ bit ∈ members retained, bit < orderedPages.length) (absent : page ∉ held orderedPages retained) :
    Retains (trace.charges orderedPages) capacityBytes (orderedPages.idxOf page) retained ↔
      trace.fits capacityBytes (insert page (held orderedPages retained)) := by
  rw [Retains,ValidatedTrace.charges,heldCharge _ distinct bounded,mapAt _ known,ValidatedTrace.fits,
    Finset.sum_insert absent,Nat.add_comm]

theorem offersDefers (distinct : orderedPages.Nodup) (known : page ∈ orderedPages)
    (bounded : ∀ bit ∈ members state, bit < orderedPages.length)
    (offers : Offers (trace.charges orderedPages) (trace.logicalCosts orderedPages) capacityBytes
      (orderedPages.idxOf page) state cost next paid) :
    Defers (trace.fits capacityBytes) trace.missCost page (held orderedPages state) cost (held orderedPages next) paid := by
  have price : (trace.logicalCosts orderedPages).getD (orderedPages.idxOf page) 0 = trace.missCost page := mapAt _ known
  cases offers with
  | hit present => exact .hit ((heldBit known).mpr present)
  | bypass absent =>
    rw [price]
    exact .bypass (fun member => absent ((heldBit known).mp member))
  | @fill retained absent subset retains =>
    have missing : page ∉ held orderedPages state := fun member => absent ((heldBit known).mp member)
    have inside := @heldSubset orderedPages _ _ subset
    have room := (retainsFits distinct known (fun bit member => bounded bit (subset member))
      fun member => missing (inside member)).mp retains
    rw [price,heldInsert known]
    exact .fill missing inside room

theorem defersOffered {residents : Finset PageId} (distinct : orderedPages.Nodup) (known : page ∈ orderedPages)
    (bounded : ∀ bit ∈ members state, bit < orderedPages.length)
    (defers : Defers (trace.fits capacityBytes) trace.missCost page (held orderedPages state) cost residents paid) :
    ∃ next, residents = held orderedPages next ∧ Offers (trace.charges orderedPages)
      (trace.logicalCosts orderedPages) capacityBytes (orderedPages.idxOf page) state cost next paid := by
  have price : trace.missCost page = (trace.logicalCosts orderedPages).getD (orderedPages.idxOf page) 0 :=
    (mapAt _ known).symm
  cases defers with
  | hit present => exact ⟨state,rfl,.hit ((heldBit known).mp present)⟩
  | bypass absent =>
    rw [price]
    exact ⟨state,rfl,.bypass fun member => absent ((heldBit known).mpr member)⟩
  | @fill retained absent inside room =>
    obtain ⟨mask,subset,rfl⟩ := heldOf inside
    have retains := (retainsFits distinct known (fun bit member => bounded bit (subset member))
      fun member => absent (inside member)).mpr room
    rw [price]
    exact ⟨mask ||| 1 <<< orderedPages.idxOf page,(heldInsert known mask).symm,
      .fill (fun member => absent ((heldBit known).mpr member)) subset retains⟩

theorem offersBounded {charges logicalCosts : List Nat} (known : page ∈ orderedPages)
    (bounded : ∀ bit ∈ members state, bit < orderedPages.length)
    (offers : Offers charges logicalCosts capacityBytes (orderedPages.idxOf page) state cost next paid) :
    ∀ bit ∈ members next, bit < orderedPages.length := by
  cases offers with
  | hit | bypass => exact bounded
  | fill _ subset =>
    intro bit member
    rw [membersOr] at member
    rcases Finset.mem_insert.mp member with rfl | inside
    · exact List.idxOf_lt_length_of_mem known
    · exact bounded bit (subset inside)

theorem demandAdvances {exploration after : Exploration} (distinct : orderedPages.Nodup)
    (word : capacityBytes < modulus) (known : page ∈ orderedPages)
    (bounded : InRange orderedPages exploration.frontier)
    (ok : exploreDemand orderedPages (trace.charges orderedPages) (trace.logicalCosts orderedPages) capacityBytes
      maximum exploration page = .ok after) :
    InRange orderedPages after.frontier ∧ Advances (trace.fits capacityBytes) trace.missCost page
      (reaches orderedPages exploration.frontier) (reaches orderedPages after.frontier) := by
  obtain ⟨sound,least⟩ := demandCollects word ok
  refine ⟨?_,?_,?_⟩
  · intro state cost found
    obtain ⟨old,spent,started,offers⟩ := sound state cost found
    exact offersBounded known (bounded old spent started) offers
  · rintro residents paid ⟨state,found,rfl⟩
    obtain ⟨old,spent,started,offers⟩ := sound state paid found
    exact ⟨_,spent,⟨old,started,rfl⟩,offersDefers distinct known (bounded old spent started) offers⟩
  · rintro residents spent next paid ⟨old,started,rfl⟩ defers
    obtain ⟨state,rfl,offers⟩ := defersOffered distinct known (bounded old spent started) defers
    obtain ⟨less,bound,found⟩ := least old spent state paid started offers
    exact ⟨less,bound,state,found,rfl⟩

theorem demandsExplored {demands : List PageId} {exploration after : Exploration} (distinct : orderedPages.Nodup)
    (word : capacityBytes < modulus) (known : ∀ page ∈ demands, page ∈ orderedPages)
    (bounded : InRange orderedPages exploration.frontier)
    (ok : demands.foldlM (exploreDemand orderedPages (trace.charges orderedPages) (trace.logicalCosts orderedPages)
      capacityBytes maximum) exploration = .ok after) :
    Explores (trace.fits capacityBytes) trace.missCost (reaches orderedPages exploration.frontier) demands
      (reaches orderedPages after.frontier) := by
  induction demands generalizing exploration with
  | nil =>
    rw [foldNil.mp ok]
    exact .done _
  | cons page rest ih =>
    obtain ⟨next,first,later⟩ := foldCons.mp ok
    obtain ⟨inRange,advances⟩ := demandAdvances distinct word (known page List.mem_cons_self) bounded first
    exact .demand advances (ih (fun p member => known p (List.mem_cons_of_mem _ member)) inRange later)

end Explored

theorem firstFrontier (residents : Finset PageId) (spent : Nat) :
    reaches orderedPages ((∅ : ExtTreeMap Nat Nat).insert 0 0) residents spent ↔ residents = ∅ ∧ spent = 0 := by
  constructor
  · rintro ⟨state,found,rfl⟩
    rw [getInsert] at found
    split at found
    · rename_i here
      rw [here]
      exact ⟨heldZero,(Option.some.inj found).symm⟩
    · simp at found
  · rintro ⟨rfl,rfl⟩
    exact ⟨0,getInsertSame _ _ _,heldZero.symm⟩

theorem firstInRange : InRange orderedPages ((∅ : ExtTreeMap Nat Nat).insert 0 0) := by
  intro state cost found bit member
  rw [getInsert] at found
  split at found
  · rename_i here
    rw [here,membersZero] at member
    contradiction
  · simp at found

end Masks

structure Explored (trace : ValidatedTrace) (capacityBytes best : Nat) (before after : Finset PageId → Nat → Prop) :
    Prop where
  start : ∀ residents spent, before residents spent ↔ residents = ∅ ∧ spent = 0
  explores : Explores (trace.fits capacityBytes) trace.missCost before trace.demands after
  ends : ∃ final, after final best
  least : ∀ final paid, after final paid → best ≤ paid

theorem exactExplores {trace : ValidatedTrace} {capacityBytes cost : Nat} {limits : SimLimits}
    (word : capacityBytes < modulus) (ok : exactVariableByteCost trace capacityBytes limits = .ok cost) :
    ∃ before after, Explored trace capacityBytes cost before after := by
  unfold exactVariableByteCost at ok
  simp only at ok
  split at ok
  · contradiction
  split at ok
  · contradiction
  split at ok
  · contradiction
  split at ok
  · rename_i none
    cases ok
    let first : Finset PageId → Nat → Prop := fun residents spent => residents = ∅ ∧ spent = 0
    have explores : Explores (trace.fits capacityBytes) trace.missCost first trace.demands first := by
      rw [List.isEmpty_iff.mp none]
      exact .done _
    exact ⟨first,first,fun _ _ => Iff.rfl,explores,⟨∅,rfl,rfl⟩,fun _ _ _ => Nat.zero_le _⟩
  · obtain ⟨final,ran,last⟩ := bindOk.mp ok
    split at last
    · contradiction
    · rename_i best chosen
      cases last
      obtain ⟨member,least⟩ := List.min?_eq_some_iff.mp chosen
      obtain ⟨⟨state,paid⟩,inside,rfl⟩ := List.mem_map.mp member
      refine ⟨_,_,firstFrontier,demandsExplored (orderedNodup _) word (fun page member => ?_) firstInRange ran,
        ⟨_,state,memToList.mp inside,rfl⟩,?_⟩
      · exact memOrdered.mpr (List.mem_toFinset.mpr member)
      · rintro residents paid ⟨state,found,rfl⟩
        exact least paid (List.mem_map_of_mem (memToList.mpr found))

theorem emptyFits (trace : ValidatedTrace) (capacityBytes : Nat) : trace.fits capacityBytes ∅ := by
  rw [ValidatedTrace.fits,Finset.sum_empty]
  exact Nat.zero_le _

theorem exactOptimal {trace : ValidatedTrace} {capacityBytes cost : Nat} {limits : SimLimits}
    (word : capacityBytes < modulus) (ok : exactVariableByteCost trace capacityBytes limits = .ok cost) :
    Optimal (trace.fits capacityBytes) trace.missCost trace.demands cost := by
  obtain ⟨before,after,explored⟩ := exactExplores word ok
  exact exploredOptimal (emptyFits trace capacityBytes) explored.start explored.explores explored.ends explored.least

theorem exactMinimum {trace : ValidatedTrace} {capacityBytes cost : Nat} {limits : SimLimits}
    (word : capacityBytes < modulus) (ok : exactVariableByteCost trace capacityBytes limits = .ok cost) :
    IsLeast {spent | Serves (trace.fits capacityBytes) trace.missCost ∅ trace.demands spent} cost :=
  exactOptimal word ok

-- Farthest next use would bypass the large page and pay six here.
theorem mixedValid :
    (validateRecords ⟨headerKind,traceSchema,"mixed",3,6,1,prefetchModel⟩
      [⟨0,1,1,.shared⟩,⟨1,1,1,.shared⟩,⟨2,2,3,.shared⟩]
      [.demand 0 0 0 0,.demand 1 0 0 1,.demand 2 0 0 2,.demand 3 0 0 0,.demand 4 0 0 1,.demand 5 0 0 2]
      defaultLimits).toOption.isSome := by decide +kernel

def mixed : ValidatedTrace := value _ mixedValid

theorem mixedMinimum : IsLeast {spent | Serves (mixed.fits 4) mixed.missCost ∅ [0,1,2,0,1,2] spent} 5 := by
  have ok : exactVariableByteCost mixed 4 defaultLimits = .ok 5 := by decide +kernel
  have demands : mixed.demands = [0,1,2,0,1,2] := by decide +kernel
  have least := exactMinimum (by decide) ok
  rwa [demands] at least

end RunnelMoe.Sim
