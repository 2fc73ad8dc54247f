import Mathlib.Algebra.Order.BigOperators.Group.Finset
import RunnelMoe.OfflinePaging
import RunnelMoe.SimOracle

/-! The replay of farthest next use reaches the minimum over all schedules. The index of
future demands holds the positions that are still ahead, so its first entries order
pages as their first occurrences in the rest of the trace do. -/
namespace RunnelMoe.Sim
open Words KeyedSum Results OfflinePaging
open Std (ExtTreeMap)

def ValidatedTrace.fits (trace : ValidatedTrace) (capacityBytes : Nat) (residents : Finset PageId) : Prop :=
  ∑ page ∈ residents, (trace.page page).chargeBytes ≤ capacityBytes

def ValidatedTrace.missCost (trace : ValidatedTrace) (page : PageId) : Nat := (trace.page page).logicalBytes

structure Uniform (trace : ValidatedTrace) (charge cost : Nat) : Prop where
  positive : 0 < charge
  charges : ∀ page ∈ trace.pages, page.chargeBytes = charge
  costs : ∀ page ∈ trace.pages, page.logicalBytes = cost

theorem uniformPages {first : PageDescriptor} {pages : List PageDescriptor}
    (ok : pages.foldlM (uniformPage first) () = .ok ()) :
    ∀ page ∈ pages, page.chargeBytes = first.chargeBytes ∧ page.logicalBytes = first.logicalBytes := by
  intro page member
  obtain ⟨_,_,one⟩ := foldEach ok member
  simp only [uniformPage] at one
  split at one
  · contradiction
  split at one
  · contradiction
  · rename_i charge cost
    exact ⟨not_not.mp charge,not_not.mp cost⟩

variable {trace : ValidatedTrace} {demands : List PageId} {future : ExtTreeMap PageId (List Nat)} {start : Nat}

theorem geometryUniform {charge cost : Nat}
    (ok : uniformGeometry trace.pages = .ok (charge,cost)) : Uniform trace charge cost := by
  unfold uniformGeometry at ok
  split at ok
  · rename_i none
    cases ok
    exact ⟨Nat.one_pos,by simp [none],by simp [none]⟩
  · rename_i first rest pages
    split at ok
    · contradiction
    · rename_i positive
      obtain ⟨_,same,last⟩ := bindOk.mp ok
      cases last
      have all := uniformPages same
      refine ⟨Nat.pos_of_ne_zero positive,?_,?_⟩
      · rw [pages]
        exact List.forall_mem_cons.mpr ⟨rfl,fun page member => (all page member).1⟩
      · rw [pages]
        exact List.forall_mem_cons.mpr ⟨rfl,fun page member => (all page member).2⟩

section Geometry
variable {trace : ValidatedTrace} {charge cost capacityBytes : Nat}

theorem uniformFits (uniform : Uniform trace charge cost) {residents : Finset PageId}
    (known : residents ⊆ Finset.range trace.pages.length) :
    trace.fits capacityBytes residents ↔ residents.card ≤ min (capacityBytes / charge) trace.pages.length := by
  have total : ∑ page ∈ residents, (trace.page page).chargeBytes = residents.card * charge :=
    Finset.sum_const_nat fun page member => uniform.charges _ (pageMember (Finset.mem_range.mp (known member)))
  have few : residents.card ≤ trace.pages.length := by
    have bound := Finset.card_le_card known
    rwa [Finset.card_range] at bound
  rw [ValidatedTrace.fits,total,← Nat.le_div_iff_mul_le uniform.positive,le_min_iff]
  exact ⟨fun slots => ⟨slots,few⟩,And.left⟩

theorem uniformCost (uniform : Uniform trace charge cost) {page : PageId}
    (known : page ∈ Finset.range trace.pages.length) : trace.missCost page = cost :=
  uniform.costs _ (pageMember (Finset.mem_range.mp known))

theorem uniformOptimal {best : Nat} (uniform : Uniform trace charge cost)
    (optimal : Optimal (fun set => set.card ≤ min (capacityBytes / charge) trace.pages.length) (fun _ => cost)
      trace.demands best) : Optimal (trace.fits capacityBytes) trace.missCost trace.demands best := by
  have known : ∀ page ∈ trace.demands, page ∈ Finset.range trace.pages.length :=
    fun page member => Finset.mem_range.mpr (demandKnown member)
  have inside := Finset.empty_subset (Finset.range trace.pages.length)
  refine ⟨?_,fun spent serves => optimal.2 ?_⟩
  · exact servesCongr (fun set subset => (uniformFits uniform subset).mpr)
      (fun page member => uniformCost uniform member) inside known optimal.1
  · exact servesCongr (fun set subset => (uniformFits uniform subset).mp)
      (fun page member => (uniformCost uniform member).symm) inside known serves

end Geometry

def occurrences (page : PageId) : Nat → List PageId → List Nat
  | _, [] => []
  | start, d::rest => if d = page then start :: occurrences page (start + 1) rest else occurrences page (start + 1) rest

def Indexes (future : ExtTreeMap PageId (List Nat)) (start : Nat) (demands : List PageId) : Prop :=
  ∀ page, future[page]?.getD [] = occurrences page start demands

theorem futureScanned (demands : List PageId) {scan : ExtTreeMap PageId (List Nat) × Nat}
    (fits : scan.2 + demands.length < modulus) (page : PageId) :
    (demands.foldl futureDemand scan).1[page]?.getD [] =
      scan.1[page]?.getD [] ++ occurrences page scan.2 demands := by
  induction demands generalizing scan with
  | nil => rw [List.foldl_nil,occurrences,List.append_nil]
  | cons d rest ih =>
    rw [List.length_cons] at fits
    have next : (futureDemand scan d).2 = scan.2 + 1 := saturatingAddExact (by omega)
    rw [List.foldl_cons,ih (by rw [next]; omega),next,occurrences]
    simp only [futureDemand,getInsert,@eq_comm _ d page]
    split
    · rename_i here
      rw [here,Option.getD_some,List.append_assoc,List.singleton_append]
    · rfl

theorem futureIndexes (fits : demands.length < modulus) :
    Indexes (futureDemands demands) 0 demands := by
  intro page
  have scanned := @futureScanned demands (∅,0) (by simpa using fits) page
  simpa [futureDemands] using scanned

theorem popped {after : ExtTreeMap PageId (List Nat)} {page : PageId} {rest : List PageId}
    (index : Indexes future start (page::rest)) (ok : popCurrentDemand future page = .ok after) :
    Indexes after (start + 1) rest := by
  unfold popCurrentDemand at ok
  split at ok
  · rename_i first later found
    cases ok
    intro other
    have before := index other
    rw [occurrences] at before
    rw [getInsert]
    split
    · rename_i here
      subst here
      rw [found,if_pos rfl] at before
      exact (List.cons.inj before).2
    · rename_i different
      rw [if_neg (Ne.symm different)] at before
      exact before
  · contradiction

theorem firstOccurrence (page : PageId) (start : Nat) (demands : List PageId) :
    (occurrences page start demands).head? =
      if page ∈ demands then some (start + demands.idxOf page) else none := by
  induction demands generalizing start with
  | nil => rfl
  | cons d rest ih =>
    rw [occurrences]
    by_cases here : d = page
    · subst here
      simp
    · rw [if_neg here,ih,List.idxOf_cons_ne _ here]
      simp only [List.mem_cons,Ne.symm here,false_or]
      split
      · congr 1
        omega
      · rfl

theorem nextUseIndexed (index : Indexes future start demands) (page : PageId) :
    nextUse future page = if page ∈ demands then start + demands.idxOf page else maxWord := by
  have same : future[page]?.bind List.head? = (occurrences page start demands).head? := by
    rw [← index page]
    cases future[page]? <;> rfl
  rw [nextUse,same,firstOccurrence]
  split <;> rfl

theorem nextUseOrder (index : Indexes future start demands) (fits : start + demands.length < modulus) {a b : PageId}
    (order : nextUse future a ≤ nextUse future b) : demands.idxOf a ≤ demands.idxOf b := by
  rw [nextUseIndexed index,nextUseIndexed index] at order
  by_cases last : b ∈ demands
  · have inside := List.idxOf_lt_length_of_mem last
    have word : start + demands.idxOf b < maxWord := by
      unfold maxWord
      unfold modulus at fits
      omega
    rw [if_pos last] at order
    split at order <;> omega
  · rw [List.idxOf_eq_length last]
    exact List.idxOf_le_length

theorem laterVictims (candidate : PageId) (future : ExtTreeMap PageId (List Nat)) (pages : List PageId) (first : PageId) :
    pages.foldl (laterVictim candidate future) first ∈ first::pages ∧
      ∀ page ∈ first::pages, victimKey candidate future page ≤
        victimKey candidate future (pages.foldl (laterVictim candidate future) first) := by
  induction pages generalizing first with
  | nil => simp
  | cons page rest ih =>
    rw [List.foldl_cons]
    obtain ⟨member,last⟩ := ih (laterVictim candidate future first page)
    have chosen : laterVictim candidate future first page = first ∨ laterVictim candidate future first page = page := by
      unfold laterVictim
      split <;> simp
    have above : victimKey candidate future first ≤ victimKey candidate future (laterVictim candidate future first page) ∧
        victimKey candidate future page ≤ victimKey candidate future (laterVictim candidate future first page) := by
      unfold laterVictim
      split
      · rename_i order
        exact ⟨order,le_rfl⟩
      · rename_i order
        exact ⟨le_rfl,(lt_of_not_ge order).le⟩
    have best := last _ List.mem_cons_self
    constructor
    · rcases List.mem_cons.mp member with same | inside
      · rcases chosen with old | new
        · rw [same,old]; exact List.mem_cons_self
        · rw [same,new]; exact List.mem_cons_of_mem _ List.mem_cons_self
      · exact List.mem_cons_of_mem _ (List.mem_cons_of_mem _ inside)
    · intro other inside
      rcases List.mem_cons.mp inside with rfl | inside
      · exact above.1.trans best
      · rcases List.mem_cons.mp inside with rfl | inside
        · exact above.2.trans best
        · exact last other (List.mem_cons_of_mem _ inside)

theorem victimFarthest {residents : Finset PageId} {candidate : PageId} (index : Indexes future start demands)
    (fits : start + demands.length < modulus) :
    Farthest residents candidate demands (farthestVictim residents candidate future) := by
  have listed (page : PageId) : page ∈ ordered residents ++ [candidate] ↔ page ∈ insert candidate residents := by
    simp [memOrdered,or_comm]
  unfold farthestVictim
  split
  · rename_i none
    simp at none
  · rename_i first rest pages
    obtain ⟨member,last⟩ := laterVictims candidate future rest first
    rw [← pages] at member last
    refine ⟨(listed _).mp member,fun page inside => nextUseOrder index fits ?_⟩
    exact (Prod.Lex.le_iff.mp (last page ((listed page).mpr inside))).elim le_of_lt (fun equal => equal.1.le)

structure Replaying (s s' : BeladyState) : Prop where
  future : s'.future = s.future
  ordinal : s'.demandOrdinal = s.demandOrdinal
  accesses : s'.metrics.demandAccesses = s.metrics.demandAccesses

section Steps
variable {s s' : BeladyState} {page logicalBytes charge slotCapacity victim : Nat}

theorem admitted (ok : s.admitPage page charge = .ok s') :
    Replaying s s' ∧ s'.residents = insert page s.residents ∧
      s'.metrics.demandLoadBytes = s.metrics.demandLoadBytes := by
  obtain ⟨_,-,ok⟩ := bindOk.mp ok
  obtain ⟨metrics,counted,last⟩ := bindOk.mp ok
  cases last
  cases endsValue (admissionSafe ..) counted
  exact ⟨⟨rfl,rfl,rfl⟩,rfl,rfl⟩

theorem bypassed (ok : s.bypass = .ok s') :
    Replaying s s' ∧ s'.residents = s.residents ∧ s'.metrics.demandLoadBytes = s.metrics.demandLoadBytes := by
  obtain ⟨metrics,counted,last⟩ := bindOk.mp ok
  cases last
  cases endsValue (bypassSafe ..) counted
  exact ⟨⟨rfl,rfl,rfl⟩,rfl,rfl⟩

theorem evicted (ok : s.evict victim charge = .ok s') :
    Replaying s s' ∧ s'.residents = s.residents.erase victim ∧
      s'.metrics.demandLoadBytes = s.metrics.demandLoadBytes := by
  unfold BeladyState.evict at ok
  split at ok
  · contradiction
  · obtain ⟨metrics,counted,last⟩ := bindOk.mp ok
    cases last
    cases endsValue (evictionSafe ..) counted
    exact ⟨⟨rfl,rfl,rfl⟩,rfl,rfl⟩

theorem replayingTrans {middle : BeladyState} (first : Replaying s middle) (second : Replaying middle s') :
    Replaying s s' :=
  ⟨second.future.trans first.future,second.ordinal.trans first.ordinal,second.accesses.trans first.accesses⟩

inductive Replaces (slotCapacity page : Nat) (s s' : BeladyState) : Prop where
  | room (free : s.residents.card < slotCapacity) (residents : s'.residents = insert page s.residents) :
      Replaces slotCapacity page s s'
  | full {victim : PageId} (full : ¬s.residents.card < slotCapacity)
      (chosen : slotCapacity = 0 ∧ victim = page ∨ victim = farthestVictim s.residents page s.future)
      (residents : s'.residents = (insert page s.residents).erase victim) : Replaces slotCapacity page s s'

theorem missReplaces (absent : page ∉ s.residents) (ok : s.miss page charge slotCapacity = .ok s') :
    Replaying s s' ∧ s'.metrics.demandLoadBytes = s.metrics.demandLoadBytes ∧ Replaces slotCapacity page s s' := by
  have bypass : s.residents = (insert page s.residents).erase page := (Finset.erase_insert absent).symm
  unfold BeladyState.miss at ok
  split at ok
  · rename_i none
    obtain ⟨middle,one,last⟩ := bindOk.mp ok
    cases last
    obtain ⟨frame,residents,load⟩ := bypassed one
    exact ⟨⟨frame.future,frame.ordinal,frame.accesses⟩,load,
      .full (by omega) (.inl ⟨none,rfl⟩) (residents.trans bypass)⟩
  split at ok
  · rename_i free
    obtain ⟨middle,one,last⟩ := bindOk.mp ok
    cases last
    obtain ⟨frame,residents,load⟩ := admitted one
    exact ⟨⟨frame.future,frame.ordinal,frame.accesses⟩,load,.room free residents⟩
  rename_i full
  simp only at ok
  split at ok
  · rename_i same
    obtain ⟨middle,one,last⟩ := bindOk.mp ok
    cases last
    obtain ⟨frame,residents,load⟩ := bypassed one
    exact ⟨⟨frame.future,frame.ordinal,frame.accesses⟩,load,.full full (.inr same.symm) (residents.trans bypass)⟩
  · rename_i other
    obtain ⟨removed,one,ok⟩ := bindOk.mp ok
    obtain ⟨middle,two,last⟩ := bindOk.mp ok
    cases last
    obtain ⟨first,without,load⟩ := evicted one
    obtain ⟨second,residents,load'⟩ := admitted two
    have frame := replayingTrans first second
    refine ⟨⟨frame.future,frame.ordinal,frame.accesses⟩,load'.trans load,.full full (.inr rfl) ?_⟩
    rw [Finset.erase_insert_of_ne (Ne.symm other),← without]
    exact residents

inductive DemandServed (slotCapacity page logicalBytes : Nat) (s s' : BeladyState) : Prop where
  | hit (present : page ∈ s.residents) (residents : s'.residents = s.residents)
      (load : s'.metrics.demandLoadBytes = s.metrics.demandLoadBytes) : DemandServed slotCapacity page logicalBytes s s'
  | miss (absent : page ∉ s.residents) (replaces : Replaces slotCapacity page s s')
      (load : s'.metrics.demandLoadBytes = s.metrics.demandLoadBytes + logicalBytes) :
      DemandServed slotCapacity page logicalBytes s s'

theorem serveServed (ok : s.serve page logicalBytes charge slotCapacity = .ok s') :
    Replaying s s' ∧ DemandServed slotCapacity page logicalBytes s s' := by
  unfold BeladyState.serve at ok
  split at ok
  · rename_i present
    obtain ⟨metrics,counted,last⟩ := bindOk.mp ok
    cases last
    cases endsValue (ordinarySafe ..) counted
    exact ⟨⟨rfl,rfl,rfl⟩,.hit present rfl rfl⟩
  · rename_i absent
    obtain ⟨metrics,counted,ok⟩ := bindOk.mp ok
    have missing : page ∉ ({s with metrics := metrics} : BeladyState).residents := absent
    obtain ⟨frame,load,replaces⟩ := missReplaces missing ok
    cases endsValue (missSafe ..) counted
    refine ⟨⟨frame.future,frame.ordinal,frame.accesses⟩,.miss absent ?_ load⟩
    cases replaces with
    | room free residents => exact .room free residents
    | full full chosen residents => exact .full full chosen residents

end Steps

section Replay
variable {trace : ValidatedTrace} {capacityBytes charge slotCapacity : Nat} {s s' : BeladyState} {page : PageId}

theorem demandReplayed (ok : beladyDemand trace capacityBytes charge slotCapacity s page = .ok s') :
    ∃ future, popCurrentDemand s.future page = .ok future ∧ s'.future = future ∧
      s'.demandOrdinal = s.demandOrdinal + 1 ∧ s.demandOrdinal + 1 < modulus ∧
      DemandServed slotCapacity page (trace.page page).logicalBytes {s with future := future} s' := by
  obtain ⟨future,popped,ok⟩ := bindOk.mp ok
  obtain ⟨metrics,counted,ok⟩ := bindOk.mp ok
  obtain ⟨middle,served,ok⟩ := bindOk.mp ok
  obtain ⟨-,-,ok⟩ := bindOk.mp ok
  obtain ⟨ordinal,advanced,last⟩ := bindOk.mp ok
  cases last
  cases endsValue (demandSafe ..) counted
  obtain ⟨frame,serves⟩ := serveServed served
  obtain ⟨fits,next⟩ := addOk.mp advanced
  rw [frame.ordinal] at fits next
  refine ⟨future,popped,frame.future,next,fits,?_⟩
  cases serves with
  | hit present residents load => exact .hit present residents load
  | miss absent replaces load =>
    refine .miss absent ?_ load
    cases replaces with
    | room free residents => exact .room free residents
    | full full chosen residents => exact .full full chosen residents

theorem demandsCounted {demands : List PageId}
    (ok : demands.foldlM (beladyDemand trace capacityBytes charge slotCapacity) s = .ok s')
    (fits : s.demandOrdinal < modulus) : s.demandOrdinal + demands.length < modulus := by
  induction demands generalizing s with
  | nil => exact fits
  | cons page rest ih =>
    obtain ⟨next,one,later⟩ := foldCons.mp ok
    obtain ⟨_,-,-,ordinal,word,-⟩ := demandReplayed one
    have bound := ih later (by omega)
    rw [List.length_cons]
    omega

theorem replayed {demands : List PageId} {cost : Nat} (costs : ∀ page ∈ demands, (trace.page page).logicalBytes = cost)
    (index : Indexes s.future s.demandOrdinal demands) (within : s.residents.card ≤ slotCapacity)
    (fits : s.demandOrdinal < modulus)
    (ok : demands.foldlM (beladyDemand trace capacityBytes charge slotCapacity) s = .ok s') :
    ∃ misses, Replays slotCapacity s.residents demands misses ∧
      s'.metrics.demandLoadBytes = s.metrics.demandLoadBytes + misses * cost := by
  induction demands generalizing s with
  | nil =>
    cases foldNil.mp ok
    exact ⟨0,.done _,by simp⟩
  | cons page rest ih =>
    have word := demandsCounted ok fits
    obtain ⟨next,one,later⟩ := foldCons.mp ok
    obtain ⟨future,pop,same,ordinal,-,serves⟩ := demandReplayed one
    have indexed : Indexes next.future next.demandOrdinal rest := by
      rw [same,ordinal]
      exact popped index pop
    have paid := costs page List.mem_cons_self
    have more := ih (s := next) (fun p member => costs p (List.mem_cons_of_mem _ member)) indexed
    rw [List.length_cons] at word
    cases serves with
    | hit present residents load =>
      obtain ⟨misses,replays,total⟩ := more (by rw [residents]; exact within) (by omega) later
      rw [residents] at replays
      rw [load] at total
      exact ⟨misses,.hit present replays,total⟩
    | miss absent replaces load =>
      rw [paid] at load
      have load : next.metrics.demandLoadBytes = s.metrics.demandLoadBytes + cost := load
      cases replaces with
      | room free residents =>
        have card : next.residents.card ≤ slotCapacity := by
          rw [residents,Finset.card_insert_of_notMem absent]
          exact free
        obtain ⟨misses,replays,total⟩ := more card (by omega) later
        rw [residents] at replays
        refine ⟨misses + 1,.fill absent free replays,?_⟩
        rw [total,load,Nat.succ_mul]
        omega
      | @full victim full chosen residents =>
        have filled : s.residents.card = slotCapacity := Nat.le_antisymm within (Nat.le_of_not_lt full)
        have farthest : Farthest s.residents page rest victim := by
          rcases chosen with ⟨none,rfl⟩ | rfl
          · have empty : s.residents = ∅ := Finset.card_eq_zero.mp (filled.trans none)
            exact ⟨Finset.mem_insert_self _ _,fun p member => by simp_all⟩
          · exact victimFarthest (popped index pop) (by omega)
        have card : next.residents.card ≤ slotCapacity := by
          rw [residents]
          exact (replaceCard absent farthest.member).trans_le within
        obtain ⟨misses,replays,total⟩ := more card (by omega) later
        rw [residents] at replays
        refine ⟨misses + 1,.replace absent filled farthest replays,?_⟩
        rw [total,load,Nat.succ_mul]
        omega

end Replay

theorem beladyReplays {capacityBytes : Nat} {replay : BeladyReplay}
    (ok : simulateBelady trace capacityBytes = .ok replay) :
    ∃ charge cost misses, Uniform trace charge cost ∧
      Replays (min (capacityBytes / charge) trace.pages.length) ∅ trace.demands misses ∧
      replay.metrics.demandLoadBytes = misses * cost := by
  obtain ⟨⟨charge,cost⟩,geometry,ok⟩ := bindOk.mp ok
  have uniform := geometryUniform geometry
  obtain ⟨final,ran,ok⟩ := bindOk.mp ok
  obtain ⟨metrics,finished,last⟩ := bindOk.mp ok
  cases last
  cases metricsFinished finished
  have start : 0 < modulus := by decide
  have word := demandsCounted ran start
  have costs : ∀ page ∈ trace.demands, (trace.page page).logicalBytes = cost :=
    fun page member => uniform.costs _ (pageMember (demandKnown member))
  obtain ⟨misses,replays,total⟩ := replayed costs (futureIndexes (by simpa using word)) (Nat.zero_le _) start ran
  refine ⟨charge,cost,misses,uniform,replays,total.trans ?_⟩
  exact Nat.zero_add _

theorem beladyOptimal {capacityBytes : Nat} {replay : BeladyReplay}
    (ok : simulateBelady trace capacityBytes = .ok replay) :
    Optimal (trace.fits capacityBytes) trace.missCost trace.demands replay.metrics.demandLoadBytes := by
  obtain ⟨charge,cost,misses,uniform,replays,total⟩ := beladyReplays ok
  rw [total]
  exact uniformOptimal uniform (replayOptimal replays)

theorem beladyMinimum {trace : ValidatedTrace} {charge cost capacityBytes : Nat} {replay : BeladyReplay}
    (_ : ∀ page ∈ trace.pages, page.chargeBytes = charge ∧ page.logicalBytes = cost)
    (ok : simulateBelady trace capacityBytes = .ok replay) :
    IsLeast {spent | Serves (trace.fits capacityBytes) trace.missCost ∅ trace.demands spent}
      replay.metrics.demandLoadBytes :=
  beladyOptimal ok

-- Three pages in two slots. The third page is bypassed, since the other two come again.
theorem cycleValid :
    (validateRecords ⟨headerKind,traceSchema,"cycle",3,6,64,prefetchModel⟩
      [⟨0,50,64,.shared⟩,⟨1,50,64,.shared⟩,⟨2,50,64,.shared⟩]
      [.demand 0 7 0 0,.demand 1 7 0 1,.demand 2 7 1 2,.demand 3 7 1 0,.demand 4 7 2 1,.demand 5 7 2 0]
      defaultLimits).toOption.isSome := by decide +kernel

def cycle : ValidatedTrace := value _ cycleValid

theorem cycleReplays : (simulateBelady cycle 128).toOption.isSome := by decide +kernel

theorem cycleMinimum : IsLeast {spent | Serves (cycle.fits 128) cycle.missCost ∅ [0,1,2,0,1,0] spent} 150 := by
  have load : (value _ cycleReplays).metrics.demandLoadBytes = 150 := by decide +kernel
  have demands : cycle.demands = [0,1,2,0,1,0] := by decide +kernel
  have uniform : ∀ page ∈ cycle.pages, page.chargeBytes = 64 ∧ page.logicalBytes = 50 := by decide +kernel
  have least := beladyMinimum uniform (valueOk cycleReplays)
  rwa [load,demands] at least

end RunnelMoe.Sim
