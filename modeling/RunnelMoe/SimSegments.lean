import RunnelMoe.Queues
import RunnelMoe.SimReplay

/-! The protected segment of the segmented policies. Its pages have touches of their own,
so the page that a hit promotes is the most recent of them and no round of the demotion
loop takes it. The loop ends with the segment within its target, whatever the sizes of
the pages are. -/
namespace RunnelMoe.Sim
open Words KeyedSum Results Vectors Queues PolicyState
open Std (ExtTreeMap)

-- One round of rebalance_protected with what its two expect calls would meet.
inductive Round where
  | balanced
  | demoted (residents : Residents)
  | noEntry
  | noResident

def rebalanceRound (protectedTarget demotionTouch : Nat) (residents : Residents) : Round :=
  if ((protectedEntries residents).map ResidentEntry.chargeBytes).sum ≤ protectedTarget then .balanced
  else match (protectedEntries residents).argmin recency with
    | none => .noEntry
    | some victim => match residents[victim.page]? with
      | none => .noResident
      | some demoted =>
        .demoted (residents.insert victim.page {demoted with segment := .probation, lastTouch := demotionTouch})

inductive Balances (protectedTarget demotionTouch : Nat) : Nat → Residents → Residents → Prop where
  | balanced {residents : Residents} (done : rebalanceRound protectedTarget demotionTouch residents = .balanced) :
      Balances protectedTarget demotionTouch 0 residents residents
  | demoted {rounds : Nat} {residents next out : Residents}
      (round : rebalanceRound protectedTarget demotionTouch residents = .demoted next)
      (later : Balances protectedTarget demotionTouch rounds next out) :
      Balances protectedTarget demotionTouch (rounds + 1) residents out

section Loop
variable {protectedTarget touch rounds fuel : Nat} {residents out : Residents}

theorem demoteRound (protectedTarget touch : Nat) (residents : Residents) :
    demoteOne protectedTarget touch residents = match rebalanceRound protectedTarget touch residents with
      | .demoted next => some next
      | _ => none := by
  unfold demoteOne rebalanceRound
  split
  · rfl
  cases (protectedEntries residents).argmin recency with
  | none => rfl
  | some victim =>
    simp only
    cases residents[victim.page]? with
    | none => rfl
    | some demoted => rfl

theorem balancesRebalanced (balances : Balances protectedTarget touch rounds residents out) (enough : rounds ≤ fuel) :
    rebalanceProtected protectedTarget touch fuel residents = out := by
  induction balances generalizing fuel with
  | balanced done =>
    cases fuel with
    | zero => rfl
    | succ fuel => simp only [rebalanceProtected,demoteRound,done]
  | demoted round later ih =>
    cases fuel with
    | zero => omega
    | succ fuel =>
      simp only [rebalanceProtected,demoteRound,round]
      exact ih (Nat.le_of_succ_le_succ enough)

end Loop

def Listed (segment : Segment) : Residents → List PageId → Prop :=
  Queued (fun e : ResidentEntry => e.segment = segment) ResidentEntry.lastTouch

def ResidentEntry.demotedAt (touch : Nat) (e : ResidentEntry) : ResidentEntry :=
  {e with segment := .probation, lastTouch := touch}

def PageCatalog.charge (catalog : PageCatalog) (id : PageId) : Nat := (catalog.page id).chargeBytes

section Lists
variable {catalog : PageCatalog} {residents : Residents} {pages : List PageId} {page : PageId} {e : ResidentEntry}

variable (entries : Every residents (EntrySound catalog))
include entries

theorem protectedFound :
    e ∈ protectedEntries residents ↔ residents[e.page]? = some e ∧ e.segment = .protectedSegment := by
  unfold protectedEntries
  rw [List.mem_filter,decide_eq_true_iff]
  refine and_congr_left (fun _ => ⟨fun member => ?_,fun present => ?_⟩)
  · obtain ⟨id,present⟩ := memValues member
    rwa [(entries id e present).page]
  · exact List.mem_map.mpr ⟨(e.page,e),memToList.mpr present,rfl⟩

theorem protectedPages (listed : Listed .protectedSegment residents pages) :
    ((protectedEntries residents).map ResidentEntry.page).Perm pages := by
  have distinct := (valuePages entries).sublist
    ((List.filter_sublist (p := fun e : ResidentEntry => e.segment = .protectedSegment)).map ResidentEntry.page)
  refine (List.perm_ext_iff_of_nodup distinct (queuedNodup listed)).mpr (fun id => ?_)
  rw [listed.members,List.mem_map]
  constructor
  · intro inside
    obtain ⟨e,member,same⟩ := inside
    obtain ⟨present,kind⟩ := (protectedFound entries).mp member
    exact ⟨e,same ▸ present,kind⟩
  · intro inside
    obtain ⟨e,present,kind⟩ := inside
    have same := (entries id e present).page
    exact ⟨e,(protectedFound entries).mpr ⟨same ▸ present,kind⟩,same⟩

theorem protectedCharges (listed : Listed .protectedSegment residents pages) :
    ((protectedEntries residents).map ResidentEntry.chargeBytes).sum = (pages.map catalog.charge).sum := by
  rw [← ((protectedPages entries listed).map catalog.charge).sum_eq,List.map_map]
  congr 1
  refine List.map_congr_left (fun e member => ?_)
  exact (entries e.page e ((protectedFound entries).mp member).1).charge

theorem leastProtected (listed : Listed .protectedSegment residents (page::pages)) (present : residents[page]? = some e) :
    (protectedEntries residents).argmin recency = some e := by
  have kind : e.segment = .protectedSegment := by
    obtain ⟨e',found,kind⟩ := (listed.members page).mp List.mem_cons_self
    cases Option.some.inj (found.symm.trans present)
    exact kind
  have same := (entries page e present).page
  have member : e ∈ protectedEntries residents := (protectedFound entries).mpr ⟨same ▸ present,kind⟩
  cases least : (protectedEntries residents).argmin recency with
  | none =>
    rw [List.argmin_eq_none.mp least] at member
    contradiction
  | some first =>
    obtain ⟨found,kind'⟩ := (protectedFound entries).mp (List.argmin_mem least)
    have below : recency first ≤ recency e := List.le_of_mem_argmin member least
    have above : recency e ≤ recency first := by
      have order := headLeast listed present found kind'
      rwa [← same] at order
    have equal := (Prod.mk.inj (toLex.injective (le_antisymm below above))).2
    rw [equal,same,present] at found
    rw [found]

/- The loop sheds from the front of the recency list, and nothing else changes. -/
theorem rebalancedList (listed : Listed .protectedSegment residents pages) (protectedTarget touch : Nat) :
    ∃ out, Balances protectedTarget touch (shed catalog.charge protectedTarget pages).1.length residents out ∧
      Listed .protectedSegment out (shed catalog.charge protectedTarget pages).2 ∧
      Every out (EntrySound catalog) ∧
      ∀ id : PageId, out[id]? = if id ∈ (shed catalog.charge protectedTarget pages).1
        then residents[id]?.map (ResidentEntry.demotedAt touch) else residents[id]? := by
  induction pages generalizing residents with
  | nil =>
    refine ⟨residents,.balanced ?_,listed,entries,fun id => by simp [shed]⟩
    unfold rebalanceRound
    rw [protectedCharges entries listed]
    exact if_pos (Nat.zero_le _)
  | cons page rest ih =>
    by_cases light : ((page::rest).map catalog.charge).sum ≤ protectedTarget
    · rw [shedNone light]
      refine ⟨residents,.balanced ?_,listed,entries,fun id => by simp⟩
      unfold rebalanceRound
      rw [protectedCharges entries listed]
      exact if_pos light
    · obtain ⟨e,present,kind⟩ := (listed.members page).mp List.mem_cons_self
      have sound := entries page e present
      have round : rebalanceRound protectedTarget touch residents =
          .demoted (residents.insert page (e.demotedAt touch)) := by
        unfold rebalanceRound
        rw [protectedCharges entries listed,if_neg light,leastProtected entries listed present]
        simp only [ResidentEntry.demotedAt,sound.page,present]
      have front : Listed .protectedSegment (residents.insert page (e.demotedAt touch)) rest := by
        have moved := queuedOut listed page (v := e.demotedAt touch) (by simp [ResidentEntry.demotedAt])
        rwa [List.erase_cons_head] at moved
      have fresh : page ∉ rest := (List.nodup_cons.mp (queuedNodup listed)).1
      have entries' : Every (residents.insert page (e.demotedAt touch)) (EntrySound catalog) :=
        everyInsert entries ⟨sound.page,sound.charge,sound.logical⟩
      obtain ⟨out,later,kept,sound',lookup⟩ := ih entries' front
      have parts := shedParts catalog.charge protectedTarget rest
      have unmoved : page ∉ (shed catalog.charge protectedTarget rest).1 := fun inside =>
        fresh (parts ▸ List.mem_append_left _ inside)
      simp only [shed,if_neg light]
      refine ⟨out,.demoted round later,kept,sound',fun id => ?_⟩
      rw [lookup id,getInsert]
      by_cases here : id = page
      · subst here
        simp [unmoved,present]
      · simp [here]

end Lists

structure Segmented (target touch : Nat) (residents : Residents) : Prop where
  touched : Every residents (fun _ e => e.lastTouch ≤ touch)
  distinct : ∀ (p q : PageId) (e f : ResidentEntry), residents[p]? = some e → residents[q]? = some f →
    e.segment = .protectedSegment → f.segment = .protectedSegment → e.lastTouch = f.lastTouch → p = q
  within : ((protectedEntries residents).map ResidentEntry.chargeBytes).sum ≤ target

def ResidentEntry.protectedBytes (e : ResidentEntry) : Nat :=
  if e.segment = .protectedSegment then e.chargeBytes else 0

def promoted (residents : Residents) (id : PageId) (e : ResidentEntry) (touch : Nat) : Residents :=
  residents.insert id {e with lastTouch := touch, segment := .protectedSegment, prefetchedUnused := false}

section Segments
variable {catalog : PageCatalog} {target touch : Nat} {residents : Residents} {page : PageId} {e new : ResidentEntry}
  {policy : PolicyState}

theorem protectedSum (residents : Residents) :
    ((protectedEntries residents).map ResidentEntry.chargeBytes).sum =
      total (fun _ (e : ResidentEntry) => e.protectedBytes) residents := by
  have kept (entries : List ResidentEntry) :
      ((entries.filter (fun e => e.segment = .protectedSegment)).map ResidentEntry.chargeBytes).sum =
        (entries.map ResidentEntry.protectedBytes).sum := by
    induction entries with
    | nil => rfl
    | cons e rest ih => by_cases kind : e.segment = .protectedSegment <;> simp [kind,ih,ResidentEntry.protectedBytes]
  rw [protectedEntries,kept,residentValues,List.map_map]
  rfl

theorem segmentedEmpty (target touch : Nat) : Segmented target touch ∅ := by
  refine ⟨everyEmpty _,fun p q e f found => by simp at found,?_⟩
  rw [protectedSum,totalEmpty]
  exact Nat.zero_le _

theorem segmentedLater {later : Nat} (segmented : Segmented target touch residents) (after : touch ≤ later) :
    Segmented target later residents :=
  ⟨fun id e found => Nat.le_trans (segmented.touched id e found) after,segmented.distinct,segmented.within⟩

theorem segmentedErase (segmented : Segmented target touch residents) (page : PageId) :
    Segmented target touch (residents.erase page) := by
  refine ⟨everyErase segmented.touched,fun p q e f left right => ?_,?_⟩
  · rw [getErase] at left right
    split at left
    · contradiction
    split at right
    · contradiction
    exact segmented.distinct p q e f left right
  · have within := segmented.within
    rw [protectedSum] at within ⊢
    cases found : residents[page]? with
    | none => rwa [totalAbsent _ found]
    | some e =>
      rw [totalSplit _ found] at within
      omega

/- A row may be replaced by one of no more protected bytes whose touch is its own among
the protected ones. -/
theorem segmentedInsert (segmented : Segmented target touch residents) (bound : new.lastTouch ≤ touch)
    (bytes : new.protectedBytes ≤ (residents[page]?.map ResidentEntry.protectedBytes).getD 0)
    (own : new.segment = .protectedSegment → ∀ (q : PageId) (f : ResidentEntry), q ≠ page → residents[q]? = some f →
      f.segment = .protectedSegment → f.lastTouch ≠ new.lastTouch) :
    Segmented target touch (residents.insert page new) := by
  refine ⟨everyInsert segmented.touched bound,fun p q e f left right kind kind' same => ?_,?_⟩
  · rw [getInsert] at left right
    split at left
    · rename_i here
      cases Option.some.inj left
      split at right
      · rename_i there
        exact here.trans there.symm
      · rename_i there
        exact (own kind q f there right kind' same.symm).elim
    · rename_i here
      split at right
      · cases Option.some.inj right
        exact (own kind' p e here left kind same).elim
      · exact segmented.distinct p q e f left right kind kind' same
  · have within := segmented.within
    rw [protectedSum] at within ⊢
    rw [totalInsert]
    cases found : residents[page]? with
    | none =>
      rw [found] at bytes
      rw [totalAbsent _ found]
      simp only [Option.map_none,Option.getD_none] at bytes
      omega
    | some e =>
      rw [found] at bytes
      rw [totalSplit _ found] at within
      simp only [Option.map_some,Option.getD_some] at bytes
      omega

theorem segmentedProbation (segmented : Segmented target touch residents) (bound : new.lastTouch ≤ touch)
    (kind : new.segment = .probation) : Segmented target touch (residents.insert page new) := by
  refine segmentedInsert segmented bound ?_ (fun other => ?_)
  · simp [ResidentEntry.protectedBytes,kind]
  · rw [kind] at other
    contradiction

theorem segmentedTouched (segmented : Segmented target touch residents) (present : residents[page]? = some e)
    (kind : new.segment = e.segment) (charge : new.chargeBytes = e.chargeBytes) (fresh : new.lastTouch = touch + 1) :
    Segmented target (touch + 1) (residents.insert page new) := by
  refine segmentedInsert (segmentedLater segmented (Nat.le_succ touch)) (Nat.le_of_eq fresh) ?_ (fun _ q f _ found _ same => ?_)
  · simp [present,ResidentEntry.protectedBytes,kind,charge]
  · have bound := segmented.touched q f found
    omega

theorem promotedEntries (entries : Every residents (EntrySound catalog)) (present : residents[page]? = some e)
    (touch : Nat) : Every (promoted residents page e touch) (EntrySound catalog) := by
  have sound := entries page e present
  exact everyInsert entries ⟨sound.page,sound.charge,sound.logical⟩

theorem promotedListed {pages : List PageId} (listed : Listed .protectedSegment residents pages)
    (touched : Every residents (fun _ e => e.lastTouch ≤ touch)) (present : residents[page]? = some e)
    (kind : e.segment = .probation) :
    Listed .protectedSegment (promoted residents page e (touch + 1)) (pages ++ [page]) := by
  have outside : page ∉ pages := fun inside => by
    obtain ⟨e',found,other⟩ := (listed.members page).mp inside
    cases Option.some.inj (found.symm.trans present)
    rw [kind] at other
    contradiction
  have moved := queuedLast listed page
    (v := {e with lastTouch := touch + 1, segment := .protectedSegment, prefetchedUnused := false}) rfl
    (fun a w _ found _ => Nat.lt_succ_of_le (touched a w found))
  rwa [List.erase_of_not_mem outside] at moved

/- What a promotion comes to: the promoted page stays at the recent end, and the rounds
that the loop needs are no more than the other protected pages. -/
theorem promotedBalances (entries : Every residents (EntrySound catalog)) (segmented : Segmented target touch residents)
    (present : residents[page]? = some e) (kind : e.segment = .probation) (fits : e.chargeBytes ≤ target) :
    ∃ rounds out, rounds ≤ (protectedEntries residents).length ∧
      rounds ≤ (protectedEntries (promoted residents page e (touch + 1))).length ∧
      Balances target (touch + 1) rounds (promoted residents page e (touch + 1)) out ∧
      Segmented target (touch + 1) out ∧ (∃ e', out[page]? = some e' ∧ e'.segment = .protectedSegment) ∧
      ∀ (q : PageId) (f : ResidentEntry), out[q]? = some f → f.segment = .protectedSegment → q ≠ page →
        residents[q]? = some f := by
  obtain ⟨pages,listed⟩ : ∃ pages, Listed .protectedSegment residents pages := ⟨_,queueOfQueued residents⟩
  have sound := entries page e present
  have after := promotedListed listed segmented.touched present kind
  have entries' := promotedEntries entries present (touch + 1)
  obtain ⟨out,balances,kept,sound',lookup⟩ := rebalancedList entries' after target (touch + 1)
  have room : catalog.charge page ≤ target := by rwa [PageCatalog.charge,← sound.charge]
  obtain ⟨stay,last⟩ := shedLast room pages
  have parts := shedParts catalog.charge target (pages ++ [page])
  have old (q : PageId) (f : ResidentEntry) (found : out[q]? = some f) (protected_ : f.segment = .protectedSegment)
      (other : q ≠ page) : residents[q]? = some f := by
    rw [lookup q] at found
    split at found
    · obtain ⟨f',_,same⟩ := Option.map_eq_some_iff.mp found
      subst same
      contradiction
    · rwa [promoted,getInsertOther _ _ other] at found
  have top : out[page]? = some {e with lastTouch := touch + 1, segment := .protectedSegment, prefetchedUnused := false} := by
    have distinct := queuedNodup after
    rw [← parts,last,List.nodup_append] at distinct
    rw [lookup page,if_neg (fun inside => distinct.2.2 page inside page (by simp) rfl),promoted,getInsertSame]
  have count := congrArg List.length parts
  have others := (protectedPages entries listed).length_eq
  have all := (protectedPages entries' after).length_eq
  rw [last] at count
  simp only [List.length_append,List.length_singleton,List.length_map] at count others all
  refine ⟨_,out,by omega,by omega,balances,⟨?_,?_,?_⟩,⟨_,top,rfl⟩,old⟩
  · intro q f found
    rw [lookup q] at found
    split at found
    · obtain ⟨f',_,same⟩ := Option.map_eq_some_iff.mp found
      subst same
      exact Nat.le_refl _
    · rw [promoted,getInsert] at found
      split at found
      · cases Option.some.inj found
        exact Nat.le_refl _
      · exact Nat.le_succ_of_le (segmented.touched q f found)
  · intro p q f g left right kind kind' same
    by_cases here : p = page <;> by_cases there : q = page
    · exact here.trans there.symm
    · subst here
      rw [top] at left
      cases Option.some.inj left
      have bound := segmented.touched q g (old q g right kind' there)
      simp only at same
      omega
    · subst there
      rw [top] at right
      cases Option.some.inj right
      have bound := segmented.touched p f (old p f left kind here)
      simp only at same
      omega
    · exact segmented.distinct p q f g (old p f left kind here) (old q g right kind' there) kind kind' same
  · rw [protectedCharges sound' kept]
    exact shedWithin ..

theorem hitSegmented (entries : Every residents (EntrySound catalog)) (segmented : Segmented target touch residents)
    (divided : policy.protectedTarget = some target) (present : residents[page]? = some e) {after : Residents}
    (hit : after = policy.onHit (residents.insert page {e with prefetchedUnused := false}) page (touch + 1)) :
    Segmented target (touch + 1) after ∧
      (e.segment = .probation → 0 < target → e.chargeBytes ≤ target →
        (∃ e', after[page]? = some e' ∧ e'.segment = .protectedSegment) ∧
          ∃ rounds, rounds ≤ (protectedEntries residents).length ∧
            Balances target (touch + 1) rounds (promoted residents page e (touch + 1)) after) ∧
      ∀ (q : PageId) (f : ResidentEntry), after[q]? = some f → f.segment = .protectedSegment → q ≠ page →
        residents[q]? = some f := by
  simp only [PolicyState.onHit,getInsertSame,divided,insertInsert] at hit
  split at hit
  · rename_i promotes
    obtain ⟨kind,-,fits⟩ := promotes
    obtain ⟨rounds,out,few,enough,balances,kept,top,old⟩ := promotedBalances entries segmented present kind fits
    have same : after = out := hit.trans (balancesRebalanced balances enough)
    subst same
    exact ⟨kept,fun _ _ _ => ⟨top,rounds,few,balances⟩,old⟩
  · rename_i stays
    subst hit
    refine ⟨segmentedTouched segmented present rfl rfl rfl,fun kind positive fits => ?_,fun q f found _ other => ?_⟩
    · exact (stays ⟨kind,positive,fits⟩).elim
    · rwa [getInsertOther _ _ other] at found

end Segments

structure Quiet (Inv : Nat → Residents → Prop) : Prop where
  later : ∀ {touch next : Nat} {residents : Residents}, touch ≤ next → Inv touch residents → Inv next residents
  erase : ∀ {touch : Nat} {residents : Residents} (page : PageId), Inv touch residents →
    Inv touch (residents.erase page)
  insert : ∀ {touch : Nat} {residents : Residents} (page : PageId) {e : ResidentEntry}, e.lastTouch = touch →
    e.segment = .probation → Inv touch residents → Inv touch (residents.insert page e)

theorem segmentedQuiet (target : Nat) : Quiet (Segmented target) :=
  ⟨fun after segmented => segmentedLater segmented after,fun page segmented => segmentedErase segmented page,
    fun _ _ bound kind segmented => segmentedProbation segmented (Nat.le_of_eq bound) kind⟩

def ProtectedIn (before residents : Residents) : Prop :=
  ∀ (page : PageId) (e : ResidentEntry), residents[page]? = some e → e.segment = .protectedSegment →
    before[page]? = some e

theorem protectedInQuiet (before : Residents) : Quiet (fun _ => ProtectedIn before) := by
  refine ⟨fun _ kept => kept,fun page kept q f found kind => ?_,fun page e _ kind kept q f found kind' => ?_⟩
  · rw [getErase] at found
    split at found
    · contradiction
    · exact kept q f found kind
  · rw [getInsert] at found
    split at found
    · cases Option.some.inj found
      rw [kind] at kind'
      contradiction
    · exact kept q f found kind'

section Steps
variable {catalog : PageCatalog} {capacityBytes : Nat} {Inv : Nat → Residents → Prop} {k k' : Kernel}

theorem evictedQuiet (quiet : Quiet Inv) {touch : Nat} (victims : List PageId) (holds : Inv touch k.residents) :
    Inv touch (k.evictedAll victims).residents := by
  induction victims generalizing k with
  | nil => exact holds
  | cons page rest ih =>
    refine ih (k := k.evicted page) ?_
    rw [evictedResidents]
    exact quiet.erase page holds

theorem prefetchedQuiet (quiet : Quiet Inv) (catalogued : Catalogued catalog)
    (probation : k.policy.initialSegment = .probation) (pages : List PageId) (holds : Inv k.touch k.residents) :
    Inv (k.prefetchedAll catalog pages).touch (k.prefetchedAll catalog pages).residents := by
  induction pages generalizing k with
  | nil => exact holds
  | cons page rest ih =>
    refine ih (k := k.prefetched catalog page) probation ?_
    rw [prefetchedResidents catalogued]
    exact quiet.insert page rfl probation (quiet.later (Nat.le_succ _) holds)

theorem triedQuiet (quiet : Quiet Inv) (catalogued : Catalogued catalog)
    (probation : k.policy.initialSegment = .probation) {group : PrefetchGroup} {budget : PrefetchBudget}
    {out : Kernel × PrefetchBudget} (tried : Tried catalog capacityBytes group budget k out)
    (holds : Inv k.touch k.residents) : Inv out.1.touch out.1.residents := by
  cases tried with
  | redundant | dropped => exact holds
  | @admitted victims =>
    obtain ⟨policy,touch,-⟩ := allFrame (k.offeredGroup catalog group.pageIds) victims
    refine prefetchedQuiet quiet catalogued ?_ _ ?_
    · rw [policy]
      exact probation
    · rw [touch]
      exact evictedQuiet quiet victims holds

theorem groupsQuiet (quiet : Quiet Inv) (catalogued : Catalogued catalog)
    (groups : Groups catalog capacityBytes k k') (probation : k'.policy.initialSegment = .probation)
    (holds : Inv k.touch k.residents) : Inv k'.touch k'.residents := by
  induction groups with
  | recorded => exact holds
  | tried before tried ih =>
    have same := triedPolicy tried
    rw [same] at probation
    exact triedQuiet quiet catalogued probation tried (ih probation)

theorem dividedProbation {policy : PolicyState} {target : Nat} (divided : policy.protectedTarget = some target) :
    policy.initialSegment = .probation := by
  cases policy with
  | slru | router => rfl
  | noCache | lru | tinyLfu => contradiction

variable {sequence request step target : Nat} {id : PageId} {policy : PolicyState} {bytes : Nat}

theorem hitOnce (served : Served catalog capacityBytes sequence request step id (k.demanded policy bytes) k')
    {e : ResidentEntry} (present : k.residents[id]? = some e) :
    k'.touch = k.touch + 1 ∧ k'.residents = policy.onHit
      (k.residents.insert id {e with prefetchedUnused := false}) id (k.touch + 1) := by
  have here : (k.demanded policy bytes).residents[id]? = some e := present
  cases served with
  | hit found ordinary =>
    cases Option.some.inj (found.symm.trans here)
    have same : ({e with prefetchedUnused := false} : ResidentEntry) = e := by rw [← ordinary]
    rw [same,insertPresent present]
    exact ⟨rfl,rfl⟩
  | useful found =>
    cases Option.some.inj (found.symm.trans here)
    exact ⟨rfl,rfl⟩
  | bypass absent =>
    rw [here] at absent
    contradiction
  | admitted absent =>
    rw [here] at absent
    contradiction

theorem missQuiet (quiet : Quiet Inv) (probation : policy.initialSegment = .probation)
    (served : Served catalog capacityBytes sequence request step id (k.demanded policy bytes) k')
    (absent : k.residents[id]? = none) (holds : Inv k.touch k.residents) : Inv k'.touch k'.residents := by
  have later : Inv (k.touch + 1) k.residents := quiet.later (Nat.le_succ _) holds
  have gone : (k.demanded policy bytes).residents[id]? = none := absent
  cases served with
  | hit found =>
    rw [gone] at found
    contradiction
  | useful found =>
    rw [gone] at found
    contradiction
  | bypass => exact later
  | @admitted victims =>
    obtain ⟨same,touch,-⟩ := allFrame ((k.demanded policy bytes).missed (catalog.page id).logicalBytes) victims
    have after := evictedQuiet (k := (k.demanded policy bytes).missed (catalog.page id).logicalBytes) quiet victims later
    show Inv (((k.demanded policy bytes).missed (catalog.page id).logicalBytes).evictedAll victims).touch _
    rw [touch]
    refine quiet.insert _ rfl ?_ after
    show ((k.demanded policy bytes).missed (catalog.page id).logicalBytes |>.evictedAll victims).policy.initialSegment = _
    rw [same]
    exact probation

end Steps

section Policies
variable {request step targetStep layer : Nat} {predictions : List ExpertPrediction}

theorem enteredFrame {state next : RouterState} (ok : state.enterDemandStep request step = .ok next) :
    ∃ active current, next = {state with active := active, currentMetadataBytes := current} := by
  unfold RouterState.enterDemandStep at ok
  split at ok
  · cases ok
    exact ⟨_,_,rfl⟩
  · obtain ⟨_,-,ok⟩ := bindOk.mp ok
    obtain ⟨_,-,last⟩ := bindOk.mp ok
    cases last
    exact ⟨_,_,rfl⟩

theorem recordedFrame {state next : RouterState}
    (ok : state.recordSignal request targetStep layer predictions = .ok next) :
    ∃ active current peak recorded, next = {state with
      active := active, currentMetadataBytes := current, peakMetadataBytes := peak, recordedMetadataBytes := recorded} := by
  unfold RouterState.recordSignal at ok
  obtain ⟨-,ok⟩ := guardOk.mp ok
  obtain ⟨-,ok⟩ := guardOk.mp ok
  obtain ⟨_,-,ok⟩ := bindOk.mp ok
  obtain ⟨_,-,ok⟩ := bindOk.mp ok
  obtain ⟨_,-,ok⟩ := bindOk.mp ok
  obtain ⟨-,last⟩ := guardOk.mp ok
  cases last
  exact ⟨_,_,_,_,rfl⟩

def PolicyState.settings : PolicyState → PolicyState
  | .router state => .router {state with
      active := ∅, currentMetadataBytes := 0, peakMetadataBytes := 0, recordedMetadataBytes := 0}
  | .tinyLfu _ => .lru
  | policy => policy

variable {policy next : PolicyState}

theorem settingsTarget (same : next.settings = policy.settings) : next.protectedTarget = policy.protectedTarget := by
  have kept (policy : PolicyState) : policy.settings.protectedTarget = policy.protectedTarget := by cases policy <;> rfl
  rw [← kept,same,kept]

theorem observedSettings (ok : policy.enterDemandStep request step = .ok next) (id : PageId) :
    (next.observeDemand id).settings = policy.settings := by
  cases policy with
  | router state =>
    obtain ⟨after,entered,last⟩ := bindOk.mp ok
    cases last
    obtain ⟨_,_,rfl⟩ := enteredFrame entered
    rfl
  | noCache | lru | slru | tinyLfu =>
    cases ok
    rfl

theorem signalledSettings (ok : signalPolicy policy request targetStep layer predictions = .ok next) :
    next.settings = policy.settings := by
  cases policy with
  | router state =>
    simp only [signalPolicy,routerConfig,PolicyState.recordSignal] at ok
    split at ok
    · cases ok
      rfl
    · obtain ⟨after,recorded,last⟩ := bindOk.mp ok
      cases last
      obtain ⟨_,_,_,_,rfl⟩ := recordedFrame recorded
      rfl
  | noCache | lru | slru | tinyLfu =>
    cases ok
    rfl

theorem steppedSettings {catalog : PageCatalog} {capacityBytes : Nat} {k k' : Kernel} {event : TraceEvent}
    (stepped : Stepped catalog capacityBytes k k' event) : k'.policy.settings = k.policy.settings := by
  cases stepped with
  | demand entered served =>
    rw [servedPolicy served]
    exact observedSettings entered _
  | signal recorded => exact signalledSettings recorded

theorem reachedSettings {trace : ValidatedTrace} {config : SimulationConfig} {start k : Kernel}
    {past rest : List TraceEvent} (made : Kernel.new trace config = .ok start) (parts : trace.events = past ++ rest)
    (reached : past.foldlM (Kernel.event trace.catalog config.capacityBytes) start = .ok k) :
    k.policy.settings = start.policy.settings :=
  reachedInvariant (fun _ k => k.policy.settings = start.policy.settings) made rfl
    (fun _ _ _ _ _ _ kept _ _ stepped => (steppedSettings stepped).trans kept) parts reached

theorem routerReached {trace : ValidatedTrace} {config : SimulationConfig} {settings : RouterPolicyConfig} {start k : Kernel}
    {past rest : List TraceEvent} (router : config.policy.router? = some settings)
    (made : Kernel.new trace config = .ok start) (parts : trace.events = past ++ rest)
    (reached : past.foldlM (Kernel.event trace.catalog config.capacityBytes) start = .ok k) :
    ∃ state, k.policy = .router state ∧ state.config = settings ∧ state.prefetch = config.policy.prefetches := by
  have same := reachedSettings made parts reached
  obtain ⟨-,-,rfl⟩ := routerStarts router made
  cases policy : k.policy with
  | router state =>
    rw [policy] at same
    simp only [PolicyState.settings,Kernel.fresh,RouterState.fresh,PolicyState.router.injEq,RouterState.mk.injEq] at same
    exact ⟨state,rfl,same.2.1,same.2.2.1⟩
  | noCache | lru | slru | tinyLfu =>
    rw [policy] at same
    contradiction

def PolicySpec.protectedFraction? : PolicySpec → Option Nat
  | .slru fraction => some fraction
  | .routerAdmit config | .routerPrefetch config => some config.protectedFractionPpm
  | _ => none

theorem newTarget {trace : ValidatedTrace} {config : SimulationConfig} {start : Kernel} {fraction : Nat}
    (made : Kernel.new trace config = .ok start) (segmented : config.policy.protectedFraction? = some fraction) :
    start.policy.protectedTarget = some (config.capacityBytes * fraction / ppm) ∧ start.residents = ∅ ∧ start.touch = 0 := by
  obtain ⟨capacityBytes,spec⟩ := config
  cases spec with
  | slru part =>
    cases Option.some.inj segmented
    cases slruStarts made
    exact ⟨rfl,rfl,rfl⟩
  | routerAdmit settings | routerPrefetch settings =>
    cases Option.some.inj segmented
    obtain ⟨-,-,rfl⟩ := routerStarts rfl made
    exact ⟨rfl,rfl,rfl⟩
  | noCache | lru | tinyLfu | belady => contradiction

end Policies

def HitSince (catalog : PageCatalog) (capacityBytes : Nat) (start : Kernel) (past : List TraceEvent) (id : PageId) : Prop :=
  ∃ before sequence request step after k, past = before ++ .demand sequence request step id :: after ∧
    before.foldlM (Kernel.event catalog capacityBytes) start = .ok k ∧ id ∈ k.residents ∧
    ∀ between rest k', after = between ++ rest →
      (before ++ .demand sequence request step id :: between).foldlM (Kernel.event catalog capacityBytes) start = .ok k' →
      ∃ e, k'.residents[id]? = some e ∧ e.segment = .protectedSegment

section Runs
variable {catalog : PageCatalog} {capacityBytes target : Nat} {start k k' : Kernel} {past : List TraceEvent}
  {event : TraceEvent} {id : PageId} {e : ResidentEntry}

theorem hitSinceLater (since : HitSince catalog capacityBytes start past id)
    (reached : (past ++ [event]).foldlM (Kernel.event catalog capacityBytes) start = .ok k')
    (present : k'.residents[id]? = some e) (kind : e.segment = .protectedSegment) :
    HitSince catalog capacityBytes start (past ++ [event]) id := by
  obtain ⟨before,sequence,request,step,after,k,parts,found,inside,always⟩ := since
  refine ⟨before,sequence,request,step,after ++ [event],k,by rw [parts]; simp,found,inside,fun between rest middle split run => ?_⟩
  rcases List.eq_nil_or_concat rest with none | ⟨rest,last,some_⟩
  · subst none
    rw [List.append_nil] at split
    subst split
    rw [parts,List.append_assoc,List.cons_append] at reached
    cases Except.ok.inj (reached.symm.trans run)
    exact ⟨e,present,kind⟩
  · subst some_
    rw [List.concat_eq_append,← List.append_assoc] at split
    exact always between rest middle (List.append_inj_left' split rfl) run

theorem hitSinceNow {sequence request step : Nat}
    (before : past.foldlM (Kernel.event catalog capacityBytes) start = .ok k) (inside : id ∈ k.residents)
    (reached : (past ++ [TraceEvent.demand sequence request step id]).foldlM (Kernel.event catalog capacityBytes) start = .ok k')
    (present : k'.residents[id]? = some e) (kind : e.segment = .protectedSegment) :
    HitSince catalog capacityBytes start (past ++ [.demand sequence request step id]) id := by
  refine ⟨past,sequence,request,step,[],k,rfl,before,inside,fun between rest middle split run => ?_⟩
  obtain ⟨none,-⟩ := List.append_eq_nil_iff.mp split.symm
  subst none
  cases Except.ok.inj (reached.symm.trans run)
  exact ⟨e,present,kind⟩

theorem steppedSegmented (catalogued : Catalogued catalog) (entries : Every k.residents (EntrySound catalog))
    (divided : k.policy.protectedTarget = some target) (segmented : Segmented target k.touch k.residents)
    (stepped : Stepped catalog capacityBytes k k' event) :
    Segmented target k'.touch k'.residents ∧
      ∀ (id : PageId) (e : ResidentEntry), k'.residents[id]? = some e → e.segment = .protectedSegment →
        k.residents[id]? = some e ∨ id ∈ k.residents ∧ ∃ sequence request step, event = .demand sequence request step id := by
  have after := settingsTarget (steppedSettings stepped)
  rw [divided] at after
  have start : ProtectedIn k.residents k.residents := fun _ _ found _ => found
  cases stepped with
  | @demand sequence request step page policy entered served =>
    have divided' := (settingsTarget (observedSettings entered page)).trans divided
    cases found : k.residents[page]? with
    | none =>
      have probation := dividedProbation divided'
      exact ⟨missQuiet (segmentedQuiet target) probation served found segmented,
        fun id e present kind => .inl (missQuiet (protectedInQuiet k.residents) probation served found start id e present kind)⟩
    | some e =>
      obtain ⟨touch,residents⟩ := hitOnce served found
      obtain ⟨kept,-,old⟩ := hitSegmented entries segmented divided' found residents
      rw [touch]
      refine ⟨kept,fun id f present kind => ?_⟩
      by_cases here : id = page
      · subst here
        refine .inr ⟨?_,_,_,_,rfl⟩
        rw [ExtTreeMap.mem_iff_isSome_getElem?,found]
        rfl
      · exact .inl (old id f present kind here)
  | signal recorded groups =>
    have probation := dividedProbation after
    exact ⟨groupsQuiet (segmentedQuiet target) catalogued groups probation segmented,
      fun id e present kind => .inl (groupsQuiet (protectedInQuiet k.residents) catalogued groups probation start id e present kind)⟩

variable {trace : ValidatedTrace} {config : SimulationConfig} {fraction : Nat} {rest : List TraceEvent}

theorem reachedSegmented (segmented : config.policy.protectedFraction? = some fraction)
    (made : Kernel.new trace config = .ok start) (parts : trace.events = past ++ rest)
    (reached : past.foldlM (Kernel.event trace.catalog config.capacityBytes) start = .ok k) :
    k.policy.protectedTarget = some (config.capacityBytes * fraction / ppm) ∧
      Segmented (config.capacityBytes * fraction / ppm) k.touch k.residents ∧
      ∀ (id : PageId) (e : ResidentEntry), k.residents[id]? = some e → e.segment = .protectedSegment →
        HitSince trace.catalog config.capacityBytes start past id := by
  obtain ⟨divided,empty,zero⟩ := newTarget made segmented
  refine reachedInvariant (fun past k => k.policy.protectedTarget = some (config.capacityBytes * fraction / ppm) ∧
    Segmented (config.capacityBytes * fraction / ppm) k.touch k.residents ∧
    ∀ (id : PageId) (e : ResidentEntry), k.residents[id]? = some e → e.segment = .protectedSegment →
      HitSince trace.catalog config.capacityBytes start past id) made ?_ ?_ parts reached
  · rw [empty]
    exact ⟨divided,segmentedEmpty ..,fun id e found => by simp at found⟩
  · intro past event k k' _ before kept sound stepped step
    obtain ⟨divided,segmented,since⟩ := kept
    obtain ⟨after,origin⟩ := steppedSegmented (traceCatalogued trace) sound.stocked.entries divided segmented step
    refine ⟨(settingsTarget (steppedSettings step)).trans divided,after,fun id e present kind => ?_⟩
    have run : (past ++ [event]).foldlM (Kernel.event trace.catalog config.capacityBytes) start = .ok k' := by
      rw [List.foldlM_append]
      exact bindOk.mpr ⟨k,before,foldCons.mpr ⟨k',stepped,foldNil.mpr rfl⟩⟩
    rcases origin id e present kind with old | ⟨inside,sequence,request,target,rfl⟩
    · exact hitSinceLater (since id e old kind) run present kind
    · exact hitSinceNow before inside run present kind

theorem protectedBounded (segmented : config.policy.protectedFraction? = some fraction)
    (made : Kernel.new trace config = .ok start) (parts : trace.events = past ++ rest)
    (reached : past.foldlM (Kernel.event trace.catalog config.capacityBytes) start = .ok k) :
    ((protectedEntries k.residents).map ResidentEntry.chargeBytes).sum ≤ config.capacityBytes * fraction / ppm ∧
      (∀ (p q : PageId) (e f : ResidentEntry), k.residents[p]? = some e → k.residents[q]? = some f →
        e.segment = .protectedSegment → f.segment = .protectedSegment → e.lastTouch = f.lastTouch → p = q) ∧
      (∀ (id : PageId) (e : ResidentEntry), k.residents[id]? = some e → e.segment = .protectedSegment →
        HitSince trace.catalog config.capacityBytes start past id) ∧
      ∀ sequence request step id later k' e, rest = .demand sequence request step id :: later →
        k.event trace.catalog config.capacityBytes (.demand sequence request step id) = .ok k' →
        k.residents[id]? = some e → e.segment = .probation → 0 < config.capacityBytes * fraction / ppm →
        e.chargeBytes ≤ config.capacityBytes * fraction / ppm →
        (∃ e', k'.residents[id]? = some e' ∧ e'.segment = .protectedSegment) ∧
          ∃ rounds, rounds ≤ (protectedEntries k.residents).length ∧
            Balances (config.capacityBytes * fraction / ppm) (k.touch + 1) rounds
              (promoted k.residents id e (k.touch + 1)) k'.residents := by
  obtain ⟨divided,kept,since⟩ := reachedSegmented segmented made parts reached
  refine ⟨kept.within,kept.distinct,since,?_⟩
  intro sequence request step id later k' e next stepped found kind positive fits
  subst next
  have sound := (reachedRunning made parts reached).sound.stocked.entries
  cases reachedStepped made parts reached stepped with
  | @demand _ _ _ _ policy entered served =>
    obtain ⟨-,residents⟩ := hitOnce served found
    obtain ⟨-,promotes,-⟩ := hitSegmented sound kept ((settingsTarget (observedSettings entered id)).trans divided) found residents
    exact promotes kind positive fits

end Runs

theorem demotionsValid :
    (validateRecords ⟨headerKind,traceSchema,"demotions",4,7,64,prefetchModel⟩
      [⟨0,40,64,.shared⟩,⟨1,50,64,.shared⟩,⟨2,120,128,.shared⟩,⟨3,60,64,.shared⟩]
      [.demand 0 1 0 1,.demand 1 1 0 0,.demand 2 1 0 1,.demand 3 1 0 0,.demand 4 1 0 2,.demand 5 1 0 2,.demand 6 1 0 3]
      defaultLimits).toOption.isSome := by decide +kernel

def demotions : ValidatedTrace := value _ demotionsValid

def halved : SimulationConfig := ⟨256,.slru 500000⟩

theorem demotionsStart : (Kernel.new demotions halved).toOption.isSome := by decide +kernel

theorem demotionsReached : ((demotions.events.take 5).foldlM (Kernel.event demotions.catalog 256)
    (value _ demotionsStart)).toOption.isSome := by decide +kernel

theorem demotionsHit : ((value _ demotionsReached).event demotions.catalog 256 (.demand 5 1 0 2)).toOption.isSome := by
  decide +kernel

theorem demotionsBounded :
    ((protectedEntries (value _ demotionsReached).residents).map ResidentEntry.page) = [0,1] ∧
      ∃ rounds, rounds ≤ 2 ∧ Balances 128 6 rounds
        (promoted (value _ demotionsReached).residents 2 ⟨2,128,120,5,.probation,false⟩ 6)
        (value _ demotionsHit).residents := by
  have segmented : halved.policy.protectedFraction? = some 500000 := rfl
  have bounded := protectedBounded segmented (valueOk demotionsStart)
    (List.take_append_drop 5 demotions.events).symm (valueOk demotionsReached)
  have promotion := bounded.2.2.2 5 1 0 2 [.demand 6 1 0 3] _ ⟨2,128,120,5,.probation,false⟩ (by decide +kernel)
    (valueOk demotionsHit) (by decide +kernel) rfl (by decide +kernel) (by decide +kernel)
  exact ⟨by decide +kernel,promotion.2⟩

end RunnelMoe.Sim
