import Mathlib.Order.Interval.Finset.Nat
import RunnelMoe.CacheFlags

/-! Prefetch accounting over whole executions. An admission is a load that was published
with prefetch interest and no waiter. It is counted once: as useful when a get returns a
lease on it by a hit, or as wasted when its entry goes before that. A hit takes its lease in
one section and clears the flag in a later one; the lease keeps the entry until then. -/
namespace RunnelMoe.PageCache
open StoreErrors Words PageSpecs CacheLimits KeyedSum Runs AsyncReads
open Std (ExtTreeMap)

def Service.returnedHits (s : Service) : List PageLease :=
  s.returned.filterMap (fun row => match row.2.2 with | .hit lease => some lease | _ => none)

def Service.used (s : Service) (admission : PageKey × Nat) : Bool :=
  s.returnedHits.any (PageLease.on admission.1 admission.2)

def Service.keeps (s : Service) (admission : PageKey × Nat) : Bool :=
  s.entries[admission.1]?.any (fun e => e.generation == admission.2)

def Entry.prefetchLoad (e : Entry) : Bool := match e.state with
  | .loading l => l.prefetchInterest && l.waiters.isEmpty
  | _ => false

def Entry.isResident (e : Entry) : Bool := match e.state with
  | .resident _ => true
  | _ => false

def admitted (s next : Service) : Event → List (PageKey × Nat)
  | .complete request _ _ =>
      if s.entries[request.spec.key]?.any Entry.prefetchLoad ∧ next.entries[request.spec.key]?.any Entry.isResident
      then [(request.spec.key,request.generation)] else []
  | _ => []

def admissions (config : CacheConfig) (readers : AsyncReaderConfig) : Service → List Event → List (PageKey × Nat)
  | _, [] => []
  | s, event::rest => match s.step config readers event with
    | none => []
    | some next => admissions config readers next rest ++ admitted s next event

structure Accounts (before after : CacheInner) : Prop where
  keeps : KeepsFlags (before.state.pages []) (after.state.pages [])
  conserves : Conserves before after
  word : before.state.generation < modulus → after.state.generation < modulus

section Sections
variable {config : CacheConfig} {readers : AsyncReaderConfig} {inner out after : CacheInner} {leases leases' : List PageLease}
  {ambient : Ambient} {spec : PageSpec} {call : Nat} {submit : Except StoreError Unit} {allowed : Move → Prop}

theorem accountsRefined (refines : Refines config allowed inner.state leases after.state leases')
    (keeps : ∀ move, allowed move → move.keepsFlags) (conserves : Conserves inner after)
    (word : inner.state.generation < modulus → after.state.generation < modulus) : Accounts inner after := by
  obtain ⟨generation,entries⟩ := turnsKeepFlags refines.turns keeps
  exact ⟨⟨generation,entries⟩,conserves,word⟩

theorem accountsSame (state : after.state = inner.state)
    (useful : after.metrics.usefulPrefetches = inner.metrics.usefulPrefetches)
    (wasted : after.metrics.wastedPrefetches = inner.metrics.wastedPrefetches) : Accounts inner after := by
  refine ⟨?_,conservesSame useful wasted (by rw [state]),by rw [state]; exact id⟩
  rw [state]
  exact flagsKept _

theorem accountsRefl (inner : CacheInner) : Accounts inner inner := accountsSame rfl rfl rfl

theorem countsWord {s s' : CacheState} (counts : Counts s s') (word : s.generation < modulus) :
    s'.generation < modulus := by
  rcases counts.generation with same | ⟨advanced,small⟩
  · rw [same]; exact word
  · rw [advanced]; exact small

theorem countersWord {s s' : CacheState} (counters : SameCounters s s') (word : s.generation < modulus) :
    s'.generation < modulus := by
  rw [counters.generation]
  exact word

theorem getAccounts {reply : GetReply} (accepted : Accepted config) (good : Good config inner.state leases)
    (done : get config ambient spec call submit inner = (out,reply)) : Accounts inner out := by
  have conserves : Conserves inner out := by
    have conserved := @getConserves config ambient spec call submit inner accepted
    rwa [done] at conserved
  refine accountsRefined (getRefines good (getEffect accepted good.ledgered (goodFits accepted good) done))
    (fun move may => by cases move <;> trivial) conserves (fun word => ?_)
  rcases getCounts accepted done with counts | ⟨same,-⟩
  · exact countsWord counts word
  · rw [same]
    exact word

theorem prefetchAccounts {result : Except StoreError PrefetchOutcome} (accepted : Accepted config)
    (good : Good config inner.state leases) (done : prefetch config ambient spec submit inner = (out,result)) :
    Accounts inner out := by
  have conserves : Conserves inner out := by
    have conserved := @prefetchConserves config ambient spec submit inner accepted
    rwa [done] at conserved
  have effect := prefetchEffect accepted good.sound.bounded good.ledgered (goodFits accepted good) done
  refine accountsRefined (prefetchRefines good effect) (fun move may => by cases move <;> trivial) conserves
    (fun word => ?_)
  rcases prefetchCounts accepted done with counts | ⟨counts,-⟩
  · exact countsWord counts word
  · exact countsWord counts word

theorem withdrawAccounts (accepted : Accepted config) (good : Good config inner.state leases)
    (key : PageKey) (generation waiterId : Nat) : Accounts inner (withdrawWaiter inner key generation waiterId) := by
  have effect := withdrawEffect key generation waiterId good.ledgered (goodFits accepted good)
  refine accountsRefined (withdrawRefines good effect) (fun move may => by subst may; trivial)
    (withdrawConserves inner key generation waiterId) (fun word => ?_)
  cases effect with
  | gone same => rw [same]; exact word
  | withdrawn _ _ _ _ _ _ _ counters => exact countersWord counters word

theorem releaseAccounts (accepted : Accepted config) (good : Good config inner.state leases) {lease : PageLease}
    (alive : lease ∈ leases) : Accounts inner (releaseLease inner lease.key lease.generation) :=
  accountsRefined (releaseRefines accepted good alive) (fun move may => by subst may; trivial)
    (releaseConserves inner lease.key lease.generation) (countersWord (releaseCounters _ _ _))

theorem invalidateAccounts (accepted : Accepted config) (good : Good config inner.state leases) (key : PageKey) :
    Accounts inner (invalidate inner key).1 :=
  accountsRefined (invalidateRefines accepted good) (fun move may => by cases move <;> trivial)
    (invalidateConserves inner key) (countersWord (invalidateCounters _ _))

theorem shutdownAccounts (accepted : Accepted config) (good : Good config inner.state leases) :
    Accounts inner (shutdown inner).1 :=
  accountsRefined (shutdownRefines accepted good) (fun move may => by cases move <;> trivial)
    (shutdownConserves inner) (fun word => (shutdownCounters accepted good).generation ▸ word)

end Sections

structure Audited (config : CacheConfig) (s : Service) (admissions : List (PageKey × Nat)) : Prop where
  good : Good config s.inner.state s.leases
  word : s.inner.state.generation < modulus
  rows : ∀ row ∈ s.hits, row.2.2.key = row.2.1.key
  distinct : (admissions.map Prod.snd).Nodup
  below : ∀ a ∈ admissions, 0 < a.2 ∧ a.2 ≤ s.inner.state.generation
  positive : ∀ (key : PageKey) (e : Entry), s.entries[key]? = some e → 0 < e.generation
  returned : ∀ lease ∈ s.returnedHits, lease.generation ≤ s.inner.state.generation
  loading : ∀ (key : PageKey) (e : Entry), s.entries[key]? = some e → e.isLoading = true →
    (∀ a ∈ admissions, a.2 ≠ e.generation) ∧ ∀ lease ∈ s.returnedHits, lease.generation ≠ e.generation
  flags : ∀ (key : PageKey) (e : Entry), s.entries[key]? = some e →
    (e.unused = true ↔ (key,e.generation) ∈ admissions ∧ s.used (key,e.generation) = false)
  useful : s.inner.metrics.usefulPrefetches = admissions.countP s.used
  balance : s.inner.metrics.usefulPrefetches + s.inner.metrics.wastedPrefetches + flagged s.entries =
    admissions.length

section Audit
variable {config : CacheConfig} {readers : AsyncReaderConfig} {s next : Service} {admissions : List (PageKey × Nat)}

theorem auditedLength (audited : Audited config s admissions) : admissions.length ≤ s.inner.state.generation := by
  have inside : (admissions.map Prod.snd).toFinset ⊆ Finset.Icc 1 s.inner.state.generation := by
    intro g member
    obtain ⟨a,known,rfl⟩ := List.mem_map.mp (List.mem_toFinset.mp member)
    obtain ⟨positive,below⟩ := audited.below a known
    exact Finset.mem_Icc.mpr ⟨positive,below⟩
  have card := Finset.card_le_card inside
  rw [List.toFinset_card_of_nodup audited.distinct,List.length_map,Nat.card_Icc] at card
  omega

theorem usedSame (same : next.returnedHits = s.returnedHits) (a : PageKey × Nat) : next.used a = s.used a := by
  rw [Service.used,same]
  rfl

theorem auditedStill (audited : Audited config s admissions) (good : Good config next.inner.state next.leases)
    (accounts : Accounts s.inner next.inner) (same : next.returnedHits = s.returnedHits)
    (rows : ∀ row ∈ next.hits, row ∈ s.hits ∨ row.2.2.key = row.2.1.key) : Audited config next admissions := by
  have length := auditedLength audited
  have word := audited.word
  have balance := audited.balance
  obtain ⟨useful,wasted⟩ := accounts.conserves (by
    have entries : flagged s.inner.state.entries = flagged s.entries := rfl
    unfold modulus at word
    unfold maxWord
    omega)
  have grows : s.inner.state.generation ≤ next.inner.state.generation := accounts.keeps.generation
  have used : next.used = s.used := funext (usedSame same)
  refine ⟨good,accounts.word word,?_,audited.distinct,?_,?_,?_,?_,?_,?_,?_⟩
  · intro row member
    exact (rows row member).elim (audited.rows row) id
  · intro a member
    obtain ⟨positive,below⟩ := audited.below a member
    exact ⟨positive,below.trans grows⟩
  · intro key e found
    rcases accounts.keeps.entries key e found with ⟨old,present,generation,-,-⟩ | ⟨-,fresh⟩
    · rw [← generation]
      exact audited.positive key old present
    · exact Nat.zero_lt_of_lt fresh
  · rw [same]
    exact fun lease member => (audited.returned lease member).trans grows
  · intro key e found isLoading
    rw [same]
    rcases accounts.keeps.entries key e found with ⟨old,present,generation,-,loading⟩ | ⟨-,fresh⟩
    · rw [← generation]
      exact audited.loading key old present (loading.trans isLoading)
    · refine ⟨fun a member => ?_,fun lease member => ?_⟩
      · exact Nat.ne_of_lt ((audited.below a member).2.trans_lt fresh)
      · exact Nat.ne_of_lt ((audited.returned lease member).trans_lt fresh)
  · intro key e found
    rw [used]
    rcases accounts.keeps.entries key e found with ⟨old,present,generation,unused,-⟩ | ⟨loading,fresh⟩
    · rw [← generation,← unused]
      exact audited.flags key old present
    · rw [loadingUnflagged loading]
      refine iff_of_false nofun (fun counted => ?_)
      exact absurd (audited.below _ counted.1).2 (Nat.not_le.mpr fresh)
  · rw [useful,used]
    exact audited.useful
  · rw [useful]
    have entries : flagged s.inner.state.entries = flagged s.entries := rfl
    have entries' : flagged next.inner.state.entries = flagged next.entries := rfl
    omega

variable {key : PageKey} {e : Entry} {lease : PageLease}

theorem publishedAudited {e' : Entry} (audited : Audited config s admissions)
    (good : Good config next.inner.state next.leases) (present : s.entries[key]? = some e) (loading : e.isLoading = true)
    (entries : next.entries = s.entries.insert key e') (generation : e'.generation = e.generation)
    (loaded : e'.isLoading = false) (counters : next.inner.state.generation = s.inner.state.generation)
    (useful : next.inner.metrics.usefulPrefetches = s.inner.metrics.usefulPrefetches)
    (wasted : next.inner.metrics.wastedPrefetches = s.inner.metrics.wastedPrefetches)
    (same : next.returnedHits = s.returnedHits) (hits : next.hits = s.hits) :
    Audited config next ((if e'.unused then [(key,e.generation)] else []) ++ admissions) := by
  obtain ⟨unknown,unreturned⟩ := audited.loading key e present loading
  have used : next.used = s.used := funext (usedSame same)
  have fresh : s.used (key,e.generation) = false := by
    refine List.any_eq_false.mpr fun lease member on => ?_
    simp only [PageLease.on,Bool.and_eq_true,beq_iff_eq] at on
    exact unreturned lease member on.2
  have numbered : e.generation ≤ s.inner.state.generation := audited.good.sound.numbered.below key e present
  have others {k : PageKey} {x : Entry} (found : next.entries[k]? = some x) :
      k = key ∧ x = e' ∨ k ≠ key ∧ s.entries[k]? = some x := by
    rw [entries,getInsert] at found
    split at found
    · exact .inl ⟨by assumption,(Option.some.inj found).symm⟩
    · exact .inr ⟨by assumption,found⟩
  have elsewhere {k : PageKey} {x : Entry} (other : k ≠ key) (found : s.entries[k]? = some x) :
      x.generation ≠ e.generation := fun equal => other (audited.good.sound.numbered.distinct k key x e found present equal)
  have balance := audited.balance
  have erased : flagged s.entries = flagged (s.entries.erase key) := by
    rw [flaggedErased present,loadingUnflagged loading]
    exact Nat.zero_add _
  have inserted : flagged next.entries = (if e'.unused then 1 else 0) + flagged s.entries := by
    rw [entries,erased]
    exact totalInsert _ _ _ _
  have members (a : PageKey × Nat) : a ∈ (if e'.unused then [(key,e.generation)] else []) ++ admissions ↔
      e'.unused = true ∧ a = (key,e.generation) ∨ a ∈ admissions := by
    cases e'.unused <;> simp
  refine ⟨good,counters ▸ audited.word,hits ▸ audited.rows,?_,?_,?_,?_,?_,?_,?_,?_⟩
  · cases e'.unused with
    | false => exact audited.distinct
    | true =>
      refine List.nodup_cons.mpr ⟨fun member => ?_,audited.distinct⟩
      obtain ⟨a,known,equal⟩ := List.mem_map.mp member
      exact unknown a known equal
  · intro a member
    rw [counters]
    rcases (members a).mp member with ⟨-,rfl⟩ | known
    · exact ⟨audited.positive key e present,numbered⟩
    · exact audited.below a known
  · intro k x found
    rcases others found with ⟨-,rfl⟩ | ⟨-,old⟩
    · rw [generation]
      exact audited.positive key e present
    · exact audited.positive k x old
  · rw [same,counters]
    exact audited.returned
  · intro k x found isLoading
    rcases others found with ⟨-,rfl⟩ | ⟨other,old⟩
    · rw [loaded] at isLoading
      contradiction
    · obtain ⟨earlier,returned⟩ := audited.loading k x old isLoading
      refine ⟨fun a member => ?_,same ▸ returned⟩
      rcases (members a).mp member with ⟨-,rfl⟩ | known
      · exact (elsewhere other old).symm
      · exact earlier a known
  · intro k x found
    rw [used,members]
    rcases others found with ⟨rfl,rfl⟩ | ⟨other,old⟩
    · rw [generation]
      have absent : (k,e.generation) ∉ admissions := fun known => unknown _ known rfl
      simp [absent,fresh]
    · have different : (k,x.generation) ≠ (key,e.generation) := fun equal => other (congrArg Prod.fst equal)
      simp only [different,and_false,false_or]
      exact audited.flags k x old
  · rw [useful,used,audited.useful,List.countP_append]
    cases e'.unused <;> simp [fresh]
  · rw [useful,wasted,inserted,List.length_append,← balance]
    cases e'.unused
    · simp
    · simp only [if_true,List.length_singleton]
      omega

theorem loadNotResident (load : e.prefetchLoad = true) : e.isResident = false := by
  unfold Entry.prefetchLoad at load
  unfold Entry.isResident
  split at load
  · rename_i state
    simp only [state]
  · contradiction

theorem admittedPublished {request : Request} {result : Except StoreError VerifiedPage} {stats : ReadStats}
    {e' : Entry} {l : LoadingEntry} (present : s.entries[request.spec.key]? = some e) (loading : e.state = .loading l)
    (entries : next.entries = s.entries.insert request.spec.key e') (resident : e'.isResident = true)
    (current : e.generation = request.generation) :
    admitted s next (.complete request result stats) =
      if prefetchedUnusedOnAdmission l.prefetchInterest l.waiters.length then [(request.spec.key,e.generation)] else [] := by
  have load : e.prefetchLoad = prefetchedUnusedOnAdmission l.prefetchInterest l.waiters.length := by
    simp only [Entry.prefetchLoad,loading,prefetchedUnusedOnAdmission]
    cases l.waiters <;> rfl
  have found : next.entries[request.spec.key]? = some e' := by
    rw [entries]
    exact getInsertSame _ _ _
  simp only [admitted,present,found,Option.any_some,resident,and_true,current,load]

theorem completeAudited {request : Request} {result : Except StoreError VerifiedPage} {stats : ReadStats}
    {inner : CacheInner} {deliveries : List Delivery} (accepted : Accepted config)
    (audited : Audited config s admissions) (good : Good config next.inner.state next.leases)
    (done : finishObservedLoad s.inner request.spec.key request.generation result stats = (inner,deliveries))
    (state : next.inner = inner) (same : next.returnedHits = s.returnedHits) (hits : next.hits = s.hits) :
    Audited config next (admitted s next (.complete request result stats) ++ admissions) := by
  obtain ⟨useful,wasted⟩ := completeMetrics s.inner request.spec.key request.generation result stats
  rw [done,← state] at useful wasted
  have rows : ∀ row ∈ next.hits, row ∈ s.hits ∨ row.2.2.key = row.2.1.key := by
    rw [hits]
    exact fun row member => .inl member
  have effect := observedEffect audited.good.ledgered (goodFits accepted audited.good) done
  rw [← state] at effect
  cases effect with
  | stale unchanged =>
    have none : admitted s next (.complete request result stats) = [] := by
      refine if_neg fun ⟨before,after⟩ => ?_
      obtain ⟨e,present,load⟩ := (Option.any_eq_true _ _).mp before
      rw [Service.entries,unchanged] at after
      obtain ⟨e',found,resident⟩ := (Option.any_eq_true _ _).mp after
      cases Option.some.inj (present.symm.trans found)
      rw [loadNotResident load] at resident
      contradiction
    rw [none]
    exact auditedStill audited good (accountsSame unchanged useful wasted) same rows
  | @failed e l error present current loading entries ledgered counters =>
    have none : admitted s next (.complete request result stats) = [] := by
      refine if_neg fun ⟨_,after⟩ => ?_
      rw [Service.entries,entries,getEraseSame] at after
      contradiction
    have isLoading : e.isLoading = true := by simp only [Entry.isLoading,loading]
    rw [none]
    refine auditedStill audited good ⟨?_,?_,fun word => countersWord counters word⟩ same rows
    · have kept : KeepsFlags (s.inner.state.pages []) _ := @flagsKeptErased _ request.spec.key []
      refine ⟨counters.generation.ge,fun key e' found => ?_⟩
      have found : next.inner.state.entries[key]? = some e' := found
      rw [entries] at found
      exact kept.entries key e' found
    · refine conservesDropped present entries useful ?_
      rw [loadingUnflagged isLoading]
      exact wasted
  | @published e l page running present current loading accepting answer within entries ledgered counters =>
    have isLoading : e.isLoading = true := by simp only [Entry.isLoading,loading]
    have audited := publishedAudited audited good present isLoading entries rfl rfl counters.generation useful wasted same hits
    rw [admittedPublished present loading entries rfl current]
    exact audited

theorem onIff {generation : Nat} :
    PageLease.on key generation lease = true ↔ (key,generation) = (lease.key,lease.generation) := by
  simp only [PageLease.on,Bool.and_eq_true,beq_iff_eq,Prod.mk.injEq]
  exact and_congr eq_comm eq_comm

theorem countUsed {a : PageKey × Nat} {before after : PageKey × Nat → Bool} (distinct : admissions.Nodup)
    (member : a ∈ admissions) (fresh : before a = false) (later : ∀ b, after b = true ↔ b = a ∨ before b = true) :
    admissions.countP after = admissions.countP before + 1 := by
  induction admissions with
  | nil => contradiction
  | cons b rest ih =>
    obtain ⟨unseen,distinct⟩ := List.nodup_cons.mp distinct
    rw [List.countP_cons,List.countP_cons]
    rcases List.mem_cons.mp member with rfl | inside
    · have others : rest.countP after = rest.countP before := by
        refine List.countP_congr fun b known => ?_
        rw [later b]
        exact or_iff_right (fun equal => unseen (equal ▸ known))
      rw [others,fresh,(later a).mpr (.inl rfl)]
      rfl
    · have other : b ≠ a := fun equal => unseen (equal ▸ inside)
      have same : (after b = true) = (before b = true) := by
        rw [later b]
        exact propext (or_iff_right other)
      rw [ih distinct inside]
      simp only [same]
      omega

theorem markedUse {inner : CacheInner} (present : inner.state.entries[key]? = some e)
    (loaded : e.isLoading = false) :
    (e.unused = false ∧ markPrefetchUse inner key e.generation = inner) ∨
      e.unused = true ∧ ∃ e' : Entry, e'.generation = e.generation ∧ e'.unused = false ∧ e'.isLoading = false ∧
        markPrefetchUse inner key e.generation = (inner.store key e').meter Metrics.usefulPrefetch := by
  simp only [markPrefetchUse,present,ne_eq,not_true_eq_false,if_false]
  cases state : e.state with
  | loading l => simp [Entry.isLoading,state] at loaded
  | resident r =>
    cases flag : r.prefetchedUnused with
    | false => exact .inl ⟨by simp [Entry.unused,state,flag],by simp [flag]⟩
    | true =>
      exact .inr ⟨by simp [Entry.unused,state,flag],{e with state := .resident {r with prefetchedUnused := false}},
        rfl,rfl,rfl,by simp [flag]⟩
  | retiring r =>
    cases flag : r.prefetchedUnused with
    | false => exact .inl ⟨by simp [Entry.unused,state,flag],by simp [flag]⟩
    | true =>
      exact .inr ⟨by simp [Entry.unused,state,flag],{e with state := .retiring {r with prefetchedUnused := false}},
        rfl,rfl,rfl,by simp [flag]⟩

structure Returns (s next : Service) (e : Entry) (lease : PageLease) : Prop where
  at_ : s.entries[lease.key]? = some e
  numbered : e.generation = lease.generation
  loaded : e.isLoading = false
  hits : next.returnedHits = lease :: s.returnedHits

theorem returnsUsed (returns : Returns s next e lease) (a : PageKey × Nat) :
    next.used a = true ↔ a = (lease.key,lease.generation) ∨ s.used a = true := by
  rw [Service.used,returns.hits,List.any_cons,Bool.or_eq_true,onIff]
  rfl

theorem usedAudited (audited : Audited config s admissions)
    (good : Good config next.inner.state next.leases) (returns : Returns s next e lease)
    (inner : next.inner = markPrefetchUse s.inner lease.key e.generation) (hits : ∀ row ∈ next.hits, row ∈ s.hits) :
    Audited config next admissions := by
  have later := returnsUsed returns
  obtain ⟨present,numbered,loaded,returned⟩ := returns
  have below : e.generation ≤ s.inner.state.generation := audited.good.sound.numbered.below lease.key e present
  have flags := audited.flags lease.key e present
  rw [numbered] at flags
  have elsewhere {k : PageKey} {x : Entry} (found : s.entries[k]? = some x) (loading : x.isLoading = true) :
      lease.generation ≠ x.generation := by
    intro equal
    have same := audited.good.sound.numbered.distinct k lease.key x e found present (by rw [numbered,equal])
    rw [same] at found
    cases Option.some.inj (present.symm.trans found)
    rw [loaded] at loading
    contradiction
  have leases {bound : Nat} (grows : s.inner.state.generation ≤ bound) :
      ∀ l ∈ next.returnedHits, l.generation ≤ bound := by
    rw [returned]
    intro l member
    rcases List.mem_cons.mp member with rfl | old
    · exact numbered ▸ below.trans grows
    · exact (audited.returned l old).trans grows
  have unreturned {k : PageKey} {x : Entry} (found : s.entries[k]? = some x) (loading : x.isLoading = true) :
      ∀ l ∈ next.returnedHits, l.generation ≠ x.generation := by
    rw [returned]
    intro l member
    rcases List.mem_cons.mp member with rfl | old
    · exact elsewhere found loading
    · exact (audited.loading k x found loading).2 l old
  rcases markedUse present loaded with ⟨clean,same⟩ | ⟨flag,e',generation,clean,settled,marked⟩
  · -- The flag was gone: the admission, if it is one, had been used before.
    have still : ∀ a ∈ admissions, next.used a = s.used a := by
      intro a member
      refine Bool.eq_iff_iff.mpr ((later a).trans (or_iff_right_of_imp ?_))
      rintro rfl
      by_contra unused
      have flag := flags.mpr ⟨member,Bool.eq_false_iff.mpr unused⟩
      rw [clean] at flag
      contradiction
    rw [same] at inner
    have entries : next.entries = s.entries := congrArg (fun i => i.state.entries) inner
    refine ⟨good,inner ▸ audited.word,fun row member => audited.rows row (hits row member),audited.distinct,
      inner ▸ audited.below,entries ▸ audited.positive,leases (by rw [inner]),?_,?_,?_,?_⟩
    · intro k x found loading
      rw [entries] at found
      exact ⟨(audited.loading k x found loading).1,unreturned found loading⟩
    · intro k x found
      rw [entries] at found
      rw [audited.flags k x found]
      exact and_congr_right fun member => by rw [still _ member]
    · rw [inner,audited.useful]
      exact List.countP_congr fun a member => by rw [still a member]
    · rw [inner,entries]
      exact audited.balance
  · obtain ⟨member,fresh⟩ := flags.mp flag
    have length := auditedLength audited
    have word := audited.word
    have balance := audited.balance
    have split : flagged s.entries = 1 + flagged (s.entries.erase lease.key) := by
      rw [flaggedErased present,flag]
      rfl
    rw [marked] at inner
    have entries : next.entries = s.entries.insert lease.key e' := congrArg (fun i => i.state.entries) inner
    have counted : next.inner.metrics.usefulPrefetches = s.inner.metrics.usefulPrefetches + 1 := by
      have saturated : next.inner.metrics.usefulPrefetches = saturatingAdd s.inner.metrics.usefulPrefetches 1 := by
        rw [inner]
        rfl
      rw [saturated]
      exact saturatingAddExact (by omega)
    have wasted : next.inner.metrics.wastedPrefetches = s.inner.metrics.wastedPrefetches := by
      rw [inner]
      rfl
    have counters : next.inner.state.generation = s.inner.state.generation := by
      rw [inner]
      rfl
    have others {k : PageKey} {x : Entry} (found : next.entries[k]? = some x) :
        k = lease.key ∧ x = e' ∨ k ≠ lease.key ∧ s.entries[k]? = some x := by
      rw [entries,getInsert] at found
      split at found
      · exact .inl ⟨by assumption,(Option.some.inj found).symm⟩
      · exact .inr ⟨by assumption,found⟩
    refine ⟨good,counters ▸ word,fun row member => audited.rows row (hits row member),audited.distinct,
      counters ▸ audited.below,?_,leases counters.ge,?_,?_,?_,?_⟩
    · intro k x found
      rcases others found with ⟨-,rfl⟩ | ⟨-,old⟩
      · exact generation ▸ audited.positive lease.key e present
      · exact audited.positive k x old
    · intro k x found loading
      rcases others found with ⟨-,rfl⟩ | ⟨-,old⟩
      · rw [settled] at loading
        contradiction
      · exact ⟨(audited.loading k x old loading).1,unreturned old loading⟩
    · intro k x found
      rcases others found with ⟨rfl,rfl⟩ | ⟨other,old⟩
      · have used := (later (lease.key,lease.generation)).mpr (.inl rfl)
        rw [generation,numbered,clean,used]
        simp
      · rw [audited.flags k x old]
        have same : next.used (k,x.generation) = s.used (k,x.generation) := by
          refine Bool.eq_iff_iff.mpr ((later _).trans (or_iff_right ?_))
          exact fun equal => other (congrArg Prod.fst equal)
        rw [same]
    · rw [counted,audited.useful]
      exact (countUsed (audited.distinct.of_map Prod.snd) member fresh later).symm
    · have inserted : flagged next.entries = flagged (s.entries.erase lease.key) := by
        have added : flagged next.entries = (if e'.unused then 1 else 0) + flagged (s.entries.erase lease.key) := by
          rw [entries]
          exact totalInsert _ _ _ _
        rw [added,clean]
        exact Nat.zero_add _
      rw [counted,wasted,inserted]
      omega

theorem submitAudit (s : Service) (readers : AsyncReaderConfig) (request : Request) :
    (s.submit readers request).returnedHits = s.returnedHits ∧ (s.submit readers request).hits = s.hits := by
  unfold Service.submit
  split <;> exact ⟨rfl,rfl⟩

theorem beginAudit (s : Service) (readers : AsyncReaderConfig) (call : Nat) (spec : PageSpec) (reply : GetReply) :
    (s.begin readers call spec reply).returnedHits = s.returnedHits ∧
      ∀ row ∈ (s.begin readers call spec reply).hits, row ∈ s.hits ∨ ∃ lease, reply = .lease lease ∧ row = (call,spec,lease) := by
  cases reply with
  | lease given =>
    refine ⟨rfl,fun row member => ?_⟩
    rcases List.mem_cons.mp member with rfl | old
    · exact .inr ⟨given,rfl,rfl⟩
    · exact .inl old
  | joined | failed => exact ⟨rfl,fun row member => .inl member⟩
  | started generation waiterId =>
    obtain ⟨returned,hits⟩ := submitAudit (s.register call ⟨spec,generation,waiterId⟩) readers ⟨spec,generation⟩
    exact ⟨returned,fun row member => .inl (hits ▸ member)⟩

theorem stepAudited {event : Event} (accepted : Accepted config) (audited : Audited config s admissions)
    (ok : s.step config readers event = some next) : Audited config next (admitted s next event ++ admissions) := by
  have good := serviceGood accepted audited.good ok
  have still (accounts : Accounts s.inner next.inner) (same : next.returnedHits = s.returnedHits)
      (hits : next.hits = s.hits) : Audited config next admissions :=
    auditedStill audited good accounts same (fun row member => .inl (hits ▸ member))
  cases event with
  | get ambient spec =>
    rcases done : get config ambient spec s.nextCall (s.reader.answer readers) s.inner with ⟨inner,reply⟩
    simp only [Service.step,done,Option.some.injEq] at ok
    have accounts := getAccounts accepted audited.good done
    have effect := getEffect accepted audited.good.ledgered (goodFits accepted audited.good) done
    obtain ⟨same,-⟩ := beginLeases {s with inner := inner, nextCall := s.nextCall + 1} readers s.nextCall spec reply
    obtain ⟨returned,hits⟩ := beginAudit {s with inner := inner, nextCall := s.nextCall + 1} readers s.nextCall spec reply
    subst ok
    refine auditedStill audited good (same ▸ accounts) returned (fun row member => (hits row member).imp_right ?_)
    rintro ⟨lease,rfl,rfl⟩
    cases effect
    rfl
  | finishHit row =>
    simp only [Service.step] at ok
    split at ok
    · rename_i member
      cases Option.some.inj ok
      have alive : row.2.2 ∈ s.leases :=
        List.mem_append_left _ (List.mem_map.mpr ⟨row,member,rfl⟩)
      obtain ⟨e,present,same,holds⟩ := audited.good.sound.backed row.2.2 alive
      have loaded : e.isLoading = false := by
        unfold Entry.holds at holds
        unfold Entry.isLoading
        split at holds
        · exact holds.elim
        · rename_i state
          simp only [state]
        · rename_i state
          simp only [state]
      refine usedAudited audited good ⟨present,same,loaded,rfl⟩ ?_ (fun other inside => List.mem_of_mem_erase inside)
      rw [same,audited.rows row member]
      rfl
    · contradiction
  | prefetch ambient spec =>
    rcases done : prefetch config ambient spec (s.reader.answer readers) s.inner with ⟨inner,result⟩
    simp only [Service.step,done,Option.some.injEq] at ok
    have accounts := prefetchAccounts accepted audited.good done
    split at ok
    · obtain ⟨same,-⟩ := submitLeases {s with inner := inner} readers ⟨spec,inner.state.generation⟩
      obtain ⟨returned,hits⟩ := submitAudit {s with inner := inner} readers ⟨spec,inner.state.generation⟩
      subst ok
      exact still (same ▸ accounts) returned hits
    · subst ok
      exact still accounts rfl rfl
  | dequeue | completeForeign =>
    simp only [Service.step,Option.map_eq_some_iff] at ok
    obtain ⟨reader,-,rfl⟩ := ok
    exact still (accountsRefl _) rfl rfl
  | complete request result stats =>
    simp only [Service.step,Option.map_eq_some_iff] at ok
    obtain ⟨reader,-,rfl⟩ := ok
    exact completeAudited accepted audited good rfl rfl rfl rfl
  | send d =>
    simp only [Service.step] at ok
    split at ok
    · split at ok <;> cases Option.some.inj ok <;> exact still (accountsRefl _) rfl rfl
    · contradiction
  | poll call elapsed =>
    simp only [Service.step] at ok
    split at ok
    · unfold Service.poll at ok
      split at ok
      · cases Option.some.inj ok
        exact still (accountsSame rfl rfl rfl) rfl rfl
      · split at ok
        · contradiction
        · cases Option.some.inj ok
          exact still (accountsRefl _) rfl rfl
    · contradiction
  | withdraw call error elapsed =>
    simp only [Service.step] at ok
    split at ok
    · rename_i r waiting
      cases Option.some.inj ok
      obtain ⟨keeps,conserves,word⟩ := withdrawAccounts accepted audited.good r.spec.key r.generation r.waiterId
      exact still ⟨keeps,conservesTrans conserves (conservesSame rfl rfl rfl),word⟩ rfl rfl
    · contradiction
  | leave | abandon | submitForeign =>
    simp only [Service.step] at ok
    split at ok
    · cases Option.some.inj ok
      exact still (accountsRefl _) rfl rfl
    · contradiction
  | unregister call =>
    simp only [Service.step] at ok
    split at ok
    · cases Option.some.inj ok
      exact still (withdrawAccounts accepted audited.good _ _ _) rfl rfl
    · contradiction
  | dropLease lease | dropOrphan lease =>
    simp only [Service.step] at ok
    split at ok
    · rename_i member
      cases Option.some.inj ok
      have alive : lease ∈ s.leases := by simp [Service.leases,member]
      exact still (releaseAccounts accepted audited.good alive) rfl rfl
    · contradiction
  | invalidate key =>
    cases Option.some.inj ok
    exact still (invalidateAccounts accepted audited.good key) rfl rfl
  | shutdown =>
    cases Option.some.inj ok
    exact still (shutdownAccounts accepted audited.good) rfl rfl
  | closeReader =>
    cases Option.some.inj ok
    exact still (accountsRefl _) rfl rfl

theorem emptyAudited (config : CacheConfig) : Audited config .empty [] where
  good := emptyGood config
  word := by decide
  rows := nofun
  distinct := List.nodup_nil
  below := nofun
  positive := everyEmpty _
  returned := nofun
  loading := everyEmpty _
  flags := everyEmpty _
  useful := rfl
  balance := by
    have none : flagged Service.empty.entries = 0 := totalEmpty _
    rw [none]
    rfl

theorem admissionsAudited {events : List Event} (accepted : Accepted config) {earlier : List (PageKey × Nat)}
    (audited : Audited config s earlier) (ran : run (Service.step config readers) s events = some next) :
    Audited config next (PageCache.admissions config readers s events ++ earlier) := by
  induction events generalizing s earlier with
  | nil =>
    cases Option.some.inj ran
    exact audited
  | cons event rest ih =>
    obtain ⟨middle,one,more⟩ := runCons.mp ran
    simp only [PageCache.admissions,one,List.append_assoc]
    exact ih (stepAudited accepted audited one) more

/-! The flags left are the admissions that are kept and unused -/

theorem flaggedLength (entries : ExtTreeMap PageKey Entry) :
    flagged entries = (entries.toList.filter (fun row => row.2.unused)).length := by
  simp only [flagged,total]
  induction entries.toList with
  | nil => rfl
  | cons row rest ih =>
    rw [List.map_cons,List.sum_cons,ih,List.filter_cons]
    cases row.2.unused
    · exact Nat.zero_add _
    · exact Nat.add_comm _ _

theorem flaggedAdmissions (audited : Audited config s admissions) :
    flagged s.entries = admissions.countP (fun a => !s.used a && s.keeps a) := by
  have keys : ((s.entries.toList.filter (fun row => row.2.unused)).map (fun row => (row.1,row.2.generation))).Nodup := by
    refine List.Nodup.of_map Prod.fst ?_
    rw [List.map_map]
    exact (keysNodup s.entries).sublist (List.filter_sublist.map _)
  have distinct : (admissions.filter (fun a => !s.used a && s.keeps a)).Nodup :=
    (audited.distinct.of_map Prod.snd).filter _
  have same : ((s.entries.toList.filter (fun row => row.2.unused)).map (fun row => (row.1,row.2.generation))).Perm
      (admissions.filter (fun a => !s.used a && s.keeps a)) := by
    refine (List.perm_ext_iff_of_nodup keys distinct).mpr fun a => ?_
    simp only [List.mem_map,List.mem_filter,Prod.exists,memToList,Bool.and_eq_true,Bool.not_eq_true']
    constructor
    · rintro ⟨key,e,⟨present,flag⟩,rfl⟩
      obtain ⟨known,unused⟩ := (audited.flags key e present).mp flag
      exact ⟨known,unused,by simp [Service.keeps,present]⟩
    · rintro ⟨known,unused,kept⟩
      obtain ⟨e,present,current⟩ := (Option.any_eq_true _ _).mp kept
      have generation : e.generation = a.2 := by simpa using current
      refine ⟨a.1,e,⟨present,(audited.flags a.1 e present).mpr ?_⟩,by rw [generation]⟩
      rw [generation]
      exact ⟨known,unused⟩
  rw [flaggedLength,List.countP_eq_length_filter,← same.length_eq,List.length_map]

end Audit

structure PrefetchesAccounted (s : Service) (admissions : List (PageKey × Nat)) : Prop where
  distinct : (admissions.map Prod.snd).Nodup
  flags : ∀ (key : PageKey) (e : Entry), s.entries[key]? = some e →
    (e.unused = true ↔ (key,e.generation) ∈ admissions ∧ s.used (key,e.generation) = false)
  useful : s.inner.metrics.usefulPrefetches = admissions.countP s.used
  wasted : s.inner.metrics.wastedPrefetches = admissions.countP (fun a => !s.used a && !s.keeps a)
  balance : s.inner.metrics.usefulPrefetches + s.inner.metrics.wastedPrefetches + flagged s.entries = admissions.length

theorem prefetchesAccounted {config : CacheConfig} (valid : config.validate = .ok ()) {readers : AsyncReaderConfig}
    {events : List Event} {s : Service} (ran : run (Service.step config readers) .empty events = some s) :
    PrefetchesAccounted s (admissions config readers .empty events) := by
  have audited := admissionsAudited (validateAccepts valid) (emptyAudited config) ran
  rw [List.append_nil] at audited
  refine ⟨audited.distinct,audited.flags,audited.useful,?_,audited.balance⟩
  have left := flaggedAdmissions audited
  have balance := audited.balance
  have useful := audited.useful
  have parts (l : List (PageKey × Nat)) : l.length = l.countP s.used + l.countP (fun a => !s.used a && !s.keeps a) +
      l.countP (fun a => !s.used a && s.keeps a) := by
    induction l with
    | nil => rfl
    | cons a rest ih =>
      simp only [List.length_cons,List.countP_cons,ih]
      cases s.used a <;> cases s.keeps a <;> simp <;> omega
  have whole := parts (admissions config readers .empty events)
  omega

/-! Two prefetches. The first page is invalidated while the lease of a hit is out and before
the hit clears the flag; the second is never used and goes with the shutdown. -/

def prefetchedCalls : List Event :=
  [.prefetch sampleAmbient (sampleSpec 0),.dequeue,.complete ⟨sampleSpec 0,1⟩ (.ok (samplePage 0)) ⟨17,5⟩,
    .prefetch sampleAmbient (sampleSpec 1),.dequeue,.complete ⟨sampleSpec 1,2⟩ (.ok (samplePage 1)) ⟨17,5⟩,
    .get sampleAmbient (sampleSpec 0),.invalidate (sampleSpec 0).key,.finishHit (0,sampleSpec 0,sampleLease 0 0 1),
    .dropLease (sampleLease 0 0 1),.shutdown]

def prefetchedService : Service :=
  (run (Service.step defaultConfig twoReaders) .empty prefetchedCalls).getD .empty
theorem prefetchedRun : run (Service.step defaultConfig twoReaders) .empty prefetchedCalls = some prefetchedService :=
  runEnds (by decide +kernel) .empty

theorem prefetchedOnce : admissions defaultConfig twoReaders .empty prefetchedCalls =
      [((sampleSpec 1).key,2),((sampleSpec 0).key,1)] ∧
    prefetchedService.inner.metrics.usefulPrefetches = 1 ∧ prefetchedService.inner.metrics.wastedPrefetches = 1 ∧
    PrefetchesAccounted prefetchedService (admissions defaultConfig twoReaders .empty prefetchedCalls) :=
  ⟨by decide +kernel,by decide +kernel,by decide +kernel,prefetchesAccounted defaultAccepted prefetchedRun⟩

end RunnelMoe.PageCache
