import RunnelMoe.CacheTransitions

/-! Every call of the cache is a finite sequence of moves and keeps the ledger exact.
The moves a call may use are given by a predicate, so that a call that cannot create
a lease or publish a page is known to do neither. -/
namespace RunnelMoe.PageCache
open StoreErrors Words PageSpecs CacheLimits KeyedSum
open Std (ExtTreeMap)

def CacheState.pages (s : CacheState) (leases : List PageLease) : Pages :=
  ⟨s.entries,leases,s.generation,s.waiter,s.shutdown⟩

structure Good (config : CacheConfig) (s : CacheState) (leases : List PageLease) : Prop where
  ledgered : Ledgered s
  sound : Sound config (s.pages leases)

structure Refines (config : CacheConfig) (allowed : Move → Prop) (s : CacheState) (leases : List PageLease)
    (s' : CacheState) (leases' : List PageLease) : Prop where
  ledgered : Ledgered s'
  turns : Turns config allowed (s.pages leases) (s'.pages leases')

theorem boundedFits {config : CacheConfig} {s : CacheState} (accepted : Accepted config) (ledgered : Ledgered s)
    (bounded : Bounded config s.entries) : Fits s.ledger := by
  have split := tallyPool s.entries
  have small := acceptedSmall accepted
  have inflight := accepted.inflight
  have capacity := config.poolFits
  have word : 1048576 < modulus := by decide
  have same : (tally s.entries).waiters = (tally s.entries).leaseReservations := rfl
  obtain ⟨b1,b2,b3,b4,b5,b6,-⟩ := bounded
  rw [ledgered]
  constructor <;> omega

section Refinement
variable {config : CacheConfig} {s s' : CacheState} {leases leases' : List PageLease} {allowed : Move → Prop}

theorem goodFits (accepted : Accepted config) (good : Good config s leases) : Fits s.ledger :=
  boundedFits accepted good.ledgered good.sound.bounded

theorem refinesGood (refines : Refines config allowed s leases s' leases') (good : Good config s leases) :
    Good config s' leases' := ⟨refines.ledgered,turnsSound refines.turns good.sound⟩

theorem oneTurn (move : Move) {p q : Pages} (may : allowed move) (turn : Turn config move p q) :
    Turns config allowed p q := .single ⟨move,may,turn⟩

theorem pagesAfter {entries : ExtTreeMap PageKey Entry} {generation waiter : Nat} {stopped : Bool}
    (sameEntries : s'.entries = entries) (sameGeneration : s'.generation = generation)
    (sameWaiter : s'.waiter = waiter) (sameShutdown : s'.shutdown = stopped) :
    s'.pages leases = ⟨entries,leases,generation,waiter,stopped⟩ := by
  subst sameEntries sameGeneration sameWaiter sameShutdown
  rfl

theorem unmovedRefines (good : Good config s leases) (may : allowed .count) (unmoved : Unmoved s s') :
    Refines config allowed s leases s' leases := by
  refine ⟨by rw [Ledgered,unmoved.entries,unmoved.ledger]; exact good.ledgered,?_⟩
  rw [pagesAfter unmoved.entries rfl rfl unmoved.shutdown]
  exact oneTurn .count may (.count unmoved.generation unmoved.waiter)

end Refinement

def GetReply.leases : GetReply → List PageLease
  | .lease given => [given]
  | _ => []

def Move.admits (key : PageKey) : Move → Prop
  | .count | .evict _ => True
  | .hit k | .join k | .start k _ => k = key
  | _ => False

section Calls
variable {config : CacheConfig} {s s' : CacheState} {leases : List PageLease} {spec : PageSpec}
  {submit : Except StoreError Unit}

theorem grantedTurns {p : Pages} {middle : ExtTreeMap PageKey Entry} {allocation : Nat} {taken rest : List Candidate}
    {allowed : Move → Prop} (may : ∀ key, allowed (.evict key))
    (granted : Granted config p.entries middle allocation taken rest) :
    Turns config allowed p {p with entries := middle} := by
  obtain ⟨victims,distinct⟩ := takenVictims granted.split
  have turns : Turns config allowed p _ := evictTurns victims distinct may
  rw [← granted.entries] at turns
  exact turns

theorem startTurn (leases : List PageLease) {middle : ExtTreeMap PageKey Entry} {allocation : Nat} {taken rest : List Candidate} {e : Entry}
    {l : LoadingEntry} (running : s.shutdown = false) (absent : s.entries[spec.key]? = none)
    (granted : Granted config s.entries middle allocation taken rest) (state : e.state = .loading l)
    (alone : l.waiters = []) (fresh : e.generation = s.generation + 1) (charge : e.allocationBytes = allocation) :
    Turn config (.start spec.key e.generation) {s.pages leases with entries := middle}
      ⟨middle.insert spec.key e,leases,e.generation,s.waiter,s.shutdown⟩ :=
  .start running (grantedAbsent granted absent) state alone (by rw [fresh]; exact Nat.lt_succ_self _)
    (charge ▸ granted.pool) (charge ▸ granted.inflight) granted.loads granted.room

theorem getRefines {ambient : Ambient} {call : Nat} {reply : GetReply} (good : Good config s leases)
    (effect : GetEffect config ambient spec call submit s s' reply) :
    Refines config (Move.admits spec.key) s leases s' (reply.leases ++ leases) := by
  cases effect with
  | quiet unmoved => exact unmovedRefines good (show Move.admits spec.key .count from trivial) unmoved
  | hit running present _ state room entries ledgered generation waiter tick shutdown =>
    refine ⟨ledgered,?_⟩
    rw [good.ledgered] at room
    rw [pagesAfter entries generation waiter shutdown]
    exact oneTurn (.hit spec.key) rfl (.hit running present state room)
  | joined running present _ state accepting waiters perPage room entries ledgered generation waiter shutdown =>
    refine ⟨ledgered,?_⟩
    rw [good.ledgered] at room waiters
    rw [pagesAfter entries generation waiter shutdown]
    exact oneTurn (.join spec.key) rfl
      (.join running present state accepting (Nat.lt_succ_self s.waiter) waiters perPage room)
  | refused running absent _ granted _ ledgered generation waiter shutdown =>
    refine ⟨ledgered,?_⟩
    rw [pagesAfter rfl generation waiter shutdown]
    have evictions : Turns config (Move.admits spec.key) (s.pages leases) _ :=
      grantedTurns (fun _ => trivial) granted
    exact evictions.trans (oneTurn .count trivial (.count (Nat.le_succ _) (Nat.le_succ _)))
  | @started allocation middle taken rest running absent _ waiters perPage room granted _ entries ledgered generation waiter tick shutdown =>
    refine ⟨ledgered,?_⟩
    rw [pagesAfter entries generation waiter shutdown]
    have evictions : Turns config (Move.admits spec.key) (s.pages leases) _ :=
      grantedTurns (fun _ => trivial) granted
    let alone : LoadingEntry := ⟨[],false,.demand,false,true,s'.tick⟩
    let loading : Entry := ⟨spec.fingerprint,spec.length,allocation,s.generation + 1,.loading alone⟩
    have started := startTurn leases running absent granted (e := loading) (l := alone) rfl rfl rfl rfl
    have columns := tallyInsert middle spec.key loading
    rw [shareLoading (l := alone) rfl,eraseAbsent (grantedAbsent granted absent)] at columns
    rw [good.ledgered,← granted.leases,← granted.reservations] at room
    rw [good.ledgered,← granted.waiters] at waiters
    have joined : Turn config (.join spec.key)
        ⟨middle.insert spec.key loading,leases,s.generation + 1,s.waiter,s.shutdown⟩
        ⟨(middle.insert spec.key loading).insert spec.key
          {loading with state := .loading {alone with waiters := alone.waiters ++ [⟨s.waiter + 1,call⟩], lastTouch := s'.tick}},
          leases,s.generation + 1,s.waiter + 1,s.shutdown⟩ :=
      .join running (getInsertSame _ _ _) rfl rfl (Nat.lt_succ_self _) (by rw [columns]; simpa [Ledger.add,alone] using waiters)
        perPage (by rw [columns]; simpa [Ledger.add,alone] using room)
    rw [insertInsert] at joined
    exact (evictions.trans (oneTurn (.start spec.key (s.generation + 1)) rfl started)).trans
      (oneTurn (.join spec.key) rfl joined)

def Move.prefetches (key : PageKey) : Move → Prop
  | .count | .evict _ => True
  | .start k _ | .interest k => k = key
  | _ => False

theorem prefetchRefines {ambient : Ambient} {result : Except StoreError PrefetchOutcome} (good : Good config s leases)
    (effect : PrefetchEffect config ambient spec submit s s' result) :
    Refines config (Move.prefetches spec.key) s leases s' leases := by
  cases effect with
  | quiet unmoved => exact unmovedRefines good (show Move.prefetches spec.key .count from trivial) unmoved
  | interest present state accepting entries ledgered generation waiter shutdown =>
    refine ⟨ledgered,?_⟩
    rw [pagesAfter entries generation waiter shutdown]
    exact oneTurn (.interest spec.key) rfl (.interest present state accepting)
  | refused running absent _ granted _ _ ledgered generation waiter shutdown =>
    refine ⟨ledgered,?_⟩
    rw [pagesAfter rfl generation waiter shutdown]
    have evictions : Turns config (Move.prefetches spec.key) (s.pages leases) _ :=
      grantedTurns (fun _ => trivial) granted
    exact evictions.trans (oneTurn .count trivial (.count (Nat.le_succ _) le_rfl))
  | @started allocation _ _ _ running absent _ granted _ entries ledgered generation waiter shutdown =>
    refine ⟨ledgered,?_⟩
    rw [pagesAfter entries generation waiter shutdown]
    have evictions : Turns config (Move.prefetches spec.key) (s.pages leases) _ :=
      grantedTurns (fun _ => trivial) granted
    have started := startTurn leases running absent granted
      (e := prefetchEntry spec allocation (s.generation + 1) s'.tick) rfl rfl rfl rfl
    exact evictions.trans (oneTurn (.start spec.key (s.generation + 1)) rfl started)

end Calls

def Delivery.leases (deliveries : List Delivery) : List PageLease :=
  deliveries.filterMap (fun d => match d.result with | .ok lease => some lease | .error _ => none)

theorem errorLeases (waiters : List Waiter) (error : StoreError) :
    Delivery.leases (waiters.map (fun w => ⟨w.completion,.error error⟩)) = [] := by
  simp [Delivery.leases,List.filterMap_map]

theorem leaseLeases (waiters : List Waiter) (key : PageKey) (generation : Nat) (page : VerifiedPage) :
    Delivery.leases (waiters.map (fun w => ⟨w.completion,.ok (w.lease key generation page)⟩)) =
      waiters.map (Waiter.lease · key generation page) := by
  simp only [Delivery.leases,List.filterMap_map]
  exact congrFun List.filterMap_eq_map waiters

section Transitions
variable {config : CacheConfig} {s s' : CacheState} {leases : List PageLease} {key : PageKey} {generation : Nat}

theorem stayed (good : Good config s leases) (allowed : Move → Prop) : Refines config allowed s leases s leases :=
  ⟨good.ledgered,.refl⟩

theorem completeRefines {result : Except StoreError VerifiedPage} {deliveries : List Delivery}
    (good : Good config s leases) (effect : CompleteEffect key generation result s s' deliveries) :
    Refines config (fun move => move = .fail key generation ∨ move = .publish key generation) s leases s'
      (Delivery.leases deliveries ++ leases) := by
  cases effect with
  | stale same => subst same; exact stayed good _
  | failed present current state entries ledgered counters =>
    refine ⟨ledgered,?_⟩
    subst current
    rw [errorLeases,pagesAfter entries counters.generation counters.waiter counters.shutdown]
    exact oneTurn _ (.inl rfl) (.fail present state)
  | published running present current state accepting _ within entries ledgered counters =>
    refine ⟨ledgered,?_⟩
    subst current
    rw [leaseLeases,pagesAfter entries counters.generation counters.waiter counters.shutdown]
    exact oneTurn _ (.inr rfl) (.publish running present state accepting within)

theorem withdrawRefines {waiterId : Nat} (good : Good config s leases)
    (effect : WithdrawEffect key generation waiterId s s') :
    Refines config (· = .withdraw key generation waiterId) s leases s' leases := by
  cases effect with
  | gone same => subst same; exact stayed good _
  | withdrawn present current state found identity entries ledgered counters =>
    refine ⟨ledgered,?_⟩
    subst current identity
    rw [pagesAfter entries counters.generation counters.waiter counters.shutdown]
    exact oneTurn _ rfl (.withdraw present state found)

variable {inner : CacheInner}

/- A lease that is alive is backed, so none of the early returns of the release is taken. -/
theorem releaseRefines {lease : PageLease} (accepted : Accepted config)
    (good : Good config inner.state leases) (alive : lease ∈ leases) :
    Refines config (· = .release lease) inner.state leases (releaseLease inner lease.key lease.generation).state
      (leases.erase lease) := by
  obtain ⟨e,present,same,holds⟩ := good.sound.backed lease alive
  have counted : 0 < e.leases := by
    rw [countedAt good.sound.counted present]
    exact List.countP_pos_iff.mpr ⟨lease,alive,by simp [PageLease.on,same]⟩
  have effect := releaseEffect good.ledgered (goodFits accepted good) present counted
  rw [same] at effect
  cases effect with
  | resident state leased entries ledgered counters =>
    refine ⟨ledgered,?_⟩
    rw [pagesAfter entries counters.generation counters.waiter counters.shutdown]
    exact oneTurn _ rfl (.releaseResident alive present same state leased)
  | retiring state leased entries ledgered counters =>
    refine ⟨ledgered,?_⟩
    rw [pagesAfter entries counters.generation counters.waiter counters.shutdown]
    exact oneTurn _ rfl (.releaseRetiring alive present same state leased)
  | last state leased entries ledgered counters =>
    refine ⟨ledgered,?_⟩
    rw [pagesAfter entries counters.generation counters.waiter counters.shutdown]
    exact oneTurn _ rfl (.releaseLast alive present same state leased)

theorem useRefines (good : Good config inner.state leases) :
    Refines config (· = .use key) inner.state leases (markPrefetchUse inner key generation).state leases := by
  unfold markPrefetchUse
  split
  · exact stayed good _
  rename_i e present
  have split := ledgerSplit good.ledgered present
  split
  · exact stayed good _
  split
  · exact stayed good _
  · rename_i r state
    split
    · refine ⟨ledgerStored rfl ?_,oneTurn _ rfl (.useResident present state)⟩
      rw [shareResident state] at split
      rw [shareResident rfl]
      exact split
    · exact stayed good _
  · rename_i r state
    split
    · refine ⟨ledgerStored rfl ?_,oneTurn _ rfl (.useRetiring present state)⟩
      rw [shareRetiring state] at split
      rw [shareRetiring rfl]
      exact split
    · exact stayed good _

def Move.retires (key : PageKey) : Move → Prop
  | .evict k | .retire k | .cancel k => k = key
  | _ => False

theorem retireRefines {e : Entry} {r : ResidentEntry} (accepted : Accepted config)
    (good : Good config inner.state leases) (present : inner.state.entries[key]? = some e)
    (state : e.state = .resident r) :
    Refines config (Move.retires key) inner.state leases (retireResident inner key e r).state leases := by
  cases retireEffect good.ledgered (goodFits accepted good) present state with
  | dropped unleased entries ledgered counters =>
    refine ⟨ledgered,?_⟩
    rw [pagesAfter entries counters.generation counters.waiter counters.shutdown]
    exact oneTurn (.evict key) rfl (.evict present state unleased)
  | retired leased entries ledgered counters =>
    refine ⟨ledgered,?_⟩
    rw [pagesAfter entries counters.generation counters.waiter counters.shutdown]
    exact oneTurn (.retire key) rfl (.retire present state leased)

theorem invalidateRefines (accepted : Accepted config) (good : Good config inner.state leases) :
    Refines config (Move.retires key) inner.state leases (invalidate inner key).1.state leases := by
  simp only [invalidate]
  split
  · exact stayed good _
  rename_i e present
  simp only [updateState]
  split
  · rename_i l state
    refine ⟨ledgerStored rfl ?_,oneTurn (.cancel key) rfl (.cancel present state)⟩
    have split := ledgerSplit good.ledgered present
    rw [shareLoading state] at split
    rw [shareLoading rfl]
    exact split
  · rename_i r state
    exact retireRefines accepted good present state
  · exact stayed good _

end Transitions

end RunnelMoe.PageCache
