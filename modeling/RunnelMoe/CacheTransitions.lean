import RunnelMoe.CacheEffects

/-! Effects of the transitions that do not admit anything: completion of a load,
withdrawal of a waiter, lease drop, use of a prefetched page, invalidation. None of
them moves a counter. Shutdown treats every key of the map in turn. -/
namespace RunnelMoe.PageCache
open StoreErrors Words PageSpecs CacheLimits KeyedSum
open Std (ExtTreeMap)

structure SameCounters (s s' : CacheState) : Prop where
  generation : s'.generation = s.generation
  waiter : s'.waiter = s.waiter
  tick : s'.tick = s.tick
  shutdown : s'.shutdown = s.shutdown

section Counters
variable {s middle s' : CacheState}

theorem countersTrans (first : SameCounters s middle) (second : SameCounters middle s') : SameCounters s s' :=
  ⟨second.generation.trans first.generation,second.waiter.trans first.waiter,second.tick.trans first.tick,
    second.shutdown.trans first.shutdown⟩

theorem evictCounters (inner : CacheInner) (key : PageKey) :
    SameCounters inner.state (evictUnleased inner key).state := by
  unfold evictUnleased
  split
  · exact ⟨rfl,rfl,rfl,rfl⟩
  · split <;> constructor <;> simp

theorem evictedCounters (inner : CacheInner) (victims : List PageKey) :
    SameCounters inner.state (victims.foldl evictUnleased inner).state := by
  induction victims generalizing inner with
  | nil => exact ⟨rfl,rfl,rfl,rfl⟩
  | cons key rest ih => exact countersTrans (evictCounters inner key) (ih _)

theorem reserveCounters {config : CacheConfig} {inner out : CacheInner} {allocation : Nat} (accepted : Accepted config)
    (ok : reserveLoad config inner allocation = .ok (some out)) : SameCounters inner.state out.state := by
  obtain ⟨-,plan,-,-,-,rfl⟩ := (reserveInverted accepted).mp ok
  obtain ⟨generation,waiter,tick,stopped⟩ := evictedCounters inner plan.victims
  exact ⟨generation,waiter,tick,stopped⟩

theorem unwindCounters {inner out : CacheInner} {key : PageKey} {generation : Nat}
    (ok : unwindUnsubmittedLoad inner key generation = .ok out) : SameCounters inner.state out.state := by
  unfold unwindUnsubmittedLoad at ok
  split at ok
  · cases ok
  split at ok
  · cases ok
  split at ok
  · cases ok
    exact ⟨rfl,rfl,rfl,rfl⟩
  · cases ok

theorem releaseCounters (inner : CacheInner) (key : PageKey) (generation : Nat) :
    SameCounters inner.state (releaseLease inner key generation).state := by
  unfold releaseLease
  split
  · exact ⟨rfl,rfl,rfl,rfl⟩
  split
  · exact ⟨rfl,rfl,rfl,rfl⟩
  split
  · split <;> exact ⟨rfl,rfl,rfl,rfl⟩
  · split
    · simp only
      split <;> constructor <;> simp
    · exact ⟨rfl,rfl,rfl,rfl⟩
  · exact ⟨rfl,rfl,rfl,rfl⟩

theorem retireCounters (inner : CacheInner) (key : PageKey) (e : Entry) (r : ResidentEntry) :
    SameCounters inner.state (retireResident inner key e r).state := by
  unfold retireResident
  split <;> constructor <;> simp

theorem invalidateCounters (inner : CacheInner) (key : PageKey) :
    SameCounters inner.state (invalidate inner key).1.state := by
  simp only [invalidate]
  split
  · exact ⟨rfl,rfl,rfl,rfl⟩
  · simp only [updateState]
    split
    · exact ⟨rfl,rfl,rfl,rfl⟩
    · exact retireCounters _ _ _ _
    · exact ⟨rfl,rfl,rfl,rfl⟩

theorem useCounters (inner : CacheInner) (key : PageKey) (generation : Nat) :
    SameCounters inner.state (markPrefetchUse inner key generation).state := by
  unfold markPrefetchUse
  split
  · exact ⟨rfl,rfl,rfl,rfl⟩
  split
  · exact ⟨rfl,rfl,rfl,rfl⟩
  split
  · exact ⟨rfl,rfl,rfl,rfl⟩
  · split <;> exact ⟨rfl,rfl,rfl,rfl⟩
  · split <;> exact ⟨rfl,rfl,rfl,rfl⟩

end Counters

inductive CompleteEffect (key : PageKey) (generation : Nat) (result : Except StoreError VerifiedPage)
    (s s' : CacheState) : List Delivery → Prop where
  | stale (same : s' = s)
      (other : ∀ e l, s.entries[key]? = some e → e.generation = generation → e.state ≠ .loading l) :
      CompleteEffect key generation result s s' []
  | failed {e l error} (present : s.entries[key]? = some e) (current : e.generation = generation)
      (state : e.state = .loading l) (entries : s'.entries = s.entries.erase key) (ledgered : Ledgered s')
      (counters : SameCounters s s') :
      CompleteEffect key generation result s s' (l.waiters.map (fun w => ⟨w.completion,.error error⟩))
  | published {e l page} (running : s.shutdown = false) (present : s.entries[key]? = some e)
      (current : e.generation = generation) (state : e.state = .loading l)
      (accepting : l.acceptingWaiters = true) (answer : result = .ok page)
      (within : ¬exceedsReservation key e page)
      (entries : s'.entries = s.entries.insert key
        {e with state := .resident ⟨page,l.waiters.length,
          prefetchedUnusedOnAdmission l.prefetchInterest l.waiters.length,l.lastTouch⟩})
      (ledgered : Ledgered s') (counters : SameCounters s s') :
      CompleteEffect key generation result s s'
        (l.waiters.map (fun w => ⟨w.completion,.ok (w.lease key e.generation page)⟩))

section Complete
variable {s : CacheState} {metrics : Metrics} {key : PageKey} {e : Entry} {l : LoadingEntry}

theorem failLedgered (ledgered : Ledgered s) (fits : Fits s.ledger) (present : s.entries[key]? = some e)
    (state : e.state = .loading l) (error : StoreError) :
    Ledgered (failLoad (settleLoad ⟨s,metrics⟩ key e l) e l error).1.state := by
  have split := ledgerSplit ledgered present
  rw [shareLoading state] at split
  rw [split] at fits
  obtain ⟨pool,inflight,-,-,loads,waiters,promised,-,-⟩ := fits
  simp only [Ledger.add] at pool inflight loads waiters promised
  refine ledgerErased _ _ rfl ?_
  simp only [failLoad,settleLoad,chargeLedger,discardLedger,split,Ledger.add]
  simp (disch := omega) only [wrappingSubExact]
  simp [tally]

theorem publishLedgered (ledgered : Ledgered s) (fits : Fits s.ledger) (present : s.entries[key]? = some e)
    (state : e.state = .loading l) (page : VerifiedPage) :
    Ledgered (publishLoad (settleLoad ⟨s,metrics⟩ key e l) key e l page).1.state := by
  have split := ledgerSplit ledgered present
  rw [shareLoading state] at split
  have charges := tallyPool (s.entries.erase key)
  rw [split] at fits
  obtain ⟨pool,inflight,-,-,loads,waiters,promised,-,together⟩ := fits
  simp only [Ledger.add] at pool inflight loads waiters promised together
  refine ledgerStored (insertErase _ _ _) ?_
  rw [shareResident rfl]
  simp only [publishLoad,settleLoad,chargeLedger,discardLedger,meterState,storeLedger,split,Ledger.add]
  simp (disch := omega) only [wrappingSubExact,wrappingAddExact]
  simp only [Ledger.mk.injEq,true_and]
  omega

theorem completeEffect {out : CacheInner} {generation : Nat} {result : Except StoreError VerifiedPage}
    {deliveries : List Delivery} (ledgered : Ledgered s) (fits : Fits s.ledger)
    (ok : completeLoad ⟨s,metrics⟩ key generation result = (out,deliveries)) :
    CompleteEffect key generation result s out.state deliveries := by
  simp only [completeLoad] at ok
  split at ok
  · rename_i absent
    cases ok
    exact .stale rfl (by simp [absent])
  rename_i e present
  split at ok
  · rename_i different
    cases ok
    exact .stale rfl (by rintro x _ found rfl; cases Option.some.inj (present.symm.trans found); exact absurd rfl different)
  rename_i current
  simp only [ne_eq,not_not] at current
  split at ok
  · rename_i l state
    cases ok
    have fails (error : StoreError) : CompleteEffect key generation result s
        (failLoad (settleLoad ⟨s,metrics⟩ key e l) e l error).1.state
        (failLoad (settleLoad ⟨s,metrics⟩ key e l) e l error).2 :=
      .failed present current state rfl (failLedgered ledgered fits present state error) ⟨rfl,rfl,rfl,rfl⟩
    simp only [updateState]
    unfold finishLoad
    split
    · exact fails _
    split
    · rename_i page publish
      split
      · exact fails _
      · rename_i within
        have running : s.shutdown = false := by simpa [settleLoad] using publish.2
        exact .published running present current state publish.1 rfl within (insertErase _ _ _)
          (publishLedgered ledgered fits present state page) ⟨rfl,rfl,rfl,rfl⟩
    · exact fails _
  · rename_i other
    cases ok
    exact .stale rfl (by intro x l found _; cases Option.some.inj (present.symm.trans found); exact other l)

theorem observedEffect {inner out : CacheInner} {generation : Nat} {result : Except StoreError VerifiedPage}
    {stats : ReadStats} {deliveries : List Delivery} (ledgered : Ledgered inner.state)
    (fits : Fits inner.state.ledger) (ok : finishObservedLoad inner key generation result stats = (out,deliveries)) :
    CompleteEffect key generation result inner.state out.state deliveries :=
  completeEffect (s := inner.state) ledgered fits ok

end Complete

inductive WithdrawEffect (key : PageKey) (generation waiterId : Nat) (s s' : CacheState) : Prop where
  | gone (same : s' = s) (none : ∀ e, s.entries[key]? = some e → e.generation = generation →
      ∀ w ∈ e.waiters, w.id ≠ waiterId) : WithdrawEffect key generation waiterId s s'
  | withdrawn {e l i w} (present : s.entries[key]? = some e) (current : e.generation = generation)
      (state : e.state = .loading l) (found : l.waiters[i]? = some w) (identity : w.id = waiterId)
      (entries : s'.entries = s.entries.insert key {e with state := .loading (l.leave i)})
      (ledgered : Ledgered s') (counters : SameCounters s s') : WithdrawEffect key generation waiterId s s'

theorem withdrawEffect {inner : CacheInner} (key : PageKey) (generation waiterId : Nat)
    (ledgered : Ledgered inner.state) (fits : Fits inner.state.ledger) :
    WithdrawEffect key generation waiterId inner.state (withdrawWaiter inner key generation waiterId).state := by
  unfold withdrawWaiter
  split
  · rename_i absent
    exact .gone rfl (by simp [absent])
  rename_i e present
  split
  · rename_i different
    refine .gone rfl ?_
    rintro x found rfl
    cases Option.some.inj (present.symm.trans found)
    exact absurd rfl different
  rename_i current
  simp only [ne_eq,not_not] at current
  split
  · rename_i l state
    split
    · rename_i missing
      refine .gone rfl ?_
      intro x found _ w member
      cases Option.some.inj (present.symm.trans found)
      simp only [Entry.waiters,state] at member
      simpa using List.findIdx?_eq_none_iff.mp missing w member
    rename_i i position
    obtain ⟨inside,chosen,-⟩ := List.findIdx?_eq_some_iff_getElem.mp position
    have found : l.waiters[i]? = some l.waiters[i] := List.getElem?_eq_getElem inside
    have shorter := leaveWaiters found
    have split := ledgerSplit ledgered present
    rw [shareLoading state] at split
    rw [split] at fits
    obtain ⟨-,-,-,-,-,waiters,promised,-,-⟩ := fits
    simp only [Ledger.add] at waiters promised
    refine .withdrawn present current state found (by simpa using chosen) rfl ?_ (by constructor <;> simp)
    refine ledgerStored (e := {e with state := .loading (l.leave i)}) rfl ?_
    rw [shareLoading rfl]
    simp only [updateState,storeLedger,chargeLedger,chargeEntries,split,Ledger.add]
    simp (disch := omega) only [wrappingSubExact]
    simp only [Ledger.mk.injEq,true_and,and_true]
    omega
  · rename_i other
    refine .gone rfl ?_
    intro x found _ w member
    cases Option.some.inj (present.symm.trans found)
    unfold Entry.waiters at member
    split at member
    · rename_i l state
      exact absurd state (other l)
    · simp at member

/-! Lease drop, for a lease that an entry backs -/

inductive ReleaseEffect (key : PageKey) (s s' : CacheState) (e : Entry) : Prop where
  | resident {r} (state : e.state = .resident r) (leased : 0 < r.leases)
      (entries : s'.entries = s.entries.insert key {e with state := .resident {r with leases := r.leases - 1}})
      (ledgered : Ledgered s') (counters : SameCounters s s') : ReleaseEffect key s s' e
  | retiring {r} (state : e.state = .retiring r) (leased : 1 < r.leases)
      (entries : s'.entries = s.entries.insert key {e with state := .retiring {r with leases := r.leases - 1}})
      (ledgered : Ledgered s') (counters : SameCounters s s') : ReleaseEffect key s s' e
  | last {r} (state : e.state = .retiring r) (leased : r.leases = 1) (entries : s'.entries = s.entries.erase key)
      (ledgered : Ledgered s') (counters : SameCounters s s') : ReleaseEffect key s s' e

theorem releaseEffect {inner : CacheInner} {key : PageKey} {e : Entry} (ledgered : Ledgered inner.state)
    (fits : Fits inner.state.ledger) (present : inner.state.entries[key]? = some e) (leased : 0 < e.leases) :
    ReleaseEffect key inner.state (releaseLease inner key e.generation).state e := by
  have split := ledgerSplit ledgered present
  simp only [releaseLease,present,ne_eq,not_true_eq_false,if_false]
  split
  · rename_i r state
    simp only [Entry.leases,state] at leased
    rw [shareResident state] at split
    rw [split] at fits
    have word := fits.leases
    simp only [Ledger.add] at word
    rw [if_pos leased]
    refine .resident state leased rfl ?_ (by constructor <;> simp)
    refine ledgerStored (e := {e with state := .resident {r with leases := r.leases - 1}}) rfl ?_
    rw [shareResident rfl]
    simp only [updateState,storeLedger,chargeLedger,chargeEntries,split,Ledger.add]
    rw [wrappingSubExact (by omega)]
    simp only [Ledger.mk.injEq,true_and]
    omega
  · rename_i r state
    simp only [Entry.leases,state] at leased
    rw [shareRetiring state] at split
    rw [split] at fits
    obtain ⟨pool,-,-,retiring,-,-,-,word,-⟩ := fits
    simp only [Ledger.add] at pool retiring word
    rw [if_pos leased]
    split
    · rename_i zero
      refine .last state (by omega) (by simp) ?_ (by constructor <;> simp)
      refine ledgerErased inner.state.entries key (by simp) ?_
      simp only [updateState,wastedState,chargeLedger,discardLedger,split,Ledger.add]
      simp (disch := omega) only [wrappingSubExact]
      have one : r.leases = 1 := by omega
      simp [tally,one]
    · rename_i more
      refine .retiring state (by omega) rfl ?_ (by constructor <;> simp)
      refine ledgerStored (e := {e with state := .retiring {r with leases := r.leases - 1}}) rfl ?_
      rw [shareRetiring rfl]
      simp only [updateState,storeLedger,chargeLedger,chargeEntries,split,Ledger.add]
      rw [wrappingSubExact (by omega)]
      simp only [Ledger.mk.injEq,true_and]
      omega
  · rename_i state
    simp [Entry.leases,state] at leased

/-! Retirement, shared by invalidation and shutdown -/

inductive RetireEffect (key : PageKey) (s s' : CacheState) (e : Entry) (r : ResidentEntry) : Prop where
  | dropped (unleased : r.leases = 0) (entries : s'.entries = s.entries.erase key) (ledgered : Ledgered s')
      (counters : SameCounters s s') : RetireEffect key s s' e r
  | retired (leased : 0 < r.leases)
      (entries : s'.entries = s.entries.insert key
        {e with state := .retiring ⟨r.page,r.leases,r.prefetchedUnused⟩})
      (ledgered : Ledgered s') (counters : SameCounters s s') : RetireEffect key s s' e r

theorem retireEffect {inner : CacheInner} {key : PageKey} {e : Entry} {r : ResidentEntry}
    (ledgered : Ledgered inner.state) (fits : Fits inner.state.ledger)
    (present : inner.state.entries[key]? = some e) (state : e.state = .resident r) :
    RetireEffect key inner.state (retireResident inner key e r).state e r := by
  have split := ledgerSplit ledgered present
  have charges := tallyPool (inner.state.entries.erase key)
  rw [shareResident state] at split
  rw [split] at fits
  obtain ⟨pool,-,resident,retiring,-,-,-,-,-⟩ := fits
  simp only [Ledger.add] at pool resident retiring
  unfold retireResident
  split
  · rename_i unleased
    refine .dropped unleased (by simp) ?_ (by constructor <;> simp)
    refine ledgerErased inner.state.entries key (by simp) ?_
    simp only [wastedState,chargeLedger,discardLedger,split,Ledger.add]
    simp (disch := omega) only [wrappingSubExact]
    simp [tally,unleased]
  · rename_i leased
    refine .retired (Nat.pos_of_ne_zero leased) rfl ?_ (by constructor <;> simp)
    refine ledgerStored (e := {e with state := .retiring ⟨r.page,r.leases,r.prefetchedUnused⟩}) rfl ?_
    rw [shareRetiring rfl]
    simp only [storeLedger,chargeLedger,chargeEntries,split,Ledger.add]
    simp (disch := omega) only [wrappingSubExact,wrappingAddExact]
    simp only [Ledger.mk.injEq,true_and,and_true]
    omega

end RunnelMoe.PageCache
