import RunnelMoe.CacheService
import RunnelMoe.CacheTouches

/-! Pages that were prefetched and not yet used. A page is flagged when it is admitted and
loses the flag with its first use or with its entry; in the first case it is counted as
useful, in the second as wasted. What the calls other than these two do with flags is said
here: they keep them or count them as wasted, so the wasted count and the flags left have
a constant sum. -/
namespace RunnelMoe.PageCache
open StoreErrors Words PageSpecs CacheLimits KeyedSum
open Std (ExtTreeMap)

def Entry.unused (e : Entry) : Bool := match e.state with
  | .loading _ => false
  | .resident r => r.prefetchedUnused
  | .retiring r => r.prefetchedUnused

def Entry.isLoading (e : Entry) : Bool := match e.state with
  | .loading _ => true
  | _ => false

def flagged (entries : ExtTreeMap PageKey Entry) : Nat := total (fun _ e => if e.unused then 1 else 0) entries

section Flags
variable {entries : ExtTreeMap PageKey Entry} {key : PageKey} {e e' : Entry}

theorem loadingUnflagged (loading : e.isLoading = true) : e.unused = false := by
  unfold Entry.isLoading at loading
  unfold Entry.unused
  split at loading
  · rename_i state
    simp only [state]
  · contradiction

theorem flaggedErased (present : entries[key]? = some e) :
    flagged entries = (if e.unused then 1 else 0) + flagged (entries.erase key) := totalSplit _ present

theorem flaggedReplaced (present : entries[key]? = some e) (same : e'.unused = e.unused) :
    flagged (entries.insert key e') = flagged entries := by
  rw [flaggedErased present,← same]
  exact totalInsert _ _ _ _

theorem flaggedAdded (absent : entries[key]? = none) (clean : e.unused = false) :
    flagged (entries.insert key e) = flagged entries := by
  have added : flagged (entries.insert key e) = _ := totalInsert _ _ _ _
  rw [added,eraseAbsent absent,clean]
  exact Nat.zero_add _

end Flags

structure KeepsFlags (p q : Pages) : Prop where
  generation : p.generation ≤ q.generation
  entries : ∀ (key : PageKey) (e' : Entry), q.entries[key]? = some e' →
    (∃ e, p.entries[key]? = some e ∧ e.generation = e'.generation ∧ e.unused = e'.unused ∧
      e.isLoading = e'.isLoading) ∨ e'.isLoading = true ∧ p.generation < e'.generation

section Keeping
variable {config : CacheConfig} {p middle q : Pages} {key : PageKey} {e e' : Entry}

theorem flagsKept (p : Pages) : KeepsFlags p p := ⟨le_rfl,fun _ e found => .inl ⟨e,found,rfl,rfl,rfl⟩⟩

theorem flagsKeptTrans (first : KeepsFlags p middle) (second : KeepsFlags middle q) : KeepsFlags p q := by
  refine ⟨first.generation.trans second.generation,fun key e' found => ?_⟩
  rcases second.entries key e' found with ⟨e,there,generation,unused,loading⟩ | ⟨loading,fresh⟩
  · rcases first.entries key e there with ⟨old,present,g,u,l⟩ | ⟨l,fresh⟩
    · exact .inl ⟨old,present,g.trans generation,u.trans unused,l.trans loading⟩
    · exact .inr ⟨loading ▸ l,generation ▸ fresh⟩
  · exact .inr ⟨loading,first.generation.trans_lt fresh⟩

theorem flagsKeptErased {leases : List PageLease} :
    KeepsFlags p {p with entries := p.entries.erase key, leases := leases} := by
  refine ⟨le_rfl,fun k x found => .inl ?_⟩
  simp only [getErase] at found
  split at found
  · contradiction
  · exact ⟨x,found,rfl,rfl,rfl⟩

theorem flagsKeptReplaced {leases : List PageLease} {waiter : Nat} (present : p.entries[key]? = some e)
    (generation : e.generation = e'.generation) (unused : e.unused = e'.unused) (loading : e.isLoading = e'.isLoading) :
    KeepsFlags p {p with entries := p.entries.insert key e', leases := leases, waiter := waiter} := by
  refine ⟨le_rfl,fun k x found => .inl ?_⟩
  simp only [getInsert] at found
  split at found
  · subst k
    cases Option.some.inj found
    exact ⟨e,present,generation,unused,loading⟩
  · exact ⟨x,found,rfl,rfl,rfl⟩

def Move.keepsFlags : Move → Prop
  | .publish _ _ | .use _ => False
  | _ => True

theorem turnKeepsFlags {move : Move} (turn : Turn config move p q) (keeps : move.keepsFlags) : KeepsFlags p q := by
  cases turn with
  | count generations => exact ⟨generations,fun _ e found => .inl ⟨e,found,rfl,rfl,rfl⟩⟩
  | stop => exact ⟨le_rfl,fun _ e found => .inl ⟨e,found,rfl,rfl,rfl⟩⟩
  | evict | fail | releaseLast => exact flagsKeptErased
  | hit _ present state | join _ present state | interest present state | withdraw present state
  | releaseResident _ present _ state | releaseRetiring _ present _ state | cancel present state
  | retire present state | drain present state =>
    exact flagsKeptReplaced present rfl (by simp [Entry.unused,state]) (by simp [Entry.isLoading,state])
  | start _ _ state _ fresh =>
    refine ⟨fresh.le,fun k x found => ?_⟩
    simp only [getInsert] at found
    split at found
    · cases Option.some.inj found
      exact .inr ⟨by simp [Entry.isLoading,state],fresh⟩
    · exact .inl ⟨x,found,rfl,rfl,rfl⟩
  | publish | useResident | useRetiring => exact keeps.elim

theorem turnsKeepFlags {allowed : Move → Prop} (turns : Turns config allowed p q)
    (keeps : ∀ move, allowed move → move.keepsFlags) : KeepsFlags p q :=
  turnsInvariant (fun q => KeepsFlags p q)
    (fun move _ _ may turn kept => flagsKeptTrans kept (turnKeepsFlags turn (keeps move may))) turns (flagsKept p)

end Keeping

/-! What happens to the counts. The hypothesis keeps the saturating counter exact. -/

def Conserves (before after : CacheInner) : Prop :=
  before.metrics.wastedPrefetches + flagged before.state.entries ≤ maxWord →
    after.metrics.usefulPrefetches = before.metrics.usefulPrefetches ∧
    after.metrics.wastedPrefetches + flagged after.state.entries =
      before.metrics.wastedPrefetches + flagged before.state.entries

section Conservation
variable {config : CacheConfig} {ambient : Ambient} {spec : PageSpec} {call : Nat}
  {submit : Except StoreError Unit} {inner middle after out : CacheInner} {key : PageKey} {e e' : Entry}

theorem conservesSame (useful : after.metrics.usefulPrefetches = inner.metrics.usefulPrefetches)
    (wasted : after.metrics.wastedPrefetches = inner.metrics.wastedPrefetches)
    (flags : flagged after.state.entries = flagged inner.state.entries) : Conserves inner after :=
  fun _ => ⟨useful,by rw [wasted,flags]⟩

theorem conservesRefl (inner : CacheInner) : Conserves inner inner := conservesSame rfl rfl rfl

theorem conservesTrans (first : Conserves inner middle) (second : Conserves middle after) : Conserves inner after := by
  intro small
  obtain ⟨useful,wasted⟩ := first small
  obtain ⟨useful',wasted'⟩ := second (by omega)
  exact ⟨useful'.trans useful,wasted'.trans wasted⟩

theorem conservesDropped (present : inner.state.entries[key]? = some e)
    (entries : after.state.entries = inner.state.entries.erase key)
    (useful : after.metrics.usefulPrefetches = inner.metrics.usefulPrefetches)
    (wasted : after.metrics.wastedPrefetches =
      if e.unused then saturatingAdd inner.metrics.wastedPrefetches 1 else inner.metrics.wastedPrefetches) :
    Conserves inner after := by
  intro small
  have split := flaggedErased present
  refine ⟨useful,?_⟩
  rw [wasted,entries,split]
  rw [split] at small
  split <;> rename_i flag
  · rw [if_pos flag] at small
    unfold saturatingAdd
    omega
  · omega

theorem wastedMetrics (inner : CacheInner) (unused : Bool) :
    (inner.wasted unused).metrics.usefulPrefetches = inner.metrics.usefulPrefetches ∧
      (inner.wasted unused).metrics.wastedPrefetches =
        if unused then saturatingAdd inner.metrics.wastedPrefetches 1 else inner.metrics.wastedPrefetches := by
  unfold CacheInner.wasted
  split <;> exact ⟨rfl,rfl⟩

theorem wastedConserves {unused : Bool} (present : inner.state.entries[key]? = some e) (flag : e.unused = unused)
    (entries : after.state.entries = inner.state.entries.erase key)
    (useful : after.metrics.usefulPrefetches = inner.metrics.usefulPrefetches)
    (wasted : after.metrics.wastedPrefetches = inner.metrics.wastedPrefetches) : Conserves inner (after.wasted unused) := by
  obtain ⟨same,more⟩ := wastedMetrics after unused
  subst flag
  rw [wasted] at more
  exact conservesDropped present (by rw [wastedState,entries]) (same.trans useful) more

theorem evictConserves (inner : CacheInner) (key : PageKey) : Conserves inner (evictUnleased inner key) := by
  unfold evictUnleased
  split
  · exact conservesRefl _
  rename_i e present
  split
  · rename_i r state
    exact wastedConserves present (by rw [Entry.unused,state]) rfl rfl rfl
  · exact conservesRefl _

theorem evictedConserves (inner : CacheInner) (victims : List PageKey) :
    Conserves inner (victims.foldl evictUnleased inner) := by
  induction victims generalizing inner with
  | nil => exact conservesRefl _
  | cons key rest ih => exact conservesTrans (evictConserves inner key) (ih _)

theorem evictedAbsent (victims : List PageKey) (absent : inner.state.entries[key]? = none) :
    (victims.foldl evictUnleased inner).state.entries[key]? = none := by
  induction victims generalizing inner with
  | nil => exact absent
  | cons victim rest ih =>
    refine ih ?_
    unfold evictUnleased
    split
    · exact absent
    split
    · simp only [wastedState,meterState,chargeEntries,discardEntries,getErase,absent,ite_self]
    · exact absent

variable {allocation : Nat}

theorem reserveConserves (accepted : Accepted config)
    (ok : reserveLoad config inner allocation = .ok (some out)) : Conserves inner out := by
  obtain ⟨-,plan,-,-,-,rfl⟩ := (reserveInverted accepted).mp ok
  exact evictedConserves inner plan.victims

theorem reserveAbsent (accepted : Accepted config)
    (ok : reserveLoad config inner allocation = .ok (some out)) (absent : inner.state.entries[key]? = none) :
    out.state.entries[key]? = none := by
  obtain ⟨-,plan,-,-,-,rfl⟩ := (reserveInverted accepted).mp ok
  exact evictedAbsent plan.victims absent

theorem grantedConserves (accepted : Accepted config) (granted : reserveLoad config middle allocation = .ok (some out))
    (start : Conserves inner middle) (absent : middle.state.entries[key]? = none) (clean : e.unused = false) :
    Conserves inner (out.store key e) := by
  have gone := reserveAbsent accepted granted absent
  exact conservesTrans (conservesTrans start (reserveConserves accepted granted))
    (conservesSame rfl rfl (flaggedAdded gone clean))

theorem unwindConserves {generation : Nat} (ok : unwindUnsubmittedLoad inner key generation = .ok out) :
    Conserves inner out := by
  unfold unwindUnsubmittedLoad at ok
  split at ok
  · cases ok
  rename_i e present
  split at ok
  · cases ok
  split at ok
  · rename_i l state
    cases ok
    refine conservesDropped present rfl rfl ?_
    simp only [Entry.unused,state]
    rfl
  · cases ok

theorem residentConserves {r : ResidentEntry} (present : inner.state.entries[key]? = some e)
    (state : e.state = .resident r) : Conserves inner (getResident config call key e r inner).1 := by
  unfold getResident
  simp only
  split
  · exact conservesSame rfl rfl rfl
  · exact conservesSame rfl rfl (flaggedReplaced present (by simp [Entry.unused,state]))

theorem loadingConserves {l : LoadingEntry} (present : inner.state.entries[spec.key]? = some e)
    (state : e.state = .loading l) : Conserves inner (getLoading config spec call e l inner).1 := by
  unfold getLoading
  simp only
  split
  · exact conservesSame rfl rfl rfl
  split
  · exact conservesSame rfl rfl rfl
  split
  · exact conservesSame rfl rfl rfl
  rename_i next
  obtain ⟨rfl,-,-⟩ := waiterAdvanced next
  split <;> exact conservesSame rfl rfl (flaggedReplaced present (by simp [Entry.unused,state]))

theorem absentConserves (accepted : Accepted config) (absent : inner.state.entries[spec.key]? = none) :
    Conserves inner (getAbsent config ambient spec call submit allocation inner).1 := by
  unfold getAbsent
  simp only
  split
  · exact conservesSame rfl rfl rfl
  split
  · exact conservesSame rfl rfl rfl
  split
  · exact conservesSame rfl rfl rfl
  rename_i numbered
  obtain ⟨rfl,-,-⟩ := generationAdvanced numbered
  split
  · exact conservesSame rfl rfl rfl
  rename_i next
  obtain ⟨rfl,-,-⟩ := waiterAdvanced next
  split
  · exact conservesSame rfl rfl rfl
  · exact conservesSame rfl rfl rfl
  rename_i reserved granted
  have stored (entry : Entry) (clean : entry.unused = false) : Conserves inner (reserved.store spec.key entry) :=
    grantedConserves accepted granted (conservesSame rfl rfl rfl) absent clean
  rcases submit with error | ⟨⟨⟩⟩
  · simp only
    split
    · exact conservesTrans (stored _ rfl) (conservesSame rfl rfl rfl)
    · rename_i unwound
      refine conservesTrans ?_ (conservesTrans (unwindConserves unwound) (conservesSame rfl rfl rfl))
      exact conservesTrans (stored _ rfl) (conservesSame rfl rfl rfl)
  · exact conservesTrans (stored _ rfl) (conservesSame rfl rfl rfl)

theorem lockedConserves (accepted : Accepted config) :
    Conserves inner (getLocked config ambient spec call submit allocation inner).1 := by
  simp only [getLocked]
  split
  · exact conservesRefl _
  have ticked : Conserves inner {inner with state := inner.state.nextTick} := conservesSame rfl rfl rfl
  refine conservesTrans ticked ?_
  split
  · rename_i absent
    exact absentConserves accepted absent
  rename_i e present
  split
  · exact conservesRefl _
  split
  · rename_i state
    exact residentConserves present state
  · rename_i state
    exact loadingConserves present state
  · exact conservesRefl _

theorem getConserves (accepted : Accepted config) :
    Conserves inner (get config ambient spec call submit inner).1 := by
  simp only [get]
  split
  · exact conservesRefl _
  have asked : Conserves inner (inner.meter (Metrics.addDemandBytes · spec.length)) := conservesSame rfl rfl rfl
  split
  · exact asked
  · exact conservesTrans asked (lockedConserves accepted)

theorem presentConserves (present : inner.state.entries[spec.key]? = some e) :
    Conserves inner (prefetchPresent spec e inner).1 := by
  unfold prefetchPresent
  split
  · rename_i l state
    split
    · exact conservesSame rfl rfl (flaggedReplaced present (by simp [Entry.unused,state]))
    · split <;> exact conservesSame rfl rfl rfl
  · exact conservesSame rfl rfl rfl
  · exact conservesSame rfl rfl rfl

theorem prefetchAbsentConserves (accepted : Accepted config) (absent : inner.state.entries[spec.key]? = none) :
    Conserves inner (prefetchAbsent config ambient spec submit allocation inner).1 := by
  unfold prefetchAbsent
  split
  · exact conservesRefl _
  simp only
  split
  · exact conservesSame rfl rfl rfl
  rename_i numbered
  obtain ⟨rfl,-,-⟩ := generationAdvanced numbered
  split
  · exact conservesSame rfl rfl rfl
  · exact conservesSame rfl rfl rfl
  rename_i reserved granted
  have stored (entry : Entry) (clean : entry.unused = false) : Conserves inner (reserved.store spec.key entry) :=
    grantedConserves accepted granted (conservesSame rfl rfl rfl) absent clean
  rcases submit with error | ⟨⟨⟩⟩
  · simp only
    split
    · exact stored _ rfl
    · rename_i unwound
      have back := conservesTrans (stored _ rfl) (unwindConserves unwound)
      split <;> exact conservesTrans back (conservesSame rfl rfl rfl)
  · exact conservesTrans (stored _ rfl) (conservesSame rfl rfl rfl)

theorem prefetchConserves (accepted : Accepted config) :
    Conserves inner (prefetch config ambient spec submit inner).1 := by
  simp only [prefetch]
  split
  · exact conservesRefl _
  split
  · exact conservesSame rfl rfl rfl
  simp only [prefetchLocked]
  have asked : Conserves inner (inner.meter (Metrics.addPrefetchBytes · spec.length)) := conservesSame rfl rfl rfl
  split
  · exact asked
  split
  · rename_i e present
    split
    · exact asked
    · exact conservesTrans (conservesTrans asked (presentConserves present)) (conservesSame rfl rfl rfl)
  · rename_i absent
    exact conservesTrans asked (prefetchAbsentConserves accepted absent)

theorem withdrawConserves (inner : CacheInner) (key : PageKey) (generation waiterId : Nat) :
    Conserves inner (withdrawWaiter inner key generation waiterId) := by
  unfold withdrawWaiter
  split
  · exact conservesRefl _
  rename_i e present
  split
  · exact conservesRefl _
  split
  · rename_i l state
    split
    · exact conservesRefl _
    · exact conservesSame rfl rfl (flaggedReplaced present (by simp [Entry.unused,state]))
  · exact conservesRefl _

theorem releaseConserves (inner : CacheInner) (key : PageKey) (generation : Nat) :
    Conserves inner (releaseLease inner key generation) := by
  unfold releaseLease
  split
  · exact conservesRefl _
  rename_i e present
  split
  · exact conservesRefl _
  split
  · rename_i r state
    split
    · exact conservesSame rfl rfl (flaggedReplaced present (by simp [Entry.unused,state]))
    · exact conservesSame rfl rfl rfl
  · rename_i r state
    split
    · simp only
      split
      · exact wastedConserves present (by rw [Entry.unused,state]) rfl rfl rfl
      · exact conservesSame rfl rfl (flaggedReplaced present (by simp [Entry.unused,state]))
    · exact conservesSame rfl rfl rfl
  · exact conservesSame rfl rfl rfl

theorem retireConserves {r : ResidentEntry} (present : inner.state.entries[key]? = some e)
    (state : e.state = .resident r) : Conserves inner (retireResident inner key e r) := by
  unfold retireResident
  split
  · exact wastedConserves present (by rw [Entry.unused,state]) rfl rfl rfl
  · exact conservesSame rfl rfl (flaggedReplaced present (by simp [Entry.unused,state]))

theorem invalidateConserves (inner : CacheInner) (key : PageKey) : Conserves inner (invalidate inner key).1 := by
  simp only [invalidate]
  split
  · exact conservesRefl _
  rename_i e present
  refine conservesTrans ?_ (conservesSame rfl rfl rfl)
  split
  · rename_i l state
    exact conservesSame rfl rfl (flaggedReplaced present (by simp [Entry.unused,state]))
  · rename_i r state
    exact retireConserves present state
  · exact conservesRefl _

theorem shutdownEntryConserves (acc : CacheInner × List Nat) (key : PageKey) :
    Conserves acc.1 (shutdownEntry acc key).1 := by
  unfold shutdownEntry
  split
  · exact conservesRefl _
  rename_i e present
  split
  · rename_i l state
    exact conservesSame rfl rfl (flaggedReplaced present (by simp [Entry.unused,state]))
  · rename_i r state
    exact retireConserves present state
  · exact conservesRefl _

theorem shutdownConserves (inner : CacheInner) : Conserves inner (shutdown inner).1 := by
  have visits (keys : List PageKey) (acc : CacheInner × List Nat) :
      Conserves acc.1 (keys.foldl shutdownEntry acc).1 := by
    induction keys generalizing acc with
    | nil => exact conservesRefl _
    | cons key rest ih => exact conservesTrans (shutdownEntryConserves acc key) (ih _)
  unfold shutdown
  split
  · exact conservesRefl _
  · have stopping : Conserves inner inner.stopping := conservesSame rfl rfl rfl
    exact conservesTrans (conservesTrans stopping (visits _ (inner.stopping,[]))) (conservesSame rfl rfl rfl)

theorem completeMetrics (inner : CacheInner) (key : PageKey) (generation : Nat)
    (result : Except StoreError VerifiedPage) (stats : ReadStats) :
    (finishObservedLoad inner key generation result stats).1.metrics.usefulPrefetches =
        inner.metrics.usefulPrefetches ∧
      (finishObservedLoad inner key generation result stats).1.metrics.wastedPrefetches =
        inner.metrics.wastedPrefetches := by
  unfold finishObservedLoad completeLoad
  split
  · exact ⟨rfl,rfl⟩
  split
  · exact ⟨rfl,rfl⟩
  split
  · simp only
    unfold finishLoad
    split
    · exact ⟨rfl,rfl⟩
    split
    · split <;> exact ⟨rfl,rfl⟩
    · exact ⟨rfl,rfl⟩
  · exact ⟨rfl,rfl⟩

end Conservation
end RunnelMoe.PageCache
