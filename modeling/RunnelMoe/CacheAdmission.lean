import RunnelMoe.CacheMachine

/-! Calls that admit nothing. Every refusal before the reader leaves the entries and
the ledger alone. The reader's own refusal comes after the reservation has evicted
its victims, and unwinding takes out the load without bringing them back. -/
namespace RunnelMoe.PageCache
open StoreErrors Words PageSpecs CacheLimits KeyedSum Runs
open Std (ExtTreeMap)

structure Unchanged (s s' : CacheState) : Prop where
  entries : s'.entries = s.entries
  ledger : s'.ledger = s.ledger

structure EvictsForReader (config : CacheConfig) (ambient : Ambient) (spec : PageSpec) (s : CacheState)
    (reason : AccessReason) : Prop where
  reaches : ReachesReader config ambient spec s reason
  crowded : ∃ allocation, spec.allocationBytes = .ok allocation ∧
    (config.pagePoolCapacity < s.ledger.pagePoolBytes + allocation ∨ config.maxEntries ≤ s.entries.size)

section Refused
variable {config : CacheConfig} {ambient : Ambient} {spec : PageSpec} {submit : Except StoreError Unit}
  {s s' : CacheState}

theorem unmovedUnchanged (unmoved : Unmoved s s') : Unchanged s s' := ⟨unmoved.entries,unmoved.ledger⟩

theorem grantedUnchanged {allocation : Nat} {taken rest : List Candidate} (before : Ledgered s) (after : Ledgered s')
    (granted : Granted config s.entries s'.entries allocation taken rest) : Unchanged s s' ↔ taken = [] := by
  constructor
  · intro same
    obtain ⟨victims,distinct⟩ := takenVictims granted.split
    have size := evictedSize victims distinct
    rw [← granted.entries,same.entries] at size
    exact List.eq_nil_of_length_eq_zero (by omega)
  · rintro rfl
    have entries : s'.entries = s.entries := granted.entries
    exact ⟨entries,by rw [after,before,entries]⟩

theorem refusedUnchanged {reason : AccessReason} {allocation : Nat} {taken rest : List Candidate}
    (before : Ledgered s) (after : Ledgered s') (aligned : spec.allocationBytes = .ok allocation)
    (granted : Granted config s.entries s'.entries allocation taken rest)
    (reached : ReachesReader config ambient spec s reason) :
    Unchanged s s' ↔ ¬EvictsForReader config ambient spec s reason := by
  rw [grantedUnchanged before after granted,granted.needed,← before]
  constructor
  · rintro ⟨pool,size⟩ ⟨-,a,same,crowded⟩
    cases aligned.symm.trans same
    omega
  · intro roomy
    by_contra full
    exact roomy ⟨reached,allocation,aligned,by omega⟩

theorem getRefused {call : Nat} {error : StoreError} (ledgered : Ledgered s)
    (effect : GetEffect config ambient spec call submit s s' (.failed error)) :
    Unchanged s s' ↔ ¬EvictsForReader config ambient spec s .demand := by
  cases effect with
  | quiet unmoved unreached =>
    exact iff_of_true (unmovedUnchanged unmoved) (fun evicts => unreached evicts.reaches)
  | refused _ _ aligned granted _ after _ _ _ reached =>
    exact refusedUnchanged ledgered after aligned granted reached

theorem prefetchRefused {result : Except StoreError PrefetchOutcome} (ledgered : Ledgered s)
    (dropped : result = .ok .droppedBudget ∨ ∃ error, result = .error error)
    (effect : PrefetchEffect config ambient spec submit s s' result) :
    Unchanged s s' ↔ ¬EvictsForReader config ambient spec s .prefetch := by
  cases effect with
  | quiet unmoved _ unreached =>
    exact iff_of_true (unmovedUnchanged unmoved) (fun evicts => unreached evicts.reaches)
  | interest => simp at dropped
  | refused _ _ aligned granted _ _ after _ _ _ reached =>
    exact refusedUnchanged ledgered after aligned granted reached
  | started => simp at dropped

end Refused

/- A call that fails, or a prefetch that is dropped, is atomic exactly when it does
not evict on behalf of a reader that has not accepted the load yet. -/
theorem failedAdmissionAtomic {config : CacheConfig} (valid : config.validate = .ok ()) {c : Cache}
    (reached : Reachable (step config) .empty c) (ambient : Ambient) (spec : PageSpec)
    (submit : Except StoreError Unit) :
    (∀ call error, (get config ambient spec call submit c.inner).2 = .failed error →
      (Unchanged c.inner.state (get config ambient spec call submit c.inner).1.state ↔
        ¬EvictsForReader config ambient spec c.inner.state .demand)) ∧
    ((prefetch config ambient spec submit c.inner).2 = .ok .droppedBudget ∨
        (∃ error, (prefetch config ambient spec submit c.inner).2 = .error error) →
      (Unchanged c.inner.state (prefetch config ambient spec submit c.inner).1.state ↔
        ¬EvictsForReader config ambient spec c.inner.state .prefetch)) := by
  have accepted := validateAccepts valid
  have good := reachableGood accepted reached
  have fits := goodFits accepted good
  constructor
  · intro call error failed
    exact getRefused good.ledgered (getEffect accepted good.ledgered fits (Prod.ext rfl failed))
  · intro dropped
    exact prefetchRefused good.ledgered dropped
      (prefetchEffect accepted good.sound.bounded good.ledgered fits rfl)

/-! One resident page fills the only entry when the reader's queue is full -/

def singleConfig : CacheConfig := ⟨64,64,64,1,1,1,1,1,16,by decide⟩

def residentLoad : List Action :=
  [.get sampleAmbient (sampleSpec 0) 0 (.ok ()),.complete (sampleSpec 0).key 1 (.ok (samplePage 0)) ⟨17,5⟩,
    .dropLease (sampleLease 0 0 1)]

def residentCache : Cache := (run (step singleConfig) .empty residentLoad).getD .empty
theorem residentRun : run (step singleConfig) .empty residentLoad = some residentCache := rfl

def refusedGet : CacheInner × GetReply :=
  get singleConfig sampleAmbient (sampleSpec 1) 1 (.error .queueFull) residentCache.inner
def refusedPrefetch : CacheInner × Except StoreError PrefetchOutcome :=
  prefetch singleConfig sampleAmbient (sampleSpec 1) (.error .queueFull) residentCache.inner

theorem refusedCallsEvict : singleConfig.validate = .ok () ∧
    run (step singleConfig) .empty residentLoad = some residentCache ∧
    residentCache.inner.state.entries.contains (sampleSpec 0).key = true ∧
    residentCache.inner.state.ledger.residentBytes = 64 ∧
    refusedGet.2 = .failed .queueFull ∧ refusedGet.1.state.entries.isEmpty = true ∧
    refusedGet.1.state.ledger.residentBytes = 0 ∧
    refusedPrefetch.2 = .ok .droppedBudget ∧ refusedPrefetch.1.state.entries.isEmpty = true ∧
    refusedPrefetch.1.state.ledger.residentBytes = 0 :=
  ⟨by decide,residentRun,by decide,by decide,by decide,by decide,by decide,by decide,by decide,by decide⟩

theorem refusedGetNotAtomic : ¬Unchanged residentCache.inner.state refusedGet.1.state ∧
    (Unchanged residentCache.inner.state refusedGet.1.state ↔
      ¬EvictsForReader singleConfig sampleAmbient (sampleSpec 1) residentCache.inner.state .demand) :=
  ⟨fun same => absurd (congrArg Ledger.residentBytes same.ledger) (by decide),
    (failedAdmissionAtomic (by decide) ⟨residentLoad,residentRun⟩ sampleAmbient (sampleSpec 1)
      (.error .queueFull)).1 1 .queueFull (by decide)⟩

end RunnelMoe.PageCache
