import RunnelMoe.CacheLeases

/-! Cancelled loads. A load is condemned by the withdrawal of its last waiter without
prefetch interest, by invalidation or by shutdown. From then on it can only fail:
its bytes stay in flight until the completion arrives, and its generation is never
resident. A completion for anything but the current load is ignored. -/
namespace RunnelMoe.PageCache
open StoreErrors Words PageSpecs CacheLimits KeyedSum Runs
open Std (ExtTreeMap)

structure Loads (entries : ExtTreeMap PageKey Entry) (key : PageKey) (generation : Nat) (e : Entry)
    (l : LoadingEntry) : Prop where
  present : entries[key]? = some e
  number : e.generation = generation
  state : e.state = .loading l

inductive Condemns (key : PageKey) (generation : Nat) (c : Cache) : Action → Prop where
  | lastWithdrawal {e l w} (loads : Loads c.inner.state.entries key generation e l) (only : l.waiters = [w])
      (uninterested : l.prefetchInterest = false) : Condemns key generation c (.withdraw key generation w.id)
  | invalidated {e l} (loads : Loads c.inner.state.entries key generation e l) :
      Condemns key generation c (.invalidate key)
  | stopped : Condemns key generation c .shutdown

def Closed (key : PageKey) (generation : Nat) (identity : Digest × Nat × Nat × Nat) (p : Pages) : Prop :=
  ∃ e l, Loads p.entries key generation e l ∧ l.acceptingWaiters = false ∧ e.identity = identity

def Owned (key : PageKey) (generation : Nat) (p : Pages) : Prop :=
  generation ≤ p.generation ∧ Every p.entries (fun k e => e.generation = generation → k = key)

section Moves
variable {config : CacheConfig} {move : Move} {p q : Pages} {key : PageKey} {generation : Nat}
  {identity : Digest × Nat × Nat × Nat}

theorem turnOwned (turn : Turn config move p q) (owned : Owned key generation p) : Owned key generation q := by
  obtain ⟨below,only⟩ := owned
  cases turn with
  | count more => exact ⟨below.trans more,only⟩
  | stop => exact ⟨below,only⟩
  | evict | fail | releaseLast => exact ⟨below,everyErase only⟩
  | start _ _ _ _ fresh => exact ⟨below.trans fresh.le,everyInsert only (fun same => by omega)⟩
  | hit _ present | join _ present | interest present | publish _ present | useResident present
  | useRetiring present | withdraw present | releaseResident _ present | releaseRetiring _ present
  | cancel present | retire present | drain present =>
    have owner := only _ _ present
    exact ⟨below,everyInsert only owner⟩

theorem leaveClosed {l : LoadingEntry} (closed : l.acceptingWaiters = false) (i : Nat) :
    (l.leave i).acceptingWaiters = false := by simp [LoadingEntry.leave,closed]

/- A load ends by failure or publication of its own generation and by nothing else;
a load that is closed to waiters stays closed. -/
theorem turnLoads {e : Entry} {l : LoadingEntry} (turn : Turn config move p q)
    (loads : Loads p.entries key generation e l) :
    (∃ e' l', Loads q.entries key generation e' l' ∧ e'.identity = e.identity ∧
      (l.acceptingWaiters = false → l'.acceptingWaiters = false)) ∨
    (move = .fail key generation ∧ q.entries[key]? = none) ∨
    (move = .publish key generation ∧ l.acceptingWaiters = true) := by
  obtain ⟨present,number,state⟩ := loads
  have stays {m : ExtTreeMap PageKey Entry} (kept : m[key]? = p.entries[key]?) :
      ∃ e' l', Loads m key generation e' l' ∧ e'.identity = e.identity ∧
        (l.acceptingWaiters = false → l'.acceptingWaiters = false) :=
    ⟨e,l,⟨kept.trans present,number,state⟩,rfl,id⟩
  have apart {k : PageKey} {x : Entry} (found : p.entries[k]? = some x) (other : x.state ≠ .loading l) : key ≠ k := by
    rintro rfl
    cases Option.some.inj (present.symm.trans found)
    exact other state
  have rewritten {k : PageKey} {x : Entry} {t t' : LoadingEntry} (found : p.entries[k]? = some x)
      (loading : x.state = .loading t) (closes : t.acceptingWaiters = false → t'.acceptingWaiters = false) :
      ∃ e' l', Loads (p.entries.insert k {x with state := .loading t'}) key generation e' l' ∧
        e'.identity = e.identity ∧ (l.acceptingWaiters = false → l'.acceptingWaiters = false) := by
    by_cases here : key = k
    · subst k
      cases Option.some.inj (present.symm.trans found)
      cases EntryState.loading.inj (state.symm.trans loading)
      exact ⟨_,t',⟨getInsertSame _ _ _,number,rfl⟩,rfl,closes⟩
    · exact stays (getInsertOther _ _ here _)
  cases turn with
  | count | stop => exact .inl (stays rfl)
  | evict found other | releaseLast _ found _ other =>
    exact .inl (stays (getEraseOther _ _ (apart found (by simp [other]))))
  | @start _ k _ _ _ absent =>
    have other : key ≠ k := fun here => by rw [here,absent] at present; contradiction
    exact .inl (stays (getInsertOther _ _ other _))
  | @fail _ k x t found loading =>
    by_cases here : key = k
    · subst k
      cases Option.some.inj (present.symm.trans found)
      exact .inr (.inl ⟨by rw [number],getEraseSame _ _⟩)
    · exact .inl (stays (getEraseOther _ _ here))
  | @publish _ k x t page unused _ found loading accepting _ =>
    by_cases here : key = k
    · subst k
      cases Option.some.inj (present.symm.trans found)
      cases EntryState.loading.inj (state.symm.trans loading)
      exact .inr (.inr ⟨by rw [number],accepting⟩)
    · exact .inl (stays (getInsertOther _ _ here _))
  | hit _ found other | useResident found other | useRetiring found other | releaseResident _ found _ other
  | releaseRetiring _ found _ other | retire found other =>
    exact .inl (stays (getInsertOther _ _ (apart found (by simp [other])) _))
  | join _ found loading | interest found loading => exact .inl (rewritten found loading id)
  | withdraw found loading => exact .inl (rewritten found loading (fun closed => leaveClosed closed _))
  | cancel found loading | drain found loading => exact .inl (rewritten found loading (fun _ => rfl))

theorem turnClosed (turn : Turn config move p q) (closed : Closed key generation identity p)
    (owned : Owned key generation p) :
    Closed key generation identity q ∨ (move = .fail key generation ∧ Gone key generation q) := by
  obtain ⟨e,l,loads,shut,same⟩ := closed
  rcases turnLoads turn loads with ⟨e',l',later,equal,closes⟩ | ⟨failed,absent⟩ | ⟨-,accepting⟩
  · exact .inl ⟨e',l',later,closes shut,equal.trans same⟩
  · exact .inr ⟨failed,(turnOwned turn owned).1,by simp [absent]⟩
  · rw [shut] at accepting
    contradiction

theorem turnStopped (turn : Turn config move p q) (stopped : p.stopped = true) : q.stopped = true := by
  cases turn with
  | stop => rfl
  | _ => exact stopped

end Moves

theorem finishAction {action : Action} {key : PageKey} {generation : Nat}
    (may : action.moves (.fail key generation) ∨ action.moves (.publish key generation)) :
    ∃ result stats, action = .complete key generation result stats := by
  cases action with
  | complete k g result stats =>
    rcases may with (may | may) | (may | may) <;> cases may <;> exact ⟨result,stats,rfl⟩
  | withdraw | markUse | dropLease => rcases may with may | may <;> cases may
  | get | prefetch | invalidate | shutdown => rcases may with may | may <;> exact absurd may id

section Runs
variable {config : CacheConfig} {c next : Cache} {action : Action} {key : PageKey} {generation : Nat}
  {identity : Digest × Nat × Nat × Nat}

variable {e : Entry} {l : LoadingEntry}

theorem loadsOwned (good : Good config c.inner.state c.leases)
    (loads : Loads c.inner.state.entries key generation e l) : Owned key generation c.pages := by
  refine ⟨loads.number ▸ good.sound.numbered.below key e loads.present,?_⟩
  intro k x found same
  exact good.sound.numbered.distinct k key x e found loads.present (same.trans loads.number.symm)

theorem closedCharged (good : Good config c.inner.state c.leases)
    (closed : Closed key generation e.identity c.pages) :
    ∃ e' l', Loads c.inner.state.entries key generation e' l' ∧ e'.identity = e.identity ∧
      c.inner.state.ledger.inflightBytes =
        e.allocationBytes + total (fun _ x => x.inflight) (c.inner.state.entries.erase key) := by
  obtain ⟨e',l',loads,-,same⟩ := closed
  have bytes : e'.inflight = e.allocationBytes := by
    simp only [Entry.inflight,loads.state]
    exact congrArg (fun i => i.2.2.1) same
  refine ⟨e',l',loads,same,?_⟩
  rw [good.ledgered,← bytes]
  exact totalSplit (fun _ (x : Entry) => x.inflight) loads.present

def Doomed (key : PageKey) (generation : Nat) (p : Pages) : Prop :=
  p.stopped = true ∨ Owned key generation p ∧ ((∃ identity, Closed key generation identity p) ∨ Gone key generation p)

theorem doomedNotResident {p : Pages} (sound : Sound config p) (doomed : Doomed key generation p) :
    Every p.entries (fun _ e => e.generation = generation → ∀ r, e.state ≠ .resident r) := by
  intro k e found same r resident
  rcases doomed with stopped | ⟨owned,⟨identity,x,l,loads,-⟩ | gone⟩
  · have quiet := sound.quiet stopped k e found
    simp [Entry.quiet,resident] at quiet
  · cases owned.2 k e found same
    cases Option.some.inj (found.symm.trans loads.present)
    rw [loads.state] at resident
    contradiction
  · cases owned.2 k e found same
    exact gone.2 e found same

variable (accepted : Accepted config) (good : Good config c.inner.state c.leases)
include accepted good

theorem stepLoads (loads : Loads c.inner.state.entries key generation e l)
    (ok : step config c action = some next) (unfinished : ∀ result stats, action ≠ .complete key generation result stats) :
    ∃ e' l', Loads next.inner.state.entries key generation e' l' ∧ e'.identity = e.identity ∧
      (l.acceptingWaiters = false → l'.acceptingWaiters = false) := by
  refine turnsInvariant
    (fun p => ∃ e' l', Loads p.entries key generation e' l' ∧ e'.identity = e.identity ∧
      (l.acceptingWaiters = false → l'.acceptingWaiters = false)) ?_ (stepRefines accepted good ok).turns
    ⟨e,l,loads,rfl,id⟩
  rintro move p q may turn ⟨x,t,loads,same,closes⟩
  rcases turnLoads turn loads with ⟨e',l',later,equal,closed⟩ | ⟨rfl,-⟩ | ⟨rfl,-⟩
  · exact ⟨e',l',later,equal.trans same,fun shut => closed (closes shut)⟩
  · obtain ⟨result,stats,done⟩ := finishAction (.inl may)
    exact absurd done (unfinished result stats)
  · obtain ⟨result,stats,done⟩ := finishAction (.inr may)
    exact absurd done (unfinished result stats)

theorem stepDoomed (doomed : Doomed key generation c.pages) (ok : step config c action = some next) :
    Doomed key generation next.pages := by
  refine turnsInvariant (Doomed key generation) ?_ (stepRefines accepted good ok).turns doomed
  rintro move p q - turn (stopped | ⟨owned,⟨identity,closed⟩ | gone⟩)
  · exact .inl (turnStopped turn stopped)
  · refine .inr ⟨turnOwned turn owned,?_⟩
    rcases turnClosed turn closed owned with closed | ⟨-,gone⟩
    · exact .inl ⟨identity,closed⟩
    · exact .inr gone
  · exact .inr ⟨turnOwned turn owned,.inr (turnGone turn gone)⟩

theorem runDoomed (doomed : Doomed key generation c.pages) {labels last} (ran : run (step config) c labels = some last) :
    Good config last.inner.state last.leases ∧ Doomed key generation last.pages :=
  runInvariant (fun c => Good config c.inner.state c.leases ∧ Doomed key generation c.pages)
    (fun _ _ _ both ok => ⟨stepGood accepted both.1 ok,stepDoomed accepted both.1 both.2 ok⟩) ⟨good,doomed⟩ ran

theorem doomedDelivers (doomed : Doomed key generation c.pages) (result : Except StoreError VerifiedPage) (stats : ReadStats) :
    Delivery.leases (finishObservedLoad c.inner key generation result stats).2 = [] := by
  rcases done : finishObservedLoad c.inner key generation result stats with ⟨inner,deliveries⟩
  cases observedEffect good.ledgered (goodFits accepted good) done with
  | stale => rfl
  | failed => exact errorLeases _ _
  | published running present current state accepting =>
    rcases doomed with stopped | ⟨owned,⟨identity,x,l,loads,shut,-⟩ | gone⟩
    · simp [Cache.pages,CacheState.pages,running] at stopped
    · cases Option.some.inj (present.symm.trans loads.present)
      cases EntryState.loading.inj (state.symm.trans loads.state)
      rw [shut] at accepting
      contradiction
    · exact absurd current (gone.2 _ present)

theorem runClosed (closed : Closed key generation identity c.pages) {labels last} (ran : run (step config) c labels = some last)
    (unfinished : ∀ action ∈ labels, ∀ result stats, action ≠ .complete key generation result stats) :
    Good config last.inner.state last.leases ∧ Closed key generation identity last.pages := by
  refine guardedInvariant (fun c => Good config c.inner.state c.leases ∧ Closed key generation identity c.pages)
    (fun action => ∀ result stats, action ≠ .complete key generation result stats) ?_ ⟨good,closed⟩ unfinished ran
  rintro s action next ⟨good,e,l,loads,shut,same⟩ other ok
  obtain ⟨e',l',later,equal,closes⟩ := stepLoads accepted good loads ok other
  exact ⟨stepGood accepted good ok,e',l',later,closes shut,equal.trans same⟩

theorem closedCompletes (closed : Closed key generation identity c.pages) {result stats}
    (ok : step config c (.complete key generation result stats) = some next) : next.entry? key = none := by
  obtain ⟨e,l,loads,shut,-⟩ := closed
  rcases done : finishObservedLoad c.inner key generation result stats with ⟨inner,deliveries⟩
  simp only [step,done,Option.some.injEq] at ok
  subst ok
  cases observedEffect good.ledgered (goodFits accepted good) done with
  | stale _ other => exact absurd loads.state (other e l loads.present loads.number)
  | failed _ _ _ entries =>
    simp only [Cache.entry?,entries]
    exact getEraseSame _ _
  | published _ present _ state accepting =>
    cases Option.some.inj (present.symm.trans loads.present)
    cases EntryState.loading.inj (state.symm.trans loads.state)
    rw [shut] at accepting
    contradiction

theorem condemnCloses (condemns : Condemns key generation c action)
    (loads : Loads c.inner.state.entries key generation e l) (ok : step config c action = some next) :
    Closed key generation e.identity next.pages := by
  cases condemns with
  | @lastWithdrawal x t w met only uninterested =>
    cases Option.some.inj (loads.present.symm.trans met.present)
    cases EntryState.loading.inj (loads.state.symm.trans met.state)
    cases ok
    cases withdrawEffect key generation w.id good.ledgered (goodFits accepted good) with
    | gone _ none =>
      exact absurd rfl (none e loads.present loads.number w (by simp [Entry.waiters,loads.state,only]))
    | @withdrawn y t i v present current state found identity entries =>
      cases Option.some.inj (loads.present.symm.trans present)
      cases EntryState.loading.inj (loads.state.symm.trans state)
      have shorter := Vectors.swapRemoveLength found
      rw [only] at shorter
      have empty : Vectors.swapRemove [w] i = [] := by simpa using shorter
      refine ⟨{e with state := .loading (l.leave i)},l.leave i,⟨?_,loads.number,rfl⟩,?_,rfl⟩
      · simp only [Cache.pages,CacheState.pages,entries]
        exact getInsertSame _ _ _
      · simp [LoadingEntry.leave,only,empty,uninterested]
  | @invalidated x t met =>
    cases Option.some.inj (loads.present.symm.trans met.present)
    cases ok
    refine ⟨{e with state := .loading l.cancel},l.cancel,⟨?_,loads.number,rfl⟩,rfl,rfl⟩
    have there : c.inner.state.entries[key]? = some e := loads.present
    simp only [Cache.pages,CacheState.pages,invalidate,there,loads.state,updateState,storeEntries]
    exact getInsertSame _ _ _
  | stopped =>
    obtain ⟨e',l',later,same,-⟩ := stepLoads accepted good loads ok (by simp)
    have after := stepGood accepted good ok
    cases ok
    have quiet := after.sound.quiet (shutdownStops accepted good) key e' later.present
    simp only [Entry.quiet,later.state] at quiet
    exact ⟨e',l',later,quiet.2,same⟩

theorem condemnDooms (condemns : Condemns key generation c action) (ok : step config c action = some next) :
    Doomed key generation next.pages := by
  have closes {e : Entry} {l : LoadingEntry} (loads : Loads c.inner.state.entries key generation e l) :
      Doomed key generation next.pages := by
    obtain ⟨x,t,later,rest⟩ := condemnCloses accepted good condemns loads ok
    exact .inr ⟨loadsOwned (stepGood accepted good ok) later,.inl ⟨_,x,t,later,rest⟩⟩
  cases condemns with
  | lastWithdrawal loads => exact closes loads
  | invalidated loads => exact closes loads
  | stopped =>
    cases ok
    exact .inl (shutdownStops accepted good)

end Runs

theorem staleCompletion (inner : CacheInner) (key : PageKey) (generation : Nat)
    (result : Except StoreError VerifiedPage) (stats : ReadStats)
    (stale : ∀ e l, ¬Loads inner.state.entries key generation e l) :
    finishObservedLoad inner key generation result stats =
      (⟨inner.state,{inner.metrics with
        physicalReadBytes := saturatingAdd inner.metrics.physicalReadBytes stats.physicalBytes,
        ioNanoseconds := saturatingAdd inner.metrics.ioNanoseconds stats.ioNanoseconds}⟩,[]) := by
  simp only [finishObservedLoad,completeLoad,meterState]
  split
  · rfl
  rename_i e present
  split
  · rfl
  rename_i current
  split
  · rename_i l state
    exact absurd ⟨present,by simpa using current,state⟩ (stale e l)
  · rfl

theorem condemnedLoads {config : CacheConfig} (valid : config.validate = .ok ()) {c : Cache}
    (reached : Reachable (step config) .empty c) {key : PageKey} {generation : Nat} {action : Action}
    (condemns : Condemns key generation c action) {next : Cache} (ok : step config c action = some next) :
    (∀ labels last, run (step config) next labels = some last →
      (∀ k e r, last.entry? k = some e → e.generation = generation → e.state ≠ .resident r) ∧
      ∀ result stats, Delivery.leases (finishObservedLoad last.inner key generation result stats).2 = []) ∧
    (∀ e l, Loads c.inner.state.entries key generation e l →
      ∀ labels last, run (step config) next labels = some last →
        (∀ a ∈ labels, ∀ result stats, a ≠ .complete key generation result stats) →
        (∃ e' l', Loads last.inner.state.entries key generation e' l' ∧ e'.identity = e.identity ∧
          last.inner.state.ledger.inflightBytes =
            e.allocationBytes + total (fun _ x => x.inflight) (last.inner.state.entries.erase key)) ∧
        ∀ result stats settled, step config last (.complete key generation result stats) = some settled →
          settled.entry? key = none) ∧
    (∀ (inner : CacheInner) (k : PageKey) (g : Nat) (result : Except StoreError VerifiedPage) (stats : ReadStats),
      (∀ e l, ¬Loads inner.state.entries k g e l) →
      finishObservedLoad inner k g result stats =
        (⟨inner.state,{inner.metrics with
          physicalReadBytes := saturatingAdd inner.metrics.physicalReadBytes stats.physicalBytes,
          ioNanoseconds := saturatingAdd inner.metrics.ioNanoseconds stats.ioNanoseconds}⟩,[])) := by
  have accepted := validateAccepts valid
  have good := reachableGood accepted reached
  have after := stepGood accepted good ok
  refine ⟨?_,?_,staleCompletion⟩
  · intro labels last ran
    obtain ⟨good',doomed⟩ := runDoomed accepted after (condemnDooms accepted good condemns ok) ran
    refine ⟨fun k e r found same => doomedNotResident good'.sound doomed k e found same r,?_⟩
    exact doomedDelivers accepted good' doomed
  · intro e l loads labels last ran unfinished
    have closed := condemnCloses accepted good condemns loads ok
    obtain ⟨good',closed⟩ := runClosed accepted after closed ran unfinished
    exact ⟨closedCharged good' closed,fun _ _ _ done => closedCompletes accepted good' closed done⟩

/- One demand, withdrawn before its read ends; the page arrives too late. -/
def withdrawnLoad : Cache := (run (step defaultConfig) .empty [.get sampleAmbient (sampleSpec 0) 0 (.ok ())]).getD .empty
theorem withdrawnRun : run (step defaultConfig) .empty [.get sampleAmbient (sampleSpec 0) 0 (.ok ())] =
    some withdrawnLoad := rfl

theorem withdrawnLoadNeverResident : ∃ next,
    step defaultConfig withdrawnLoad (.withdraw (sampleSpec 0).key 1 1) = some next ∧
    ∀ labels last, run (step defaultConfig) next labels = some last →
      ∀ k e r, last.entry? k = some e → e.generation = 1 → e.state ≠ .resident r := by
  have loads : Loads withdrawnLoad.inner.state.entries (sampleSpec 0).key 1
      (demandEntry (sampleSpec 0) 64 1 1 0 1) ⟨[⟨1,0⟩],false,.demand,false,true,1⟩ := ⟨by decide,rfl,rfl⟩
  have condemns : Condemns (sampleSpec 0).key 1 withdrawnLoad (.withdraw (sampleSpec 0).key 1 1) :=
    .lastWithdrawal loads rfl rfl
  refine ⟨_,rfl,fun labels last ran => ?_⟩
  exact ((condemnedLoads defaultAccepted ⟨_,withdrawnRun⟩ condemns rfl).1 labels last ran).1

end RunnelMoe.PageCache
