import RunnelMoe.CacheMachine

/-! Lease safety over whole runs. A lease holds only a key and a generation, so
everything rests on the entry under that key: it keeps its identity as long as the
lease is alive, a retiring entry leaves at the drop of its last lease and at no other
step, and a generation that has left a key never comes back. -/
namespace RunnelMoe.PageCache
open StoreErrors Words PageSpecs CacheLimits KeyedSum Runs
open Std (ExtTreeMap)

def Entry.identity (e : Entry) : Digest × Nat × Nat × Nat := (e.fingerprint,e.length,e.allocationBytes,e.generation)

section Turns
variable {config : CacheConfig} {move : Move} {p q : Pages} {key : PageKey} {e : Entry}

theorem turnIdentity (turn : Turn config move p q) {e' : Entry} (before : p.entries[key]? = some e)
    (after : q.entries[key]? = some e') : e'.identity = e.identity := by
  have same {k : PageKey} {x y : Entry} (present : p.entries[k]? = some x)
      (found : (p.entries.insert k y)[key]? = some e') (kept : y.identity = x.identity) : e'.identity = e.identity := by
    rw [getInsert] at found
    split at found
    · subst k
      cases Option.some.inj found
      cases Option.some.inj (before.symm.trans present)
      exact kept
    · cases Option.some.inj (before.symm.trans found)
      rfl
  have erased {k : PageKey} (found : (p.entries.erase k)[key]? = some e') : e'.identity = e.identity := by
    rw [getErase] at found
    split at found
    · contradiction
    · cases Option.some.inj (before.symm.trans found)
      rfl
  cases turn with
  | count | stop => cases Option.some.inj (before.symm.trans after); rfl
  | evict | fail | releaseLast => exact erased after
  | start _ absent =>
    rw [getInsert] at after
    split at after
    · subst key
      rw [absent] at before
      contradiction
    · cases Option.some.inj (before.symm.trans after); rfl
  | hit _ present | join _ present | interest present | publish _ present | useResident present
  | useRetiring present | withdraw present | releaseResident _ present | releaseRetiring _ present
  | cancel present | retire present | drain present => exact same present after rfl

def Gone (key : PageKey) (generation : Nat) (p : Pages) : Prop :=
  generation ≤ p.generation ∧ ∀ e, p.entries[key]? = some e → e.generation ≠ generation

theorem turnGone {generation : Nat} (turn : Turn config move p q) (gone : Gone key generation p) :
    Gone key generation q := by
  have same {k : PageKey} {x y : Entry} (present : p.entries[k]? = some x) (kept : y.generation = x.generation) :
      ∀ e, (p.entries.insert k y)[key]? = some e → e.generation ≠ generation := by
    intro e found
    rw [getInsert] at found
    split at found
    · subst k
      cases Option.some.inj found
      rw [kept]
      exact gone.2 x present
    · exact gone.2 e found
  have erased (k : PageKey) : ∀ e, (p.entries.erase k)[key]? = some e → e.generation ≠ generation := by
    intro e found
    rw [getErase] at found
    split at found
    · contradiction
    · exact gone.2 e found
  cases turn with
  | count more => exact ⟨gone.1.trans more,gone.2⟩
  | stop => exact gone
  | evict | fail | releaseLast => exact ⟨gone.1,erased _⟩
  | start _ absent _ _ fresh =>
    refine ⟨gone.1.trans fresh.le,fun e found => ?_⟩
    rw [getInsert] at found
    split at found
    · cases Option.some.inj found
      have below := gone.1
      omega
    · exact gone.2 e found
  | hit _ present | join _ present | interest present | publish _ present | useResident present
  | useRetiring present | withdraw present | releaseResident _ present | releaseRetiring _ present
  | cancel present | retire present | drain present => exact ⟨gone.1,same present rfl⟩

def Entry.isRetiring (e : Entry) : Prop := ∃ r, e.state = .retiring r

theorem turnRetiring (turn : Turn config move p q) (before : p.entries[key]? = some e) (retiring : e.isRetiring) :
    (∃ e', q.entries[key]? = some e' ∧ e'.isRetiring ∧ e'.identity = e.identity) ∨
    ∃ lease, move = .release lease ∧ lease.key = key ∧ lease.generation = e.generation ∧ q.entries[key]? = none := by
  obtain ⟨r,retired⟩ := retiring
  have stays {m : ExtTreeMap PageKey Entry} (same : m[key]? = p.entries[key]?) :
      ∃ e' : Entry, m[key]? = some e' ∧ e'.isRetiring ∧ e'.identity = e.identity := ⟨e,same.trans before,⟨r,retired⟩,rfl⟩
  have apart {k : PageKey} {x : Entry} (present : p.entries[k]? = some x) (other : ∀ t, x.state ≠ .retiring t) :
      key ≠ k := by
    rintro rfl
    cases Option.some.inj (before.symm.trans present)
    exact other r retired
  cases turn with
  | count | stop => exact .inl (stays rfl)
  | evict present state | fail present state =>
    exact .inl (stays (getEraseOther _ _ (apart present (by simp [state]))))
  | start _ absent =>
    have other : key ≠ _ := fun same => by rw [same,absent] at before; contradiction
    exact .inl (stays (getInsertOther _ _ other _))
  | hit _ present state | join _ present state | interest present state | publish _ present state
  | useResident present state | withdraw present state | releaseResident _ present _ state | cancel present state
  | retire present state | drain present state =>
    exact .inl (stays (getInsertOther _ _ (apart present (by simp [state])) _))
  | @useRetiring _ k x t present state =>
    by_cases same : key = k
    · subst k
      cases Option.some.inj (before.symm.trans present)
      exact .inl ⟨_,getInsertSame _ _ _,⟨_,rfl⟩,rfl⟩
    · exact .inl (stays (getInsertOther _ _ same _))
  | @releaseRetiring _ x t lease _ present _ state =>
    by_cases same : key = lease.key
    · subst key
      cases Option.some.inj (before.symm.trans present)
      exact .inl ⟨_,getInsertSame _ _ _,⟨_,rfl⟩,rfl⟩
    · exact .inl (stays (getInsertOther _ _ same _))
  | @releaseLast _ x t lease _ present generation state =>
    by_cases same : key = lease.key
    · subst key
      cases Option.some.inj (before.symm.trans present)
      exact .inr ⟨lease,rfl,rfl,generation.symm,getEraseSame _ _⟩
    · exact .inl (stays (getEraseOther _ _ same))

theorem turnLeaseAlive {lease : PageLease} (turn : Turn config move p q) (kept : move ≠ .release lease)
    (alive : lease ∈ p.leases) : lease ∈ q.leases := by
  cases turn with
  | hit => exact List.mem_cons_of_mem _ alive
  | publish => exact List.mem_append_right _ alive
  | releaseResident | releaseRetiring | releaseLast =>
    exact (List.mem_erase_of_ne (fun same => kept (by rw [same]))).mpr alive
  | _ => exact alive

end Turns

theorem releaseAction {action : Action} {lease : PageLease} (may : action.moves (.release lease)) :
    action = .dropLease lease := by
  cases action with
  | dropLease other =>
    cases may
    rfl
  | complete => rcases may with may | may <;> cases may
  | withdraw | markUse => cases may
  | get | prefetch | invalidate | shutdown => exact absurd may id

def Cache.entry? (c : Cache) (key : PageKey) : Option Entry := c.inner.state.entries[key]?

structure Held (c : Cache) (lease : PageLease) (e : Entry) : Prop where
  present : c.entry? lease.key = some e
  generation : e.generation = lease.generation
  holds : e.holds lease.page
  counted : 1 ≤ e.leases
  charged : c.inner.state.ledger.pagePoolBytes =
    e.allocationBytes + total (fun _ x => x.allocationBytes) (c.inner.state.entries.erase lease.key)

section Step
variable {config : CacheConfig} {c next : Cache} {action : Action} {lease : PageLease} {e : Entry}

theorem goodHeld (good : Good config c.inner.state c.leases) (alive : lease ∈ c.leases) :
    ∃ e, Held c lease e := by
  obtain ⟨e,present,same,holds⟩ := good.sound.backed lease alive
  have counted : 0 < e.leases := by
    rw [countedAt good.sound.counted present]
    exact List.countP_pos_iff.mpr ⟨lease,alive,by simp [PageLease.on,same]⟩
  refine ⟨e,present,same,holds,counted,?_⟩
  rw [good.ledgered]
  exact totalSplit (fun _ (x : Entry) => x.allocationBytes) present

variable (accepted : Accepted config) (good : Good config c.inner.state c.leases)
include accepted good

theorem stepHeld (ok : step config c action = some next) (kept : action ≠ .dropLease lease) (alive : lease ∈ c.leases)
    (present : c.entry? lease.key = some e) :
    lease ∈ next.leases ∧ ∃ e', next.entry? lease.key = some e' ∧ e'.identity = e.identity := by
  have refines := stepRefines accepted good ok
  have tracked := turnsInvariant
    (fun p => Sound config p ∧ lease ∈ p.leases ∧
      ∃ e' : Entry, p.entries[lease.key]? = some e' ∧ e'.identity = e.identity) ?_ refines.turns
    ⟨good.sound,alive,e,present,rfl⟩
  · exact tracked.2
  · rintro move p q may turn ⟨sound,held,x,found,same⟩
    have other : move ≠ .release lease := fun release => kept (releaseAction (release ▸ may))
    have alive := turnLeaseAlive turn other held
    have sound := turnSound turn sound
    obtain ⟨y,later,-⟩ := sound.backed lease alive
    exact ⟨sound,alive,y,later,(turnIdentity turn found later).trans same⟩

theorem stepRetiring {key : PageKey} (ok : step config c action = some next) (present : c.entry? key = some e)
    (retiring : e.isRetiring) :
    (∃ e', next.entry? key = some e' ∧ e'.isRetiring ∧ e'.identity = e.identity) ∨
    ∃ lease, action = .dropLease lease ∧ lease.key = key ∧ lease.generation = e.generation ∧
      Gone key e.generation next.pages := by
  have refines := stepRefines accepted good ok
  have tracked := turnsInvariant
    (fun p => e.generation ≤ p.generation ∧
      ((∃ e' : Entry, p.entries[key]? = some e' ∧ e'.isRetiring ∧ e'.identity = e.identity) ∨
      ∃ lease, action = .dropLease lease ∧ lease.key = key ∧ lease.generation = e.generation ∧
        Gone key e.generation p)) ?_ refines.turns
    ⟨good.sound.numbered.below key e present,.inl ⟨e,present,retiring,rfl⟩⟩
  · exact tracked.2
  · rintro move p q may turn ⟨below,state⟩
    have later : e.generation ≤ q.generation := by
      cases turn with
      | count more => exact below.trans more
      | start _ _ _ _ fresh => exact below.trans fresh.le
      | _ => exact below
    refine ⟨later,?_⟩
    rcases state with ⟨x,found,retired,same⟩ | ⟨lease,drop,at',generation,gone⟩
    · rcases turnRetiring turn found retired with ⟨y,kept,still,equal⟩ | ⟨lease,release,at',generation,absent⟩
      · exact .inl ⟨y,kept,still,equal.trans same⟩
      · have number : x.generation = e.generation := congrArg (fun i => i.2.2.2) same
        refine .inr ⟨lease,releaseAction (release ▸ may),at',generation.trans number,later,?_⟩
        simp [absent]
    · exact .inr ⟨lease,drop,at',generation,turnGone turn gone⟩

theorem stepGone {key : PageKey} {generation : Nat} (ok : step config c action = some next)
    (gone : Gone key generation c.pages) : Gone key generation next.pages :=
  turnsInvariant (Gone key generation) (fun _ _ _ _ turn => turnGone turn) (stepRefines accepted good ok).turns gone

theorem stepDrop (alive : lease ∈ c.leases) :
    ∃ next, step config c (.dropLease lease) = some next ∧
      next.inner.state.ledger.leases + 1 = c.inner.state.ledger.leases := by
  have ok : step config c (.dropLease lease) =
      some ⟨releaseLease c.inner lease.key lease.generation,c.leases.erase lease⟩ := if_pos alive
  refine ⟨_,ok,?_⟩
  have after := stepGood accepted good ok
  rw [after.ledgered,good.ledgered]
  have count : (tally _).leases = _ := after.sound.alive
  have before : (tally _).leases = _ := good.sound.alive
  simp only [CacheState.pages] at count before
  rw [count,before,List.length_erase_of_mem alive]
  have positive := List.length_pos_of_mem alive
  omega

end Step

def Cache.has (c : Cache) (key : PageKey) (generation : Nat) : Prop :=
  ∃ e, c.entry? key = some e ∧ e.generation = generation

section Run
variable {config : CacheConfig} {c : Cache} {lease : PageLease} {e : Entry}

variable (accepted : Accepted config) (good : Good config c.inner.state c.leases)
include accepted good

theorem runHeld (alive : lease ∈ c.leases)
    (present : c.entry? lease.key = some e) {labels next} (ran : run (step config) c labels = some next)
    (kept : Action.dropLease lease ∉ labels) :
    lease ∈ next.leases ∧ ∃ e', Held next lease e' ∧ e'.identity = e.identity := by
  have others : ∀ action ∈ labels, action ≠ Action.dropLease lease := by
    rintro action member rfl
    exact kept member
  have tracked := guardedInvariant
    (fun c => Good config c.inner.state c.leases ∧ lease ∈ c.leases ∧
      ∃ e', c.entry? lease.key = some e' ∧ e'.identity = e.identity)
    (fun action => action ≠ .dropLease lease) ?_ ⟨good,alive,e,present,rfl⟩ others ran
  · obtain ⟨good,alive,x,found,same⟩ := tracked
    obtain ⟨y,held⟩ := goodHeld good alive
    cases Option.some.inj (found.symm.trans held.present)
    exact ⟨alive,x,held,same⟩
  · rintro s action next ⟨good,alive,x,found,same⟩ other ok
    obtain ⟨alive,y,later,equal⟩ := stepHeld accepted good ok other alive found
    exact ⟨stepGood accepted good ok,alive,y,later,equal.trans same⟩

theorem runGone {key : PageKey}
    {generation : Nat} (below : generation ≤ c.inner.state.generation) (absent : ¬c.has key generation)
    {labels last} (ran : run (step config) c labels = some last) : ¬last.has key generation := by
  have gone : Gone key generation c.pages := ⟨below,fun e found same => absent ⟨e,found,same⟩⟩
  have tracked := runInvariant
    (fun c => Good config c.inner.state c.leases ∧ Gone key generation c.pages) ?_ ⟨good,gone⟩ ran
  · rintro ⟨e,found,same⟩
    exact tracked.2.2 e found same
  · rintro s action next ⟨good,gone⟩ ok
    exact ⟨stepGood accepted good ok,stepGone accepted good ok gone⟩

theorem runCounter {labels last}
    (ran : run (step config) c labels = some last) :
    Good config last.inner.state last.leases ∧ c.inner.state.generation ≤ last.inner.state.generation := by
  refine runInvariant
    (fun s => Good config s.inner.state s.leases ∧ c.inner.state.generation ≤ s.inner.state.generation)
    ?_ ⟨good,le_rfl⟩ ran
  rintro s action next ⟨good,below⟩ ok
  refine ⟨stepGood accepted good ok,?_⟩
  refine turnsInvariant (fun p => c.inner.state.generation ≤ p.generation) ?_ (stepRefines accepted good ok).turns below
  intro move p q _ turn below
  cases turn with
  | count more => exact below.trans more
  | start _ _ _ _ fresh => exact below.trans fresh.le
  | _ => exact below

/- A retiring entry leaves exactly at the drop that leaves no lease on it. -/
theorem retiringLeaves {key : PageKey}
    (present : c.entry? key = some e) (retiring : e.isRetiring) {action next}
    (ok : step config c action = some next) :
    ¬next.has key e.generation ↔ ∃ other, action = .dropLease other ∧ PageLease.on key e.generation other = true ∧
      (c.leases.erase other).countP (PageLease.on key e.generation) = 0 := by
  have after := stepGood accepted good ok
  constructor
  · intro absent
    rcases stepRetiring accepted good ok present retiring with ⟨x,found,-,same⟩ | ⟨other,rfl,at',generation,-⟩
    · exact absurd ⟨x,found,congrArg (fun i => i.2.2.2) same⟩ absent
    · refine ⟨other,rfl,by simp [PageLease.on,at',generation],?_⟩
      rw [List.countP_eq_zero]
      intro lease member chosen
      simp only [PageLease.on,Bool.and_eq_true,beq_iff_eq] at chosen
      simp only [step] at ok
      split at ok
      · cases ok
        obtain ⟨x,found,same,-⟩ := after.sound.backed lease member
        exact absent ⟨x,chosen.1 ▸ found,same.trans chosen.2⟩
      · contradiction
  · rintro ⟨other,rfl,chosen,none⟩ ⟨x,found,same⟩
    rcases stepRetiring accepted good ok present retiring with ⟨y,still,⟨r,retired⟩,-⟩ | ⟨_,-,-,-,-,gone⟩
    · cases Option.some.inj (found.symm.trans still)
      have occupied : 0 < r.leases := after.sound.occupied key x found r retired
      have counted : x.leases = _ := countedAt after.sound.counted found
      simp only [step] at ok
      split at ok
      · cases ok
        rw [same] at counted
        simp only [CacheState.pages,none,Entry.leases,retired] at counted
        omega
      · contradiction
    · exact gone x found same

end Run

theorem leaseSafety {config : CacheConfig} (valid : config.validate = .ok ()) {c : Cache}
    (reached : Reachable (step config) .empty c) {lease : PageLease} (alive : lease ∈ c.leases) :
    ∃ e, Held c lease e ∧
      (∀ labels next, run (step config) c labels = some next → Action.dropLease lease ∉ labels →
        lease ∈ next.leases ∧ ∃ e', Held next lease e' ∧ e'.identity = e.identity) ∧
      (∀ labels next, run (step config) c labels = some next → ¬next.has lease.key lease.generation →
        ∀ more last, run (step config) next more = some last → ¬last.has lease.key lease.generation) ∧
      (e.isRetiring → ∀ action next, step config c action = some next →
        (¬next.has lease.key lease.generation ↔ ∃ other, action = .dropLease other ∧
          PageLease.on lease.key lease.generation other = true ∧
          (c.leases.erase other).countP (PageLease.on lease.key lease.generation) = 0)) ∧
      ∃ next, step config c (.dropLease lease) = some next ∧
        next.inner.state.ledger.leases + 1 = c.inner.state.ledger.leases := by
  have accepted := validateAccepts valid
  have good := reachableGood accepted reached
  obtain ⟨e,held⟩ := goodHeld good alive
  have below : lease.generation ≤ c.inner.state.generation := by
    rw [← held.generation]
    exact good.sound.numbered.below lease.key e held.present
  refine ⟨e,held,?_,?_,?_,stepDrop accepted good alive⟩
  · intro labels next ran kept
    exact runHeld accepted good alive held.present ran kept
  · intro labels next ran absent more last later
    obtain ⟨good,counter⟩ := runCounter accepted good ran
    exact runGone accepted good (below.trans counter) absent later
  · intro retiring action next ok
    rw [← held.generation]
    exact retiringLeaves accepted good held.present retiring ok

theorem sharedLoadLeases : sampleLease 0 0 1 ∈ sharedCache.leases ∧
    ∃ e, Held sharedCache (sampleLease 0 0 1) e ∧ ∀ labels next,
      run (step defaultConfig) sharedCache labels = some next → Action.dropLease (sampleLease 0 0 1) ∉ labels →
        ∃ e', Held next (sampleLease 0 0 1) e' := by
  have alive : sampleLease 0 0 1 ∈ sharedCache.leases := by decide
  obtain ⟨e,held,lasting,-⟩ := leaseSafety defaultAccepted ⟨sharedLoad,sharedRun⟩ alive
  refine ⟨alive,e,held,fun labels next ran kept => ?_⟩
  obtain ⟨-,e',later,-⟩ := lasting labels next ran kept
  exact ⟨e',later⟩

end RunnelMoe.PageCache
