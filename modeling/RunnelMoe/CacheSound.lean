import RunnelMoe.CacheMoves
import RunnelMoe.CacheLedger

/-! What every move keeps: the limits of the configuration, one entry behind each
lease with an exact count, generations that are never reused, and nothing left to
publish after a stop. Each part is one case analysis over the moves. -/
namespace RunnelMoe.PageCache
open StoreErrors Words PageSpecs CacheLimits KeyedSum
open Std (ExtTreeMap)

structure Bounded (config : CacheConfig) (entries : ExtTreeMap PageKey Entry) : Prop where
  pool : (tally entries).pagePoolBytes ≤ config.pagePoolCapacity
  inflight : (tally entries).inflightBytes ≤ config.maxInflightBytes
  loads : (tally entries).activeLoads ≤ config.maxLoads
  size : entries.size ≤ config.maxEntries
  waiters : (tally entries).waiters ≤ config.maxWaiters
  leases : (tally entries).leases + (tally entries).leaseReservations ≤ config.maxLeases
  perPage : Every entries (fun _ e => e.waiters.length ≤ config.maxWaitersPerPage)

section Replaced
variable {config : CacheConfig} {entries : ExtTreeMap PageKey Entry} {key : PageKey} {e e' : Entry}

theorem boundedErased (bounded : Bounded config entries) (present : entries[key]? = some e) :
    Bounded config (entries.erase key) := by
  obtain ⟨pool,inflight,loads,size,waiters,leases,perPage⟩ := bounded
  rw [tallySplit present] at pool inflight loads waiters leases
  rw [sizeSplit present] at size
  simp only [Ledger.add,Entry.share] at pool inflight loads waiters leases
  exact ⟨by omega,by omega,by omega,by omega,by omega,by omega,everyErase perPage⟩

/- An entry may be replaced freely as long as no column of its share grows; leases
may take the place of reservations. -/
theorem boundedReplaced (bounded : Bounded config entries) (present : entries[key]? = some e)
    (charge : e'.allocationBytes ≤ e.allocationBytes) (inflight : e'.inflight ≤ e.inflight)
    (loads : e'.loads ≤ e.loads) (waiters : e'.waiters.length ≤ e.waiters.length)
    (leases : e'.leases + e'.waiters.length ≤ e.leases + e.waiters.length) :
    Bounded config (entries.insert key e') := by
  have perPage := bounded.perPage key e present
  obtain ⟨b1,b2,b3,b4,b5,b6,b7⟩ := bounded
  rw [tallySplit present] at b1 b2 b3 b5 b6
  rw [sizeSplit present] at b4
  simp only [Ledger.add,Entry.share] at b1 b2 b3 b5 b6
  refine ⟨?_,?_,?_,?_,?_,?_,everyInsert b7 (by omega)⟩
  case refine_4 => rw [sizeInsert]; exact b4
  all_goals rw [tallyInsert]; simp only [Ledger.add,Entry.share]; omega

end Replaced

theorem leaveWaiters {l : LoadingEntry} {i w} (found : l.waiters[i]? = some w) :
    (l.leave i).waiters.length + 1 = l.waiters.length := Vectors.swapRemoveLength found

variable {config : CacheConfig} {key : PageKey} {lease : PageLease} {p : Pages} {e : Entry}

theorem turnBounded {move p q} (turn : Turn config move p q)
    (bounded : Bounded config p.entries) : Bounded config q.entries := by
  cases turn with
  | count | stop => exact bounded
  | evict present _ _ => exact boundedErased bounded present
  | fail present _ => exact boundedErased bounded present
  | releaseLast _ present _ _ _ => exact boundedErased bounded present
  | @hit _ key e r call touch _ present state room =>
    obtain ⟨b1,b2,b3,b4,b5,b6,b7⟩ := bounded
    have before := tallySplit present
    rw [shareResident state] at before
    have after := tallyInsert p.entries key
      {e with state := .resident {r with lastTouch := touch, leases := r.leases + 1}}
    rw [shareResident rfl] at after
    rw [before] at b1 b2 b3 b5 b6 room
    simp only [Ledger.add] at b1 b2 b3 b5 b6 room
    refine ⟨?_,?_,?_,?_,?_,?_,everyInsert b7 (Nat.zero_le _)⟩
    case refine_4 => rw [sizeInsert,← sizeSplit present]; exact b4
    all_goals rw [after]; simp only [Ledger.add]; omega
  | @join _ key e l id call touch _ present state _ _ waiters perPage room =>
    obtain ⟨b1,b2,b3,b4,b5,b6,b7⟩ := bounded
    have before := tallySplit present
    rw [shareLoading state] at before
    have after := tallyInsert p.entries key
      {e with state := .loading {l with waiters := l.waiters ++ [⟨id,call⟩], lastTouch := touch}}
    rw [shareLoading rfl] at after
    rw [before] at b1 b2 b3 b5 b6 waiters room
    simp only [Ledger.add] at b1 b2 b3 b5 b6 waiters room
    have longer : (l.waiters ++ [(⟨id,call⟩ : Waiter)]).length ≤ config.maxWaitersPerPage := by
      simpa using Nat.succ_le_of_lt perPage
    refine ⟨?_,?_,?_,?_,?_,?_,everyInsert b7 longer⟩
    case refine_4 => rw [sizeInsert,← sizeSplit present]; exact b4
    all_goals rw [after]; simp only [Ledger.add,List.length_append,List.length_singleton]; omega
  | @start _ key e l _ absent state alone _ pool inflight loads room =>
    obtain ⟨b1,b2,b3,b4,b5,b6,b7⟩ := bounded
    have after := tallyInsert p.entries key e
    rw [shareLoading state,alone,eraseAbsent absent] at after
    have empty : e.waiters.length ≤ config.maxWaitersPerPage := by simp [Entry.waiters,state,alone]
    refine ⟨?_,?_,?_,?_,?_,?_,everyInsert b7 empty⟩
    case refine_4 => rw [sizeInsert,eraseAbsent absent]; omega
    all_goals rw [after]; simp only [Ledger.add,List.length_nil]; omega
  | @withdraw _ key e l i w present state found =>
    have shorter := leaveWaiters found
    refine boundedReplaced bounded present le_rfl ?_ ?_ ?_ ?_ <;>
      simp [Entry.inflight,Entry.loads,Entry.waiters,Entry.leases,state] <;> omega
  | interest present state _ | publish _ present state _ _ | useResident present state
  | useRetiring present state | releaseResident _ present _ state _ | releaseRetiring _ present _ state _
  | cancel present state | retire present state _ | drain present state =>
    refine boundedReplaced bounded present le_rfl ?_ ?_ ?_ ?_ <;>
      simp [Entry.inflight,Entry.loads,Entry.waiters,Entry.leases,LoadingEntry.cancel,state]

def PageLease.on (key : PageKey) (generation : Nat) (lease : PageLease) : Bool :=
  lease.key == key && lease.generation == generation

def Counted (p : Pages) : Prop :=
  Every p.entries (fun key e => e.leases = p.leases.countP (PageLease.on key e.generation))

def Backed (p : Pages) : Prop := ∀ lease ∈ p.leases,
  ∃ e, p.entries[lease.key]? = some e ∧ e.generation = lease.generation ∧ e.holds lease.page

theorem onOther {other : PageKey} {generation : Nat} (at' : lease.key = key)
    (different : other ≠ key) : PageLease.on other generation lease = false := by
  simp [PageLease.on,at',different.symm]

theorem unbackedCount (backed : Backed p) (absent : p.entries[key]? = none)
    (generation : Nat) : p.leases.countP (PageLease.on key generation) = 0 := by
  rw [List.countP_eq_zero]
  intro lease member chosen
  obtain ⟨e,present,-⟩ := backed lease member
  simp only [PageLease.on,Bool.and_eq_true,beq_iff_eq] at chosen
  rw [chosen.1,absent] at present
  contradiction

theorem countedAt (counted : Counted p) (present : p.entries[key]? = some e) :
    e.leases = p.leases.countP (PageLease.on key e.generation) := counted key e present

theorem releasedOther (counted : Counted p)
    (alive : lease ∈ p.leases) (other : key ≠ lease.key) (present : p.entries[key]? = some e) :
    e.leases = (p.leases.erase lease).countP (PageLease.on key e.generation) := by
  have before := countedAt counted present
  rw [(List.perm_cons_erase alive).countP_eq,List.countP_cons,onOther rfl other] at before
  simpa using before

theorem releasedSame (counted : Counted p)
    (alive : lease ∈ p.leases) (present : p.entries[lease.key]? = some e) (same : e.generation = lease.generation) :
    e.leases = (p.leases.erase lease).countP (PageLease.on lease.key e.generation) + 1 := by
  have before := countedAt counted present
  rw [(List.perm_cons_erase alive).countP_eq,List.countP_cons] at before
  simpa [PageLease.on,same] using before

theorem countedReplaced {e' : Entry} (counted : Counted p)
    (present : p.entries[key]? = some e) (same : e'.generation = e.generation) (leases : e'.leases = e.leases) :
    Counted {p with entries := p.entries.insert key e'} :=
  everyInsert counted (by rw [leases,same]; exact counted key e present)

theorem turnCounted {move p q} (turn : Turn config move p q) (counted : Counted p)
    (backed : Backed p) : Counted q := by
  cases turn with
  | count | stop => exact counted
  | evict | fail => exact everyErase counted
  | @start _ key e l _ absent state _ _ _ _ _ _ =>
    refine everyInsert counted ?_
    rw [unbackedCount backed absent]
    simp [Entry.leases,state]
  | @hit _ key e r call _ _ present state _ =>
    refine everyInsertOther (fun a b other found => ?_) ?_
    · rw [List.countP_cons,onOther rfl other]
      exact counted a b found
    · have before := countedAt counted present
      rw [List.countP_cons]
      simp only [Entry.leases,state] at before
      simp [Entry.leases,PageLease.on] at before ⊢
      exact before
  | @publish _ key e l page unused _ present state _ _ =>
    refine everyInsertOther (fun a b other found => ?_) ?_
    · have none : (l.waiters.map (Waiter.lease · key e.generation page)).countP (PageLease.on a b.generation) = 0 := by
        rw [List.countP_eq_zero]
        intro lease member
        obtain ⟨w,-,rfl⟩ := List.mem_map.mp member
        simp [PageLease.on,Waiter.lease,other.symm]
      rw [List.countP_append,none,Nat.zero_add]
      exact counted a b found
    · have all : (l.waiters.map (Waiter.lease · key e.generation page)).countP (PageLease.on key e.generation) =
          l.waiters.length := by
        rw [List.countP_map]
        exact (List.countP_eq_length.mpr (by simp [PageLease.on,Waiter.lease]))
      have before := countedAt counted present
      simp only [Entry.leases,state] at before
      rw [List.countP_append,all,← before]
      simp [Entry.leases]
  | @releaseResident _ e r lease alive present same state _ | @releaseRetiring _ e r lease alive present same state _ =>
    refine everyInsertOther (fun a b other found => releasedOther counted alive other found) ?_
    have before := releasedSame counted alive present same
    simp only [Entry.leases,state] at before ⊢
    omega
  | releaseLast alive _ _ _ _ =>
    exact everyEraseOther (fun a b other found => releasedOther counted alive other found)
  | join _ present state _ _ _ _ _ | interest present state _ | useResident present state
  | useRetiring present state | withdraw present state _ | cancel present state | retire present state _
  | drain present state =>
    exact countedReplaced counted present rfl (by simp [Entry.leases,state])

section Backing
variable {p : Pages} {key : PageKey} {e e' : Entry}

theorem backedReplaced (backed : Backed p) (present : p.entries[key]? = some e)
    (same : e'.generation = e.generation) (holds : ∀ page, e.holds page → e'.holds page) {leases : List PageLease}
    (fewer : ∀ lease ∈ leases, lease ∈ p.leases) :
    ∀ lease ∈ leases, ∃ x, (p.entries.insert key e')[lease.key]? = some x ∧
      x.generation = lease.generation ∧ x.holds lease.page := by
  intro lease member
  obtain ⟨x,found,generation,held⟩ := backed lease (fewer lease member)
  by_cases at' : lease.key = key
  · rw [at'] at found ⊢
    cases Option.some.inj (present.symm.trans found)
    exact ⟨e',getInsertSame _ _ _,same.trans generation,holds _ held⟩
  · exact ⟨x,by rw [getInsertOther _ _ at']; exact found,generation,held⟩

theorem backedErased (backed : Backed p) {leases : List PageLease} (fewer : ∀ lease ∈ leases, lease ∈ p.leases)
    (elsewhere : ∀ lease ∈ leases, lease.key ≠ key) :
    ∀ lease ∈ leases, ∃ x, (p.entries.erase key)[lease.key]? = some x ∧
      x.generation = lease.generation ∧ x.holds lease.page := by
  intro lease member
  obtain ⟨x,found,rest⟩ := backed lease (fewer lease member)
  exact ⟨x,by rw [getEraseOther _ _ (elsewhere lease member)]; exact found,rest⟩

theorem leaseCounts (backed : Backed p) (present : p.entries[key]? = some e) {lease : PageLease}
    (alive : lease ∈ p.leases) (at' : lease.key = key) : PageLease.on key e.generation lease = true := by
  obtain ⟨x,found,generation,-⟩ := backed lease alive
  rw [at'] at found
  cases Option.some.inj (present.symm.trans found)
  simp [PageLease.on,at',generation]

theorem unleasedElsewhere (counted : Counted p) (backed : Backed p) (present : p.entries[key]? = some e)
    (unleased : e.leases = 0) : ∀ lease ∈ p.leases, lease.key ≠ key := by
  intro lease alive at'
  have none := countedAt counted present
  rw [unleased] at none
  exact List.countP_eq_zero.mp none.symm lease alive (leaseCounts backed present alive at')

end Backing

theorem turnBacked {move p q} (turn : Turn config move p q) (counted : Counted p)
    (backed : Backed p) : Backed q := by
  cases turn with
  | count | stop => exact backed
  | evict present state unleased =>
    have elsewhere := unleasedElsewhere counted backed present (by simpa [Entry.leases,state] using unleased)
    exact backedErased backed (fun _ h => h) elsewhere
  | fail present state =>
    have elsewhere := unleasedElsewhere counted backed present (by simp [Entry.leases,state])
    exact backedErased backed (fun _ h => h) elsewhere
  | @start _ key e l _ absent _ _ _ _ _ _ _ =>
    intro lease member
    obtain ⟨x,found,rest⟩ := backed lease member
    have other : lease.key ≠ key := fun at' => by rw [at',absent] at found; contradiction
    exact ⟨x,by rw [getInsertOther _ _ other]; exact found,rest⟩
  | @hit _ key e r call touch _ present state _ =>
    intro lease member
    rcases List.mem_cons.mp member with rfl | old
    · exact ⟨_,getInsertSame _ _ _,rfl,rfl⟩
    · refine backedReplaced backed present ?_ ?_ (fun _ h => h) lease old <;> simp [Entry.holds,state]
  | @publish _ key e l page unused _ present state _ _ =>
    intro lease member
    rcases List.mem_append.mp member with new | old
    · obtain ⟨w,-,rfl⟩ := List.mem_map.mp new
      exact ⟨_,getInsertSame _ _ _,rfl,rfl⟩
    · refine backedReplaced backed present ?_ ?_ (fun _ h => h) lease old <;> simp [Entry.holds,state]
  | releaseResident _ present _ state _ | releaseRetiring _ present _ state _ =>
    refine backedReplaced backed present ?_ ?_ (fun _ h => List.mem_of_mem_erase h) <;> simp [Entry.holds,state]
  | @releaseLast _ e r lease alive present same state last =>
    refine backedErased backed (fun _ h => List.mem_of_mem_erase h) ?_
    intro other member at'
    have count := releasedSame counted alive present same
    simp only [Entry.leases,state,last] at count
    have none : (p.leases.erase lease).countP (PageLease.on lease.key e.generation) = 0 := by omega
    exact List.countP_eq_zero.mp none other member
      (leaseCounts backed present (List.mem_of_mem_erase member) at')
  | join _ present state _ _ _ _ _ | interest present state _ | useResident present state
  | useRetiring present state | withdraw present state _ | cancel present state | retire present state _
  | drain present state =>
    refine backedReplaced backed present ?_ ?_ (fun _ h => h) <;> simp [Entry.holds,state]

/-! The number of leases alive, and what a retiring entry is for -/

def Alive (p : Pages) : Prop := (tally p.entries).leases = p.leases.length

theorem turnAlive {move p q} (turn : Turn config move p q) (alive : Alive p) : Alive q := by
  unfold Alive at alive ⊢
  cases turn with
  | count | stop => exact alive
  | evict present state unleased =>
    rw [tallySplit present,shareResident state] at alive
    simpa [Ledger.add,unleased] using alive
  | fail present state =>
    rw [tallySplit present,shareLoading state] at alive
    simpa [Ledger.add] using alive
  | start _ absent state _ _ _ _ _ _ =>
    rw [tallyInsert,eraseAbsent absent,shareLoading state]
    simpa [Ledger.add] using alive
  | hit _ present state _ =>
    rw [tallySplit present,shareResident state] at alive
    rw [tallyInsert,shareResident rfl]
    simp only [Ledger.add,List.length_cons] at alive ⊢
    omega
  | publish _ present state _ _ =>
    rw [tallySplit present,shareLoading state] at alive
    rw [tallyInsert,shareResident rfl]
    simp only [Ledger.add,List.length_append,List.length_map] at alive ⊢
    omega
  | releaseResident member present _ state leased =>
    rw [tallySplit present,shareResident state] at alive
    rw [tallyInsert,shareResident rfl,List.length_erase_of_mem member]
    simp only [Ledger.add] at alive ⊢
    omega
  | releaseRetiring member present _ state leased =>
    rw [tallySplit present,shareRetiring state] at alive
    rw [tallyInsert,shareRetiring rfl,List.length_erase_of_mem member]
    simp only [Ledger.add] at alive ⊢
    omega
  | releaseLast member present _ state last =>
    rw [tallySplit present,shareRetiring state] at alive
    rw [List.length_erase_of_mem member]
    simp only [Ledger.add] at alive ⊢
    omega
  | useResident present state =>
    rw [tallySplit present,shareResident state] at alive
    rw [tallyInsert,shareResident rfl]
    exact alive
  | useRetiring present state =>
    rw [tallySplit present,shareRetiring state] at alive
    rw [tallyInsert,shareRetiring rfl]
    exact alive
  | retire present state _ =>
    rw [tallySplit present,shareResident state] at alive
    rw [tallyInsert,shareRetiring rfl]
    exact alive
  | join _ present state _ _ _ _ _ | interest present state _ | withdraw present state _
  | cancel present state | drain present state =>
    rw [tallySplit present,shareLoading state] at alive
    rw [tallyInsert,shareLoading rfl]
    exact alive

def Entry.occupied (e : Entry) : Prop := ∀ r, e.state = .retiring r → 0 < r.leases

theorem turnOccupied {move p q} (turn : Turn config move p q)
    (occupied : Every p.entries (fun _ e => e.occupied)) : Every q.entries (fun _ e => e.occupied) := by
  cases turn with
  | count | stop => exact occupied
  | evict | fail | releaseLast => exact everyErase occupied
  | @useRetiring _ key e r present state =>
    refine everyInsert occupied ?_
    rintro _ ⟨⟩
    exact occupied key e present r state
  | releaseRetiring _ _ _ _ leased =>
    refine everyInsert occupied ?_
    rintro r ⟨⟩
    exact Nat.sub_pos_of_lt leased
  | retire _ _ leased =>
    refine everyInsert occupied ?_
    rintro r ⟨⟩
    exact leased
  | start _ _ state _ _ _ _ _ _ =>
    refine everyInsert occupied ?_
    intro r retiring
    rw [state] at retiring
    contradiction
  | hit | join | interest | publish | useResident | withdraw | releaseResident | cancel | drain =>
    refine everyInsert occupied ?_
    rintro r ⟨⟩

structure Numbered (p : Pages) : Prop where
  below : Every p.entries (fun _ e => e.generation ≤ p.generation)
  distinct : ∀ (a b : PageKey) (x y : Entry), p.entries[a]? = some x → p.entries[b]? = some y →
    x.generation = y.generation → a = b

section Numbering
variable {p : Pages} {key : PageKey} {e e' : Entry}

theorem numberedErased (numbered : Numbered p) {q : Pages} (entries : q.entries = p.entries.erase key)
    (generation : q.generation = p.generation) : Numbered q := by
  refine ⟨by rw [entries,generation]; exact everyErase numbered.below,?_⟩
  intro a b x y first second
  rw [entries] at first second
  rw [getErase] at first second
  split at first <;> split at second <;> try contradiction
  exact numbered.distinct a b x y first second

theorem numberedReplaced (numbered : Numbered p) (present : p.entries[key]? = some e)
    (same : e'.generation = e.generation) {q : Pages} (entries : q.entries = p.entries.insert key e')
    (generation : q.generation = p.generation) : Numbered q := by
  refine ⟨by rw [entries,generation]; exact everyInsert numbered.below (same ▸ numbered.below key e present),?_⟩
  have old : ∀ (a : PageKey) (x : Entry), (p.entries.insert key e')[a]? = some x →
      ∃ y : Entry, p.entries[a]? = some y ∧ y.generation = x.generation := by
    intro a x found
    rw [getInsert] at found
    split at found
    · subst a; cases Option.some.inj found; exact ⟨e,present,same.symm⟩
    · exact ⟨x,found,rfl⟩
  intro a b x y first second equal
  rw [entries] at first second
  obtain ⟨x',first,gx⟩ := old a x first
  obtain ⟨y',second,gy⟩ := old b y second
  exact numbered.distinct a b x' y' first second (gx.trans (equal.trans gy.symm))

end Numbering

theorem turnNumbered {move p q} (turn : Turn config move p q) (numbered : Numbered p) :
    Numbered q := by
  cases turn with
  | count generations _ =>
    exact ⟨fun a b found => (numbered.below a b found).trans generations,numbered.distinct⟩
  | stop => exact ⟨numbered.below,numbered.distinct⟩
  | evict | fail | releaseLast => exact numberedErased numbered rfl rfl
  | @start _ key e l _ absent _ _ fresh _ _ _ _ =>
    have lower : Every p.entries (fun _ x => x.generation < e.generation) :=
      fun a x found => Nat.lt_of_le_of_lt (numbered.below a x found) fresh
    refine ⟨everyInsert (fun a x found => (lower a x found).le) le_rfl,?_⟩
    intro a b x y first second equal
    simp only [getInsert] at first second
    split at first <;> split at second
    · simp_all
    · cases Option.some.inj first
      have := lower b y second
      omega
    · cases Option.some.inj second
      have := lower a x first
      omega
    · exact numbered.distinct a b x y first second equal
  | hit _ present _ _ | join _ present _ _ _ _ _ _ | interest present _ _ | publish _ present _ _ _
  | useResident present _ | useRetiring present _ | withdraw present _ _ | releaseResident _ present _ _ _
  | releaseRetiring _ present _ _ _ | cancel present _ | retire present _ _ | drain present _ =>
    refine numberedReplaced numbered present ?_ rfl rfl
    rfl

theorem turnQuiet {move p q} (turn : Turn config move p q)
    (quiet : p.stopped = true → Every p.entries (fun _ e => e.quiet)) :
    q.stopped = true → Every q.entries (fun _ e => e.quiet) := by
  intro stopped
  cases turn with
  | stop settled => exact settled
  | hit running | join running | start running | publish running => simp [running] at stopped
  | count => exact quiet stopped
  | evict | fail | releaseLast => exact everyErase (quiet stopped)
  | useRetiring present state | releaseRetiring _ present _ state _ =>
    exact everyInsert (quiet stopped) (by simp [Entry.quiet])
  | useResident present state | releaseResident _ present _ state _ | retire present state _ =>
    have never := quiet stopped _ _ present
    simp [Entry.quiet,state] at never
  | interest present state accepting =>
    have closed := quiet stopped _ _ present
    simp [Entry.quiet,state,accepting] at closed
  | withdraw present state found =>
    have closed := quiet stopped _ _ present
    simp only [Entry.quiet,state] at closed
    simp [closed.1] at found
  | cancel present state =>
    have closed := quiet stopped _ _ present
    simp only [Entry.quiet,state] at closed
    exact everyInsert (quiet stopped) (by simp [Entry.quiet,LoadingEntry.cancel,closed.1])
  | drain present state => exact everyInsert (quiet stopped) (by simp [Entry.quiet,LoadingEntry.cancel])

def Entry.identified (bound : Nat) (e : Entry) : Prop :=
  (∀ w ∈ e.waiters, w.id ≤ bound) ∧ (e.waiters.map Waiter.id).Nodup

theorem identifiedLater {bound later : Nat} (identified : e.identified bound) (more : bound ≤ later) :
    e.identified later := ⟨fun w member => (identified.1 w member).trans more,identified.2⟩

theorem turnIdentified {move p q} (turn : Turn config move p q)
    (identified : Every p.entries (fun _ e => e.identified p.waiter)) :
    Every q.entries (fun _ e => e.identified q.waiter) := by
  cases turn with
  | count _ more => exact fun a b found => identifiedLater (identified a b found) more
  | stop => exact identified
  | evict | fail | releaseLast => exact everyErase identified
  | @join _ key e l id call touch _ present state _ fresh _ _ _ =>
    have old : e.identified p.waiter := identified key e present
    simp only [Entry.identified,Entry.waiters,state] at old
    refine everyInsert (fun a b found => identifiedLater (identified a b found) fresh.le) ⟨?_,?_⟩
    · intro w member
      rcases List.mem_append.mp member with earlier | last
      · exact (old.1 w earlier).trans fresh.le
      · cases List.mem_singleton.mp last; exact le_rfl
    · simp only [Entry.waiters,List.map_append,List.map_singleton]
      refine List.nodup_append.mpr ⟨old.2,List.nodup_singleton _,?_⟩
      intro a first b second equal
      obtain ⟨w,member,rfl⟩ := List.mem_map.mp first
      cases List.mem_singleton.mp second
      have := old.1 w member
      omega
  | start _ _ state alone _ _ _ _ _ =>
    exact everyInsert identified (by simp [Entry.identified,Entry.waiters,state,alone])
  | @withdraw _ key e l i w present state found =>
    have old : e.identified p.waiter := identified key e present
    simp only [Entry.identified,Entry.waiters,state] at old
    have moved : l.waiters.Perm (w :: (l.leave i).waiters) := Vectors.swapRemovePerm found
    refine everyInsert identified ⟨fun x member => old.1 x (moved.mem_iff.mpr (List.mem_cons_of_mem _ member)),?_⟩
    have ids := (moved.map Waiter.id).nodup_iff.mp old.2
    exact (List.nodup_cons.mp ids).2
  | interest present state _ | cancel present state =>
    have old := identified _ _ present
    simp only [Entry.identified,Entry.waiters,state] at old
    exact everyInsert identified (by simpa [Entry.identified,Entry.waiters,LoadingEntry.cancel] using old)
  | hit | publish | useResident | useRetiring | releaseResident | releaseRetiring | retire | drain =>
    exact everyInsert identified (by simp [Entry.identified,Entry.waiters])

structure Sound (config : CacheConfig) (p : Pages) : Prop where
  bounded : Bounded config p.entries
  counted : Counted p
  backed : Backed p
  alive : Alive p
  occupied : Every p.entries (fun _ e => e.occupied)
  numbered : Numbered p
  quiet : p.stopped = true → Every p.entries (fun _ e => e.quiet)
  identified : Every p.entries (fun _ e => e.identified p.waiter)

theorem turnSound {move p q} (turn : Turn config move p q) (sound : Sound config p) :
    Sound config q where
  bounded := turnBounded turn sound.bounded
  counted := turnCounted turn sound.counted sound.backed
  backed := turnBacked turn sound.counted sound.backed
  alive := turnAlive turn sound.alive
  occupied := turnOccupied turn sound.occupied
  numbered := turnNumbered turn sound.numbered
  quiet := turnQuiet turn sound.quiet
  identified := turnIdentified turn sound.identified

theorem turnsSound {allowed p q} (turns : Turns config allowed p q) (sound : Sound config p) :
    Sound config q :=
  turnsInvariant (Sound config) (fun _ _ _ _ turn => turnSound turn) turns sound

end RunnelMoe.PageCache
