import RunnelMoe.CacheLedger
import RunnelMoe.CacheSound

/-! What a granted reservation does: it evicts a prefix of the unleased resident
pages in touch order, and the page-pool projection of the planning loop is the
tally of what is left. A refused reservation changes nothing by its type. -/
namespace RunnelMoe.PageCache
open StoreErrors Words PageSpecs CacheLimits KeyedSum
open Std (ExtTreeMap)

def Victim (entries : ExtTreeMap PageKey Entry) (c : Candidate) : Prop :=
  ∃ e r, entries[c.key]? = some e ∧ e.state = .resident r ∧ r.leases = 0 ∧
    e.allocationBytes = c.bytes ∧ r.lastTouch = c.lastTouch

variable {entries : ExtTreeMap PageKey Entry} {c : Candidate} {inner : CacheInner} {cs : List Candidate}
  {config : CacheConfig} {allocationBytes : Nat}

theorem candidateSound :
    c ∈ candidates entries ↔ Victim entries c := by
  simp only [candidates,(List.perm_insertionSort _ _).mem_iff,List.mem_filterMap,Prod.exists,memToList]
  constructor
  · rintro ⟨key,e,present,chosen⟩
    unfold candidateOf at chosen
    split at chosen
    · rename_i r state
      split at chosen
      · rename_i unleased
        cases Option.some.inj chosen
        exact ⟨e,r,present,state,unleased,rfl,rfl⟩
      · contradiction
    · contradiction
  · rintro ⟨e,r,present,state,unleased,bytes,touch⟩
    refine ⟨c.key,e,present,?_⟩
    simp [candidateOf,state,unleased,bytes,touch]

theorem candidateKey {row : PageKey × Entry} (chosen : candidateOf row = some c) :
    c.key = row.1 := by
  unfold candidateOf at chosen
  split at chosen
  · split at chosen
    · cases Option.some.inj chosen; rfl
    · contradiction
  · contradiction

theorem candidateKeysNodup (entries : ExtTreeMap PageKey Entry) :
    ((candidates entries).map Candidate.key).Nodup := by
  have sorted : (candidates entries).Perm (entries.toList.filterMap candidateOf) := List.perm_insertionSort _ _
  rw [(sorted.map Candidate.key).nodup_iff]
  have keys := keysNodup entries
  rw [List.Nodup,List.pairwise_map] at keys ⊢
  rw [List.pairwise_filterMap]
  refine keys.imp ?_
  intro a b different c chosen d other same
  exact different (by rw [← candidateKey chosen,← candidateKey other,same])

def evicted (entries : ExtTreeMap PageKey Entry) (victims : List PageKey) : ExtTreeMap PageKey Entry :=
  victims.foldl (fun m key => m.erase key) entries

theorem evictedLookup (entries : ExtTreeMap PageKey Entry) (victims : List PageKey) (key : PageKey) :
    (evicted entries victims)[key]? = if key ∈ victims then none else entries[key]? := by
  induction victims generalizing entries with
  | nil => simp [evicted]
  | cons v rest ih =>
    have step := ih (entries.erase v)
    simp only [evicted,List.foldl_cons] at step ⊢
    rw [step,getErase]
    by_cases same : key = v <;> by_cases later : key ∈ rest <;> simp [same,later]

theorem victimAfterErase {key : PageKey}
    (victim : Victim entries c) (other : c.key ≠ key) : Victim (entries.erase key) c := by
  obtain ⟨e,r,present,rest⟩ := victim
  exact ⟨e,r,by rw [getEraseOther _ _ other]; exact present,rest⟩

theorem laterVictims {rest : List Candidate}
    (victims : ∀ d ∈ c::rest, Victim entries d) (distinct : ((c::rest).map Candidate.key).Nodup) :
    ∀ d ∈ rest, Victim (entries.erase c.key) d := by
  intro d member
  refine victimAfterErase (victims d (List.mem_cons_of_mem _ member)) ?_
  intro same
  have fresh := (List.nodup_cons.mp distinct).1
  exact fresh (by rw [← same]; exact List.mem_map_of_mem member)

structure Evicts (before after : CacheInner) (victims : List PageKey) : Prop where
  entries : after.state.entries = evicted before.state.entries victims
  ledgered : Ledgered after.state
  fits : Fits after.state.ledger
  inflight : after.state.ledger.inflightBytes = before.state.ledger.inflightBytes
  loads : after.state.ledger.activeLoads = before.state.ledger.activeLoads
  waiters : after.state.ledger.waiters = before.state.ledger.waiters
  reservations : after.state.ledger.leaseReservations = before.state.ledger.leaseReservations
  leases : after.state.ledger.leases = before.state.ledger.leases
  retiring : after.state.ledger.retiringBytes = before.state.ledger.retiringBytes
  generation : after.state.generation = before.state.generation
  waiter : after.state.waiter = before.state.waiter
  tick : after.state.tick = before.state.tick
  shutdown : after.state.shutdown = before.state.shutdown

theorem evictOne (ledgered : Ledgered inner.state)
    (fits : Fits inner.state.ledger) (victim : Victim inner.state.entries c) :
    Evicts inner (evictUnleased inner c.key) [c.key] ∧
      (evictUnleased inner c.key).state.ledger.pagePoolBytes + c.bytes = inner.state.ledger.pagePoolBytes := by
  obtain ⟨e,r,present,state,unleased,bytes,-⟩ := victim
  obtain ⟨entries,generation,waiter,tick,stopped⟩ := evictEffect present state
  have exact := evictLedgered ledgered fits present state unleased
  have split := ledgerSplit ledgered present
  have after : (evictUnleased inner c.key).state.ledger = tally (inner.state.entries.erase c.key) := by
    rw [exact,entries]
  rw [shareResident state,← after,unleased] at split
  obtain ⟨f1,f2,f3,f4,f5,f6,f7,f8,f9⟩ := fits
  rw [split] at f1 f2 f3 f4 f5 f6 f7 f8 f9
  simp only [Ledger.add] at f1 f2 f3 f4 f5 f6 f7 f8 f9
  refine ⟨⟨entries,exact,⟨by omega,by omega,by omega,by omega,by omega,by omega,by omega,by omega,by omega⟩,
    ?_,?_,?_,?_,?_,?_,generation,waiter,tick,stopped⟩,?_⟩
  all_goals rw [split]; simp only [Ledger.add]; omega

theorem evictAll (ledgered : Ledgered inner.state)
    (fits : Fits inner.state.ledger) (victims : ∀ c ∈ cs, Victim inner.state.entries c)
    (distinct : (cs.map Candidate.key).Nodup) :
    Evicts inner ((cs.map Candidate.key).foldl evictUnleased inner) (cs.map Candidate.key) ∧
      ((cs.map Candidate.key).foldl evictUnleased inner).state.ledger.pagePoolBytes +
        (cs.map Candidate.bytes).sum = inner.state.ledger.pagePoolBytes := by
  induction cs generalizing inner with
  | nil => exact ⟨⟨rfl,ledgered,fits,rfl,rfl,rfl,rfl,rfl,rfl,rfl,rfl,rfl,rfl⟩,by simp⟩
  | cons c rest ih =>
    obtain ⟨first,pool⟩ := evictOne ledgered fits (victims c List.mem_cons_self)
    have later : ∀ d ∈ rest, Victim (evictUnleased inner c.key).state.entries d := by
      rw [first.entries]
      exact laterVictims victims distinct
    obtain ⟨more,total⟩ := ih first.ledgered first.fits later (List.nodup_cons.mp distinct).2
    refine ⟨⟨?_,more.ledgered,more.fits,more.inflight.trans first.inflight,more.loads.trans first.loads,
      more.waiters.trans first.waiters,more.reservations.trans first.reservations,
      more.leases.trans first.leases,more.retiring.trans first.retiring,
      more.generation.trans first.generation,more.waiter.trans first.waiter,more.tick.trans first.tick,
      more.shutdown.trans first.shutdown⟩,?_⟩
    · exact more.entries.trans (by rw [first.entries]; rfl)
    · simp only [List.map_cons,List.foldl_cons,List.sum_cons]
      omega

theorem evictTurns {p : Pages} (victims : ∀ c ∈ cs, Victim p.entries c) (distinct : (cs.map Candidate.key).Nodup)
    {allowed : Move → Prop} (may : ∀ key, allowed (.evict key)) :
    Turns config allowed p {p with entries := evicted p.entries (cs.map Candidate.key)} := by
  induction cs generalizing p with
  | nil => exact .refl
  | cons c rest ih =>
    obtain ⟨e,r,present,state,unleased,-,-⟩ := victims c List.mem_cons_self
    have first : Turn config (.evict c.key) p {p with entries := p.entries.erase c.key} :=
      .evict present state unleased
    have later := laterVictims victims distinct
    exact .head ⟨_,may _,first⟩ (ih (p := {p with entries := p.entries.erase c.key}) later (List.nodup_cons.mp distinct).2)

structure Planned (config : CacheConfig) (maximumRetained pool count : Nat) (cs : List Candidate)
    (plan : Plan) (taken rest : List Candidate) : Prop where
  split : cs = taken ++ rest
  victims : plan.victims = taken.map Candidate.key
  bytes : plan.poolBytes + (taken.map Candidate.bytes).sum = pool
  number : plan.entries + taken.length = count
  enough : rest ≠ [] → plan.poolBytes ≤ maximumRetained ∧ plan.entries < config.maxEntries
  shortest : ∀ i < taken.length,
    ¬(pool - ((taken.take i).map Candidate.bytes).sum ≤ maximumRetained ∧ count - i < config.maxEntries)

theorem planExact {maximumRetained pool count : Nat} {plan : Plan}
    (ok : planVictims config maximumRetained pool count cs = .ok plan) :
    ∃ taken rest, Planned config maximumRetained pool count cs plan taken rest := by
  induction cs generalizing pool count plan with
  | nil =>
    cases ok
    exact ⟨[],[],rfl,rfl,by simp,by simp,by simp,by simp⟩
  | cons c rest ih =>
    simp only [planVictims] at ok
    split at ok
    · rename_i enough
      cases ok
      exact ⟨[],c::rest,rfl,rfl,by simp,by simp,fun _ => enough,by simp⟩
    rename_i short
    split at ok
    · cases ok
    rename_i smaller subtracted
    split at ok
    · cases ok
    rename_i fewer counted
    split at ok
    · cases ok
    rename_i later planned
    cases ok
    obtain ⟨below,rfl⟩ := checkedSubSome.mp subtracted
    obtain ⟨positive,rfl⟩ := checkedSubSome.mp counted
    obtain ⟨taken,left,done⟩ := ih planned
    refine ⟨c::taken,left,by rw [done.split]; rfl,by rw [done.victims]; rfl,?_,?_,done.enough,?_⟩
    · have sums := done.bytes
      simp only [List.map_cons,List.sum_cons]
      omega
    · have sizes := done.number
      simp only [List.length_cons]
      omega
    · intro i inside
      cases i with
      | zero => simpa using short
      | succ i =>
        have shorter := done.shortest i (by simpa using inside)
        rw [Nat.sub_sub,Nat.sub_sub,Nat.add_comm 1 i] at shorter
        simpa using shorter

/- The loop never runs into the checked subtractions when the candidates are part
of what the pool and the entry count measure. -/
theorem planTotal {maximumRetained pool count : Nat}
    (bytes : (cs.map Candidate.bytes).sum ≤ pool) (number : cs.length ≤ count) :
    ∃ plan, planVictims config maximumRetained pool count cs = .ok plan := by
  induction cs generalizing pool count with
  | nil => exact ⟨_,rfl⟩
  | cons c rest ih =>
    simp only [List.map_cons,List.sum_cons,List.length_cons] at bytes number
    obtain ⟨plan,ok⟩ := @ih (pool - c.bytes) (count - 1) (by omega) (by omega)
    simp only [planVictims]
    split
    · exact ⟨_,rfl⟩
    · have subtracted : checkedSub pool c.bytes = some (pool - c.bytes) := checkedSubSome.mpr ⟨by omega,rfl⟩
      have counted : checkedSub count 1 = some (count - 1) := checkedSubSome.mpr ⟨by omega,rfl⟩
      simp only [subtracted,counted,ok]
      exact ⟨_,rfl⟩

def Ledger.loadShare (allocationBytes waiters : Nat) : Ledger :=
  ⟨allocationBytes,allocationBytes,0,0,1,waiters,waiters,0⟩

structure Granted (config : CacheConfig) (before after : ExtTreeMap PageKey Entry) (allocationBytes : Nat)
    (taken rest : List Candidate) : Prop where
  split : candidates before = taken ++ rest
  entries : after = evicted before (taken.map Candidate.key)
  pool : (tally after).pagePoolBytes + allocationBytes ≤ config.pagePoolCapacity
  inflight : (tally after).inflightBytes + allocationBytes ≤ config.maxInflightBytes
  loads : (tally after).activeLoads < config.maxLoads
  room : after.size < config.maxEntries
  waiters : (tally after).waiters = (tally before).waiters
  leases : (tally after).leases = (tally before).leases
  reservations : (tally after).leaseReservations = (tally before).leaseReservations
  needed : taken = [] ↔
    (tally before).pagePoolBytes + allocationBytes ≤ config.pagePoolCapacity ∧ before.size < config.maxEntries

structure Reserved (before after : CacheState) (allocationBytes : Nat) : Prop where
  ledger : after.ledger = (Ledger.loadShare allocationBytes 0).add (tally after.entries)
  generation : after.generation = before.generation
  waiter : after.waiter = before.waiter
  tick : after.tick = before.tick
  shutdown : after.shutdown = before.shutdown

theorem evictedSize (victims : ∀ c ∈ cs, Victim entries c) (distinct : (cs.map Candidate.key).Nodup) :
    (evicted entries (cs.map Candidate.key)).size + cs.length = entries.size := by
  induction cs generalizing entries with
  | nil => rfl
  | cons c rest ih =>
    obtain ⟨e,r,present,-⟩ := victims c List.mem_cons_self
    have smaller := ih (laterVictims victims distinct) (List.nodup_cons.mp distinct).2
    have size := sizeSplit present
    simp only [evicted,List.map_cons,List.foldl_cons,List.length_cons] at smaller ⊢
    omega

theorem takenVictims {taken rest : List Candidate} (split : candidates entries = taken ++ rest) :
    (∀ c ∈ taken, Victim entries c) ∧ (taken.map Candidate.key).Nodup := by
  constructor
  · intro c member
    exact candidateSound.mp (by rw [split]; exact List.mem_append_left _ member)
  · have distinct := candidateKeysNodup entries
    rw [split,List.map_append] at distinct
    exact distinct.of_append_left

/- None of the checked additions can fail after the room checks, so the reservation
is granted exactly when those pass. -/
theorem reserveInverted {out : CacheInner}
    (accepted : Accepted config) : reserveLoad config inner allocationBytes = .ok (some out) ↔
      ¬refusesLoad config inner.state.ledger allocationBytes ∧
      ∃ plan, planVictims config (config.pagePoolCapacity - allocationBytes) inner.state.ledger.pagePoolBytes
          inner.state.entries.size (candidates inner.state.entries) = .ok plan ∧
        plan.poolBytes ≤ config.pagePoolCapacity - allocationBytes ∧ plan.entries < config.maxEntries ∧
        out = (plan.victims.foldl evictUnleased inner).charge (fun l =>
          {l with
            activeLoads := inner.state.ledger.activeLoads + 1,
            pagePoolBytes := plan.poolBytes + allocationBytes,
            inflightBytes := inner.state.ledger.inflightBytes + allocationBytes}) := by
  simp only [reserveLoad]
  split
  · rename_i refused
    simp [refused]
  rename_i willing
  have able := willing
  simp only [refusesLoad,not_or,Nat.not_lt,ge_iff_le,Nat.not_le] at able
  obtain ⟨small,inflight,loads⟩ := able
  have below : allocationBytes ≤ config.pagePoolCapacity := small.trans accepted.inflight
  have word := config.poolFits
  have wide := accepted.inflight
  have few := (acceptedSmall accepted).2.1
  have large : 4096 < modulus := by decide
  rw [wrappingSubExact below]
  split
  · rename_i failed
    simp [failed]
  rename_i plan planned
  split
  · rename_i crowded
    simp only [Except.ok.injEq,reduceCtorEq,planned,false_iff,not_and,not_exists]
    rintro - other ⟨⟩ pool count
    omega
  rename_i roomy
  have addedPool : checkedAdd plan.poolBytes allocationBytes = some (plan.poolBytes + allocationBytes) :=
    checkedAddSome.mpr ⟨by omega,rfl⟩
  have addedInflight : checkedAdd inner.state.ledger.inflightBytes allocationBytes =
      some (inner.state.ledger.inflightBytes + allocationBytes) := checkedAddSome.mpr ⟨by omega,rfl⟩
  have addedLoads : checkedAdd inner.state.ledger.activeLoads 1 = some (inner.state.ledger.activeLoads + 1) :=
    checkedAddSome.mpr ⟨by omega,rfl⟩
  simp only [addedPool,addedInflight,addedLoads,Except.ok.injEq,Option.some.injEq,willing,not_false_eq_true,
    true_and]
  constructor
  · intro same
    exact ⟨plan,planned,by omega,by omega,same.symm⟩
  · rintro ⟨other,again,-,-,rfl⟩
    cases again.symm.trans planned
    rfl

theorem reserveGranted {out : CacheInner}
    (accepted : Accepted config) (ledgered : Ledgered inner.state) (fits : Fits inner.state.ledger)
    (ok : reserveLoad config inner allocationBytes = .ok (some out)) :
    Reserved inner.state out.state allocationBytes ∧
    ∃ taken rest, Granted config inner.state.entries out.state.entries allocationBytes taken rest := by
  obtain ⟨willing,plan,planned,roomyPool,roomyEntries,rfl⟩ := (reserveInverted accepted).mp ok
  simp only [refusesLoad,not_or,Nat.not_lt,ge_iff_le,Nat.not_le] at willing
  obtain ⟨small,inflight,loads⟩ := willing
  have below : allocationBytes ≤ config.pagePoolCapacity := small.trans accepted.inflight
  obtain ⟨taken,rest,plan_⟩ := planExact planned
  obtain ⟨victims,distinct⟩ := takenVictims plan_.split
  obtain ⟨evicts,freed⟩ := evictAll ledgered fits victims distinct
  have size := evictedSize victims distinct
  rw [plan_.victims]
  have left : ((taken.map Candidate.key).foldl evictUnleased inner).state.ledger.pagePoolBytes = plan.poolBytes := by
    have bytes := plan_.bytes
    omega
  have number := plan_.number
  have after : ((taken.map Candidate.key).foldl evictUnleased inner).state.ledger =
      tally ((taken.map Candidate.key).foldl evictUnleased inner).state.entries := evicts.ledgered
  have before : inner.state.ledger = tally inner.state.entries := ledgered
  have e1 := evicts.inflight
  have e2 := evicts.loads
  have e3 := evicts.waiters
  have e4 := evicts.leases
  have e5 := evicts.reservations
  rw [after] at left e1 e2 e3 e4 e5
  rw [before] at e3 e4 e5
  have count : ((taken.map Candidate.key).foldl evictUnleased inner).state.entries.size = plan.entries := by
    rw [evicts.entries]
    omega
  refine ⟨⟨?_,evicts.generation,evicts.waiter,evicts.tick,evicts.shutdown⟩,
    taken,rest,plan_.split,evicts.entries,?_,?_,?_,?_,e3,e4,e5,?_⟩
  · simp only [chargeLedger,chargeEntries,after,Ledger.loadShare,Ledger.add,Ledger.mk.injEq]
    refine ⟨?_,?_,?_,?_,?_,?_,?_,?_⟩ <;> omega
  · simp only [chargeEntries]; omega
  · simp only [chargeEntries]; omega
  · simp only [chargeEntries]; omega
  · simp only [chargeEntries]; omega
  · rw [← before]
    constructor
    · rintro rfl
      have bytes := plan_.bytes
      simp only [List.map_nil,List.sum_nil,List.length_nil] at bytes number
      omega
    · intro enough
      by_contra some
      have short := plan_.shortest 0 (List.length_pos_iff.mpr some)
      simp only [List.take_zero,List.map_nil,List.sum_nil] at short
      omega

/-! When a reservation is granted -/

def Entry.evictable (e : Entry) : Bool := match e.state with
  | .resident r => r.leases == 0
  | _ => false

structure HasRoom (config : CacheConfig) (s : CacheState) (allocationBytes : Nat) : Prop where
  inflight : s.ledger.inflightBytes + allocationBytes ≤ config.maxInflightBytes
  loads : s.ledger.activeLoads < config.maxLoads
  pool : total (fun _ e => if e.evictable then 0 else e.allocationBytes) s.entries + allocationBytes ≤
    config.pagePoolCapacity
  entries : total (fun _ e => if e.evictable then 0 else 1) s.entries < config.maxEntries

theorem roomSame {s t : CacheState}
    (room : HasRoom config s allocationBytes) (entries : t.entries = s.entries) (ledger : t.ledger = s.ledger) :
    HasRoom config t allocationBytes := by
  obtain ⟨inflight,loads,pool,number⟩ := room
  rw [← ledger] at inflight loads
  rw [← entries] at pool number
  exact ⟨inflight,loads,pool,number⟩

theorem candidateSome (row : PageKey × Entry) :
    candidateOf row = none ∧ row.2.evictable = false ∨
      ∃ c, candidateOf row = some c ∧ c.bytes = row.2.allocationBytes ∧ row.2.evictable = true := by
  simp only [candidateOf,Entry.evictable]
  cases row.2.state with
  | loading l => exact .inl ⟨rfl,rfl⟩
  | resident r =>
    by_cases unleased : r.leases = 0
    · simp [unleased]
    · simp [unleased]
  | retiring r => exact .inl ⟨rfl,rfl⟩

theorem candidatesWeigh (charge : Entry → Nat) (weight : Candidate → Nat)
    (same : ∀ (row : PageKey × Entry) c, candidateOf row = some c → weight c = charge row.2)
    (entries : ExtTreeMap PageKey Entry) :
    ((candidates entries).map weight).sum + total (fun _ e => if e.evictable then 0 else charge e) entries =
      total (fun _ e => charge e) entries := by
  have sorted : (candidates entries).Perm (entries.toList.filterMap candidateOf) := List.perm_insertionSort _ _
  rw [(sorted.map weight).sum_eq]
  simp only [total]
  induction entries.toList with
  | nil => rfl
  | cons row rest ih =>
    rcases candidateSome row with ⟨other,stays⟩ | ⟨c,chosen,-,goes⟩
    · simp only [List.filterMap_cons,other,List.map_cons,List.sum_cons,stays]
      simp only [Bool.false_eq_true,if_false]
      omega
    · simp only [List.filterMap_cons,chosen,List.map_cons,List.sum_cons,goes,same row c chosen,if_true]
      omega

theorem candidatesCharged {s : CacheState} (ledgered : Ledgered s) :
    ((candidates s.entries).map Candidate.bytes).sum +
        total (fun _ e => if e.evictable then 0 else e.allocationBytes) s.entries = s.ledger.pagePoolBytes ∧
      (candidates s.entries).length + total (fun _ e => if e.evictable then 0 else 1) s.entries = s.entries.size := by
  have bytes := candidatesWeigh Entry.allocationBytes Candidate.bytes (by
    intro row c chosen
    rcases candidateSome row with ⟨other,-⟩ | ⟨d,same,bytes,-⟩
    · cases other.symm.trans chosen
    · cases chosen.symm.trans same
      exact bytes) s.entries
  have number := candidatesWeigh (fun _ => 1) (fun _ => 1) (fun _ _ _ => rfl) s.entries
  have pool : s.ledger.pagePoolBytes = total (fun _ e => e.allocationBytes) s.entries :=
    congrArg Ledger.pagePoolBytes ledgered
  rw [← pool] at bytes
  rw [← sizeTotal,List.map_const',List.sum_replicate_nat,Nat.mul_one] at number
  exact ⟨bytes,number⟩

theorem reserveDecides (accepted : Accepted config) (ledgered : Ledgered inner.state) (allocationBytes : Nat) :
    reserveLoad config inner allocationBytes = .ok none ∨
      ∃ out, reserveLoad config inner allocationBytes = .ok (some out) := by
  by_cases refused : refusesLoad config inner.state.ledger allocationBytes
  · exact .inl (by simp only [reserveLoad,if_pos refused])
  have small : allocationBytes ≤ config.pagePoolCapacity := by
    simp only [refusesLoad,not_or,Nat.not_lt] at refused
    exact refused.1.trans accepted.inflight
  obtain ⟨bytes,number⟩ := candidatesCharged ledgered
  obtain ⟨plan,planned⟩ := @planTotal (candidates inner.state.entries) config (config.pagePoolCapacity - allocationBytes)
    inner.state.ledger.pagePoolBytes inner.state.entries.size (by omega) (by omega)
  by_cases crowded : plan.poolBytes > config.pagePoolCapacity - allocationBytes ∨ plan.entries ≥ config.maxEntries
  · refine .inl ?_
    simp only [reserveLoad,if_neg refused,wrappingSubExact small,planned,if_pos crowded]
  · exact .inr ⟨_,(reserveInverted accepted).mpr ⟨refused,plan,planned,by omega,by omega,rfl⟩⟩

theorem reserveRoom (accepted : Accepted config) (ledgered : Ledgered inner.state) :
    (∃ out, reserveLoad config inner allocationBytes = .ok (some out)) ↔
      HasRoom config inner.state allocationBytes := by
  obtain ⟨bytes,number⟩ := candidatesCharged ledgered
  constructor
  · rintro ⟨out,ok⟩
    obtain ⟨willing,plan,planned,roomyPool,roomyEntries,-⟩ := (reserveInverted accepted).mp ok
    simp only [refusesLoad,not_or,Nat.not_lt,ge_iff_le,Nat.not_le] at willing
    obtain ⟨taken,rest,done⟩ := planExact planned
    have sums := done.bytes
    have sizes := done.number
    have wide := accepted.inflight
    rw [done.split,List.map_append,List.sum_append] at bytes
    rw [done.split,List.length_append] at number
    exact ⟨by omega,willing.2.2,by omega,by omega⟩
  · rintro ⟨inflight,loads,pinned,kept⟩
    obtain ⟨plan,planned⟩ := @planTotal (candidates inner.state.entries) config (config.pagePoolCapacity - allocationBytes)
      inner.state.ledger.pagePoolBytes inner.state.entries.size (by omega) (by omega)
    obtain ⟨taken,rest,done⟩ := planExact planned
    have sums := done.bytes
    have sizes := done.number
    have room : plan.poolBytes ≤ config.pagePoolCapacity - allocationBytes ∧ plan.entries < config.maxEntries := by
      by_cases all : rest = []
      · -- Every candidate was taken, so only what is pinned is left.
        subst all
        rw [done.split,List.append_nil] at bytes number
        constructor <;> omega
      · exact done.enough all
    exact ⟨_,(reserveInverted accepted).mpr ⟨by simp only [refusesLoad]; omega,plan,planned,room.1,room.2,rfl⟩⟩

end RunnelMoe.PageCache
