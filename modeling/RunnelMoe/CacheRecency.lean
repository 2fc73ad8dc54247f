import RunnelMoe.CacheTouches
import RunnelMoe.PositionalIo
import RunnelMoe.Queues
import RunnelMoe.RecencyStacks

/-! The production cache under demands that come one after the other. Each get returns a
lease, at once or when its own load is published, and the lease is dropped before the
next get. Between two demands every entry is then resident and unleased, the entries
stand in the order of their last demands, and the counters are those of the order. -/
namespace RunnelMoe.PageCache
open StoreErrors Words PageSpecs CacheLimits KeyedSum Runs Vectors Queues RecencyStacks Positional
open Std (ExtTreeMap)

abbrev keyEquality : DecidableEq PageKey := fun a b => LinearOrder.toDecidableEq a b

attribute [local instance] keyEquality

inductive Demanded (config : CacheConfig) (spec : PageSpec) (c c' : Cache) : Prop where
  | hit {ambient call submit lease} (answer : (get config ambient spec call submit c.inner).2 = .lease lease)
      (ran : run (step config) c [.get ambient spec call submit,.markUse spec.key lease.generation,.dropLease lease] =
        some c')
  | miss {ambient call submit generation waiter page stats content last first turns moved}
      (answer : (get config ambient spec call submit c.inner).2 = .started generation waiter)
      (read : (readExactAtObserved content spec.offset spec.length "page" last first turns).1 =
        .returned (.ok page.bytes) stats.physicalBytes moved)
      (ran : run (step config) c [.get ambient spec call submit,.complete spec.key generation (.ok page) stats,
        .dropLease ⟨call,spec.key,generation,page⟩] = some c')

inductive Demands {I : Type*} (config : CacheConfig) (spec : I → PageSpec) : List I → Cache → Prop where
  | none : Demands config spec [] .empty
  | next {past c id c'} (before : Demands config spec past c) (demanded : Demanded config (spec id) c c') :
      Demands config spec (past ++ [id]) c'

theorem readFetches {content bytes : List UInt8} {offset length physical moved : Nat} {kind : String}
    {first last : Option StoreError} {turns : List Positional.Turn} (word : length < modulus)
    (read : (readExactAtObserved content offset length kind last first turns).1 = .returned (.ok bytes) physical moved) :
    physical = length := by
  have kept := readExact word (Prod.ext read rfl)
  exact kept.1.trans (kept.2 bytes rfl).2.2

theorem demandsReachable {I : Type*} {config : CacheConfig} {spec : I → PageSpec} {past : List I} {c : Cache}
    (demands : Demands config spec past c) : Reachable (step config) .empty c := by
  induction demands with
  | none => exact reachableStart ..
  | next _ demanded ih =>
    cases demanded with
    | hit _ ran => exact reachableRun ih ran
    | miss _ _ ran => exact reachableRun ih ran

def Metrics.counters (m : Metrics) : Counters := ⟨m.hits,m.misses,m.admissions,m.evictions,m.physicalReadBytes⟩

section Counting
variable {inner : CacheInner}

theorem saturatingWithin {a b : Nat} (small : a + b ≤ maxWord) : saturatingAdd a b = a + b := Nat.min_eq_left small

theorem saturatingClamped (a b : Nat) : saturatingAdd (min a maxWord) b = min (a + b) maxWord := by
  unfold saturatingAdd
  omega

theorem evictMetered {key : PageKey} {e : Entry} {r : ResidentEntry}
    (present : inner.state.entries[key]? = some e) (state : e.state = .resident r) :
    (evictUnleased inner key).metrics.counters =
      {inner.metrics.counters with evictions := saturatingAdd inner.metrics.evictions 1} := by
  simp only [evictUnleased,present,state,CacheInner.wasted]
  split <;> rfl

theorem evictAllMetered {cs : List Candidate} (victims : ∀ c ∈ cs, Victim inner.state.entries c)
    (distinct : (cs.map Candidate.key).Nodup) (small : inner.metrics.evictions + cs.length ≤ maxWord) :
    ((cs.map Candidate.key).foldl evictUnleased inner).metrics.counters =
      {inner.metrics.counters with evictions := inner.metrics.evictions + cs.length} := by
  induction cs generalizing inner with
  | nil => rfl
  | cons c rest ih =>
    rw [List.length_cons] at small
    obtain ⟨e,r,present,state,-⟩ := victims c List.mem_cons_self
    have first := evictMetered present state
    rw [saturatingWithin (by omega)] at first
    have count : (evictUnleased inner c.key).metrics.evictions = inner.metrics.evictions + 1 :=
      congrArg Counters.evictions first
    have later : ∀ d ∈ rest, Victim (evictUnleased inner c.key).state.entries d := by
      rw [(evictEffect present state).1]
      exact laterVictims victims distinct
    have more := ih later (List.nodup_cons.mp distinct).2 (by omega)
    rw [List.map_cons,List.foldl_cons,more,count,first,List.length_cons,Nat.add_assoc,Nat.add_comm 1]

end Counting

section Answers
variable {config : CacheConfig} {ambient : Ambient} {spec : PageSpec} {call : Nat} {submit : Except StoreError Unit}
  {inner out : CacheInner} {generation waiter : Nat}

def missing (inner : CacheInner) (spec : PageSpec) (generation waiter : Nat) : CacheInner :=
  ⟨{inner.state.nextTick with generation := generation, waiter := waiter},(inner.metrics.addDemandBytes spec.length).miss⟩

theorem getStarted (accepted : Accepted config) (ledgered : Ledgered inner.state) (fits : Fits inner.state.ledger)
    (ok : get config ambient spec call submit inner = (out,.started generation waiter)) :
    ∃ allocation reserved, spec.allocationBytes = .ok allocation ∧ inner.state.entries[spec.key]? = none ∧
      reserveLoad config (missing inner spec generation waiter) allocation = .ok (some reserved) ∧
      out.state.entries = reserved.state.entries.insert spec.key
        (demandEntry spec allocation generation waiter call reserved.state.tick) ∧
      out.state.tick = reserved.state.tick ∧ out.state.shutdown = reserved.state.shutdown ∧
      out.metrics.counters = reserved.metrics.counters := by
  have effect := getEffect accepted ledgered fits ok
  cases effect with
  | started running absent =>
    simp only [get] at ok
    split at ok
    · cases ok
    split at ok
    · cases ok
    rename_i allocation valid
    have none : (inner.meter (Metrics.addDemandBytes · spec.length)).state.nextTick.entries[spec.key]? = none := absent
    simp only [getLocked,none,getAbsent] at ok
    split at ok
    · cases ok
    split at ok
    · cases ok
    split at ok
    · cases ok
    split at ok
    · cases ok
    rename_i next
    obtain ⟨rfl,rfl,-⟩ := generationAdvanced next
    split at ok
    · cases ok
    rename_i next
    obtain ⟨rfl,rfl,-⟩ := waiterAdvanced next
    split at ok
    · cases ok
    · cases ok
    rename_i reserved granted
    split at ok
    · cases ok
      exact ⟨allocation,reserved,(specValidated valid).1,absent,granted,rfl,rfl,rfl,rfl⟩
    · split at ok <;> cases ok

theorem getLeased (accepted : Accepted config) (ledgered : Ledgered inner.state) (fits : Fits inner.state.ledger)
    {lease : PageLease} (ok : get config ambient spec call submit inner = (out,.lease lease)) :
    out.metrics.counters = {inner.metrics.counters with hits := saturatingAdd inner.metrics.hits 1} := by
  have effect := getEffect accepted ledgered fits ok
  cases effect with
  | @hit e r running present identity state =>
    simp only [get] at ok
    split at ok
    · cases ok
    split at ok
    · cases ok
    have here : (inner.meter (Metrics.addDemandBytes · spec.length)).state.nextTick.entries[spec.key]? = some e := present
    simp only [getLocked,here,state,getResident] at ok
    split at ok
    · cases ok
    split at ok
    · cases ok
    split at ok
    · cases ok
    · cases ok
      rfl

end Answers

def Entry.touch (e : Entry) : Nat := e.lastTouch?.getD 0

def Entry.Idle (tick : Nat) (e : Entry) : Prop := ∃ page touch, e.state = .resident ⟨page,0,false,touch⟩ ∧ touch ≤ tick

def charged (entries : ExtTreeMap PageKey Entry) (key : PageKey) : Nat :=
  (entries[key]?.map Entry.allocationBytes).getD 0

theorem chargedAt {entries : ExtTreeMap PageKey Entry} {key : PageKey} {e : Entry} (found : entries[key]? = some e) :
    charged entries key = e.allocationBytes := by
  rw [charged,found]
  rfl

variable {I : Type*}

structure Shelf (key : I → PageKey) (weight : I → Nat) (tick : Nat) (order : List I)
    (entries : ExtTreeMap PageKey Entry) : Prop where
  idle : Every entries (fun _ e => e.Idle tick)
  weights : ∀ id ∈ order, ∀ e, entries[key id]? = some e → e.allocationBytes = weight id
  queued : Queued (fun _ => True) Entry.touch entries (order.map key)

structure Follows (key : I → PageKey) (weight : I → Nat) (r : Recency I) (c : Cache) : Prop where
  running : c.inner.state.shutdown = false
  unleased : c.leases = []
  shelf : Shelf key weight c.inner.state.tick r.order c.inner.state.entries
  clock : c.inner.state.tick = r.hits + r.misses
  counters : c.inner.metrics.counters = {r.counters with loaded := min r.loaded maxWord}

section Shelves
variable {entries : ExtTreeMap PageKey Entry} {tick : Nat} {key : I → PageKey} {weight : I → Nat} {order : List I}

theorem shelfSheds (shelf : Shelf key weight tick order entries) (target : Nat) :
    shed (charged entries) target (order.map key) =
      ((shed weight target order).1.map key,(shed weight target order).2.map key) := by
  refine shedNamed (fun id held => ?_)
  obtain ⟨e,found,-⟩ := (shelf.queued.members _).mp (List.mem_map_of_mem held)
  exact (chargedAt found).trans (shelf.weights id held e found)

theorem shelfShed (shelf : Shelf key weight tick order entries) {target : Nat} {rest : ExtTreeMap PageKey Entry}
    (lookup : ∀ k : PageKey, rest[k]? = if k ∈ (shed weight target order).1.map key then none else entries[k]?) :
    Shelf key weight tick (shed weight target order).2 rest := by
  have kept (a : PageKey) (w : Entry) (found : rest[a]? = some w) : entries[a]? = some w := by
    rw [lookup] at found
    split at found
    · contradiction
    · exact found
  refine ⟨fun a w found => shelf.idle a w (kept a w found),
    fun id held w found => shelf.weights id (shedKept weight held) w (kept _ w found),?_⟩
  have left := shedRest (charged entries) target (queuedNodup shelf.queued)
  rw [shelfSheds shelf] at left
  have queued := queuedWithout shelf.queued lookup
  rwa [left] at queued

theorem shelfAbsent (shelf : Shelf key weight tick order entries) {id : I} (absent : entries[key id]? = none) : id ∉ order := by
  intro inside
  obtain ⟨e,found,-⟩ := (shelf.queued.members _).mp (List.mem_map_of_mem inside)
  cases absent.symm.trans found

theorem victimTouch {c : Candidate} (victim : Victim entries c) {e : Entry} (found : entries[c.key]? = some e) :
    e.touch = c.lastTouch ∧ e.allocationBytes = c.bytes := by
  obtain ⟨e',r,present,state,-,bytes,touch⟩ := victim
  cases Option.some.inj (found.symm.trans present)
  simp [Entry.touch,Entry.lastTouch?,state,touch,bytes]

theorem candidatesQueued (shelf : Shelf key weight tick order entries) :
    (candidates entries).map Candidate.key = order.map key := by
  refine queuedUnique ⟨fun k => ?_,?_⟩ shelf.queued
  · rw [List.mem_map]
    constructor
    · intro listed
      obtain ⟨c,member,rfl⟩ := listed
      obtain ⟨e,_,present,-⟩ := candidateSound.mp member
      exact ⟨e,present,trivial⟩
    · intro held
      obtain ⟨e,found,-⟩ := held
      obtain ⟨page,touch,state,-⟩ := shelf.idle k e found
      exact ⟨⟨k,touch,e.allocationBytes⟩,candidateSound.mpr ⟨e,_,found,state,rfl,rfl,rfl⟩,rfl⟩
  · have sorted := List.pairwise_insertionSort Candidate.before (entries.toList.filterMap candidateOf)
    have apart := List.pairwise_map.mp (candidateKeysNodup entries)
    refine List.pairwise_map.mpr ((sorted.and apart).imp_of_mem (fun {a b} left right both v w here there => ?_))
    rw [(victimTouch (candidateSound.mp left) here).1,(victimTouch (candidateSound.mp right) there).1]
    exact lt_of_le_of_ne both.1 (fun same => both.2 (Prod.mk.inj (toLex.injective same)).2)

theorem shelfStored [DecidableEq I] (shelf : Shelf key weight tick order entries) {id : I} (apart : ∀ b ∈ order, key b = key id → b = id)
    {e : Entry} {page : VerifiedPage} (state : e.state = .resident ⟨page,0,false,tick + 1⟩)
    (charged : e.allocationBytes = weight id) :
    Shelf key weight (tick + 1) (refreshed order id) (entries.insert (key id) e) := by
  have touched : e.touch = tick + 1 := by simp [Entry.touch,Entry.lastTouch?,state]
  have last (a : PageKey) (w : Entry) (_ : a ≠ key id) (found : entries[a]? = some w) (_ : True) : w.touch < e.touch := by
    obtain ⟨_,touch,state,before⟩ := shelf.idle a w found
    have older : w.touch = touch := by simp [Entry.touch,Entry.lastTouch?,state]
    rw [touched,older]
    exact Nat.lt_succ_of_le before
  refine ⟨everyInsert (fun a w found => ?_) ⟨page,_,state,Nat.le_refl _⟩,fun b held w found => ?_,
    refreshedNamed apart ▸ queuedLast shelf.queued (key id) trivial last⟩
  · obtain ⟨page,touch,state,before⟩ := shelf.idle a w found
    exact ⟨page,touch,state,Nat.le_succ_of_le before⟩
  · rw [getInsert] at found
    split at found
    · rename_i same
      cases found
      rcases refreshedMem held with old | new
      · rw [apart b old same,charged]
      · rw [new,charged]
    · rename_i other
      rcases refreshedMem held with old | new
      · exact shelf.weights b old w found
      · exact absurd (congrArg key new) other

/- The planning loop sheds from the front of the order until the rest is light enough, when the number of entries
never asks for more. -/
theorem planShed {config : CacheConfig} {target pool count : Nat} {cs : List Candidate} {plan : Plan}
    (planned : planVictims config target pool count cs = .ok plan) (sum : (cs.map Candidate.bytes).sum = pool)
    (few : count < config.maxEntries) (enough : plan.poolBytes ≤ target) :
    ∃ taken rest, shed Candidate.bytes target cs = (taken,rest) ∧ cs = taken ++ rest ∧
      plan.victims = taken.map Candidate.key := by
  obtain ⟨taken,rest,done⟩ := planExact planned
  have bytes := done.bytes
  rw [done.split,List.map_append,List.sum_append] at sum
  refine ⟨taken,rest,?_,done.split,done.victims⟩
  rw [done.split]
  refine shedShortest (by omega) (fun i inside => ?_)
  have shortest := done.shortest i inside
  have halves : (taken.map Candidate.bytes).sum =
      ((taken.take i).map Candidate.bytes).sum + ((taken.drop i).map Candidate.bytes).sum := by
    rw [← List.sum_append,← List.map_append,List.take_append_drop]
  rw [List.map_append,List.sum_append]
  omega

end Shelves

def publishedEntry (spec : PageSpec) (allocation generation : Nat) (page : VerifiedPage) (leases touch : Nat) : Entry :=
  ⟨spec.fingerprint,spec.length,allocation,generation,.resident ⟨page,leases,false,touch⟩⟩

def published (c : Counters) (bytes : Nat) : Counters :=
  {c with admissions := saturatingAdd c.admissions 1, loaded := saturatingAdd c.loaded bytes}

structure Settles (inner : CacheInner) (key : PageKey) (e : Entry) (counters : Counters) (c' : Cache) : Prop where
  unleased : c'.leases = []
  entries : c'.inner.state.entries = inner.state.entries.insert key e
  tick : c'.inner.state.tick = inner.state.tick
  shutdown : c'.inner.state.shutdown = inner.state.shutdown
  counters : c'.inner.metrics.counters = counters

section Served
variable {config : CacheConfig} {spec : PageSpec} {inner : CacheInner} {c' : Cache} {page : VerifiedPage} {touch : Nat}

theorem leaseDropped (lease : PageLease) {e : Entry} (present : inner.state.entries[lease.key]? = some e)
    (same : e.generation = lease.generation) (state : e.state = .resident ⟨page,1,false,touch⟩)
    (ok : step config ⟨inner,[lease]⟩ (.dropLease lease) = some c') :
    Settles inner lease.key {e with state := .resident ⟨page,0,false,touch⟩} inner.metrics.counters c' := by
  simp only [step,List.mem_singleton,if_true,releaseLease,present,← same,ne_eq,not_true_eq_false,if_false,state] at ok
  cases ok
  exact ⟨List.erase_cons_head ..,rfl,rfl,rfl,rfl⟩

theorem demandPublished {allocation generation waiter call : Nat} {stats : ReadStats} {done}
    (present : inner.state.entries[spec.key]? = some (demandEntry spec allocation generation waiter call touch))
    (running : inner.state.shutdown = false)
    (finished : finishObservedLoad inner spec.key generation (.ok page) stats = done) :
    Delivery.leases done.2 = [] ∨
      Settles inner spec.key (publishedEntry spec allocation generation page 1 touch)
          (published inner.metrics.counters stats.physicalBytes) ⟨done.1,[]⟩ ∧
        Delivery.leases done.2 = [⟨call,spec.key,generation,page⟩] := by
  subst finished
  simp only [finishObservedLoad,completeLoad,CacheInner.meter,present,demandEntry,ne_eq,not_true_eq_false,if_false,
    finishLoad,settleLoad,CacheInner.discard,CacheInner.charge,running,Bool.not_false,and_self,if_true]
  split
  · exact .inl rfl
  · refine .inr ⟨⟨rfl,?_,rfl,running.symm,rfl⟩,rfl⟩
    exact insertErase (k := spec.key) (m := inner.state.entries) _

theorem publishedDropped {allocation generation waiter call : Nat} {stats : ReadStats}
    (present : inner.state.entries[spec.key]? = some (demandEntry spec allocation generation waiter call touch))
    (running : inner.state.shutdown = false)
    (ran : run (step config) ⟨inner,[]⟩ [.complete spec.key generation (.ok page) stats,
      .dropLease ⟨call,spec.key,generation,page⟩] = some c') :
    Settles inner spec.key (publishedEntry spec allocation generation page 0 touch)
      (published inner.metrics.counters stats.physicalBytes) c' := by
  obtain ⟨c1,completed,ran⟩ := runCons.mp ran
  obtain ⟨c2,dropped,done⟩ := runCons.mp ran
  cases done
  simp only [step] at completed
  cases completed
  rcases demandPublished present running rfl with failed | ⟨settles,leases⟩
  · rw [failed] at dropped
    simp [step] at dropped
  · rw [leases,List.append_nil] at dropped
    have last := leaseDropped ⟨call,spec.key,generation,page⟩ (e := publishedEntry spec allocation generation page 1 touch)
      (by rw [settles.entries,getInsertSame]) rfl rfl dropped
    refine ⟨last.unleased,?_,last.tick.trans settles.tick,last.shutdown.trans settles.shutdown,
      last.counters.trans settles.counters⟩
    rw [last.entries,settles.entries,insertInsert]
    rfl

end Served

section Steps
variable {config : CacheConfig} {spec : I → PageSpec} {id : I} {c c' : Cache} {weight size : I → Nat} {r : Recency I}
  {ambient : Ambient} {call : Nat} {submit : Except StoreError Unit} {inner : CacheInner}

theorem followsAnswered [DecidableEq I] (accepted : Accepted config) (good : Good config c.inner.state c.leases)
    (follows : Follows (fun id => (spec id).key) weight r c) (clock : r.hits + r.misses < maxWord)
    (apart : ∀ b ∈ r.order, (spec b).key = (spec id).key → b = id) {lease : PageLease}
    (answer : get config ambient (spec id) call submit c.inner = (inner,.lease lease))
    (ran : run (step config) c [.get ambient (spec id) call submit,.markUse (spec id).key lease.generation,
      .dropLease lease] = some c') :
    Follows (fun id => (spec id).key) weight (r.demand weight size config.pagePoolCapacity id) c' := by
  have fits := goodFits accepted good
  have counted := getLeased accepted good.ledgered fits answer
  obtain ⟨c1,got,ran⟩ := runCons.mp ran
  obtain ⟨c2,used,ran⟩ := runCons.mp ran
  obtain ⟨c3,dropped,done⟩ := runCons.mp ran
  cases done
  simp only [step,answer,follows.unleased] at got
  cases got
  cases getEffect accepted good.ledgered fits answer with
  | @hit e r' running present identity state room entries ledgered generation waiter tick shutdown =>
    obtain ⟨page,touch,idle,-⟩ := follows.shelf.idle _ e present
    cases state.symm.trans idle
    have here : inner.state.entries[(spec id).key]? =
        some {e with state := .resident ⟨page,1,false,inner.state.tick⟩} := by rw [entries,getInsertSame]
    simp only [step,markPrefetchUse,here,ne_eq,not_true_eq_false,if_false,Bool.false_eq_true] at used
    cases used
    have settles := leaseDropped ⟨call,(spec id).key,e.generation,page⟩ here rfl rfl dropped
    have inside : id ∈ r.order := by
      obtain ⟨b,held,same⟩ := List.mem_map.mp ((follows.shelf.queued.members _).mpr ⟨e,present,trivial⟩)
      exact apart b held same ▸ held
    have next : inner.state.tick = c.inner.state.tick + 1 :=
      tick.trans (saturatingWithin (by rw [follows.clock]; exact clock))
    have stored := shelfStored follows.shelf apart (e := {e with state := .resident ⟨page,0,false,inner.state.tick⟩})
      (by rw [next]) (follows.shelf.weights id inside e present)
    have moved := settles.tick.trans next
    rw [← insertInsert,← entries,← settles.entries,← moved] at stored
    rw [Recency.demand,if_pos inside]
    refine ⟨settles.shutdown.trans (shutdown.trans follows.running),settles.unleased,stored,?_,?_⟩
    · rw [moved,follows.clock]
      exact Nat.add_right_comm ..
    · have hits : c.inner.metrics.hits = r.hits := congrArg Counters.hits follows.counters
      rw [settles.counters,counted,follows.counters,hits,saturatingWithin (by omega)]
      rfl

structure Sheds (key : I → PageKey) (weight : I → Nat) (target tick : Nat) (order : List I) (before after : CacheInner) :
    Prop where
  shelf : Shelf key weight tick (shed weight target order).2 after.state.entries
  tick : after.state.tick = before.state.tick
  shutdown : after.state.shutdown = before.state.shutdown
  counters : after.metrics.counters = {before.metrics.counters with
    evictions := before.metrics.evictions + (shed weight target order).1.length}

theorem reservedSheds (inner : CacheInner) {reserved : CacheInner} {key : I → PageKey} {allocation tick : Nat} {order : List I}
    (accepted : Accepted config) (ledgered : Ledgered inner.state) (fits : Fits inner.state.ledger)
    (shelf : Shelf key weight tick order inner.state.entries) (few : order.length < config.maxEntries)
    (small : inner.metrics.evictions + order.length ≤ maxWord)
    (granted : reserveLoad config inner allocation = .ok (some reserved)) :
    Sheds key weight (config.pagePoolCapacity - allocation) tick order inner reserved := by
  obtain ⟨-,plan,planned,enough,-,rfl⟩ := (reserveInverted accepted).mp granted
  have keys := candidatesQueued shelf
  have bytes (c : Candidate) (member : c ∈ candidates inner.state.entries) :
      charged inner.state.entries c.key = c.bytes := by
    obtain ⟨e,_,present,-⟩ := candidateSound.mp member
    exact (chargedAt present).trans (victimTouch (candidateSound.mp member) present).2
  have sum : ((candidates inner.state.entries).map Candidate.bytes).sum = inner.state.ledger.pagePoolBytes := by
    have whole : inner.state.ledger = tally inner.state.entries := ledgered
    rw [whole,tally,queuedTotal _ shelf.queued (fun _ _ found => (chargedAt found).symm),← keys,List.map_map]
    exact congrArg List.sum (List.map_congr_left (fun c member => (bytes c member).symm))
  have count : inner.state.entries.size = order.length := by
    rw [sizeTotal,queuedTotal (fun _ => 1) shelf.queued (fun _ _ _ => rfl)]
    simp [Function.comp_def]
  obtain ⟨taken,rest,shedding,split,victims⟩ := planShed planned sum (count ▸ few) enough
  have named : (shed weight (config.pagePoolCapacity - allocation) order).1.map key = taken.map Candidate.key := by
    have both := shelfSheds shelf (config.pagePoolCapacity - allocation)
    rw [← keys,shedNamed bytes,shedding] at both
    exact (congrArg Prod.fst both).symm
  have number := congrArg List.length named
  have fewer := congrArg List.length (shedParts weight (config.pagePoolCapacity - allocation) order)
  rw [List.length_map,List.length_map] at number
  rw [List.length_append] at fewer
  obtain ⟨valid,distinct⟩ := takenVictims split
  have evicts := (evictAll ledgered fits valid distinct).1
  rw [victims]
  refine ⟨shelfShed shelf (fun k => ?_),evicts.tick,evicts.shutdown,?_⟩
  · have lookup := evictedLookup inner.state.entries (taken.map Candidate.key) k
    rw [← evicts.entries] at lookup
    rw [named]
    exact lookup.trans (by congr)
  · rw [number]
    exact evictAllMetered valid distinct (by omega)

theorem followsStarted [DecidableEq I] (accepted : Accepted config) (good : Good config c.inner.state c.leases)
    (follows : Follows (fun id => (spec id).key) weight r c) (counts : r.Counts (r.hits + r.misses))
    (clock : r.hits + r.misses < maxWord) (apart : ∀ b ∈ r.order, (spec b).key = (spec id).key → b = id)
    (few : r.order.length < config.maxEntries) (known : (spec id).allocationBytes = .ok (weight id))
    (sized : (spec id).length = size id) {generation waiter : Nat} {page : VerifiedPage} {stats : ReadStats}
    (answer : get config ambient (spec id) call submit c.inner = (inner,.started generation waiter))
    (read : stats.physicalBytes = (spec id).length)
    (ran : run (step config) c [.get ambient (spec id) call submit,.complete (spec id).key generation (.ok page) stats,
      .dropLease ⟨call,(spec id).key,generation,page⟩] = some c') :
    Follows (fun id => (spec id).key) weight (r.demand weight size config.pagePoolCapacity id) c' := by
  have fits := goodFits accepted good
  obtain ⟨allocation,reserved,aligned,absent,granted,entries,tick,shutdown,counted⟩ :=
    getStarted accepted good.ledgered fits answer
  cases Except.ok.inj (known.symm.trans aligned)
  have misses : c.inner.metrics.misses = r.misses := congrArg Counters.misses follows.counters
  have evictions : (missing c.inner (spec id) generation waiter).metrics.evictions = r.evictions :=
    congrArg Counters.evictions follows.counters
  obtain ⟨-,held⟩ := counts
  have sheds := reservedSheds (missing c.inner (spec id) generation waiter) accepted good.ledgered fits follows.shelf few
    (by omega) granted
  have next : reserved.state.tick = c.inner.state.tick + 1 :=
    sheds.tick.trans (saturatingWithin (by rw [follows.clock]; exact clock))
  obtain ⟨c1,got,ran⟩ := runCons.mp ran
  simp only [step,answer,follows.unleased] at got
  cases got
  have running := shutdown.trans (sheds.shutdown.trans follows.running)
  have settles := publishedDropped (by rw [entries,getInsertSame]) running ran
  have outside := shelfAbsent follows.shelf absent
  have stored := shelfStored sheds.shelf (fun b member => apart b (shedKept weight member))
    (e := publishedEntry (spec id) (weight id) generation page 0 reserved.state.tick) (by rw [next]; rfl) rfl
  have moved := settles.tick.trans (tick.trans next)
  rw [← insertInsert,← entries,← settles.entries,← moved,refreshed,
    List.erase_of_not_mem (fun member => outside (shedKept weight member))] at stored
  rw [Recency.demand,if_neg outside]
  refine ⟨settles.shutdown.trans running,settles.unleased,stored,?_,?_⟩
  · rw [moved,follows.clock]
    exact Nat.add_assoc ..
  · have whole : inner.metrics.counters = ⟨r.hits,r.misses + 1,r.misses,r.evictions +
        (shed weight (config.pagePoolCapacity - weight id) r.order).1.length,min r.loaded maxWord⟩ := by
      have counters : (missing c.inner (spec id) generation waiter).metrics.counters =
          {c.inner.metrics.counters with misses := saturatingAdd c.inner.metrics.misses 1} := rfl
      rw [counted,sheds.counters,counters,follows.counters,misses,evictions,saturatingWithin (by omega)]
      rfl
    rw [settles.counters,whole,read,sized]
    simp only [published]
    rw [saturatingClamped,saturatingWithin (by omega)]
    rfl

end Steps

theorem demandsFollow [DecidableEq I] {config : CacheConfig} (valid : config.validate = .ok ()) {spec : I → PageSpec}
    {weight size : I → Nat} {past : List I} {c : Cache} (demands : Demands config spec past c) {pages : List I}
    (few : pages.length ≤ config.maxEntries) (listed : ∀ id ∈ past, id ∈ pages)
    (apart : ∀ a ∈ pages, ∀ b ∈ pages, (spec a).key = (spec b).key → a = b)
    (known : ∀ id ∈ past, (spec id).allocationBytes = .ok (weight id)) (sized : ∀ id ∈ past, (spec id).length = size id)
    (clock : past.length ≤ maxWord) :
    Follows (fun id => (spec id).key) weight (recencyAfter weight size config.pagePoolCapacity past) c := by
  have accepted := validateAccepts valid
  induction demands with
  | none => exact ⟨rfl,rfl,⟨everyEmpty _,nofun,queuedEmpty⟩,rfl,rfl⟩
  | @next past c id c' before demanded ih =>
    have early (b) (member : b ∈ past) : b ∈ past ++ [id] := List.mem_append_left _ member
    have late : id ∈ past ++ [id] := List.mem_append_right _ List.mem_cons_self
    rw [List.length_append,List.length_singleton] at clock
    have follows := ih (fun b member => listed b (early b member)) (fun b member => known b (early b member))
      (fun b member => sized b (early b member)) (by omega)
    have good := reachableGood accepted (demandsReachable before)
    have counts := recencyCounts weight size config.pagePoolCapacity past
    have held (b) (member : b ∈ (recencyAfter weight size config.pagePoolCapacity past).order) : b ∈ pages :=
      listed b (early b (recencyDemanded _ _ _ past b member))
    have past_ := counts.1
    have unlike (b) (member : b ∈ (recencyAfter weight size config.pagePoolCapacity past).order) :=
      apart b (held b member) id (listed id late)
    rw [recencyLast]
    cases demanded with
    | hit answer ran => exact followsAnswered accepted good follows (by omega) unlike (Prod.ext rfl answer) ran
    | miss answer read ran =>
      refine followsStarted accepted good follows ⟨rfl,counts.2⟩ (by omega) unlike ?_ (known id late) (sized id late)
        (Prod.ext rfl answer) (readFetches (spec id).lengthFits read) ran
      obtain ⟨_,_,-,absent,-⟩ := getStarted accepted good.ledgered (goodFits accepted good) (Prod.ext rfl answer)
      have distinct := List.nodup_cons.mpr ⟨shelfAbsent follows.shelf absent,(queuedNodup follows.shelf.queued).of_map _⟩
      have size := (List.subperm_of_subset distinct (List.cons_subset.mpr ⟨listed id late,held⟩)).length_le
      rw [List.length_cons] at size
      omega

end RunnelMoe.PageCache
