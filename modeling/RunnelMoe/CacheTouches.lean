import RunnelMoe.CacheMachine

/-! Request-order eviction. A touch is a demand that hit, joined or started a load, or a
prefetch that started one, with the tick of that call. The history of a run lists them,
the latest first. An entry remembers its latest touch in whatever order the loads
complete, and a reservation takes the unleased pages from the oldest touch on and no
more of them than it needs. -/
namespace RunnelMoe.PageCache
open StoreErrors Words PageSpecs CacheLimits KeyedSum Runs
open Std (ExtTreeMap)

structure Touch where
  key : PageKey
  generation : Nat
  tick : Nat
  deriving DecidableEq, Repr

def Touch.on (key : PageKey) (generation : Nat) (t : Touch) : Bool :=
  decide (t.key = key ∧ t.generation = generation)

def Entry.lastTouch? (e : Entry) : Option Nat := match e.state with
  | .loading l => some l.lastTouch
  | .resident r => some r.lastTouch
  | .retiring _ => none

def GetReply.touched : GetReply → Option Nat
  | .lease given => some given.generation
  | .joined generation _ | .started generation _ => some generation
  | .failed _ => none

def touchesOf (config : CacheConfig) (c : Cache) : Action → List Touch
  | .get ambient spec call submit =>
      let (inner,reply) := get config ambient spec call submit c.inner
      (reply.touched.map (fun generation => ⟨spec.key,generation,inner.state.tick⟩)).toList
  | .prefetch ambient spec submit =>
      let (inner,result) := prefetch config ambient spec submit c.inner
      if result = .ok .started then [⟨spec.key,inner.state.generation,inner.state.tick⟩] else []
  | _ => []

def history (config : CacheConfig) : Cache → List Action → List Touch
  | _, [] => []
  | c, action::rest => match step config c action with
    | none => []
    | some next => history config next rest ++ touchesOf config c action

def Remembers (entries : ExtTreeMap PageKey Entry) (touches : List Touch) : Prop :=
  Every entries (fun key e => ∀ tick, e.lastTouch? = some tick →
    touches.find? (Touch.on key e.generation) = some ⟨key,e.generation,tick⟩)

def KeepsTouches (before after : ExtTreeMap PageKey Entry) : Prop :=
  ∀ (key : PageKey) (e : Entry) (tick : Nat), after[key]? = some e → e.lastTouch? = some tick →
    ∃ old, before[key]? = some old ∧ old.generation = e.generation ∧ old.lastTouch? = some tick

section Remembered
variable {config : CacheConfig} {entries before middle after : ExtTreeMap PageKey Entry} {touches : List Touch}
  {key : PageKey} {e e' : Entry} {tick : Nat}

theorem recordedKept (recorded : Remembers before touches) (kept : KeepsTouches before after) :
    Remembers after touches := by
  intro key e found tick touch
  obtain ⟨old,present,generation,same⟩ := kept key e tick found touch
  rw [← generation]
  exact recorded key old present tick same

theorem recordedTouch (recorded : Remembers entries touches) (touch : e.lastTouch? = some tick) :
    Remembers (entries.insert key e) (⟨key,e.generation,tick⟩::touches) := by
  refine everyInsertOther ?_ ?_
  · intro a b other found t same
    have skipped : Touch.on a b.generation ⟨key,e.generation,tick⟩ = false := by simp [Touch.on,Ne.symm other]
    rw [List.find?_cons_of_neg (by simp [skipped])]
    exact recorded a b found t same
  · intro t same
    cases Option.some.inj (touch.symm.trans same)
    exact List.find?_cons_of_pos (by simp [Touch.on])

theorem keepsRefl (entries : ExtTreeMap PageKey Entry) : KeepsTouches entries entries :=
  fun _ e _ found touch => ⟨e,found,rfl,touch⟩

theorem keepsTrans (first : KeepsTouches before middle) (second : KeepsTouches middle after) :
    KeepsTouches before after := by
  intro key e tick found touch
  obtain ⟨between,there,generation,same⟩ := second key e tick found touch
  obtain ⟨old,present,earlier,same⟩ := first key between tick there same
  exact ⟨old,present,earlier.trans generation,same⟩

theorem keepsErased (entries : ExtTreeMap PageKey Entry) (key : PageKey) :
    KeepsTouches entries (entries.erase key) := by
  intro k e tick found touch
  rw [getErase] at found
  split at found
  · contradiction
  · exact ⟨e,found,rfl,touch⟩

theorem keepsReplaced (present : entries[key]? = some e) (generation : e'.generation = e.generation)
    (touch : ∀ tick, e'.lastTouch? = some tick → e.lastTouch? = some tick) :
    KeepsTouches entries (entries.insert key e') := by
  intro k x tick found same
  rw [getInsert] at found
  split at found
  · subst k
    cases Option.some.inj found
    exact ⟨e,present,generation.symm,touch tick same⟩
  · exact ⟨x,found,rfl,same⟩

theorem keepsGranted {allocation : Nat} {taken rest : List Candidate}
    (granted : Granted config before after allocation taken rest) : KeepsTouches before after := by
  intro k e tick found touch
  rw [granted.entries,evictedLookup] at found
  split at found
  · contradiction
  · exact ⟨e,found,rfl,touch⟩

end Remembered

def Move.untouching : Move → Prop
  | .hit _ | .join _ | .start _ _ => False
  | _ => True

variable {config : CacheConfig} {touches : List Touch}

theorem turnKeepsTouches {move : Move} {p q : Pages} (turn : Turn config move p q)
    (untouching : move.untouching) : KeepsTouches p.entries q.entries := by
  cases turn with
  | count | stop => exact keepsRefl _
  | evict | fail | releaseLast => exact keepsErased _ _
  | interest present state | publish _ present state | cancel present state | drain present state
  | withdraw present state | useResident present state | releaseResident _ present _ state =>
    exact keepsReplaced present rfl (fun tick same => by simp only [Entry.lastTouch?,state] at same ⊢; exact same)
  | useRetiring present | releaseRetiring _ present | retire present =>
    exact keepsReplaced present rfl (fun tick same => by simp [Entry.lastTouch?] at same)
  | hit | join | start => exact untouching.elim

theorem turnsKeepTouches {allowed : Move → Prop} {p q : Pages}
    (turns : Turns config allowed p q) (untouching : ∀ move, allowed move → move.untouching) :
    KeepsTouches p.entries q.entries :=
  turnsInvariant (fun q => KeepsTouches p.entries q.entries)
    (fun move _ _ may turn kept => keepsTrans kept (turnKeepsTouches turn (untouching move may))) turns (keepsRefl _)

structure Counts (s s' : CacheState) : Prop where
  tick : s'.tick = s.tick
  generation : s'.generation = s.generation ∨ s'.generation = s.generation + 1 ∧ s.generation + 1 < modulus

section Counting
variable {config : CacheConfig} {ambient : Ambient} {spec : PageSpec} {call : Nat}
  {submit : Except StoreError Unit} {s : CacheState} {inner out : CacheInner}

theorem countsKept {middle s' : CacheState} (first : Counts s middle) (second : SameCounters middle s') :
    Counts s s' := by
  refine ⟨second.tick.trans first.tick,?_⟩
  rw [second.generation]
  exact first.generation

theorem residentCounts {key : PageKey} {e : Entry} {r : ResidentEntry} (start : inner.state = s) :
    Counts s (getResident config call key e r inner).1.state := by
  subst start
  unfold getResident
  simp only
  split <;> exact ⟨rfl,.inl rfl⟩

theorem loadingCounts {e : Entry} {l : LoadingEntry} (start : inner.state = s) :
    Counts s (getLoading config spec call e l inner).1.state := by
  subst start
  unfold getLoading
  simp only
  split
  · exact ⟨rfl,.inl rfl⟩
  split
  · exact ⟨rfl,.inl rfl⟩
  split
  · exact ⟨rfl,.inl rfl⟩
  rename_i next
  obtain ⟨rfl,-,-⟩ := waiterAdvanced next
  exact ⟨rfl,.inl rfl⟩

theorem absentCounts {allocation : Nat} (accepted : Accepted config) (start : inner.state = s) :
    Counts s (getAbsent config ambient spec call submit allocation inner).1.state := by
  subst start
  unfold getAbsent
  simp only
  split
  · exact ⟨rfl,.inl rfl⟩
  split
  · exact ⟨rfl,.inl rfl⟩
  split
  · exact ⟨rfl,.inl rfl⟩
  rename_i numbered
  obtain ⟨rfl,-,word⟩ := generationAdvanced numbered
  split
  · exact ⟨rfl,.inr ⟨rfl,word⟩⟩
  rename_i next
  obtain ⟨rfl,-,-⟩ := waiterAdvanced next
  have numbers : Counts inner.state {inner.state with generation := inner.state.generation + 1, waiter := inner.state.waiter + 1} :=
    ⟨rfl,.inr ⟨rfl,word⟩⟩
  split
  · exact numbers
  · exact numbers
  rename_i reserved granted
  obtain ⟨generation,waiter,tick,stopped⟩ := reserveCounters accepted granted
  split
  · exact countsKept numbers ⟨generation,waiter,tick,stopped⟩
  split
  · exact countsKept numbers ⟨generation,waiter,tick,stopped⟩
  · rename_i unwound
    obtain ⟨g,w,t,back⟩ := unwindCounters unwound
    exact countsKept (countsKept numbers ⟨generation,waiter,tick,stopped⟩) ⟨g,w,t,back⟩

theorem getCounts (accepted : Accepted config) {reply : GetReply}
    (ok : get config ambient spec call submit inner = (out,reply)) :
    Counts inner.state.nextTick out.state ∨ out.state = inner.state ∧ reply.touched = none := by
  simp only [get] at ok
  split at ok
  · cases ok; exact .inr ⟨rfl,rfl⟩
  split at ok
  · cases ok; exact .inr ⟨rfl,rfl⟩
  simp only [getLocked] at ok
  split at ok
  · cases ok; exact .inr ⟨rfl,rfl⟩
  left
  have last := congrArg (fun row => row.1.state) ok
  simp only at last
  rw [← last]
  split
  · exact absentCounts accepted rfl
  split
  · exact ⟨rfl,.inl rfl⟩
  split
  · exact residentCounts rfl
  · exact loadingCounts rfl
  · exact ⟨rfl,.inl rfl⟩

theorem presentCounts {e : Entry} (start : inner.state = s) : (prefetchPresent spec e inner).2 ≠ .started ∧
    Counts s (prefetchPresent spec e inner).1.state := by
  subst start
  unfold prefetchPresent
  split
  · split
    · exact ⟨nofun,rfl,.inl rfl⟩
    · split <;> exact ⟨nofun,rfl,.inl rfl⟩
  · exact ⟨nofun,rfl,.inl rfl⟩
  · exact ⟨nofun,rfl,.inl rfl⟩

theorem prefetchAbsentCounts {allocation : Nat} (accepted : Accepted config) (inside : ambient.runtime = true)
    (start : inner.state = s) :
    Counts s.nextTick (prefetchAbsent config ambient spec submit allocation inner).1.state := by
  subst start
  simp only [prefetchAbsent,inside,Bool.not_true,Bool.false_eq_true,if_false]
  split
  · exact ⟨rfl,.inl rfl⟩
  rename_i numbered
  obtain ⟨rfl,-,word⟩ := generationAdvanced numbered
  have numbers : Counts inner.state.nextTick {inner.state.nextTick with generation := inner.state.generation + 1} :=
    ⟨rfl,.inr ⟨rfl,word⟩⟩
  split
  · exact numbers
  · exact numbers
  rename_i reserved granted
  obtain ⟨generation,waiter,tick,stopped⟩ := reserveCounters accepted granted
  split
  · exact countsKept numbers ⟨generation,waiter,tick,stopped⟩
  split
  · exact countsKept numbers ⟨generation,waiter,tick,stopped⟩
  · rename_i unwound
    obtain ⟨g,w,t,back⟩ := unwindCounters unwound
    split <;> exact countsKept (countsKept numbers ⟨generation,waiter,tick,stopped⟩) ⟨g,w,t,back⟩

theorem prefetchCounts (accepted : Accepted config) {result : Except StoreError PrefetchOutcome}
    (ok : prefetch config ambient spec submit inner = (out,result)) :
    Counts inner.state.nextTick out.state ∨ Counts inner.state out.state ∧ result ≠ .ok .started := by
  simp only [prefetch] at ok
  split at ok
  · cases ok; exact .inr ⟨⟨rfl,.inl rfl⟩,by simp⟩
  split at ok
  · cases ok; exact .inr ⟨⟨rfl,.inl rfl⟩,by simp⟩
  simp only [prefetchLocked] at ok
  split at ok
  · cases ok; exact .inr ⟨⟨rfl,.inl rfl⟩,by simp⟩
  split at ok
  · split at ok
    · cases ok; exact .inr ⟨⟨rfl,.inl rfl⟩,by simp⟩
    · cases ok
      obtain ⟨idle,counts⟩ := @presentCounts spec inner.state (inner.meter (Metrics.addPrefetchBytes · spec.length)) _ rfl
      exact .inr ⟨counts,fun started => idle (Except.ok.inj started)⟩
  · by_cases inside : ambient.runtime = true
    · have last := congrArg (fun row => row.1.state) ok
      exact .inl (last ▸ prefetchAbsentCounts accepted inside rfl)
    · simp only [prefetchAbsent,inside,Bool.not_false,if_true] at ok
      cases ok
      exact .inr ⟨⟨rfl,.inl rfl⟩,by simp⟩

end Counting

inductive TickStep (before after : Nat) : List Touch → Prop where
  | quiet (tick : after = before ∨ after = saturatingAdd before 1) : TickStep before after []
  | touched {key generation} (tick : after = saturatingAdd before 1) : TickStep before after [⟨key,generation,after⟩]

section Step
variable {config : CacheConfig} {c next : Cache} {action : Action} {touches : List Touch}

theorem stepTick (accepted : Accepted config) (good : Good config c.inner.state c.leases)
    (ok : step config c action = some next) :
    TickStep c.inner.state.tick next.inner.state.tick (touchesOf config c action) := by
  have fits := goodFits accepted good
  cases action with
  | get ambient spec call submit =>
    rcases done : get config ambient spec call submit c.inner with ⟨inner,reply⟩
    simp only [step,done,Option.some.injEq] at ok
    subst ok
    simp only [touchesOf,done]
    rcases getCounts accepted done with counts | ⟨same,untouched⟩
    · cases touched : reply.touched with
      | none => exact .quiet (.inr counts.tick)
      | some generation => exact .touched counts.tick
    · rw [untouched]
      exact .quiet (.inl (congrArg CacheState.tick same))
  | prefetch ambient spec submit =>
    rcases done : prefetch config ambient spec submit c.inner with ⟨inner,result⟩
    simp only [step,done,Option.some.injEq] at ok
    subst ok
    simp only [touchesOf,done]
    rcases prefetchCounts accepted done with counts | ⟨counts,idle⟩
    · split
      · exact .touched counts.tick
      · exact .quiet (.inr counts.tick)
    · rw [if_neg idle]
      exact .quiet (.inl counts.tick)
  | complete key generation result stats =>
    rcases done : finishObservedLoad c.inner key generation result stats with ⟨inner,deliveries⟩
    simp only [step,done,Option.some.injEq] at ok
    subst ok
    refine .quiet (.inl ?_)
    cases observedEffect good.ledgered fits done with
    | stale same => exact congrArg CacheState.tick same
    | failed _ _ _ _ _ counters => exact counters.tick
    | published _ _ _ _ _ _ _ _ _ counters => exact counters.tick
  | withdraw key generation waiterId =>
    cases ok
    refine .quiet (.inl ?_)
    cases withdrawEffect key generation waiterId good.ledgered fits with
    | gone same => exact congrArg CacheState.tick same
    | withdrawn _ _ _ _ _ _ _ counters => exact counters.tick
  | dropLease lease =>
    simp only [step] at ok
    split at ok
    · cases ok
      exact .quiet (.inl (releaseCounters _ _ _).tick)
    · contradiction
  | markUse key generation =>
    cases ok
    exact .quiet (.inl (useCounters _ _ _).tick)
  | invalidate key =>
    cases ok
    exact .quiet (.inl (invalidateCounters _ _).tick)
  | shutdown =>
    cases ok
    exact .quiet (.inl (shutdownCounters accepted good).tick)

theorem getRecorded {ambient : Ambient} {spec : PageSpec} {call : Nat} {submit : Except StoreError Unit}
    {s s' : CacheState} {reply : GetReply} (recorded : Remembers s.entries touches)
    (effect : GetEffect config ambient spec call submit s s' reply) :
    Remembers s'.entries ((reply.touched.map (fun generation => Touch.mk spec.key generation s'.tick)).toList ++ touches) := by
  cases effect with
  | quiet unmoved => rw [unmoved.entries]; exact recorded
  | hit _ _ _ _ _ entries | joined _ _ _ _ _ _ _ _ entries =>
    rw [entries]
    exact recordedTouch recorded rfl
  | refused _ _ _ granted => exact recordedKept recorded (keepsGranted granted)
  | started _ _ _ _ _ _ granted _ entries =>
    rw [entries]
    exact recordedTouch (recordedKept recorded (keepsGranted granted)) rfl

theorem prefetchRecorded {ambient : Ambient} {spec : PageSpec} {submit : Except StoreError Unit}
    {s s' : CacheState} {result : Except StoreError PrefetchOutcome} (recorded : Remembers s.entries touches)
    (effect : PrefetchEffect config ambient spec submit s s' result) :
    Remembers s'.entries
      ((if result = .ok .started then [Touch.mk spec.key s'.generation s'.tick] else []) ++ touches) := by
  cases effect with
  | quiet unmoved idle =>
    rw [if_neg idle,unmoved.entries]
    exact recorded
  | interest present state _ entries =>
    rw [if_neg (by simp),entries]
    refine recordedKept recorded (keepsReplaced present rfl fun tick same => ?_)
    simp only [Entry.lastTouch?,state] at same ⊢
    exact same
  | @refused _ _ _ error _ _ _ _ granted _ told =>
    have idle : ¬result = .ok .started := by rw [told]; split <;> simp
    rw [if_neg idle]
    exact recordedKept recorded (keepsGranted granted)
  | started _ _ _ granted _ entries _ generation =>
    rw [if_pos rfl,entries,generation]
    exact recordedTouch (recordedKept recorded (keepsGranted granted)) rfl

theorem stepRecorded (accepted : Accepted config) (good : Good config c.inner.state c.leases)
    (recorded : Remembers c.inner.state.entries touches) (ok : step config c action = some next) :
    Remembers next.inner.state.entries (touchesOf config c action ++ touches) := by
  have fits := goodFits accepted good
  have refines := stepRefines accepted good ok
  have still (untouching : ∀ move, action.moves move → move.untouching) :
      Remembers next.inner.state.entries touches := recordedKept recorded (turnsKeepTouches refines.turns untouching)
  cases action with
  | get ambient spec call submit =>
    rcases done : get config ambient spec call submit c.inner with ⟨inner,reply⟩
    simp only [step,done,Option.some.injEq] at ok
    subst ok
    simp only [touchesOf,done]
    exact getRecorded recorded (getEffect accepted good.ledgered fits done)
  | prefetch ambient spec submit =>
    rcases done : prefetch config ambient spec submit c.inner with ⟨inner,result⟩
    simp only [step,done,Option.some.injEq] at ok
    subst ok
    simp only [touchesOf,done]
    exact prefetchRecorded recorded (prefetchEffect accepted good.sound.bounded good.ledgered fits done)
  | complete =>
    refine still fun move may => ?_
    rcases may with rfl | rfl <;> trivial
  | withdraw | dropLease | markUse =>
    refine still fun move may => ?_
    cases may
    trivial
  | invalidate | shutdown =>
    refine still fun move may => ?_
    cases move <;> trivial

end Step

def TicksApart (tick : Nat) (touches : List Touch) : Prop :=
  tick < maxWord → touches.Pairwise (fun later earlier => earlier.tick < later.tick) ∧ ∀ t ∈ touches, t.tick ≤ tick

theorem ticksApartStep {before after : Nat} {fresh : List Touch} (apart : TicksApart before touches)
    (moved : TickStep before after fresh) : TicksApart after (fresh ++ touches) := by
  intro small
  have grows : after = before ∨ after = before + 1 := by
    have tick : after = before ∨ after = saturatingAdd before 1 := by
      cases moved with
      | quiet tick => exact tick
      | touched tick => exact .inr tick
    unfold saturatingAdd at tick
    omega
  obtain ⟨descending,below⟩ := apart (by omega)
  cases moved with
  | quiet => exact ⟨descending,fun t member => (below t member).trans (by omega)⟩
  | touched tick =>
    unfold saturatingAdd at tick
    refine ⟨List.pairwise_cons.mpr ⟨fun t member => ?_,descending⟩,fun t member => ?_⟩
    · have earlier := below t member
      simp only
      omega
    · rcases List.mem_cons.mp member with rfl | old
      · exact le_rfl
      · exact (below t old).trans (by omega)

theorem historyKept (accepted : Accepted config) {actions : List Action} {c last : Cache} (good : Good config c.inner.state c.leases)
    (recorded : Remembers c.inner.state.entries touches) (apart : TicksApart c.inner.state.tick touches)
    (ran : run (step config) c actions = some last) :
    Remembers last.inner.state.entries (history config c actions ++ touches) ∧
      TicksApart last.inner.state.tick (history config c actions ++ touches) := by
  induction actions generalizing c touches with
  | nil =>
    cases Option.some.inj ran
    exact ⟨recorded,apart⟩
  | cons action rest ih =>
    obtain ⟨next,one,more⟩ := runCons.mp ran
    simp only [history,one,List.append_assoc]
    exact ih (stepGood accepted good one) (stepRecorded accepted good recorded one)
      (ticksApartStep apart (stepTick accepted good one)) more

theorem recordedDistinct {entries : ExtTreeMap PageKey Entry} {tick : Nat}
    (recorded : Remembers entries touches) (apart : TicksApart tick touches) (small : tick < maxWord)
    {a b : PageKey} {x y : Entry} (left : entries[a]? = some x) (right : entries[b]? = some y) {t : Nat}
    (touchLeft : x.lastTouch? = some t) (touchRight : y.lastTouch? = some t) : a = b := by
  have first := List.mem_of_find?_eq_some (recorded a x left t touchLeft)
  have second := List.mem_of_find?_eq_some (recorded b y right t touchRight)
  have unique : (touches.map Touch.tick).Nodup := by
    rw [List.Nodup,List.pairwise_map]
    exact (apart small).1.imp (fun earlier => (Nat.ne_of_lt earlier).symm)
  exact congrArg Touch.key (List.inj_on_of_nodup_map unique first second rfl)

def Roomy (config : CacheConfig) (allocationBytes : Nat) (entries : ExtTreeMap PageKey Entry) : Prop :=
  (tally entries).pagePoolBytes + allocationBytes ≤ config.pagePoolCapacity ∧ entries.size < config.maxEntries

structure ReservesOldest (config : CacheConfig) (inner : CacheInner) (allocationBytes : Nat) : Prop where
  unleased : ∀ c, c ∈ candidates inner.state.entries ↔ Victim inner.state.entries c
  oldest : (candidates inner.state.entries).Pairwise (fun a b => a.lastTouch ≤ b.lastTouch)
  granted : (∃ out, reserveLoad config inner allocationBytes = .ok (some out)) ↔
    HasRoom config inner.state allocationBytes
  refused : ¬HasRoom config inner.state allocationBytes → reserveLoad config inner allocationBytes = .ok none
  evicts : ∀ out, reserveLoad config inner allocationBytes = .ok (some out) →
    ∃ taken rest, candidates inner.state.entries = taken ++ rest ∧
      out.state.entries = evicted inner.state.entries (taken.map Candidate.key) ∧
      Roomy config allocationBytes out.state.entries ∧
      ∀ n < taken.length, ¬Roomy config allocationBytes
        (evicted inner.state.entries ((taken.take n).map Candidate.key))

section Reserves
variable {config : CacheConfig} {inner : CacheInner} {allocationBytes : Nat}

instance : Std.Total Candidate.before := ⟨fun a b => le_total (toLex (a.lastTouch,a.key)) (toLex (b.lastTouch,b.key))⟩
instance : IsTrans Candidate Candidate.before :=
  ⟨fun a b c => @le_trans _ _ (toLex (a.lastTouch,a.key)) (toLex (b.lastTouch,b.key)) (toLex (c.lastTouch,c.key))⟩

theorem candidatesSorted (entries : ExtTreeMap PageKey Entry) :
    (candidates entries).Pairwise (fun a b => a.lastTouch ≤ b.lastTouch) := by
  refine (List.pairwise_insertionSort Candidate.before _).imp fun {a b} before => ?_
  rcases Prod.Lex.toLex_le_toLex.mp before with earlier | ⟨same,-⟩
  · exact Nat.le_of_lt earlier
  · exact Nat.le_of_eq same

theorem projectedRoom (ledgered : Ledgered inner.state) (fits : Fits inner.state.ledger) {taken : List Candidate}
    (victims : ∀ c ∈ taken, Victim inner.state.entries c) (distinct : (taken.map Candidate.key).Nodup) :
    (tally (evicted inner.state.entries (taken.map Candidate.key))).pagePoolBytes =
        inner.state.ledger.pagePoolBytes - (taken.map Candidate.bytes).sum ∧
      (evicted inner.state.entries (taken.map Candidate.key)).size = inner.state.entries.size - taken.length := by
  obtain ⟨evicts,freed⟩ := evictAll ledgered fits victims distinct
  have size := evictedSize victims distinct
  have after : _ = tally _ := evicts.ledgered
  rw [after,evicts.entries] at freed
  exact ⟨by omega,by omega⟩

theorem reservesShortest (accepted : Accepted config) (ledgered : Ledgered inner.state)
    (fits : Fits inner.state.ledger) {out : CacheInner}
    (ok : reserveLoad config inner allocationBytes = .ok (some out)) :
    ∃ taken rest, candidates inner.state.entries = taken ++ rest ∧
      out.state.entries = evicted inner.state.entries (taken.map Candidate.key) ∧
      Roomy config allocationBytes out.state.entries ∧
      ∀ n < taken.length, ¬Roomy config allocationBytes
        (evicted inner.state.entries ((taken.take n).map Candidate.key)) := by
  obtain ⟨willing,plan,planned,-,-,same⟩ := (reserveInverted accepted).mp ok
  simp only [refusesLoad,not_or,Nat.not_lt] at willing
  have below : allocationBytes ≤ config.pagePoolCapacity := willing.1.trans accepted.inflight
  obtain ⟨taken,rest,done⟩ := planExact planned
  obtain ⟨-,other,left,room⟩ := reserveGranted accepted ledgered fits ok
  obtain ⟨victims,distinct⟩ := takenVictims done.split
  have entries : out.state.entries = evicted inner.state.entries (taken.map Candidate.key) := by
    rw [same,done.victims]
    exact (evictAll ledgered fits victims distinct).1.entries
  refine ⟨taken,rest,done.split,entries,⟨room.pool,room.room⟩,fun n inside roomy => ?_⟩
  have fewer := projectedRoom ledgered fits (fun c member => victims c (List.mem_of_mem_take member))
    (distinct.sublist ((List.take_sublist n taken).map Candidate.key))
  rw [Roomy,fewer.1,fewer.2,List.length_take_of_le inside.le] at roomy
  exact done.shortest n inside (by omega)

theorem reservesOldest (accepted : Accepted config) (ledgered : Ledgered inner.state)
    (fits : Fits inner.state.ledger) : ReservesOldest config inner allocationBytes where
  unleased _ := candidateSound
  oldest := candidatesSorted _
  granted := reserveRoom accepted ledgered
  refused full := by
    rcases reserveDecides accepted ledgered allocationBytes with no | yes
    · exact no
    · exact absurd ((reserveRoom accepted ledgered).mp yes) full
  evicts _ ok := reservesShortest accepted ledgered fits ok

end Reserves

/- The first two parts are about the history of the run; the last one holds at every
point of a call, where counters may have moved since the call began. -/
theorem evictionRequestOrder {config : CacheConfig} (valid : config.validate = .ok ()) {actions : List Action}
    {c : Cache} (ran : run (step config) .empty actions = some c) :
    (c.inner.state.tick < maxWord → ∀ (a b : PageKey) (x y : Entry), c.inner.state.entries[a]? = some x →
      c.inner.state.entries[b]? = some y → ∀ t, x.lastTouch? = some t → y.lastTouch? = some t → a = b) ∧
    (∀ (key : PageKey) (e : Entry), c.inner.state.entries[key]? = some e → ∀ t, e.lastTouch? = some t →
      (history config .empty actions).find? (Touch.on key e.generation) = some ⟨key,e.generation,t⟩) ∧
    ∀ (inner : CacheInner) (allocationBytes : Nat), inner.state.entries = c.inner.state.entries →
      inner.state.ledger = c.inner.state.ledger → ReservesOldest config inner allocationBytes := by
  have accepted := validateAccepts valid
  have good := reachableGood accepted ⟨actions,ran⟩
  have apart : TicksApart 0 [] := fun _ => ⟨.nil,by simp⟩
  obtain ⟨recorded,apart⟩ := historyKept accepted (emptyGood config) (everyEmpty _) apart ran
  rw [List.append_nil] at recorded apart
  refine ⟨?_,recorded,?_⟩
  · intro small a b x y left right t touchLeft touchRight
    exact recordedDistinct recorded apart small left right touchLeft touchRight
  · intro inner allocationBytes entries ledger
    refine reservesOldest accepted ?_ ?_
    · rw [Ledgered,entries,ledger]
      exact good.ledgered
    · rw [ledger]
      exact goodFits accepted good

/-! Two loads and a demand that joins the first; the loads complete in their order and
the second page is still the older one -/

def pairConfig : CacheConfig := ⟨128,64,128,4,4,8,8,8,16,by decide⟩

def coalescedLoads : List Action :=
  [.get sampleAmbient (sampleSpec 0) 0 (.ok ()),.get sampleAmbient (sampleSpec 1) 1 (.ok ()),
    .get sampleAmbient (sampleSpec 0) 2 (.ok ()),.complete (sampleSpec 0).key 1 (.ok (samplePage 0)) ⟨17,5⟩,
    .complete (sampleSpec 1).key 2 (.ok (samplePage 1)) ⟨17,5⟩,.dropLease (sampleLease 0 0 1),
    .dropLease (sampleLease 2 0 1),.dropLease (sampleLease 1 1 2)]

def coalescedCache : Cache := (run (step pairConfig) .empty coalescedLoads).getD .empty
theorem coalescedRun : run (step pairConfig) .empty coalescedLoads = some coalescedCache :=
  runEnds (by decide +kernel) .empty

theorem coalescedEvictsSecond :
    candidates coalescedCache.inner.state.entries = [⟨(sampleSpec 1).key,2,64⟩,⟨(sampleSpec 0).key,3,64⟩] ∧
    (∀ (a b : PageKey) (x y : Entry), coalescedCache.inner.state.entries[a]? = some x →
      coalescedCache.inner.state.entries[b]? = some y →
      ∀ t, x.lastTouch? = some t → y.lastTouch? = some t → a = b) ∧
    ReservesOldest pairConfig coalescedCache.inner 64 := by
  have order := evictionRequestOrder (by decide : pairConfig.validate = .ok ()) coalescedRun
  exact ⟨by decide +kernel,order.1 (by decide +kernel),order.2.2 _ 64 rfl rfl⟩

end RunnelMoe.PageCache
