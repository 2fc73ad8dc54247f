import RunnelMoe.CacheService

/-! Every event of the service, reduced to what it does to loads, calls and messages.
The reader's requests match the loads, each attached waiter belongs to a call that
still wants it, and each registered waiter is resolved once. The three are proved
together, because a withdrawal only takes the right waiter while the others hold. -/
namespace RunnelMoe.PageCache
open StoreErrors Words PageSpecs CacheLimits KeyedSum Runs AsyncReads
open Std (ExtTreeMap)

structure SameMail (s s' : Service) : Prop where
  outbox : s'.outbox = s.outbox
  channels : s'.channels = s.channels
  registered : s'.registered = s.registered
  resolved : s'.resolved = s.resolved

structure SameDesk (s s' : Service) : Prop where
  nextCall : s'.nextCall = s.nextCall
  pending : s'.reader.pending = s.reader.pending
  waiter : s'.inner.state.waiter = s.inner.state.waiter
  registered : s'.registered = s.registered

structure Registers (s s' : Service) (r : WaiterRegistration) : Prop where
  fresh : s.inner.state.waiter < r.waiterId
  waiter : s'.inner.state.waiter = r.waiterId
  calls : s'.calls = s.calls.insert s.nextCall (.waiting r)
  nextCall : s'.nextCall = s.nextCall + 1
  registered : s'.registered = s.nextCall :: s.registered
  outbox : s'.outbox = s.outbox
  channels : s'.channels = s.channels
  resolved : s'.resolved = s.resolved

structure Tells (s s' : Service) (deliveries : List Delivery) : Prop where
  nextCall : s'.nextCall = s.nextCall
  waiter : s.inner.state.waiter ≤ s'.inner.state.waiter
  calls : s'.calls = s.calls
  registered : s'.registered = s.registered
  outbox : s'.outbox = s.outbox ++ deliveries
  channels : s'.channels = s.channels
  resolved : s'.resolved = deliveries.map Delivery.resolution ++ s.resolved

structure Withdraws (s s' : Service) (call : Nat) (r : WaiterRegistration) : Prop where
  desk : SameDesk s s'
  effect : WithdrawEffect r.spec.key r.generation r.waiterId s.inner.state s'.inner.state
  outbox : s'.outbox = s.outbox
  channels : s'.channels = s.channels
  resolved : s'.resolved = if withdraws s.entries r then (call,.withdrawal) :: s.resolved else s.resolved

structure HangsUp (s s' : Service) (call : Nat) : Prop where
  desk : SameDesk s s'
  entries : s'.entries = s.entries
  outbox : s'.outbox = s.outbox
  channels : s'.channels = s.channels.filter (fun d => d.completion ≠ call)
  resolved : s'.resolved = s.resolved

inductive Happens (s s' : Service) : Prop where
  | still (loads : SameLoads s.entries s'.entries) (waiter : s.inner.state.waiter ≤ s'.inner.state.waiter)
      (pending : s'.reader.pending.Perm s.reader.pending) (calls : s'.calls = s.calls)
      (nextCall : s.nextCall ≤ s'.nextCall) (mail : SameMail s s') : Happens s s'
  | joined {r load} (move : LoadMove s.entries s'.entries r.spec.key (some load)
        (some {load with waiters := load.waiters ++ [⟨r.waiterId,s.nextCall⟩]}))
      (generation : load.generation = r.generation) (identity : load.identifies r.spec)
      (pending : s'.reader.pending = s.reader.pending) (registers : Registers s s' r) : Happens s s'
  | started {r load} (move : LoadMove s.entries s'.entries r.spec.key none (some load))
      (waiters : load.waiters = [⟨r.waiterId,s.nextCall⟩]) (generation : load.generation = r.generation)
      (identity : load.identifies r.spec)
      (pending : s'.reader.pending.Perm (⟨r.spec,r.generation⟩ :: s.reader.pending))
      (registers : Registers s s' r) : Happens s s'
  | fetched {request load} (move : LoadMove s.entries s'.entries request.spec.key none (some load))
      (alone : load.waiters = []) (generation : load.generation = request.generation)
      (identity : load.identifies request.spec)
      (pending : s'.reader.pending.Perm (request :: s.reader.pending))
      (waiter : s'.inner.state.waiter = s.inner.state.waiter) (calls : s'.calls = s.calls)
      (nextCall : s'.nextCall = s.nextCall) (mail : SameMail s s') : Happens s s'
  | finished {request load deliveries}
      (move : LoadMove s.entries s'.entries request.spec.key (some load) none)
      (told : deliveries.map Delivery.completion = load.waiters.map Waiter.completion)
      (pending : s.reader.pending.Perm (request :: s'.reader.pending)) (tells : Tells s s' deliveries) : Happens s s'
  | stopped {deliveries} (loads : ∀ key, loadAt s'.entries key = (loadAt s.entries key).map Load.bare)
      (detached : ∀ call, attachments s'.entries call = 0)
      (told : ∀ call, (deliveries.map Delivery.completion).count call = attachments s.entries call)
      (pending : s'.reader.pending = s.reader.pending) (tells : Tells s s' deliveries) : Happens s s'
  | sent {d} (desk : SameDesk s s') (entries : s'.entries = s.entries) (calls : s'.calls = s.calls)
      (resolved : s'.resolved = s.resolved) (member : d ∈ s.outbox)
      (listening : s.calls[d.completion]?.any Call.listening = true) (outbox : s'.outbox = s.outbox.erase d)
      (channels : s'.channels = s.channels ++ [d]) : Happens s s'
  | bounced {d} (desk : SameDesk s s') (entries : s'.entries = s.entries) (calls : s'.calls = s.calls)
      (resolved : s'.resolved = s.resolved) (member : d ∈ s.outbox)
      (deaf : s.calls[d.completion]?.any Call.listening = false) (outbox : s'.outbox = s.outbox.erase d)
      (channels : s'.channels = s.channels) : Happens s s'
  | received {d r} (desk : SameDesk s s') (entries : s'.entries = s.entries)
      (resolved : s'.resolved = s.resolved) (waiting : s.calls[d.completion]? = some (.waiting r))
      (member : d ∈ s.channels) (calls : s'.calls = s.calls.erase d.completion) (outbox : s'.outbox = s.outbox)
      (channels : s'.channels = s.channels.erase d) : Happens s s'
  | closed {call r} (waiting : s.calls[call]? = some (.waiting r)) (empty : ∀ d ∈ s.channels, d.completion ≠ call)
      (dead : ¬s.senderAlive call) : Happens s s'
  | withdrew {call r error} (waiting : s.calls[call]? = some (.waiting r)) (effect : Withdraws s s' call r)
      (calls : s'.calls = s.calls.insert call (.withdrawn r error)) : Happens s s'
  | left {call r error} (withdrawn : s.calls[call]? = some (.withdrawn r error)) (effect : HangsUp s s' call)
      (calls : s'.calls = s.calls.erase call) : Happens s s'
  | abandoned {call r} (waiting : s.calls[call]? = some (.waiting r)) (effect : HangsUp s s' call)
      (calls : s'.calls = s.calls.insert call (.abandoned r)) : Happens s s'
  | unregistered {call r} (closed : s.calls[call]? = some (.abandoned r)) (effect : Withdraws s s' call r)
      (calls : s'.calls = s.calls.erase call) : Happens s s'

structure Matched (entries : ExtTreeMap PageKey Entry) (pending : List Request) : Prop where
  distinct : (pending.map (fun r => r.spec.key)).Nodup
  loading : ∀ r ∈ pending, ∃ load, loadAt entries r.spec.key = some load ∧ load.generation = r.generation ∧
    load.identifies r.spec
  requested : ∀ key load, loadAt entries key = some load → ∃ r ∈ pending, r.spec.key = key

section Inversion
variable {config : CacheConfig} {readers : AsyncReaderConfig} {s s' : Service}

theorem getHappens {ambient : Ambient} {spec : PageSpec} (accepted : Accepted config)
    (good : Good config s.inner.state s.leases) (ok : s.step config readers (.get ambient spec) = some s') :
    Happens s s' := by
  rcases done : get config ambient spec s.nextCall (s.reader.answer readers) s.inner with ⟨inner,reply⟩
  have effect := getEffect accepted good.ledgered (goodFits accepted good) done
  simp only [Service.step,done,Option.some.injEq] at ok
  cases reply with
  | failed error =>
    subst ok
    have waiter : s.inner.state.waiter ≤ inner.state.waiter := by
      cases effect with
      | quiet unmoved => exact unmoved.waiter
      | refused _ _ _ _ _ _ _ waiter => omega
    exact .still (getFailedLoads effect) waiter (.refl _) rfl (Nat.le_succ _) ⟨rfl,rfl,rfl,rfl⟩
  | lease lease =>
    subst ok
    have waiter : inner.state.waiter = s.inner.state.waiter := by
      cases effect with
      | hit _ _ _ _ _ _ _ _ waiter => exact waiter
    exact .still (getHitLoads effect) waiter.ge (.refl _) rfl (Nat.le_succ _) ⟨rfl,rfl,rfl,rfl⟩
  | joined generation waiterId =>
    subst ok
    obtain ⟨load,move,number,identity,fresh,counter⟩ := getJoinedLoads effect
    refine .joined (r := ⟨spec,generation,waiterId⟩) move number identity rfl ⟨?_,?_,rfl,rfl,rfl,rfl,rfl,rfl⟩
    · simp only; omega
    · exact counter.trans fresh.symm
  | started generation waiterId =>
    obtain ⟨load,move,waiters,number,identity,fresh,counter,answer⟩ := getStartedLoads effect
    simp only [Service.begin,Service.register,Service.submit,answered _ answer] at ok
    subst ok
    refine .started (r := ⟨spec,generation,waiterId⟩) move waiters number identity
      (enqueuedPending s.reader ⟨spec,generation⟩) ⟨?_,?_,rfl,rfl,rfl,rfl,rfl,rfl⟩
    · simp only; omega
    · exact counter.trans fresh.symm

theorem prefetchHappens {ambient : Ambient} {spec : PageSpec} (accepted : Accepted config)
    (good : Good config s.inner.state s.leases) (ok : s.step config readers (.prefetch ambient spec) = some s') :
    Happens s s' := by
  rcases done : prefetch config ambient spec (s.reader.answer readers) s.inner with ⟨inner,result⟩
  have effect := prefetchEffect accepted good.sound.bounded good.ledgered (goodFits accepted good) done
  simp only [Service.step,done,Option.some.injEq] at ok
  split at ok
  · rename_i started
    subst started
    obtain ⟨load,move,alone,number,identity,waiter,answer⟩ := prefetchStartedLoads effect
    simp only [Service.submit,answered _ answer] at ok
    subst ok
    have pending := enqueuedPending s.reader ⟨spec,inner.state.generation⟩
    exact @Happens.fetched s _ ⟨spec,inner.state.generation⟩ load move alone number identity pending waiter rfl rfl
      ⟨rfl,rfl,rfl,rfl⟩
  · rename_i idle
    subst ok
    obtain ⟨loads,waiter⟩ := prefetchIdleLoads effect idle
    exact .still loads waiter (.refl _) rfl le_rfl ⟨rfl,rfl,rfl,rfl⟩

theorem completeHappens {request : Request} {result : Except StoreError VerifiedPage} {stats : ReadStats}
    (accepted : Accepted config) (good : Good config s.inner.state s.leases)
    (matched : Matched s.entries s.reader.pending)
    (ok : s.step config readers (.complete request result stats) = some s') : Happens s s' := by
  simp only [Service.step,Option.map_eq_some_iff] at ok
  obtain ⟨reader,finish,rfl⟩ := ok
  have pending := finishedPending finish
  obtain ⟨load,found,number,-⟩ := matched.loading request (pending.mem_iff.mpr List.mem_cons_self)
  rcases done : finishObservedLoad s.inner request.spec.key request.generation result stats with ⟨inner,deliveries⟩
  have effect := observedEffect good.ledgered (goodFits accepted good) done
  obtain ⟨move,told,-,waiter⟩ := completeLoads effect found number
  exact .finished move told pending ⟨rfl,waiter.ge,rfl,rfl,rfl,rfl,rfl⟩

theorem pollHappens {call elapsed : Nat} (ok : s.step config readers (.poll call elapsed) = some s') :
    Happens s s' := by
  simp only [Service.step] at ok
  split at ok
  · rename_i r waiting
    unfold Service.poll at ok
    split at ok
    · rename_i d found
      cases Option.some.inj ok
      have same : d.completion = call := by simpa using List.find?_some found
      subst same
      exact .received ⟨rfl,rfl,rfl,rfl⟩ rfl rfl waiting (List.mem_of_find?_eq_some found) rfl rfl rfl
    · rename_i none
      split at ok
      · contradiction
      · rename_i dead
        exact .closed waiting (by simpa using none) dead
  · contradiction

theorem stepHappens {event : Event} (accepted : Accepted config) (good : Good config s.inner.state s.leases)
    (matched : Matched s.entries s.reader.pending) (ok : s.step config readers event = some s') :
    Happens s s' := by
  have fits := goodFits accepted good
  have quiet {allowed : Move → Prop} {inner : CacheInner} {leases : List PageLease}
      (refines : Refines config allowed s.inner.state s.leases inner.state leases)
      (inert : ∀ move, allowed move → move.inert) :
      SameLoads s.entries inner.state.entries ∧ s.inner.state.waiter ≤ inner.state.waiter :=
    ⟨turnsInert refines.turns inert,turnsWaiter refines.turns⟩
  cases event with
  | get => exact getHappens accepted good ok
  | finishHit row =>
    simp only [Service.step] at ok
    split at ok
    · cases Option.some.inj ok
      obtain ⟨loads,waiter⟩ := quiet (useRefines good) (fun _ used => by subst used; trivial)
      exact .still loads waiter (.refl _) rfl le_rfl ⟨rfl,rfl,rfl,rfl⟩
    · contradiction
  | prefetch => exact prefetchHappens accepted good ok
  | dequeue =>
    simp only [Service.step,Option.map_eq_some_iff] at ok
    obtain ⟨reader,taken,rfl⟩ := ok
    exact .still (sameRefl _) le_rfl (dequeuedPending taken) rfl le_rfl ⟨rfl,rfl,rfl,rfl⟩
  | complete => exact completeHappens accepted good matched ok
  | completeForeign =>
    simp only [Service.step,Option.map_eq_some_iff] at ok
    obtain ⟨reader,finish,rfl⟩ := ok
    exact .still (sameRefl _) le_rfl (discardedPending finish).symm rfl le_rfl ⟨rfl,rfl,rfl,rfl⟩
  | send d =>
    simp only [Service.step] at ok
    split at ok
    · rename_i member
      split at ok
      · rename_i listening
        cases Option.some.inj ok
        exact .sent ⟨rfl,rfl,rfl,rfl⟩ rfl rfl rfl member listening rfl rfl
      · rename_i deaf
        cases Option.some.inj ok
        exact .bounced ⟨rfl,rfl,rfl,rfl⟩ rfl rfl rfl member (by simpa using deaf) rfl rfl
    · contradiction
  | poll => exact pollHappens ok
  | withdraw call error elapsed =>
    simp only [Service.step] at ok
    split at ok
    · rename_i r waiting
      cases Option.some.inj ok
      have effect := withdrawEffect r.spec.key r.generation r.waiterId good.ledgered fits
      obtain ⟨waiter,-⟩ := withdrawLoads effect
      exact .withdrew waiting ⟨⟨rfl,rfl,waiter,rfl⟩,effect,rfl,rfl,rfl⟩ rfl
    · contradiction
  | leave call =>
    simp only [Service.step] at ok
    split at ok
    · rename_i r error withdrawn
      cases Option.some.inj ok
      exact .left withdrawn ⟨⟨rfl,rfl,rfl,rfl⟩,rfl,rfl,rfl,rfl⟩ rfl
    · contradiction
  | abandon call =>
    simp only [Service.step] at ok
    split at ok
    · rename_i r waiting
      cases Option.some.inj ok
      exact .abandoned waiting ⟨⟨rfl,rfl,rfl,rfl⟩,rfl,rfl,rfl,rfl⟩ rfl
    · contradiction
  | unregister call =>
    simp only [Service.step] at ok
    split at ok
    · rename_i r closed
      cases Option.some.inj ok
      have effect := withdrawEffect r.spec.key r.generation r.waiterId good.ledgered fits
      obtain ⟨waiter,-⟩ := withdrawLoads effect
      exact .unregistered closed ⟨⟨rfl,rfl,waiter,rfl⟩,effect,rfl,rfl,rfl⟩ rfl
    · contradiction
  | dropLease lease | dropOrphan lease =>
    simp only [Service.step] at ok
    split at ok
    · rename_i member
      cases Option.some.inj ok
      have alive : lease ∈ s.leases := by simp [Service.leases,member]
      obtain ⟨loads,waiter⟩ := quiet (releaseRefines accepted good alive) (fun _ same => by subst same; trivial)
      exact .still loads waiter (.refl _) rfl le_rfl ⟨rfl,rfl,rfl,rfl⟩
    · contradiction
  | invalidate key =>
    cases Option.some.inj ok
    obtain ⟨loads,waiter⟩ := quiet (@invalidateRefines _ _ key _ accepted good)
      (fun move may => by cases move <;> trivial)
    exact .still loads waiter (.refl _) rfl le_rfl ⟨rfl,rfl,rfl,rfl⟩
  | shutdown =>
    cases Option.some.inj ok
    obtain ⟨loads,counts⟩ := shutdownLoads accepted good
    have waiter : s.inner.state.waiter ≤ (shutdown s.inner).1.state.waiter :=
      turnsWaiter (shutdownRefines accepted good).turns
    exact .stopped loads (fun call => (counts call).1) (fun call => (counts call).2) rfl
      ⟨rfl,waiter,rfl,rfl,rfl,rfl,rfl⟩
  | closeReader =>
    cases Option.some.inj ok
    exact .still (sameRefl _) le_rfl (.refl _) rfl le_rfl ⟨rfl,rfl,rfl,rfl⟩
  | submitForeign =>
    simp only [Service.step] at ok
    split at ok
    · rename_i reader submitted
      cases Option.some.inj ok
      exact .still (sameRefl _) le_rfl (by rw [foreignPending submitted]) rfl le_rfl ⟨rfl,rfl,rfl,rfl⟩
    · contradiction

end Inversion

end RunnelMoe.PageCache
