import RunnelMoe.AsyncReads
import RunnelMoe.CacheLoads

/-! The cache among its callers and the reader. A get call that has to wait leaves a
waiter behind and listens on a channel; a worker that completes a load, or a shutdown,
takes the answers out under the lock and sends them afterwards. A message is therefore
with a waiter, in the outbox or in a channel, and each event moves one of them. A lease
is with its caller, in a message, or on its way to be dropped. -/
namespace RunnelMoe.PageCache
open StoreErrors Words PageSpecs CacheLimits KeyedSum Runs AsyncReads
open Std (ExtTreeMap)

structure WaiterRegistration where
  spec : PageSpec
  generation : Nat
  waiterId : Nat
  deriving DecidableEq, Repr

-- A get call that has registered a waiter. A withdrawn call still has its receiver, an
-- abandoned one has dropped it and not yet withdrawn.
inductive Call where
  | waiting (registration : WaiterRegistration)
  | withdrawn (registration : WaiterRegistration) (error : StoreError)
  | abandoned (registration : WaiterRegistration)
  deriving DecidableEq, Repr

def Call.registration : Call → WaiterRegistration
  | .waiting r | .withdrawn r _ | .abandoned r => r

def Call.armed : Call → Bool
  | .waiting _ | .abandoned _ => true
  | .withdrawn _ _ => false

def Call.listening : Call → Bool
  | .waiting _ | .withdrawn _ _ => true
  | .abandoned _ => false

inductive Answer where
  | refused (error : StoreError)
  | hit (lease : PageLease)
  | received (result : Except StoreError PageLease)
  | withdrew (error : StoreError)
  | closed
  deriving DecidableEq, Repr

def Answer.result : Answer → Except StoreError PageLease
  | .refused error | .withdrew error => .error error
  | .hit lease => .ok lease
  | .received result => result
  | .closed => .error (.invariant "cache load dropped a waiter completion")

inductive Resolution where
  | lease
  | error
  | withdrawal
  deriving DecidableEq, Repr

def Delivery.resolution (d : Delivery) : Nat × Resolution :=
  (d.completion,match d.result with | .ok _ => .lease | .error _ => .error)

/- The last three fields are the history: calls that registered a waiter, waiters that
were resolved, and calls that returned. -/
structure Service where
  inner : CacheInner
  reader : AsyncReader
  nextCall : Nat
  calls : ExtTreeMap Nat Call
  hits : List (Nat × PageSpec × PageLease)
  outbox : List Delivery
  channels : List Delivery
  held : List PageLease
  orphans : List PageLease
  registered : List Nat
  resolved : List (Nat × Resolution)
  returned : List (Nat × PageSpec × Answer)

def Service.empty : Service := ⟨.empty,.empty,0,∅,[],[],[],[],[],[],[],[]⟩

def Service.entries (s : Service) : ExtTreeMap PageKey Entry := s.inner.state.entries

def Service.leases (s : Service) : List PageLease :=
  s.hits.map (fun row => row.2.2) ++ (Delivery.leases s.outbox ++ (Delivery.leases s.channels ++ (s.held ++ s.orphans)))

inductive Event where
  | get (ambient : Ambient) (spec : PageSpec)
  | finishHit (row : Nat × PageSpec × PageLease)
  | prefetch (ambient : Ambient) (spec : PageSpec)
  | dequeue
  | complete (request : Request) (result : Except StoreError VerifiedPage) (stats : ReadStats)
  | completeForeign
  | send (delivery : Delivery)
  | poll (call elapsed : Nat)
  | withdraw (call : Nat) (error : StoreError) (elapsed : Nat)
  | leave (call : Nat)
  | abandon (call : Nat)
  | unregister (call : Nat)
  | dropLease (lease : PageLease)
  | dropOrphan (lease : PageLease)
  | invalidate (key : PageKey)
  | shutdown
  | closeReader
  | submitForeign

def Service.submit (config : AsyncReaderConfig) (s : Service) (request : Request) : Service :=
  match s.reader.submit config (some request) with
  | .ok reader => {s with reader := reader}
  | .error _ => s

def Service.register (s : Service) (call : Nat) (registration : WaiterRegistration) : Service :=
  {s with calls := s.calls.insert call (.waiting registration), registered := call :: s.registered}

def Service.answer (s : Service) (call : Nat) (spec : PageSpec) (answer : Answer) : Service :=
  {s with returned := (call,spec,answer) :: s.returned}

def Service.begin (config : AsyncReaderConfig) (s : Service) (call : Nat) (spec : PageSpec) : GetReply → Service
  | .lease lease => {s with hits := (call,spec,lease) :: s.hits}
  | .joined generation waiterId => s.register call ⟨spec,generation,waiterId⟩
  | .started generation waiterId => (s.register call ⟨spec,generation,waiterId⟩).submit config ⟨spec,generation⟩
  | .failed error => s.answer call spec (.refused error)

def Service.tell (s : Service) (inner : CacheInner) (deliveries : List Delivery) : Service :=
  {s with
    inner := inner, outbox := s.outbox ++ deliveries,
    resolved := deliveries.map Delivery.resolution ++ s.resolved}

def Service.hangUp (s : Service) (call : Nat) : Service :=
  {s with
    channels := s.channels.filter (fun d => d.completion ≠ call),
    orphans := Delivery.leases (s.channels.filter (fun d => d.completion = call)) ++ s.orphans}

def withdraws (entries : ExtTreeMap PageKey Entry) (r : WaiterRegistration) : Bool :=
  match loadAt entries r.spec.key with
  | none => false
  | some load => load.generation = r.generation ∧ load.waiters.any (fun w => w.id = r.waiterId)

def Service.withdraw (s : Service) (call : Nat) (r : WaiterRegistration) : Service :=
  {s with
    inner := withdrawWaiter s.inner r.spec.key r.generation r.waiterId,
    resolved := if withdraws s.entries r then (call,.withdrawal) :: s.resolved else s.resolved}

def Service.senderAlive (s : Service) (call : Nat) : Prop :=
  0 < attachments s.entries call ∨ ∃ d ∈ s.outbox, d.completion = call
instance (s : Service) (call : Nat) : Decidable (s.senderAlive call) := by
  unfold Service.senderAlive; infer_instance

def Service.poll (s : Service) (call : Nat) (r : WaiterRegistration) (elapsed : Nat) : Option Service :=
  match s.channels.find? (fun d => d.completion = call) with
  | some d =>
    some (({s with
      inner := s.inner.meter (Metrics.addWaitNanoseconds · elapsed),
      calls := s.calls.erase call, channels := s.channels.erase d,
      held := Delivery.leases [d] ++ s.held}).answer call r.spec (.received d.result))
  | none =>
    if s.senderAlive call then none
    else some (({s with calls := s.calls.erase call}).answer call r.spec .closed)

def Service.step (config : CacheConfig) (readers : AsyncReaderConfig) (s : Service) : Event → Option Service
  | .get ambient spec =>
      let (inner,reply) := get config ambient spec s.nextCall (s.reader.answer readers) s.inner
      some (({s with inner := inner, nextCall := s.nextCall + 1}).begin readers s.nextCall spec reply)
  | .finishHit row =>
      if row ∈ s.hits then
        some (({s with
          inner := markPrefetchUse s.inner row.2.1.key row.2.2.generation, hits := s.hits.erase row,
          held := row.2.2 :: s.held}).answer row.1 row.2.1 (.hit row.2.2))
      else none
  | .prefetch ambient spec =>
      let (inner,result) := prefetch config ambient spec (s.reader.answer readers) s.inner
      let s := {s with inner := inner}
      some (if result = .ok .started then s.submit readers ⟨spec,inner.state.generation⟩ else s)
  | .dequeue => (s.reader.dequeue readers).map (fun reader => {s with reader := reader})
  | .complete request result stats =>
      (s.reader.finish (some request)).map (fun reader =>
        let (inner,deliveries) := finishObservedLoad s.inner request.spec.key request.generation result stats
        ({s with reader := reader}).tell inner deliveries)
  | .completeForeign => (s.reader.finish none).map (fun reader => {s with reader := reader})
  | .send d =>
      if d ∈ s.outbox then
        let rest := s.outbox.erase d
        if (s.calls[d.completion]?.any Call.listening) then
          some {s with outbox := rest, channels := s.channels ++ [d]}
        else some {s with outbox := rest, orphans := Delivery.leases [d] ++ s.orphans}
      else none
  | .poll call elapsed => match s.calls[call]? with
      | some (.waiting r) => s.poll call r elapsed
      | _ => none
  | .withdraw call error elapsed => match s.calls[call]? with
      | some (.waiting r) =>
        let s := s.withdraw call r
        some {s with
          inner := s.inner.meter (Metrics.addWaitNanoseconds · elapsed),
          calls := s.calls.insert call (.withdrawn r error)}
      | _ => none
  | .leave call => match s.calls[call]? with
      | some (.withdrawn r error) =>
        let s := s.hangUp call
        some (({s with calls := s.calls.erase call}).answer call r.spec (.withdrew error))
      | _ => none
  | .abandon call => match s.calls[call]? with
      | some (.waiting r) =>
        let s := s.hangUp call
        some {s with calls := s.calls.insert call (.abandoned r)}
      | _ => none
  | .unregister call => match s.calls[call]? with
      | some (.abandoned r) =>
        let s := s.withdraw call r
        some {s with calls := s.calls.erase call}
      | _ => none
  | .dropLease lease =>
      if lease ∈ s.held then
        some {s with inner := releaseLease s.inner lease.key lease.generation, held := s.held.erase lease}
      else none
  | .dropOrphan lease =>
      if lease ∈ s.orphans then
        some {s with inner := releaseLease s.inner lease.key lease.generation, orphans := s.orphans.erase lease}
      else none
  | .invalidate key => some {s with inner := (invalidate s.inner key).1}
  | .shutdown =>
      let (inner,deliveries) := shutdown s.inner
      some (s.tell inner deliveries)
  | .closeReader => some {s with reader := s.reader.close}
  | .submitForeign => match s.reader.submit readers none with
      | .ok reader => some {s with reader := reader}
      | .error _ => none

/-! Leases change hands and are never copied -/

theorem shutdownLeases (inner : CacheInner) : Delivery.leases (shutdown inner).2 = [] := by
  unfold shutdown
  split
  · rfl
  · simp [Delivery.leases,List.filterMap_map]

theorem goodPerm {config : CacheConfig} {s : CacheState} {leases leases' : List PageLease}
    (good : Good config s leases) (perm : leases'.Perm leases) : Good config s leases' := by
  obtain ⟨ledgered,bounded,counted,backed,alive,occupied,numbered,quiet,identified⟩ := good
  refine ⟨ledgered,bounded,?_,?_,?_,occupied,⟨numbered.below,numbered.distinct⟩,quiet,identified⟩
  · intro key e present
    exact (counted key e present).trans (perm.countP_eq _).symm
  · intro lease member
    exact backed lease (perm.mem_iff.mp member)
  · exact Eq.trans alive perm.length_eq.symm

theorem deliveryLeasesAppend (a b : List Delivery) :
    Delivery.leases (a ++ b) = Delivery.leases a ++ Delivery.leases b := List.filterMap_append

theorem deliveryLeasesErase {box : List Delivery} {d : Delivery} (member : d ∈ box) :
    (Delivery.leases box).Perm (Delivery.leases [d] ++ Delivery.leases (box.erase d)) := by
  rw [← deliveryLeasesAppend]
  exact (List.perm_cons_erase member).filterMap _

theorem deliveryLeasesSplit (box : List Delivery) (call : Nat) :
    (Delivery.leases box).Perm (Delivery.leases (box.filter (fun d => d.completion ≠ call)) ++
      Delivery.leases (box.filter (fun d => d.completion = call))) := by
  rw [← deliveryLeasesAppend]
  refine List.Perm.filterMap _ ?_
  have split := (List.filter_append_perm (fun d : Delivery => decide (d.completion ≠ call)) box).symm
  simpa using split

section Leases
variable {config : CacheConfig} {readers : AsyncReaderConfig} {s next : Service}

theorem submitLeases (s : Service) (readers : AsyncReaderConfig) (request : Request) :
    (s.submit readers request).inner = s.inner ∧ (s.submit readers request).leases = s.leases := by
  unfold Service.submit
  split <;> exact ⟨rfl,rfl⟩

theorem beginLeases (s : Service) (readers : AsyncReaderConfig) (call : Nat) (spec : PageSpec) (reply : GetReply) :
    (s.begin readers call spec reply).inner = s.inner ∧
      (s.begin readers call spec reply).leases = reply.leases ++ s.leases := by
  cases reply with
  | lease | joined | failed => exact ⟨rfl,rfl⟩
  | started generation waiterId =>
    exact submitLeases (s.register call ⟨spec,generation,waiterId⟩) readers ⟨spec,generation⟩

theorem tellLeases (s : Service) (inner : CacheInner) (deliveries : List Delivery) :
    (s.tell inner deliveries).leases.Perm (Delivery.leases deliveries ++ s.leases) := by
  refine List.perm_iff_count.mpr fun lease => ?_
  simp only [Service.leases,Service.tell,deliveryLeasesAppend,List.count_append]
  omega

theorem hangUpLeases (s : Service) (call : Nat) : (s.hangUp call).leases.Perm s.leases := by
  refine List.perm_iff_count.mpr fun lease => ?_
  have split := (deliveryLeasesSplit s.channels call).count_eq lease
  simp only [Service.leases,Service.hangUp,List.count_append] at split ⊢
  omega

theorem pollLeases {call elapsed : Nat} {r : WaiterRegistration} (ok : s.poll call r elapsed = some next) :
    next.inner.state = s.inner.state ∧ next.leases.Perm s.leases := by
  unfold Service.poll at ok
  split at ok
  · rename_i d found
    cases Option.some.inj ok
    refine ⟨rfl,List.perm_iff_count.mpr fun lease => ?_⟩
    have split := (deliveryLeasesErase (List.mem_of_find?_eq_some found)).count_eq lease
    simp only [Service.leases,Service.answer,List.count_append] at split ⊢
    omega
  · split at ok
    · contradiction
    · cases Option.some.inj ok
      exact ⟨rfl,.refl _⟩

theorem sendLeases {d : Delivery} (ok : s.step config readers (.send d) = some next) :
    next.inner = s.inner ∧ next.leases.Perm s.leases := by
  simp only [Service.step] at ok
  split at ok
  · rename_i member
    have split := deliveryLeasesErase member
    split at ok <;> cases Option.some.inj ok <;> refine ⟨rfl,List.perm_iff_count.mpr fun lease => ?_⟩
    · have counts := split.count_eq lease
      simp only [Service.leases,deliveryLeasesAppend,List.count_append] at counts ⊢
      omega
    · have counts := split.count_eq lease
      simp only [Service.leases,List.count_append] at counts ⊢
      omega
  · contradiction

theorem dropLeases {lease : PageLease} {inner : CacheInner} (accepted : Accepted config)
    (good : Good config s.inner.state s.leases) (alive : lease ∈ s.leases)
    (released : inner = releaseLease s.inner lease.key lease.generation)
    (rest : s.leases.Perm (lease :: next.leases)) : Good config inner.state next.leases := by
  have after := refinesGood (releaseRefines accepted good alive) good
  rw [released]
  exact goodPerm after ((List.perm_cons lease).mp (rest.symm.trans (List.perm_cons_erase alive)))

theorem serviceGood {event : Event} (accepted : Accepted config) (good : Good config s.inner.state s.leases)
    (ok : s.step config readers event = some next) : Good config next.inner.state next.leases := by
  have fits := goodFits accepted good
  cases event with
  | get ambient spec =>
    rcases done : get config ambient spec s.nextCall (s.reader.answer readers) s.inner with ⟨inner,reply⟩
    simp only [Service.step,done,Option.some.injEq] at ok
    have after := refinesGood (getRefines good (getEffect accepted good.ledgered fits done)) good
    obtain ⟨same,leases⟩ := beginLeases {s with inner := inner, nextCall := s.nextCall + 1} readers s.nextCall spec reply
    rw [← ok,same,leases]
    exact after
  | finishHit row =>
    simp only [Service.step] at ok
    split at ok
    · rename_i member
      cases Option.some.inj ok
      refine goodPerm (refinesGood (useRefines good) good) (List.perm_iff_count.mpr fun lease => ?_)
      have split := ((List.perm_cons_erase member).map (fun row => row.2.2)).count_eq lease
      simp only [Service.leases,Service.answer,List.count_append,List.map_cons,List.count_cons] at split ⊢
      omega
    · contradiction
  | prefetch ambient spec =>
    rcases done : prefetch config ambient spec (s.reader.answer readers) s.inner with ⟨inner,result⟩
    simp only [Service.step,done,Option.some.injEq] at ok
    have effect := prefetchEffect accepted good.sound.bounded good.ledgered fits done
    have after := refinesGood (prefetchRefines good effect) good
    subst ok
    split
    · obtain ⟨same,leases⟩ := submitLeases {s with inner := inner} readers ⟨spec,inner.state.generation⟩
      rw [same,leases]
      exact after
    · exact after
  | dequeue | completeForeign =>
    simp only [Service.step,Option.map_eq_some_iff] at ok
    obtain ⟨reader,-,rfl⟩ := ok
    exact good
  | complete request result stats =>
    simp only [Service.step,Option.map_eq_some_iff] at ok
    obtain ⟨reader,-,rfl⟩ := ok
    rcases done : finishObservedLoad s.inner request.spec.key request.generation result stats with ⟨inner,deliveries⟩
    have after := refinesGood (completeRefines good (observedEffect good.ledgered fits done)) good
    exact goodPerm after (tellLeases {s with reader := reader} inner deliveries)
  | send d =>
    obtain ⟨same,perm⟩ := sendLeases ok
    rw [same]
    exact goodPerm good perm
  | poll call elapsed =>
    simp only [Service.step] at ok
    split at ok
    · obtain ⟨same,perm⟩ := pollLeases ok
      rw [same]
      exact goodPerm good perm
    · contradiction
  | withdraw | unregister =>
    simp only [Service.step] at ok
    split at ok
    · cases Option.some.inj ok
      exact refinesGood (withdrawRefines good (withdrawEffect _ _ _ good.ledgered fits)) good
    · contradiction
  | leave call | abandon call =>
    simp only [Service.step] at ok
    split at ok
    · cases Option.some.inj ok
      exact goodPerm good (hangUpLeases s call)
    · contradiction
  | dropLease lease | dropOrphan lease =>
    simp only [Service.step] at ok
    split at ok
    · rename_i member
      cases Option.some.inj ok
      refine dropLeases accepted good (by simp [Service.leases,member]) rfl (List.perm_iff_count.mpr fun other => ?_)
      have split := (List.perm_cons_erase member).count_eq other
      simp only [Service.leases,List.count_append,List.count_cons] at split ⊢
      omega
    · contradiction
  | invalidate key =>
    cases Option.some.inj ok
    exact refinesGood (invalidateRefines accepted good) good
  | shutdown =>
    cases Option.some.inj ok
    have after := refinesGood (shutdownRefines accepted good) good
    have leases := tellLeases s (shutdown s.inner).1 (shutdown s.inner).2
    rw [shutdownLeases,List.nil_append] at leases
    exact goodPerm after leases
  | closeReader =>
    cases Option.some.inj ok
    exact good
  | submitForeign =>
    simp only [Service.step] at ok
    split at ok
    · cases Option.some.inj ok
      exact good
    · contradiction

end Leases

end RunnelMoe.PageCache
