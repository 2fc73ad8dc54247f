import RunnelMoe.CacheSettled

/-! The bytes behind a lease. A completion compares key, length and allocation of the
page with the reservation, never the fingerprint; what ties a page to the spec of a
caller is that a generation belongs to one request, and that joins and hits compare
fingerprints. The digest is a parameter, and a reader is honest when a page it returns
has the key, the length and the digest of the spec it was asked for. -/
namespace RunnelMoe.PageCache
open StoreErrors Words PageSpecs CacheLimits KeyedSum Runs AsyncReads
open Std (ExtTreeMap)

section Verified
variable (sha : List UInt8 → Digest)

structure Matches (length : Nat) (fingerprint : Digest) (page : VerifiedPage) : Prop where
  length : page.bytes.length = length
  digest : sha page.bytes = fingerprint

def Event.honest : Event → Prop
  | .complete request (.ok page) _ =>
      page.key = request.spec.key ∧ Matches sha request.spec.length request.spec.fingerprint page
  | _ => True

def EntriesVerified (entries : ExtTreeMap PageKey Entry) : Prop :=
  Every entries (fun _ (e : Entry) => ∀ page, e.holds page → Matches sha e.length e.fingerprint page)

def Addressed (s : Service) : Prop :=
  ∀ d ∈ s.outbox ++ s.channels, ∀ lease, d.result = .ok lease → ∀ call, s.calls[d.completion]? = some call →
    Matches sha call.registration.spec.length call.registration.spec.fingerprint lease.page

def Answered (row : Nat × PageSpec × Answer) : Prop :=
  ∀ lease, row.2.2.result = .ok lease → Matches sha row.2.1.length row.2.1.fingerprint lease.page

structure AllVerified (s : Service) : Prop where
  entries : EntriesVerified sha s.entries
  hits : ∀ row ∈ s.hits, Matches sha row.2.1.length row.2.1.fingerprint row.2.2.page
  mail : Addressed sha s
  returned : ∀ row ∈ s.returned, Answered sha row

end Verified

section Pages
variable {sha : List UInt8 → Digest} {config : CacheConfig} {entries : ExtTreeMap PageKey Entry} {key : PageKey} {e e' : Entry}

theorem verifiedReplaced (verified : EntriesVerified sha entries) (present : entries[key]? = some e)
    (length : e'.length = e.length) (fingerprint : e'.fingerprint = e.fingerprint)
    (holds : ∀ page, e'.holds page → e.holds page) : EntriesVerified sha (entries.insert key e') := by
  refine everyInsert verified fun page held => ?_
  rw [length,fingerprint]
  exact verified key e present page (holds page held)

theorem verifiedLoading (verified : EntriesVerified sha entries) {l : LoadingEntry} (state : e.state = .loading l)
    (key : PageKey) : EntriesVerified sha (entries.insert key e) := by
  refine everyInsert verified fun page held => ?_
  simp only [Entry.holds,state] at held

theorem turnVerified {move : Move} {p q : Pages} (turn : Turn config move p q)
    (other : ∀ key generation, move ≠ .publish key generation) (verified : EntriesVerified sha p.entries) :
    EntriesVerified sha q.entries := by
  cases turn with
  | count | stop => exact verified
  | evict | fail | releaseLast => exact everyErase verified
  | join | interest | withdraw | cancel | drain => exact verifiedLoading verified rfl _
  | start _ _ state => exact verifiedLoading verified state _
  | hit _ present state | useResident present state | releaseResident _ present _ state | retire present state =>
    exact verifiedReplaced verified present rfl rfl (fun page held => by simpa only [Entry.holds,state] using held)
  | useRetiring present state | releaseRetiring _ present _ state =>
    exact verifiedReplaced verified present rfl rfl (fun page held => by simpa only [Entry.holds,state] using held)
  | publish => exact absurd rfl (other _ _)

theorem refinesVerified {allowed : Move → Prop} {s s' : CacheState} {leases leases' : List PageLease}
    (refines : Refines config allowed s leases s' leases')
    (other : ∀ move, allowed move → ∀ key generation, move ≠ .publish key generation)
    (verified : EntriesVerified sha s.entries) : EntriesVerified sha s'.entries :=
  turnsInvariant (fun p => EntriesVerified sha p.entries)
    (fun move _ _ may turn kept => turnVerified turn (other move may) kept) refines.turns verified

end Pages

section Service
variable {sha : List UInt8 → Digest} {config : CacheConfig} {readers : AsyncReaderConfig} {s s' : Service}

def SameSpecs (s s' : Service) : Prop :=
  ∀ (c : Nat) (call : Call), s'.calls[c]? = some call →
    ∃ old, s.calls[c]? = some old ∧ old.registration = call.registration

theorem specsErased {call : Nat} (calls : s'.calls = s.calls.erase call) : SameSpecs s s' := by
  intro c later found
  rw [calls,getErase] at found
  split at found
  · contradiction
  · exact ⟨later,found,rfl⟩

theorem specsReplaced {call : Nat} {old new : Call} (known : s.calls[call]? = some old)
    (calls : s'.calls = s.calls.insert call new) (same : old.registration = new.registration) : SameSpecs s s' := by
  intro c later found
  rw [calls,getInsert] at found
  split at found
  · rename_i here
    cases Option.some.inj found
    exact ⟨old,by rw [here]; exact known,same⟩
  · exact ⟨later,found,rfl⟩

theorem specsSame (calls : s'.calls = s.calls) : SameSpecs s s' := by
  intro c later found
  exact ⟨later,by rw [← calls]; exact found,rfl⟩

theorem addressedKept (addressed : Addressed sha s) (specs : SameSpecs s s')
    (mail : ∀ d ∈ s'.outbox ++ s'.channels, d ∈ s.outbox ++ s.channels) : Addressed sha s' := by
  intro d member lease told call known
  obtain ⟨old,found,same⟩ := specs d.completion call known
  rw [← same]
  exact addressed d (mail d member) lease told old found

theorem verifiedKept (verified : AllVerified sha s) (entries : EntriesVerified sha s'.entries) (specs : SameSpecs s s')
    (hits : s'.hits = s.hits) (mail : ∀ d ∈ s'.outbox ++ s'.channels, d ∈ s.outbox ++ s.channels)
    (returned : s'.returned = s.returned) : AllVerified sha s' := by
  refine ⟨entries,?_,addressedKept verified.mail specs mail,?_⟩
  · rw [hits]
    exact verified.hits
  · rw [returned]
    exact verified.returned

theorem verifiedAnswer (verified : AllVerified sha s) (call : Nat) (spec : PageSpec) (answer : Answer)
    (genuine : Answered sha (call,spec,answer)) : AllVerified sha (s.answer call spec answer) := by
  refine ⟨verified.entries,verified.hits,verified.mail,?_⟩
  intro row member
  rcases List.mem_cons.mp member with rfl | old
  · exact genuine
  · exact verified.returned row old

theorem unleased {call : Nat} {spec : PageSpec} {answer : Answer} {error : StoreError}
    (failed : answer.result = .error error) : Answered sha (call,spec,answer) := by
  intro lease leased
  cases failed.symm.trans leased

theorem verifiedSubmit (verified : AllVerified sha s) (request : Request) :
    AllVerified sha (s.submit readers request) := by
  unfold Service.submit
  split
  · exact verifiedKept verified verified.entries (specsSame rfl) rfl (fun _ member => member) rfl
  · exact verified

theorem verifiedRegister (verified : AllVerified sha s) (booked : Booked s s.nextCall) (inner : CacheInner)
    (entries : EntriesVerified sha inner.state.entries) (next : Nat) (r : WaiterRegistration) :
    AllVerified sha (({s with inner := inner, nextCall := next}).register s.nextCall r) := by
  refine ⟨entries,verified.hits,?_,verified.returned⟩
  intro d member lease told call known
  simp only [Service.register] at known member
  rw [getInsert] at known
  split at known
  · rename_i here
    have unborn := booked.unborn le_rfl
    have balance := booked.balance
    have mail := booked.mail
    have some_ : 0 < s.carried s.nextCall + s.arrived s.nextCall := by
      rcases List.mem_append.mp member with out | channel
      · exact Nat.add_pos_left (List.count_pos_iff.mpr (List.mem_map.mpr ⟨d,out,here⟩)) _
      · exact Nat.add_pos_right _ (List.count_pos_iff.mpr (List.mem_map.mpr ⟨d,channel,here⟩))
    omega
  · exact verified.mail d member lease told call known

theorem verifiedGet {ambient : Ambient} {spec : PageSpec} (accepted : Accepted config) (served : Served config s)
    (verified : AllVerified sha s) (ok : s.step config readers (.get ambient spec) = some s') :
    AllVerified sha s' := by
  rcases done : get config ambient spec s.nextCall (s.reader.answer readers) s.inner with ⟨inner,reply⟩
  have effect := getEffect accepted served.good.ledgered (goodFits accepted served.good) done
  have entries : EntriesVerified sha inner.state.entries :=
    refinesVerified (getRefines served.good effect) (fun move may key generation same => by subst same; exact may)
      verified.entries
  have booked := served.wired.booked s.nextCall
  simp only [Service.step,done,Option.some.injEq] at ok
  subst ok
  cases reply with
  | failed error =>
    have after : AllVerified sha {s with inner := inner, nextCall := s.nextCall + 1} :=
      ⟨entries,verified.hits,verified.mail,verified.returned⟩
    exact verifiedAnswer after s.nextCall spec (.refused error) (unleased rfl)
  | joined generation waiterId => exact verifiedRegister verified booked inner entries _ _
  | started generation waiterId =>
    exact verifiedSubmit (verifiedRegister verified booked inner entries (s.nextCall + 1) ⟨spec,generation,waiterId⟩) _
  | lease lease =>
    refine ⟨entries,?_,verified.mail,verified.returned⟩
    intro row member
    rcases List.mem_cons.mp member with rfl | old
    · cases effect with
      | @hit e r _ present identity state =>
        have genuine := verified.entries spec.key e present r.page (by simp only [Entry.holds,state])
        rw [← identity.1,← identity.2.1]
        exact genuine
    · exact verified.hits row old

theorem verifiedComplete {request : Request} {result : Except StoreError VerifiedPage} {stats : ReadStats}
    (accepted : Accepted config) (served : Served config s) (verified : AllVerified sha s)
    (honest : Event.honest sha (.complete request result stats))
    (ok : s.step config readers (.complete request result stats) = some s') : AllVerified sha s' := by
  simp only [Service.step,Option.map_eq_some_iff] at ok
  obtain ⟨reader,finish,rfl⟩ := ok
  have pending := finishedPending finish
  obtain ⟨load,found,number,identity⟩ :=
    served.wired.matched.loading request (pending.mem_iff.mpr List.mem_cons_self)
  rcases done : finishObservedLoad s.inner request.spec.key request.generation result stats with ⟨inner,deliveries⟩
  have effect := observedEffect served.good.ledgered (goodFits accepted served.good) done
  obtain ⟨-,told,genuine,-⟩ := completeLoads effect found number
  have digest (page : VerifiedPage) (answer : result = .ok page) : Matches sha load.length load.fingerprint page := by
    subst answer
    rw [identity.1,identity.2.1]
    exact honest.2
  refine ⟨?_,verified.hits,?_,verified.returned⟩
  · show EntriesVerified sha inner.state.entries
    cases effect with
    | stale same => rw [same]; exact verified.entries
    | failed _ _ _ entries => rw [entries]; exact everyErase verified.entries
    | @published e l page _ present _ state _ answer _ entries =>
      rw [entries]
      have same := found.symm.trans ((loadPresent present).trans (loadLoading state))
      cases Option.some.inj same
      refine everyInsert verified.entries fun held holds => ?_
      cases holds
      exact digest page answer
  · intro d member lease told' call known
    simp only [Service.tell,List.mem_append] at member known
    rcases member with (old | new) | sent
    · exact verified.mail d (List.mem_append_left _ old) lease told' call known
    · have inside : d.completion ∈ load.waiters.map Waiter.completion := by
        rw [← told]
        exact List.mem_map_of_mem new
      obtain ⟨w,attached,same⟩ := List.mem_map.mp inside
      obtain ⟨owner,registered,-,attaches⟩ := served.wired.linked.waiters _ load found w attached
      rw [same] at registered
      cases Option.some.inj (registered.symm.trans known)
      rw [← attaches.identity.1,← attaches.identity.2.1]
      exact digest lease.page (genuine d new lease told').1
    · exact verified.mail d (List.mem_append_right _ sent) lease told' call known

theorem verifiedShutdown (accepted : Accepted config) (served : Served config s) (verified : AllVerified sha s) :
    AllVerified sha (s.tell (shutdown s.inner).1 (shutdown s.inner).2) := by
  refine ⟨?_,verified.hits,?_,verified.returned⟩
  · exact refinesVerified (shutdownRefines accepted served.good)
      (fun move may key generation same => by subst same; exact may) verified.entries
  · intro d member lease told call known
    simp only [Service.tell,List.mem_append] at member known
    rcases member with (old | new) | sent
    · exact verified.mail d (List.mem_append_left _ old) lease told call known
    · have alive : lease ∈ Delivery.leases (shutdown s.inner).2 :=
        List.mem_filterMap.mpr ⟨d,new,by rw [told]⟩
      rw [shutdownLeases] at alive
      contradiction
    · exact verified.mail d (List.mem_append_right _ sent) lease told call known

theorem verifiedPoll {call elapsed : Nat} {r : WaiterRegistration} (verified : AllVerified sha s)
    (waiting : s.calls[call]? = some (.waiting r)) (ok : s.poll call r elapsed = some s') : AllVerified sha s' := by
  unfold Service.poll at ok
  split at ok
  · rename_i d found
    cases Option.some.inj ok
    have same : d.completion = call := by simpa using List.find?_some found
    have member : d ∈ s.outbox ++ s.channels := List.mem_append_right _ (List.mem_of_find?_eq_some found)
    refine verifiedAnswer ?_ call r.spec (.received d.result) ?_
    · exact verifiedKept verified verified.entries (specsErased rfl) rfl (takenMail s d) rfl
    · intro lease told
      exact verified.mail d member lease told (.waiting r) (by rw [same]; exact waiting)
  · split at ok
    · contradiction
    · cases Option.some.inj ok
      refine verifiedAnswer ?_ call r.spec .closed (unleased rfl)
      exact verifiedKept verified verified.entries (specsErased rfl) rfl (fun _ member => member) rfl

theorem verifiedStep {event : Event} (accepted : Accepted config) (served : Served config s)
    (verified : AllVerified sha s) (honest : event.honest sha) (ok : s.step config readers event = some s') :
    AllVerified sha s' := by
  have good := served.good
  have withdrawn (r : WaiterRegistration) :
      EntriesVerified sha (withdrawWaiter s.inner r.spec.key r.generation r.waiterId).state.entries :=
    refinesVerified
      (withdrawRefines good (withdrawEffect r.spec.key r.generation r.waiterId good.ledgered (goodFits accepted good)))
      (fun move may key generation same => by subst same; contradiction) verified.entries
  have released (lease : PageLease) (alive : lease ∈ s.leases) :
      EntriesVerified sha (releaseLease s.inner lease.key lease.generation).state.entries :=
    refinesVerified (releaseRefines accepted good alive)
      (fun move may key generation same => by subst same; contradiction) verified.entries
  cases event with
  | get => exact verifiedGet accepted served verified ok
  | finishHit row =>
    simp only [Service.step] at ok
    split at ok
    · rename_i member
      cases Option.some.inj ok
      have used := refinesVerified (@useRefines config _ row.2.1.key row.2.2.generation _ good)
        (fun move may key generation same => by subst same; contradiction) verified.entries
      have after := verifiedAnswer verified row.1 row.2.1 (.hit row.2.2) (by
        intro lease same
        cases same
        exact verified.hits row member)
      exact ⟨used,fun other inside => verified.hits other (List.mem_of_mem_erase inside),after.mail,after.returned⟩
    · contradiction
  | prefetch ambient spec =>
    rcases done : prefetch config ambient spec (s.reader.answer readers) s.inner with ⟨inner,result⟩
    have effect := prefetchEffect accepted good.sound.bounded good.ledgered (goodFits accepted good) done
    have entries := refinesVerified (prefetchRefines good effect)
      (fun move may key generation same => by subst same; exact may) verified.entries
    have after : AllVerified sha {s with inner := inner} := ⟨entries,verified.hits,verified.mail,verified.returned⟩
    simp only [Service.step,done,Option.some.injEq] at ok
    subst ok
    split
    · exact verifiedSubmit after _
    · exact after
  | dequeue | completeForeign =>
    simp only [Service.step,Option.map_eq_some_iff] at ok
    obtain ⟨reader,-,rfl⟩ := ok
    exact ⟨verified.entries,verified.hits,verified.mail,verified.returned⟩
  | complete => exact verifiedComplete accepted served verified honest ok
  | send d =>
    obtain ⟨mail,same⟩ := sentMail ok
    rw [same] at mail ⊢
    exact verifiedKept verified verified.entries (specsSame rfl) rfl mail rfl
  | poll call elapsed =>
    simp only [Service.step] at ok
    split at ok
    · rename_i r waiting
      exact verifiedPoll verified waiting ok
    · contradiction
  | withdraw call error elapsed =>
    simp only [Service.step] at ok
    split at ok
    · rename_i r waiting
      cases Option.some.inj ok
      exact verifiedKept verified (withdrawn r) (specsReplaced waiting rfl rfl) rfl (fun _ member => member) rfl
    · contradiction
  | leave call =>
    simp only [Service.step] at ok
    split at ok
    · rename_i r error _
      cases Option.some.inj ok
      have after : AllVerified sha {s.hangUp call with calls := s.calls.erase call} :=
        verifiedKept verified verified.entries (specsErased rfl) rfl (hungUpMail s call) rfl
      exact verifiedAnswer after call r.spec (.withdrew error) (unleased rfl)
    · contradiction
  | abandon call =>
    simp only [Service.step] at ok
    split at ok
    · rename_i r waiting
      cases Option.some.inj ok
      exact verifiedKept verified verified.entries (specsReplaced waiting rfl rfl) rfl (hungUpMail s call) rfl
    · contradiction
  | unregister call =>
    simp only [Service.step] at ok
    split at ok
    · rename_i r _
      cases Option.some.inj ok
      exact verifiedKept verified (withdrawn r) (specsErased rfl) rfl (fun _ member => member) rfl
    · contradiction
  | dropLease lease | dropOrphan lease =>
    simp only [Service.step] at ok
    split at ok
    · rename_i member
      cases Option.some.inj ok
      have entries := released lease (by simp [Service.leases,member])
      exact ⟨entries,verified.hits,verified.mail,verified.returned⟩
    · contradiction
  | invalidate key =>
    cases Option.some.inj ok
    have entries := refinesVerified (@invalidateRefines _ _ key _ accepted good)
      (fun move may key generation same => by subst same; exact may) verified.entries
    exact ⟨entries,verified.hits,verified.mail,verified.returned⟩
  | shutdown =>
    cases Option.some.inj ok
    exact verifiedShutdown accepted served verified
  | closeReader =>
    cases Option.some.inj ok
    exact ⟨verified.entries,verified.hits,verified.mail,verified.returned⟩
  | submitForeign =>
    simp only [Service.step] at ok
    split at ok
    · cases Option.some.inj ok
      exact ⟨verified.entries,verified.hits,verified.mail,verified.returned⟩
    · contradiction

end Service

theorem emptyVerified (sha : List UInt8 → Digest) : AllVerified sha .empty where
  entries := everyEmpty _
  hits := fun _ member => absurd member List.not_mem_nil
  mail := fun _ member => absurd member List.not_mem_nil
  returned := fun _ member => absurd member List.not_mem_nil

theorem leasesVerified {config : CacheConfig} (valid : config.validate = .ok ()) (readers : AsyncReaderConfig)
    (sha : List UInt8 → Digest) {events : List Event} (honest : ∀ event ∈ events, event.honest sha) {s : Service}
    (ran : run (Service.step config readers) .empty events = some s) {call : Nat} {spec : PageSpec}
    {answer : Answer} (returned : (call,spec,answer) ∈ s.returned) {lease : PageLease}
    (leased : answer.result = .ok lease) :
    lease.page.bytes.length = spec.length ∧ sha lease.page.bytes = spec.fingerprint := by
  have accepted := validateAccepts valid
  have both := guardedInvariant (fun s => Served config s ∧ AllVerified sha s) (fun event => event.honest sha)
    (fun s event next holds honest ok =>
      ⟨stepServed accepted holds.1 ok,verifiedStep accepted holds.1 holds.2 honest ok⟩)
    ⟨emptyServed config,emptyVerified sha⟩ honest ran
  have genuine := both.2.returned (call,spec,answer) returned lease leased
  exact ⟨genuine.length,genuine.digest⟩

/-! A load shared by two calls and hit by a third, while a spec with the same key and
another fingerprint is turned away -/

-- SHA-256 of seventeen zero bytes; nothing else is hashed below.
def zerosDigest : Digest :=
  ⟨[10,136,17,24,82,9,92,174,4,83,64,234,31,11,39,153,68,178,167,86,162,19,217,181,1,7,215,72,151,113,225,89],by decide⟩
def sampleSha (bytes : List UInt8) : Digest := if bytes = List.replicate 17 0 then zerosDigest else sampleDigest

def zerosSpec : PageSpec := {sampleSpec 0 with fingerprint := zerosDigest}

def zerosCalls : List Event :=
  [.get sampleAmbient zerosSpec,.get sampleAmbient (sampleSpec 0),.get sampleAmbient zerosSpec,.dequeue,
    .complete ⟨zerosSpec,1⟩ (.ok (samplePage 0)) ⟨17,5⟩,.send ⟨0,.ok (sampleLease 0 0 1)⟩,
    .send ⟨2,.ok (sampleLease 2 0 1)⟩,.poll 0 7,.poll 2 7,.get sampleAmbient zerosSpec,
    .finishHit (3,zerosSpec,sampleLease 3 0 1),.get sampleAmbient (sampleSpec 0)]

def zerosService : Service := (run (Service.step defaultConfig twoReaders) .empty zerosCalls).getD .empty
theorem zerosServed : run (Service.step defaultConfig twoReaders) .empty zerosCalls = some zerosService :=
  runEnds (by decide +kernel) .empty

theorem zerosHonest : ∀ event ∈ zerosCalls, event.honest sampleSha := by
  intro event member
  cases event with
  | complete request result stats =>
    have same : Event.complete request result stats = .complete ⟨zerosSpec,1⟩ (.ok (samplePage 0)) ⟨17,5⟩ := by
      simpa [zerosCalls] using member
    cases same
    exact ⟨rfl,by decide,by decide +kernel⟩
  | _ => trivial

theorem sharedKeyVerified :
    zerosService.returned =
      [(4,sampleSpec 0,.refused (.integrity "cache key fingerprint mismatch")),(3,zerosSpec,.hit (sampleLease 3 0 1)),
        (2,zerosSpec,.received (.ok (sampleLease 2 0 1))),(0,zerosSpec,.received (.ok (sampleLease 0 0 1))),
        (1,sampleSpec 0,.refused (.integrity "cache key fingerprint mismatch"))] ∧
    (sampleLease 2 0 1).page.bytes.length = 17 ∧ sampleSha (sampleLease 2 0 1).page.bytes = zerosDigest := by
  have returned : (2,zerosSpec,.received (.ok (sampleLease 2 0 1))) ∈ zerosService.returned := by
    decide +kernel
  exact ⟨by decide +kernel,leasesVerified defaultAccepted twoReaders sampleSha zerosHonest zerosServed returned rfl⟩

end RunnelMoe.PageCache
