import RunnelMoe.CacheExchange

/-! What holds between the events of the service. Requests of the reader and loads of
the cache match one to one; an attached waiter belongs to a call that can still use it;
and for each call the waiter, the messages and the history of resolutions balance. -/
namespace RunnelMoe.PageCache
open StoreErrors Words PageSpecs CacheLimits KeyedSum Runs AsyncReads
open Std (ExtTreeMap)

structure Attaches (r : WaiterRegistration) (key : PageKey) (load : Load) (w : Waiter) : Prop where
  key : r.spec.key = key
  generation : r.generation = load.generation
  waiterId : r.waiterId = w.id
  identity : load.identifies r.spec

structure Linked (s : Service) : Prop where
  waiters : ∀ key load, loadAt s.entries key = some load → ∀ w ∈ load.waiters,
    ∃ call, s.calls[w.completion]? = some call ∧ call.armed = true ∧ Attaches call.registration key load w
  below : Every s.calls (fun _ call => call.registration.waiterId ≤ s.inner.state.waiter)
  distinct : ∀ (a b : Nat) (x y : Call), s.calls[a]? = some x → s.calls[b]? = some y →
    x.registration.waiterId = y.registration.waiterId → a = b

def Service.carried (s : Service) (call : Nat) : Nat := (s.outbox.map Delivery.completion).count call
def Service.arrived (s : Service) (call : Nat) : Nat := (s.channels.map Delivery.completion).count call
def Service.enrolled (s : Service) (call : Nat) : Nat := s.registered.count call
def Service.settled (s : Service) (call : Nat) : Nat := (s.resolved.map Prod.fst).count call

def Expects (attached carried arrived : Nat) : Option Call → Prop
  | none => attached = 0 ∧ arrived = 0
  | some (.waiting _) => attached + carried + arrived = 1
  | some (.withdrawn _ _) => attached = 0
  | some (.abandoned _) => arrived = 0

structure Booked (s : Service) (call : Nat) : Prop where
  once : s.enrolled call ≤ 1
  balance : attachments s.entries call + s.settled call = s.enrolled call
  mail : s.carried call + s.arrived call ≤ s.settled call
  unborn : s.nextCall ≤ call → s.enrolled call = 0 ∧ s.calls[call]? = none
  known : s.calls[call]? ≠ none → s.enrolled call = 1
  owner : Expects (attachments s.entries call) (s.carried call) (s.arrived call) s.calls[call]?

structure Wired (s : Service) : Prop where
  matched : Matched s.entries s.reader.pending
  linked : Linked s
  booked : ∀ call, Booked s call

section Attached
variable {s s' : Service} {entries after : ExtTreeMap PageKey Entry} {key : PageKey} {call : Nat}

theorem attachedSomewhere (some_ : attachments entries call ≠ 0) :
    ∃ key load w, loadAt entries key = some load ∧ w ∈ load.waiters ∧ w.completion = call := by
  by_contra nowhere
  refine some_ (totalZero.mpr ?_)
  intro key e present
  cases found : e.load? with
  | none => rfl
  | some load =>
    refine List.count_eq_zero.mpr fun member => nowhere ?_
    obtain ⟨w,attached,same⟩ := List.mem_map.mp member
    exact ⟨key,load,w,(loadPresent present).trans found,attached,same⟩

theorem attachedCounts {load : Load} {w : Waiter} (found : loadAt entries key = some load) (member : w ∈ load.waiters) :
    attachments entries w.completion ≠ 0 := by
  intro none
  obtain ⟨e,l,present,state,rfl⟩ := loadFound found
  have zero := totalZero.mp none key e present
  rw [loadLoading state] at zero
  exact List.count_eq_zero.mp zero (List.mem_map_of_mem member)

end Attached

section Closing
variable {s : Service} {call : Nat} {r : WaiterRegistration}

theorem senderKept (booked : Booked s call) (waiting : s.calls[call]? = some (.waiting r))
    (empty : ∀ d ∈ s.channels, d.completion ≠ call) : s.senderAlive call := by
  have owner := booked.owner
  rw [waiting] at owner
  have arrived : s.arrived call = 0 := by
    refine List.count_eq_zero.mpr fun member => ?_
    obtain ⟨d,inside,same⟩ := List.mem_map.mp member
    exact empty d inside same
  simp only [Expects,arrived] at owner
  by_cases attached : 0 < attachments s.entries call
  · exact .inl attached
  · have carried : 0 < s.carried call := by omega
    obtain ⟨d,inside,same⟩ := List.mem_map.mp (List.count_pos_iff.mp carried)
    exact .inr ⟨d,inside,same⟩

end Closing

/-! A withdrawal takes the caller's own waiter, or finds it gone -/

def FewerWaiters (before after : ExtTreeMap PageKey Entry) : Prop :=
  ∀ key load', loadAt after key = some load' → ∀ w ∈ load'.waiters,
    ∃ load, loadAt before key = some load ∧ load'.bare = load.bare ∧ w ∈ load.waiters

structure Withdrawn (s s' : Service) (call : Nat) (r : WaiterRegistration) : Prop where
  own : attachments s'.entries call = 0
  others : ∀ c, c ≠ call → attachments s'.entries c = attachments s.entries c
  noticed : withdraws s.entries r = true ↔ attachments s.entries call = 1
  bare : ∀ key, (loadAt s'.entries key).map Load.bare = (loadAt s.entries key).map Load.bare
  fewer : FewerWaiters s.entries s'.entries

variable {before after : ExtTreeMap PageKey Entry} {s s' : Service}

theorem fewerSame (same : loadAt after = loadAt before) :
    FewerWaiters before after := by
  intro key load' found w member
  rw [same] at found
  exact ⟨load',found,rfl,member⟩

theorem fewerMove {key : PageKey} {old new : Option Load} (move : LoadMove before after key old new)
    (inside : ∀ load', new = some load' → ∀ w ∈ load'.waiters,
      ∃ load, old = some load ∧ load'.bare = load.bare ∧ w ∈ load.waiters) : FewerWaiters before after := by
  intro k load' found w member
  rw [move.loads,Function.update_apply] at found
  split at found
  · rename_i here
    obtain ⟨load,was,same,kept⟩ := inside load' found w member
    exact ⟨load,by rw [here,move.found,was],same,kept⟩
  · exact ⟨load',found,rfl,member⟩

theorem moveBare {key : PageKey} {load load' : Load}
    (move : LoadMove before after key (some load) (some load')) (same : load'.bare = load.bare) (k : PageKey) :
    (loadAt after k).map Load.bare = (loadAt before k).map Load.bare := by
  rw [move.loads,Function.update_apply]
  split
  · rename_i here
    rw [here,move.found,Option.map_some,Option.map_some,same]
  · rfl

theorem withdrawnOwn {call : Nat} {owner : Call} (linked : Linked s) (booked : Booked s call)
    (known : s.calls[call]? = some owner)
    (effect : WithdrawEffect owner.registration.spec.key owner.registration.generation
      owner.registration.waiterId s.inner.state s'.inner.state) : Withdrawn s s' call owner.registration := by
  obtain ⟨-,⟨same,none⟩ | ⟨load,w,rest,move,current,identity,perm⟩⟩ := withdrawLoads effect
  · -- A waiter of this call would be the one that was looked for.
    have unattached : attachments s.entries call = 0 := by
      by_contra attached
      obtain ⟨key,load,w,found,member,rfl⟩ := attachedSomewhere attached
      obtain ⟨other,recorded,-,link⟩ := linked.waiters key load found w member
      cases Option.some.inj (known.symm.trans recorded)
      exact none load (link.key ▸ found) link.generation.symm w member link.waiterId.symm
    have unnoticed : withdraws s.entries owner.registration = false := by
      unfold withdraws
      split
      · rfl
      · rename_i load found
        simp only [decide_eq_false_iff_not,not_and,List.any_eq_true,decide_eq_true_eq,not_exists]
        exact fun current w member same => none load found current w member same
    refine ⟨(same.attached call).trans unattached,fun c _ => same.attached c,?_,?_,fewerSame same.loads⟩
    · simp [unnoticed,unattached]
    · intro key
      rw [Service.entries,Service.entries,same.loads]
  · have member : w ∈ load.waiters := perm.mem_iff.mpr List.mem_cons_self
    obtain ⟨other,recorded,-,link⟩ := linked.waiters _ load move.found w member
    have mine : w.completion = call :=
      linked.distinct _ _ other owner recorded known (link.waiterId.trans identity)
    have tickets (c : Nat) : Load.tickets c (some load) =
        Load.tickets c (some {load with waiters := rest}) + if call = c then 1 else 0 := by
      simp only [Load.tickets,(perm.map Waiter.completion).count_eq,List.map_cons,List.count_cons,mine,beq_iff_eq]
    have counts (c : Nat) : attachments s'.entries c + (if call = c then 1 else 0) = attachments s.entries c := by
      have moved := move.attached c
      rw [tickets c] at moved
      simp only [Service.entries]
      omega
    have noticed : withdraws s.entries owner.registration = true := by
      simp only [withdraws,Service.entries,move.found,current,true_and,decide_eq_true_eq,List.any_eq_true]
      exact ⟨w,member,identity⟩
    have here := counts call
    have balance := booked.balance
    have once := booked.once
    simp only [if_true] at here
    refine ⟨by omega,?_,?_,moveBare move rfl,fewerMove move ?_⟩
    · intro c different
      have there := counts c
      simpa only [different.symm,if_false,Nat.add_zero] using there
    · simp only [noticed,true_iff]
      omega
    · rintro load' ⟨⟩ x kept
      exact ⟨load,rfl,rfl,perm.mem_iff.mpr (List.mem_cons_of_mem _ kept)⟩

section Matching
variable {before after : ExtTreeMap PageKey Entry} {pending pending' : List Request} {request : Request} {load : Load}

theorem bareSome {a b : Option Load} (same : a.map Load.bare = b.map Load.bare) {x : Load} (found : b = some x) :
    ∃ y, a = some y ∧ y.bare = x.bare := by
  subst found
  exact Option.map_eq_some_iff.mp same

theorem bareGeneration {a b : Load} (same : a.bare = b.bare) : a.generation = b.generation := by
  change a.bare.generation = b.bare.generation
  rw [same]

theorem bareIdentifies {a b : Load} (same : a.bare = b.bare) {spec : PageSpec} (identity : b.identifies spec) :
    a.identifies spec := by
  change a.bare.identifies spec
  rw [same]
  exact identity

theorem matchedPerm (matched : Matched before pending) (perm : pending'.Perm pending)
    (bare : ∀ key, (loadAt after key).map Load.bare = (loadAt before key).map Load.bare) : Matched after pending' := by
  refine ⟨((perm.map _).nodup_iff).mpr matched.distinct,?_,?_⟩
  · intro r member
    obtain ⟨load,found,number,identity⟩ := matched.loading r (perm.mem_iff.mp member)
    obtain ⟨later,still,same⟩ := bareSome (bare r.spec.key) found
    exact ⟨later,still,(bareGeneration same).trans number,bareIdentifies same identity⟩
  · intro key later found
    obtain ⟨load,was,-⟩ := bareSome (bare key).symm found
    obtain ⟨r,member,same⟩ := matched.requested key load was
    exact ⟨r,perm.mem_iff.mpr member,same⟩

theorem matchedOpened (matched : Matched before pending)
    (move : LoadMove before after request.spec.key none (some load)) (number : load.generation = request.generation)
    (identity : load.identifies request.spec) (perm : pending'.Perm (request :: pending)) : Matched after pending' := by
  have fresh : request.spec.key ∉ pending.map (fun r => r.spec.key) := by
    intro taken
    obtain ⟨r,member,same⟩ := List.mem_map.mp taken
    obtain ⟨other,found,-⟩ := matched.loading r member
    rw [same,move.found] at found
    contradiction
  refine ⟨((perm.map _).nodup_iff).mpr (List.nodup_cons.mpr ⟨fresh,matched.distinct⟩),?_,?_⟩
  · intro r member
    rcases List.mem_cons.mp (perm.mem_iff.mp member) with rfl | old
    · exact ⟨load,by rw [move.loads,Function.update_self],number,identity⟩
    · have other : r.spec.key ≠ request.spec.key := fun same => fresh (same ▸ List.mem_map_of_mem old)
      rw [move.loads,Function.update_of_ne other]
      exact matched.loading r old
  · intro key later found
    rw [move.loads,Function.update_apply] at found
    split at found
    · rename_i here
      exact ⟨request,perm.mem_iff.mpr List.mem_cons_self,here.symm⟩
    · obtain ⟨r,member,same⟩ := matched.requested key later found
      exact ⟨r,perm.mem_iff.mpr (List.mem_cons_of_mem _ member),same⟩

theorem matchedClosed (matched : Matched before pending)
    (move : LoadMove before after request.spec.key (some load) none) (perm : pending.Perm (request :: pending')) :
    Matched after pending' := by
  have distinct := ((perm.map _).nodup_iff).mp matched.distinct
  obtain ⟨fresh,rest⟩ := List.nodup_cons.mp distinct
  have other {r : Request} (member : r ∈ pending') : r.spec.key ≠ request.spec.key :=
    fun same => fresh (List.mem_map.mpr ⟨r,member,same⟩)
  refine ⟨rest,?_,?_⟩
  · intro r member
    rw [move.loads,Function.update_of_ne (other member)]
    exact matched.loading r (perm.mem_iff.mpr (List.mem_cons_of_mem _ member))
  · intro key later found
    rw [move.loads,Function.update_apply] at found
    split at found
    · contradiction
    rename_i elsewhere
    obtain ⟨r,member,same⟩ := matched.requested key later found
    rcases List.mem_cons.mp (perm.mem_iff.mp member) with rfl | kept
    · exact absurd same.symm elsewhere
    · exact ⟨r,kept,same⟩

end Matching

theorem happensMatched (wired : Wired s) (happens : Happens s s') :
    Matched s'.entries s'.reader.pending := by
  have matched := wired.matched
  cases happens with
  | still loads _ pending => exact matchedPerm matched pending (fun key => by rw [loads.loads])
  | joined move _ _ pending => exact matchedPerm matched (.of_eq pending) (moveBare move rfl)
  | started move _ number identity pending | fetched move _ number identity pending =>
    exact matchedOpened matched move number identity pending
  | finished move _ pending => exact matchedClosed matched move pending
  | stopped loads _ _ pending =>
    refine matchedPerm matched (.of_eq pending) (fun key => ?_)
    rw [loads key,Option.map_map]
    rfl
  | sent desk entries | bounced desk entries | received desk entries =>
    rw [entries]
    exact matchedPerm matched (.of_eq desk.pending) (fun _ => rfl)
  | @closed call r waiting empty dead => exact absurd (senderKept (wired.booked call) waiting empty) dead
  | left _ effect | abandoned _ effect =>
    rw [effect.entries]
    exact matchedPerm matched (.of_eq effect.desk.pending) (fun _ => rfl)
  | withdrew waiting effect | unregistered waiting effect =>
    have own := withdrawnOwn wired.linked (wired.booked _) waiting effect.effect
    exact matchedPerm matched (.of_eq effect.desk.pending) own.bare

section Linking
variable {s s' : Service} {r : WaiterRegistration}

theorem attachesBare {key : PageKey} {load load' : Load} {w : Waiter} (link : Attaches r key load w)
    (same : load'.bare = load.bare) : Attaches r key load' w :=
  ⟨link.key,link.generation.trans (bareGeneration same).symm,link.waiterId,bareIdentifies same link.identity⟩

theorem linkedRegistered (linked : Linked s) (registers : Registers s s' r) (fresh : s.calls[s.nextCall]? = none)
    (waiters : ∀ key load', loadAt s'.entries key = some load' → ∀ w ∈ load'.waiters,
      (∃ load, loadAt s.entries key = some load ∧ load'.bare = load.bare ∧ w ∈ load.waiters) ∨
        w = ⟨r.waiterId,s.nextCall⟩ ∧ Attaches r key load' w) : Linked s' := by
  have newer (c : Nat) (call : Call) (found : s.calls[c]? = some call) :
      call.registration.waiterId < r.waiterId := (linked.below c call found).trans_lt registers.fresh
  refine ⟨?_,?_,?_⟩
  · intro key load' found w member
    rcases waiters key load' found w member with ⟨load,was,same,attached⟩ | ⟨rfl,link⟩
    · obtain ⟨call,recorded,armed,link⟩ := linked.waiters key load was w attached
      have other : w.completion ≠ s.nextCall := by
        intro here
        rw [here,fresh] at recorded
        contradiction
      exact ⟨call,by rw [registers.calls,getInsertOther _ _ other]; exact recorded,armed,attachesBare link same⟩
    · exact ⟨.waiting r,by rw [registers.calls]; exact getInsertSame _ _ _,rfl,link⟩
  · rw [registers.calls,registers.waiter]
    exact everyInsert (fun c call found => (newer c call found).le) le_rfl
  · intro a b x y first second same
    rw [registers.calls,getInsert] at first second
    split at first <;> split at second
    · rename_i here there
      exact here.trans there.symm
    · cases Option.some.inj first
      have less := newer b y second
      simp only [Call.registration] at same less
      omega
    · cases Option.some.inj second
      have less := newer a x first
      simp only [Call.registration] at same less
      omega
    · exact linked.distinct a b x y first second same

variable (linked : Linked s) (fewer : FewerWaiters s.entries s'.entries)
variable (waiter : s.inner.state.waiter ≤ s'.inner.state.waiter)
include linked fewer waiter

/- No waiter is new, so each one needs its old call; calls may change as long as they
keep the registration of the waiters that are left. -/
theorem linkedKept (kept : ∀ (c : Nat) (call : Call), s.calls[c]? = some call → call.armed = true → attachments s'.entries c ≠ 0 →
      ∃ call', s'.calls[c]? = some call' ∧ call'.armed = true ∧ call'.registration = call.registration)
    (origin : ∀ (c : Nat) (call' : Call), s'.calls[c]? = some call' →
      ∃ call, s.calls[c]? = some call ∧ call.registration = call'.registration) : Linked s' := by
  refine ⟨?_,?_,?_⟩
  · intro key load' found w member
    obtain ⟨load,was,same,attached⟩ := fewer key load' found w member
    obtain ⟨call,recorded,armed,link⟩ := linked.waiters key load was w attached
    obtain ⟨call',later,still,registration⟩ := kept _ call recorded armed (attachedCounts found member)
    exact ⟨call',later,still,attachesBare (registration ▸ link) same⟩
  · intro c call' later
    obtain ⟨call,was,registration⟩ := origin c call' later
    rw [← registration]
    exact (linked.below c call was).trans waiter
  · intro a b x y first second same
    obtain ⟨x',wasX,sameX⟩ := origin a x first
    obtain ⟨y',wasY,sameY⟩ := origin b y second
    exact linked.distinct a b x' y' wasX wasY (by rw [sameX,sameY,same])

theorem linkedCalls (calls : s'.calls = s.calls) : Linked s' := by
  refine linkedKept linked fewer waiter ?_ ?_
  · intro c call found armed _
    exact ⟨call,by rw [calls]; exact found,armed,rfl⟩
  · intro c call found
    exact ⟨call,by rw [← calls]; exact found,rfl⟩

theorem linkedErased {gone : Nat} (calls : s'.calls = s.calls.erase gone)
    (detached : attachments s'.entries gone = 0) : Linked s' := by
  refine linkedKept linked fewer waiter ?_ ?_
  · intro c call found armed attached
    have other : c ≠ gone := fun same => attached (same ▸ detached)
    exact ⟨call,by rw [calls,getEraseOther _ _ other]; exact found,armed,rfl⟩
  · intro c call found
    rw [calls,getErase] at found
    split at found
    · contradiction
    · exact ⟨call,found,rfl⟩

theorem linkedChanged {changed : Nat} {old new : Call}
    (known : s.calls[changed]? = some old) (calls : s'.calls = s.calls.insert changed new)
    (same : new.registration = old.registration)
    (armed : new.armed = true ∨ attachments s'.entries changed = 0) : Linked s' := by
  refine linkedKept linked fewer waiter ?_ ?_
  · intro c call found was attached
    rw [calls,getInsert]
    split
    · rename_i here
      subst here
      cases Option.some.inj (known.symm.trans found)
      exact ⟨new,rfl,armed.resolve_right attached,same⟩
    · exact ⟨call,found,was,rfl⟩
  · intro c call found
    rw [calls,getInsert] at found
    split at found
    · rename_i here
      subst here
      cases Option.some.inj found
      exact ⟨old,known,same.symm⟩
    · exact ⟨call,found,rfl⟩

end Linking

theorem happensLinked (wired : Wired s) (happens : Happens s s') : Linked s' := by
  have linked := wired.linked
  have fresh : s.calls[s.nextCall]? = none := ((wired.booked s.nextCall).unborn le_rfl).2
  cases happens with
  | still loads waiter _ calls => exact linkedCalls linked (fewerSame loads.loads) waiter calls
  | @joined r load move generation identity _ registers =>
    refine linkedRegistered linked registers fresh ?_
    intro key load' found w member
    rw [move.loads,Function.update_apply] at found
    split at found
    · rename_i here
      cases Option.some.inj found
      rcases List.mem_append.mp member with old | new
      · exact .inl ⟨load,by rw [here]; exact move.found,rfl,old⟩
      · exact .inr ⟨List.mem_singleton.mp new,here.symm,generation.symm,by rw [List.mem_singleton.mp new],identity⟩
    · exact .inl ⟨load',found,rfl,member⟩
  | @started r load move waiters generation identity _ registers =>
    refine linkedRegistered linked registers fresh ?_
    intro key load' found w member
    rw [move.loads,Function.update_apply] at found
    split at found
    · rename_i here
      cases Option.some.inj found
      rw [waiters] at member
      exact .inr ⟨List.mem_singleton.mp member,here.symm,generation.symm,by rw [List.mem_singleton.mp member],identity⟩
    · exact .inl ⟨load',found,rfl,member⟩
  | fetched move alone _ _ _ waiter calls =>
    refine linkedCalls linked (fewerMove move ?_) waiter.ge calls
    rintro load' ⟨⟩ w member
    rw [alone] at member
    contradiction
  | finished move _ _ tells => exact linkedCalls linked (fewerMove move nofun) tells.waiter tells.calls
  | stopped loads _ _ _ tells =>
    refine linkedCalls linked ?_ tells.waiter tells.calls
    intro key load' found w member
    rw [loads key] at found
    obtain ⟨load,-,rfl⟩ := Option.map_eq_some_iff.mp found
    contradiction
  | sent desk entries calls | bounced desk entries calls =>
    exact linkedCalls linked (fewerSame (by rw [entries])) desk.waiter.ge calls
  | @received d r desk entries _ waiting member calls =>
    refine linkedErased linked (fewerSame (by rw [entries])) desk.waiter.ge calls ?_
    have owner := (wired.booked d.completion).owner
    have arrived : 0 < s.arrived d.completion := List.count_pos_iff.mpr (List.mem_map_of_mem member)
    rw [waiting] at owner
    simp only [Expects] at owner
    rw [entries]
    omega
  | @closed call r waiting empty dead => exact absurd (senderKept (wired.booked call) waiting empty) dead
  | @withdrew call r error waiting effect calls =>
    have own := withdrawnOwn linked (wired.booked _) waiting effect.effect
    exact linkedChanged linked own.fewer effect.desk.waiter.ge waiting calls rfl (.inr own.own)
  | @left call r error withdrawn effect calls =>
    have owner := (wired.booked call).owner
    rw [withdrawn] at owner
    exact linkedErased linked (fewerSame (by rw [effect.entries])) effect.desk.waiter.ge calls
      (by rw [effect.entries]; exact owner)
  | abandoned waiting effect calls =>
    exact linkedChanged linked (fewerSame (by rw [effect.entries])) effect.desk.waiter.ge waiting calls rfl (.inl rfl)
  | @unregistered call r closed effect calls =>
    have own := withdrawnOwn linked (wired.booked _) closed effect.effect
    exact linkedErased linked own.fewer effect.desk.waiter.ge calls own.own

/-! The balance of each call -/

section Booking
variable {s s' : Service} {call : Nat}

structure SameBooks (s s' : Service) (call : Nat) : Prop where
  attached : attachments s'.entries call = attachments s.entries call
  carried : s'.carried call = s.carried call
  arrived : s'.arrived call = s.arrived call
  enrolled : s'.enrolled call = s.enrolled call
  settled : s'.settled call = s.settled call
  calls : s'.calls[call]? = s.calls[call]?
  nextCall : s.nextCall ≤ s'.nextCall

theorem bookedSame (booked : Booked s call) (same : SameBooks s s' call) : Booked s' call := by
  obtain ⟨once,balance,mail,unborn,known,owner⟩ := booked
  obtain ⟨attached,carried,arrived,enrolled,settled,calls,nextCall⟩ := same
  refine ⟨by rw [enrolled]; exact once,by rw [attached,settled,enrolled]; exact balance,
    by rw [carried,arrived,settled]; exact mail,?_,?_,?_⟩
  · intro later
    rw [enrolled,calls]
    exact unborn (nextCall.trans later)
  · rw [enrolled,calls]
    exact known
  · rw [attached,carried,arrived,calls]
    exact owner

theorem mailBooks (mail : SameMail s s') (attached : attachments s'.entries call = attachments s.entries call)
    (calls : s'.calls = s.calls) (nextCall : s.nextCall ≤ s'.nextCall) : SameBooks s s' call := by
  refine ⟨attached,?_,?_,?_,?_,by rw [calls],nextCall⟩
  · rw [Service.carried,mail.outbox,Service.carried]
  · rw [Service.arrived,mail.channels,Service.arrived]
  · rw [Service.enrolled,mail.registered,Service.enrolled]
  · rw [Service.settled,mail.resolved,Service.settled]

theorem resolutionCalls (deliveries : List Delivery) :
    (deliveries.map Delivery.resolution).map Prod.fst = deliveries.map Delivery.completion := by
  simp only [List.map_map]
  rfl

/- Waiters become messages: what is attached and what is carried change together. -/
theorem bookedTold {deliveries : List Delivery} (booked : Booked s call) (tells : Tells s s' deliveries)
    (moved : attachments s'.entries call + (deliveries.map Delivery.completion).count call =
      attachments s.entries call) : Booked s' call := by
  obtain ⟨once,balance,mail,unborn,known,owner⟩ := booked
  have carried : s'.carried call = s.carried call + (deliveries.map Delivery.completion).count call := by
    rw [Service.carried,tells.outbox,List.map_append,List.count_append,Service.carried]
  have settled : s'.settled call = s.settled call + (deliveries.map Delivery.completion).count call := by
    rw [Service.settled,tells.resolved,List.map_append,List.count_append,resolutionCalls,Service.settled,Nat.add_comm]
  have arrived : s'.arrived call = s.arrived call := by rw [Service.arrived,tells.channels,Service.arrived]
  have enrolled : s'.enrolled call = s.enrolled call := by rw [Service.enrolled,tells.registered,Service.enrolled]
  refine ⟨by omega,by omega,by omega,?_,?_,?_⟩
  · rw [tells.nextCall,tells.calls,enrolled]
    exact unborn
  · rw [tells.calls,enrolled]
    exact known
  · rw [tells.calls,carried,arrived]
    cases recorded : s.calls[call]? with
    | none =>
      rw [recorded] at owner
      simp only [Expects] at owner ⊢
      omega
    | some state =>
      rw [recorded] at owner
      cases state <;> simp only [Expects] at owner ⊢ <;> omega

variable {r : WaiterRegistration} {d : Delivery}

theorem bookedRegistered (booked : Booked s call) (registers : Registers s s' r)
    (attached : attachments s'.entries call = attachments s.entries call + if s.nextCall = call then 1 else 0) :
    Booked s' call := by
  have carried : s'.carried call = s.carried call := by rw [Service.carried,registers.outbox,Service.carried]
  have arrived : s'.arrived call = s.arrived call := by rw [Service.arrived,registers.channels,Service.arrived]
  have settled : s'.settled call = s.settled call := by rw [Service.settled,registers.resolved,Service.settled]
  have enrolled : s'.enrolled call = s.enrolled call + if s.nextCall = call then 1 else 0 := by
    simp only [Service.enrolled,registers.registered,List.count_cons,beq_iff_eq]
  by_cases here : s.nextCall = call
  · -- Nothing is known of a call before it begins.
    obtain ⟨new,-⟩ := booked.unborn here.le
    have balance := booked.balance
    have mail := booked.mail
    have recorded : s'.calls[call]? = some (.waiting r) := by
      rw [registers.calls,here]
      exact getInsertSame _ _ _
    simp only [here,if_true] at attached enrolled
    refine ⟨by omega,by omega,by omega,?_,fun _ => by omega,?_⟩
    · intro later
      have := registers.nextCall
      omega
    · rw [recorded]
      simp only [Expects]
      omega
  · simp only [here,if_false,Nat.add_zero] at attached enrolled
    refine bookedSame booked ⟨attached,carried,arrived,enrolled,settled,?_,by rw [registers.nextCall]; exact Nat.le_succ _⟩
    rw [registers.calls]
    exact getInsertOther _ _ (Ne.symm here) _

theorem knownBegun {state : Call} (booked : Booked s call) (known : s.calls[call]? = some state) :
    call < s.nextCall := by
  by_contra later
  have unborn := (booked.unborn (Nat.le_of_not_lt later)).2
  rw [known] at unborn
  contradiction

theorem erasedCount {box : List Delivery} (member : d ∈ box) (call : Nat) :
    (box.map Delivery.completion).count call =
      ((box.erase d).map Delivery.completion).count call + if d.completion = call then 1 else 0 := by
  rw [((List.perm_cons_erase member).map Delivery.completion).count_eq]
  simp only [List.map_cons,List.count_cons,beq_iff_eq]

theorem deskEnrolled (desk : SameDesk s s') (call : Nat) : s'.enrolled call = s.enrolled call := by
  rw [Service.enrolled,desk.registered,Service.enrolled]

theorem bookedSent (booked : Booked s call) (desk : SameDesk s s') (entries : s'.entries = s.entries)
    (calls : s'.calls = s.calls) (resolved : s'.resolved = s.resolved) (member : d ∈ s.outbox)
    (listening : s.calls[d.completion]?.any Call.listening = true) (outbox : s'.outbox = s.outbox.erase d)
    (channels : s'.channels = s.channels ++ [d]) : Booked s' call := by
  obtain ⟨once,balance,mail,unborn,known,owner⟩ := booked
  have carried : s.carried call = s'.carried call + if d.completion = call then 1 else 0 := by
    rw [Service.carried,Service.carried,outbox,erasedCount member]
  have arrived : s'.arrived call = s.arrived call + if d.completion = call then 1 else 0 := by
    simp only [Service.arrived,channels,List.map_append,List.count_append,List.map_cons,List.map_nil,
      List.count_singleton,beq_iff_eq]
  have settled : s'.settled call = s.settled call := by rw [Service.settled,resolved,Service.settled]
  have enrolled := deskEnrolled desk call
  refine ⟨by omega,by rw [entries]; omega,by omega,?_,?_,?_⟩
  · rw [desk.nextCall,calls,enrolled]
    exact unborn
  · rw [calls,enrolled]
    exact known
  · rw [calls,entries]
    by_cases here : d.completion = call
    · rw [here] at listening
      simp only [here,if_true] at carried arrived
      cases recorded : s.calls[call]? with
      | none => simp [recorded] at listening
      | some state =>
        rw [recorded] at owner
        cases state with
        | waiting r => simp only [Expects] at owner ⊢; omega
        | withdrawn r error => exact owner
        | abandoned r => simp [recorded,Call.listening] at listening
    · simp only [here,if_false,Nat.add_zero] at carried arrived
      rw [arrived,← carried]
      exact owner

theorem bookedBounced (booked : Booked s call) (desk : SameDesk s s')
    (entries : s'.entries = s.entries) (calls : s'.calls = s.calls) (resolved : s'.resolved = s.resolved)
    (member : d ∈ s.outbox) (deaf : s.calls[d.completion]?.any Call.listening = false)
    (outbox : s'.outbox = s.outbox.erase d) (channels : s'.channels = s.channels) : Booked s' call := by
  obtain ⟨once,balance,mail,unborn,known,owner⟩ := booked
  have carried : s.carried call = s'.carried call + if d.completion = call then 1 else 0 := by
    rw [Service.carried,Service.carried,outbox,erasedCount member]
  have arrived : s'.arrived call = s.arrived call := by rw [Service.arrived,channels,Service.arrived]
  have settled : s'.settled call = s.settled call := by rw [Service.settled,resolved,Service.settled]
  have enrolled := deskEnrolled desk call
  refine ⟨by omega,by rw [entries]; omega,by omega,?_,?_,?_⟩
  · rw [desk.nextCall,calls,enrolled]
    exact unborn
  · rw [calls,enrolled]
    exact known
  · rw [calls,entries,arrived]
    by_cases here : d.completion = call
    · rw [here] at deaf
      cases recorded : s.calls[call]? with
      | none => rw [recorded] at owner; exact owner
      | some state =>
        rw [recorded] at owner
        cases state with
        | waiting r => simp [recorded,Call.listening] at deaf
        | withdrawn r error => simp [recorded,Call.listening] at deaf
        | abandoned r => exact owner
    · simp only [here,if_false,Nat.add_zero] at carried
      rw [← carried]
      exact owner

theorem bookedReceived (booked : Booked s call) (desk : SameDesk s s')
    (entries : s'.entries = s.entries) (resolved : s'.resolved = s.resolved)
    (waiting : s.calls[d.completion]? = some (.waiting r)) (member : d ∈ s.channels)
    (calls : s'.calls = s.calls.erase d.completion) (outbox : s'.outbox = s.outbox)
    (channels : s'.channels = s.channels.erase d) : Booked s' call := by
  have carried : s'.carried call = s.carried call := by rw [Service.carried,outbox,Service.carried]
  have arrived : s.arrived call = s'.arrived call + if d.completion = call then 1 else 0 := by
    rw [Service.arrived,Service.arrived,channels,erasedCount member]
  have settled : s'.settled call = s.settled call := by rw [Service.settled,resolved,Service.settled]
  have enrolled := deskEnrolled desk call
  by_cases here : d.completion = call
  · have begun := knownBegun booked (here ▸ waiting)
    obtain ⟨once,balance,mail,-,-,owner⟩ := booked
    rw [← here,waiting,here] at owner
    simp only [here,if_true] at arrived
    simp only [Expects] at owner
    have gone : s'.calls[call]? = none := by
      rw [calls,here]
      exact getEraseSame _ _
    refine ⟨by omega,by rw [entries]; omega,by omega,?_,fun some => absurd gone some,?_⟩
    · intro later
      rw [desk.nextCall] at later
      omega
    · rw [gone,entries]
      simp only [Expects]
      omega
  · simp only [here,if_false,Nat.add_zero] at arrived
    refine bookedSame booked ⟨by rw [entries],carried,arrived.symm,enrolled,settled,?_,desk.nextCall.ge⟩
    rw [calls]
    exact getEraseOther _ _ (Ne.symm here)

theorem bookedHungUp {old : Call} (booked : Booked s call) {changed : Nat} (effect : HangsUp s s' changed)
    (known : s.calls[changed]? = some old)
    (calls : ∀ c, c ≠ changed → s'.calls[c]? = s.calls[c]?)
    (owner : call = changed → (s'.calls[call]? = none ∧ attachments s.entries call = 0) ∨
      ∃ r, s'.calls[call]? = some (.abandoned r)) : Booked s' call := by
  have carried : s'.carried call = s.carried call := by rw [Service.carried,effect.outbox,Service.carried]
  have settled : s'.settled call = s.settled call := by rw [Service.settled,effect.resolved,Service.settled]
  have enrolled := deskEnrolled effect.desk call
  have arrived : s'.arrived call = if call = changed then 0 else s.arrived call := by
    rw [Service.arrived,effect.channels]
    split
    · rename_i here
      refine List.count_eq_zero.mpr fun member => ?_
      obtain ⟨d,inside,same⟩ := List.mem_map.mp member
      exact absurd (same.trans here) (by simpa using (List.mem_filter.mp inside).2)
    · rename_i other
      rw [Service.arrived,List.count_eq_countP,List.count_eq_countP,List.countP_map,List.countP_map,List.countP_filter]
      refine List.countP_congr fun d _ => ?_
      simp only [Function.comp_apply,Bool.and_eq_true,beq_iff_eq,decide_eq_true_eq]
      exact ⟨fun both => both.1,fun same => ⟨same,fun here => other (same.symm.trans here)⟩⟩
  by_cases here : call = changed
  · have begun := knownBegun booked (here ▸ known)
    have once := booked.once
    have balance := booked.balance
    have mail := booked.mail
    have one := booked.known (by rw [here,known]; simp)
    simp only [here,if_true] at arrived
    rw [here] at carried settled enrolled once balance mail one begun
    subst here
    refine ⟨by omega,by rw [effect.entries]; omega,by omega,?_,fun _ => by omega,?_⟩
    · intro later
      rw [effect.desk.nextCall] at later
      omega
    · rw [effect.entries]
      rcases owner rfl with ⟨gone,detached⟩ | ⟨r,abandoned⟩
      · rw [gone]
        exact ⟨detached,arrived⟩
      · rw [abandoned]
        exact arrived
  · simp only [here,if_false] at arrived
    exact bookedSame booked ⟨by rw [effect.entries],carried,arrived,enrolled,settled,calls call here,
      effect.desk.nextCall.ge⟩

theorem bookedWithdrawn {old : Call} (booked : Booked s call) {changed : Nat}
    (effect : Withdraws s s' changed r) (own : Withdrawn s s' changed r) (known : s.calls[changed]? = some old)
    (calls : ∀ c, c ≠ changed → s'.calls[c]? = s.calls[c]?)
    (owner : call = changed → (s'.calls[call]? = none ∧ s.arrived call = 0) ∨
      ∃ error, s'.calls[call]? = some (.withdrawn r error)) : Booked s' call := by
  have carried : s'.carried call = s.carried call := by rw [Service.carried,effect.outbox,Service.carried]
  have arrived : s'.arrived call = s.arrived call := by rw [Service.arrived,effect.channels,Service.arrived]
  have enrolled := deskEnrolled effect.desk call
  by_cases here : call = changed
  · subst here
    have begun := knownBegun booked known
    have once := booked.once
    have balance := booked.balance
    have mail := booked.mail
    have one := booked.known (by rw [known]; simp)
    have gone := own.own
    have settled : s'.settled call = 1 := by
      by_cases noticed : withdraws s.entries r = true
      · have attached := own.noticed.mp noticed
        rw [Service.settled,effect.resolved,if_pos noticed,List.map_cons,List.count_cons_self]
        have zero : s.settled call = 0 := by omega
        rw [Service.settled] at zero
        omega
      · have detached : attachments s.entries call ≠ 1 := fun attached => noticed (own.noticed.mpr attached)
        rw [Service.settled,effect.resolved,if_neg noticed]
        rw [Service.settled] at balance
        omega
    refine ⟨by omega,by omega,by omega,?_,fun _ => by omega,?_⟩
    · intro later
      rw [effect.desk.nextCall] at later
      omega
    · rcases owner rfl with ⟨removed,quiet⟩ | ⟨error,withdrawn⟩
      · rw [removed]
        exact ⟨gone,arrived.trans quiet⟩
      · rw [withdrawn]
        exact gone
  · have settled : s'.settled call = s.settled call := by
      rw [Service.settled,effect.resolved,Service.settled]
      split
      · rw [List.map_cons,List.count_cons_of_ne (fun same => here same.symm)]
      · rfl
    exact bookedSame booked ⟨own.others call here,carried,arrived,enrolled,settled,calls call here,
      effect.desk.nextCall.ge⟩

end Booking

theorem happensBooked (wired : Wired s) (happens : Happens s s') (call : Nat) : Booked s' call := by
  have booked := wired.booked call
  cases happens with
  | still loads _ _ calls nextCall mail => exact bookedSame booked (mailBooks mail (loads.attached call) calls nextCall)
  | joined move _ _ _ registers =>
    refine bookedRegistered booked registers ?_
    have moved := move.attached call
    simp only [Load.tickets,List.map_append,List.count_append,List.map_cons,List.map_nil,List.count_singleton,
      beq_iff_eq] at moved
    omega
  | started move waiters _ _ _ registers =>
    refine bookedRegistered booked registers ?_
    have moved := move.attached call
    simp only [Load.tickets,waiters,List.map_cons,List.map_nil,List.count_singleton,beq_iff_eq] at moved
    omega
  | fetched move alone _ _ _ _ calls nextCall mail =>
    have moved := move.attached call
    simp only [Load.tickets,alone,List.map_nil,List.count_nil,Nat.add_zero] at moved
    exact bookedSame booked (mailBooks mail moved calls nextCall.ge)
  | finished move told _ tells =>
    refine bookedTold booked tells ?_
    rw [told]
    exact move.attached call
  | stopped _ detached told _ tells =>
    refine bookedTold booked tells ?_
    rw [detached,told,Nat.zero_add]
  | sent desk entries calls resolved member listening outbox channels =>
    exact bookedSent booked desk entries calls resolved member listening outbox channels
  | bounced desk entries calls resolved member deaf outbox channels =>
    exact bookedBounced booked desk entries calls resolved member deaf outbox channels
  | received desk entries resolved waiting member calls outbox channels =>
    exact bookedReceived booked desk entries resolved waiting member calls outbox channels
  | closed waiting empty dead => exact absurd (senderKept (wired.booked _) waiting empty) dead
  | @withdrew changed r error waiting effect calls =>
    have own := withdrawnOwn wired.linked (wired.booked _) waiting effect.effect
    refine bookedWithdrawn booked effect own waiting ?_ ?_
    · intro c other
      rw [calls]
      exact getInsertOther _ _ other _
    · rintro rfl
      exact .inr ⟨error,by rw [calls]; exact getInsertSame _ _ _⟩
  | @left changed r error withdrawn effect calls =>
    refine bookedHungUp booked effect withdrawn ?_ ?_
    · intro c other
      rw [calls]
      exact getEraseOther _ _ other
    · rintro rfl
      have owner := booked.owner
      rw [withdrawn] at owner
      exact .inl ⟨by rw [calls]; exact getEraseSame _ _,owner⟩
  | @abandoned changed r waiting effect calls =>
    refine bookedHungUp booked effect waiting ?_ ?_
    · intro c other
      rw [calls]
      exact getInsertOther _ _ other _
    · rintro rfl
      exact .inr ⟨r,by rw [calls]; exact getInsertSame _ _ _⟩
  | @unregistered changed r closed effect calls =>
    have own := withdrawnOwn wired.linked (wired.booked _) closed effect.effect
    refine bookedWithdrawn booked effect own closed ?_ ?_
    · intro c other
      rw [calls]
      exact getEraseOther _ _ other
    · rintro rfl
      have owner := booked.owner
      rw [closed] at owner
      exact .inl ⟨by rw [calls]; exact getEraseSame _ _,owner⟩

theorem happensWired (wired : Wired s) (happens : Happens s s') : Wired s' :=
  ⟨happensMatched wired happens,happensLinked wired happens,happensBooked wired happens⟩

end RunnelMoe.PageCache
