import RunnelMoe.CacheRefine

/-! Shutdown visits every key once. While it runs the stop flag is already set and
entries that are still to be visited may hold waiters, so the moves are read with
the flag down; the stop itself is the last move, when every entry is quiet. -/
namespace RunnelMoe.PageCache
open StoreErrors Words PageSpecs CacheLimits KeyedSum
open Std (ExtTreeMap)

def CacheState.stillOpen (s : CacheState) (leases : List PageLease) : Pages :=
  ⟨s.entries,leases,s.generation,s.waiter,false⟩

def attached (entries : ExtTreeMap PageKey Entry) (key : PageKey) : List Nat :=
  match entries[key]? with
  | none => []
  | some e => e.waiters.map Waiter.completion

def Move.shuts : Move → Prop
  | .evict _ | .retire _ | .drain _ | .stop => True
  | _ => False

structure Visited (config : CacheConfig) (leases : List PageLease) (key : PageKey) (s s' : CacheState) : Prop where
  ledgered : Ledgered s'
  counters : SameCounters s s'
  turns : Turns config Move.shuts (s.stillOpen leases) (s'.stillOpen leases)
  quiet : ∀ e, s'.entries[key]? = some e → e.quiet
  others : ∀ k, k ≠ key → s'.entries[k]? = s.entries[k]?

section Visit
variable {config : CacheConfig} {leases : List PageLease} {inner : CacheInner} {key : PageKey}

theorem openAfter {s s' : CacheState} {entries : ExtTreeMap PageKey Entry} (same : s'.entries = entries)
    (counters : SameCounters s s') : s'.stillOpen leases = {s.stillOpen leases with entries := entries} := by
  simp only [CacheState.stillOpen,same,counters.generation,counters.waiter]

theorem drainVisited {e : Entry} {l : LoadingEntry} {failures : List Nat} (ledgered : Ledgered inner.state)
    (present : inner.state.entries[key]? = some e) (state : e.state = .loading l) :
    Visited config leases key inner.state (shutdownEntry (inner,failures) key).1.state := by
  simp only [shutdownEntry,present,state]
  have split := ledgerSplit ledgered present
  rw [shareLoading state] at split
  refine ⟨?_,⟨rfl,rfl,rfl,rfl⟩,oneTurn (.drain key) trivial (.drain present state),?_,?_⟩
  · refine ledgerStored (e := {e with state := .loading {l.cancel with waiters := []}}) rfl ?_
    rw [shareLoading rfl]
    simp only [storeLedger,chargeLedger,chargeEntries,split,Ledger.add]
    simp (disch := omega) only [wrappingSubExact]
    simp [tally]
  · intro x found
    rw [storeEntries,getInsertSame] at found
    cases Option.some.inj found
    exact ⟨rfl,rfl⟩
  · intro k other
    rw [storeEntries,getInsertOther _ _ other]
    rfl

theorem retireVisited {e : Entry} {r : ResidentEntry} (fits : Fits inner.state.ledger)
    (ledgered : Ledgered inner.state) (present : inner.state.entries[key]? = some e) (state : e.state = .resident r) :
    Visited config leases key inner.state (retireResident inner key e r).state := by
  cases retireEffect ledgered fits present state with
  | dropped unleased entries ledgered counters =>
    refine ⟨ledgered,counters,?_,?_,?_⟩
    · rw [openAfter entries counters]
      exact oneTurn (.evict key) trivial (.evict present state unleased)
    · intro x found
      rw [entries,getEraseSame] at found
      contradiction
    · intro k other
      rw [entries,getEraseOther _ _ other]
  | retired leased entries ledgered counters =>
    refine ⟨ledgered,counters,?_,?_,?_⟩
    · rw [openAfter entries counters]
      exact oneTurn (.retire key) trivial (.retire present state leased)
    · intro x found
      rw [entries,getInsertSame] at found
      cases Option.some.inj found
      trivial
    · intro k other
      rw [entries,getInsertOther _ _ other]

theorem shutdownVisited (config : CacheConfig) (leases : List PageLease) (key : PageKey) (failures : List Nat) (fits : Fits inner.state.ledger) (ledgered : Ledgered inner.state) :
    Visited config leases key inner.state (shutdownEntry (inner,failures) key).1.state ∧
      (shutdownEntry (inner,failures) key).2 = failures ++ attached inner.state.entries key := by
  have stay (quiet : ∀ e, inner.state.entries[key]? = some e → e.quiet) :
      Visited config leases key inner.state inner.state :=
    ⟨ledgered,⟨rfl,rfl,rfl,rfl⟩,.refl,quiet,fun _ _ => rfl⟩
  cases present : inner.state.entries[key]? with
  | none =>
    simp only [shutdownEntry,attached,present,List.append_nil]
    exact ⟨stay (by simp [present]),trivial⟩
  | some e =>
    cases state : e.state with
    | loading l =>
      refine ⟨drainVisited ledgered present state,?_⟩
      simp [shutdownEntry,attached,present,state,Entry.waiters]
    | resident r =>
      simp only [shutdownEntry,attached,present,state,Entry.waiters,List.map_nil,List.append_nil]
      exact ⟨retireVisited fits ledgered present state,trivial⟩
    | retiring r =>
      simp only [shutdownEntry,attached,present,state,Entry.waiters,List.map_nil,List.append_nil]
      refine ⟨stay ?_,trivial⟩
      intro x found
      cases Option.some.inj (present.symm.trans found)
      simp [Entry.quiet,state]

end Visit

structure VisitedAll (config : CacheConfig) (leases : List PageLease) (keys : List PageKey) (s s' : CacheState) :
    Prop where
  ledgered : Ledgered s'
  counters : SameCounters s s'
  turns : Turns config Move.shuts (s.stillOpen leases) (s'.stillOpen leases)
  quiet : ∀ key ∈ keys, ∀ e, s'.entries[key]? = some e → e.quiet
  others : ∀ key, key ∉ keys → s'.entries[key]? = s.entries[key]?

variable {config : CacheConfig} {leases : List PageLease} {inner : CacheInner}

theorem shutdownVisitedAll {keys : List PageKey} (accepted : Accepted config) (ledgered : Ledgered inner.state)
    (sound : Sound config (inner.state.stillOpen leases)) (distinct : keys.Nodup) (failures : List Nat) :
    VisitedAll config leases keys inner.state (keys.foldl shutdownEntry (inner,failures)).1.state ∧
      (keys.foldl shutdownEntry (inner,failures)).2 = failures ++ keys.flatMap (attached inner.state.entries) := by
  induction keys generalizing inner failures with
  | nil => exact ⟨⟨ledgered,⟨rfl,rfl,rfl,rfl⟩,.refl,by simp,fun _ _ => rfl⟩,by simp⟩
  | cons key rest ih =>
    obtain ⟨fresh,distinct⟩ := List.nodup_cons.mp distinct
    have fits := boundedFits accepted ledgered sound.bounded
    obtain ⟨one,told⟩ := shutdownVisited config leases key failures fits ledgered
    simp only [List.foldl_cons]
    generalize shutdownEntry (inner,failures) key = next at one told
    obtain ⟨visited,failed⟩ := next
    simp only at one told
    obtain ⟨more,all⟩ := @ih visited one.ledgered (turnsSound one.turns sound) distinct failed
    refine ⟨⟨more.ledgered,?_,one.turns.trans more.turns,?_,?_⟩,?_⟩
    · exact ⟨more.counters.generation.trans one.counters.generation,more.counters.waiter.trans one.counters.waiter,
        more.counters.tick.trans one.counters.tick,more.counters.shutdown.trans one.counters.shutdown⟩
    · intro k member e found
      by_cases later : k ∈ rest
      · exact more.quiet k later e found
      · have same : k = key := by simpa [later] using member
        rw [more.others k later] at found
        subst same
        exact one.quiet e found
    · intro k absent
      simp only [List.mem_cons,not_or] at absent
      exact (more.others k absent.2).trans (one.others k absent.1)
    · -- Keys that are still to come are untouched by the visit of this one.
      have untouched : rest.flatMap (attached visited.state.entries) = rest.flatMap (attached inner.state.entries) := by
        refine List.flatMap_congr fun k member => ?_
        rw [attached,one.others k (fun same => fresh (same ▸ member)),attached]
      rw [all,told,untouched,List.flatMap_cons,List.append_assoc]

theorem keysCover {entries : ExtTreeMap PageKey Entry} {key : PageKey} {e : Entry}
    (present : entries[key]? = some e) : key ∈ entries.keys := by
  rw [ExtTreeMap.mem_keys,ExtTreeMap.mem_iff_isSome_getElem?,present]
  rfl

theorem shutdownRefines (accepted : Accepted config) (good : Good config inner.state leases) :
    Refines config Move.shuts inner.state leases (shutdown inner).1.state leases := by
  unfold shutdown
  split
  · exact stayed good _
  rename_i running
  have openView : inner.stopping.state.stillOpen leases = inner.state.pages leases := by
    simp only [CacheState.stillOpen,CacheState.pages,CacheInner.stopping,Bool.eq_false_iff.mpr running]
  obtain ⟨visited,-⟩ := @shutdownVisitedAll config leases inner.stopping inner.state.entries.keys accepted good.ledgered
    (openView ▸ good.sound) ExtTreeMap.nodup_keys []
  simp only [updateState]
  generalize inner.state.entries.keys.foldl shutdownEntry (inner.stopping,[]) = last at visited
  have quiet : Every last.1.state.entries (fun _ e => e.quiet) := by
    intro key e found
    by_cases known : key ∈ inner.state.entries.keys
    · exact visited.quiet key known e found
    · rw [visited.others key known] at found
      exact absurd (keysCover found) known
  have turns := visited.turns
  rw [openView] at turns
  refine ⟨visited.ledgered,turns.trans ?_⟩
  rw [pagesAfter rfl rfl rfl visited.counters.shutdown]
  exact oneTurn .stop trivial (.stop quiet)

theorem shutdownCounters (accepted : Accepted config) (good : Good config inner.state leases) :
    SameCounters {inner.state with shutdown := true} (shutdown inner).1.state := by
  unfold shutdown
  split
  · rename_i stopped
    exact ⟨rfl,rfl,rfl,stopped⟩
  rename_i running
  have openView : inner.stopping.state.stillOpen leases = inner.state.pages leases := by
    simp only [CacheState.stillOpen,CacheState.pages,CacheInner.stopping,Bool.eq_false_iff.mpr running]
  obtain ⟨visited,-⟩ := @shutdownVisitedAll config leases inner.stopping inner.state.entries.keys accepted good.ledgered
    (openView ▸ good.sound) ExtTreeMap.nodup_keys []
  exact visited.counters

theorem shutdownStops (accepted : Accepted config) (good : Good config inner.state leases) :
    (shutdown inner).1.state.shutdown = true := (shutdownCounters accepted good).shutdown

theorem shutdownTold
    (accepted : Accepted config) (good : Good config inner.state leases) (running : inner.state.shutdown = false) :
    (shutdown inner).2 =
      (inner.state.entries.keys.flatMap (attached inner.state.entries)).map (fun c => ⟨c,.error .shutdown⟩) := by
  have openView : inner.stopping.state.stillOpen leases = inner.state.pages leases := by
    simp only [CacheState.stillOpen,CacheState.pages,CacheInner.stopping,running]
  obtain ⟨-,told⟩ := @shutdownVisitedAll config leases inner.stopping inner.state.entries.keys accepted good.ledgered
    (openView ▸ good.sound) ExtTreeMap.nodup_keys []
  simp only [shutdown,running,Bool.false_eq_true,if_false,told,List.nil_append]
  rfl

end RunnelMoe.PageCache
