import RunnelMoe.Codes
import RunnelMoe.SimMemory
import RunnelMoe.SimSignals

/-! The decision log. Every event of a replay logs at least one decision under its
sequence number, in one of two formats that the tag tells apart. Pages are 32-bit and
lengths and sequence numbers 64-bit words; page lists are counted, and sequence
numbers never skip one, so the bytes determine the decisions. -/
namespace RunnelMoe.Sim
open Words KeyedSum Results Vectors Codes
open Std (ExtTreeMap)

def DecisionTag.label : DecisionTag → String
  | .demandUsefulPrefetchHit => "demand-useful-prefetch-hit"
  | .demandHit => "demand-hit"
  | .demandMissBypass => "demand-miss-bypass"
  | .demandMissAdmit => "demand-miss-admit"
  | .signalIgnored => "signal-ignored"
  | .signalEmpty => "signal-empty"
  | .signalAdmissionOnly => "signal-admission-only"
  | .prefetchRedundant => "prefetch-redundant"
  | .prefetchDropPageLimit => "prefetch-drop-page-limit"
  | .prefetchDropByteLimit => "prefetch-drop-byte-limit"
  | .prefetchDropAdmission => "prefetch-drop-admission"
  | .prefetchAdmit => "prefetch-admit"

def DecisionTag.bytes (tag : DecisionTag) : List UInt8 := tag.label.toList.map (fun c => c.toNat.toUInt8)

def hashTag (tag : DecisionTag) : List UInt8 := littleEndian 8 tag.bytes.length ++ tag.bytes

def hashPage : Option PageId → List UInt8
  | some id => 1 :: littleEndian 4 id
  | none => [0]

def hashPageList (pages : List PageId) : List UInt8 := counted 8 (littleEndian 4) pages

/-- The bytes that one decision feeds to the hash. -/
def Decision.bytes : Decision → List UInt8
  | .event sequence tag page victims =>
    littleEndian 8 sequence ++ (hashTag tag ++ (hashPage page ++ hashPageList victims))
  | .prefetch sequence tag offered redundant admittedOrDropped victims =>
    littleEndian 8 sequence ++ (hashTag tag ++ (hashPageList offered ++ (hashPageList redundant ++
      (hashPageList admittedOrDropped ++ hashPageList victims))))

def Kernel.hashed (k : Kernel) : List UInt8 := k.decisions.flatMap Decision.bytes

def PagesFit (pages : List PageId) : Prop := pages.length < 256 ^ 8 ∧ ∀ id ∈ pages, id < 256 ^ 4

def Decision.Fits : Decision → Prop
  | .event _ tag page victims => tag.grouped = false ∧ (∀ id ∈ page, id < 256 ^ 4) ∧ PagesFit victims
  | .prefetch _ tag offered redundant admittedOrDropped victims =>
    tag.grouped = true ∧ PagesFit offered ∧ PagesFit redundant ∧ PagesFit admittedOrDropped ∧ PagesFit victims

def Decision.sequence : Decision → Nat
  | .event sequence _ _ _ | .prefetch sequence _ _ _ _ _ => sequence

def Decision.wrapped : Decision → Decision
  | .event sequence tag page victims => .event (sequence % 256 ^ 8) tag page victims
  | .prefetch sequence tag offered redundant admittedOrDropped victims =>
    .prefetch (sequence % 256 ^ 8) tag offered redundant admittedOrDropped victims

theorem labelsDistinct {a b : DecisionTag} (same : a.bytes = b.bytes) : a = b := by
  let tags : List DecisionTag := [.demandUsefulPrefetchHit,.demandHit,.demandMissBypass,.demandMissAdmit,.signalIgnored,
    .signalEmpty,.signalAdmissionOnly,.prefetchRedundant,.prefetchDropPageLimit,.prefetchDropByteLimit,
    .prefetchDropAdmission,.prefetchAdmit]
  have distinct : (tags.map DecisionTag.bytes).Nodup := by decide +kernel
  have all (tag : DecisionTag) : tag ∈ tags := by cases tag <;> decide
  exact List.inj_on_of_nodup_map distinct (all a) (all b) same

theorem tagDelimited : Delimited (fun _ => True) hashTag := by
  intro a b _ _ u v same
  have byte : Delimited (fun _ => True) (fun b : UInt8 => [b]) :=
    fixedDelimited (fun _ => rfl) (fun _ _ _ _ same => List.singleton_inj.mp same)
  have short (tag : DecisionTag) : tag.bytes.length < 256 ^ 8 ∧ ∀ b ∈ tag.bytes, True := by
    refine ⟨?_,fun _ _ => trivial⟩
    cases tag <;> decide
  have codes (tag : DecisionTag) : hashTag tag = counted 8 (fun b => [b]) tag.bytes := by
    simp [hashTag,counted]
  rw [codes,codes] at same
  obtain ⟨labels,rest⟩ := countedDelimited byte 8 _ _ (short a) (short b) _ _ same
  exact ⟨labelsDistinct labels,rest⟩

theorem pageDelimited : Delimited (fun page : Option PageId => ∀ id ∈ page, id < 256 ^ 4) hashPage := by
  intro a b left right u v same
  cases a with
  | none =>
    cases b with
    | none => exact ⟨rfl,(List.cons.inj same).2⟩
    | some y => exact absurd (List.cons.inj same).1 (by decide)
  | some x =>
    cases b with
    | none => exact absurd (List.cons.inj same).1 (by decide)
    | some y =>
      obtain ⟨pages,rest⟩ := wordDelimited 4 x y (left x rfl) (right y rfl) _ _ (List.cons.inj same).2
      exact ⟨congrArg some pages,rest⟩

theorem pagesDelimited : Delimited PagesFit hashPageList := countedDelimited (wordDelimited 4) 8

theorem decisionDelimited : Delimited (fun d : Decision => d.sequence < 256 ^ 8 ∧ d.Fits) Decision.bytes := by
  intro a b left right u v same
  obtain ⟨small,fits⟩ := left
  obtain ⟨small',fits'⟩ := right
  cases a with
  | event sequence tag page victims =>
    obtain ⟨kind,paged,listed⟩ := fits
    cases b with
    | event sequence' tag' page' victims' =>
      obtain ⟨-,paged',listed'⟩ := fits'
      simp only [Decision.bytes,List.append_assoc] at same
      obtain ⟨rfl,tagged⟩ := wordDelimited 8 sequence sequence' small small' _ _ same
      obtain ⟨rfl,marked⟩ := tagDelimited tag tag' trivial trivial _ _ tagged
      obtain ⟨rfl,last⟩ := pageDelimited page page' paged paged' _ _ marked
      obtain ⟨rfl,rest⟩ := pagesDelimited victims victims' listed listed' _ _ last
      exact ⟨rfl,rest⟩
    | prefetch sequence' tag' =>
      simp only [Decision.bytes,List.append_assoc] at same
      obtain ⟨-,tagged⟩ := wordDelimited 8 sequence sequence' small small' _ _ same
      obtain ⟨rfl,-⟩ := tagDelimited tag tag' trivial trivial _ _ tagged
      exact absurd (kind.symm.trans fits'.1) (by decide)
  | prefetch sequence tag offered redundant rest victims =>
    obtain ⟨kind,first,second,third,fourth⟩ := fits
    cases b with
    | event sequence' tag' =>
      simp only [Decision.bytes,List.append_assoc] at same
      obtain ⟨-,tagged⟩ := wordDelimited 8 sequence sequence' small small' _ _ same
      obtain ⟨rfl,-⟩ := tagDelimited tag tag' trivial trivial _ _ tagged
      exact absurd (kind.symm.trans fits'.1) (by decide)
    | prefetch sequence' tag' offered' redundant' rest' victims' =>
      obtain ⟨-,first',second',third',fourth'⟩ := fits'
      simp only [Decision.bytes,List.append_assoc] at same
      obtain ⟨rfl,tagged⟩ := wordDelimited 8 sequence sequence' small small' _ _ same
      obtain ⟨rfl,lists⟩ := tagDelimited tag tag' trivial trivial _ _ tagged
      obtain ⟨rfl,lists'⟩ := pagesDelimited offered offered' first first' _ _ lists
      obtain ⟨rfl,tail⟩ := pagesDelimited redundant redundant' second second' _ _ lists'
      obtain ⟨rfl,last⟩ := pagesDelimited rest rest' third third' _ _ tail
      obtain ⟨rfl,after⟩ := pagesDelimited victims victims' fourth fourth' _ _ last
      exact ⟨rfl,after⟩

theorem wrappedBytes (d : Decision) : d.wrapped.bytes = d.bytes := by
  have word (n : Nat) : littleEndian 8 (n % 256 ^ 8) = littleEndian 8 n := littleEndianSame.mpr (Nat.mod_mod _ _)
  cases d with
  | event | prefetch => simp only [Decision.wrapped,Decision.bytes,word]

theorem wrappedFits {d : Decision} (fits : d.Fits) : d.wrapped.sequence < 256 ^ 8 ∧ d.wrapped.Fits := by
  cases d with
  | event | prefetch => exact ⟨Nat.mod_lt _ (by decide),fits⟩

theorem wrappedEqual {a b : Decision} (same : a.wrapped = b.wrapped) (numbers : a.sequence = b.sequence) : a = b := by
  cases a with
  | event =>
    cases b with
    | event =>
      cases numbers
      simpa [Decision.wrapped] using same
    | prefetch => cases same
  | prefetch =>
    cases b with
    | event => cases same
    | prefetch =>
      cases numbers
      simpa [Decision.wrapped] using same

theorem bytesSome (d : Decision) : d.bytes ≠ [] := by
  cases d with
  | event | prefetch =>
    intro none
    have length := congrArg List.length (List.append_eq_nil_iff.mp none).1
    rw [littleEndianLength] at length
    contradiction

def Rising (log : List Decision) : Prop := List.IsChain Follows (0 :: log.map Decision.sequence)

theorem unwrappedEqual {n : Nat} {log log' : List Decision}
    (rising : List.IsChain Follows (n :: log.map Decision.sequence))
    (rising' : List.IsChain Follows (n :: log'.map Decision.sequence))
    (same : log.map Decision.wrapped = log'.map Decision.wrapped) : log = log' := by
  induction log generalizing n log' with
  | nil => exact (List.map_eq_nil_iff.mp same.symm).symm
  | cons d log ih =>
    cases log' with
    | nil => contradiction
    | cons e log' =>
      obtain ⟨first,later⟩ := List.isChain_cons_cons.mp rising
      obtain ⟨first',later'⟩ := List.isChain_cons_cons.mp rising'
      obtain ⟨here,rest⟩ := List.cons.inj same
      have remainders : d.sequence % 256 ^ 8 = e.sequence % 256 ^ 8 := by
        have numbers := congrArg Decision.sequence here
        cases d <;> cases e <;> exact numbers
      have numbers := followsExact (by decide) first first' remainders
      rw [wrappedEqual here numbers,ih later (numbers ▸ later') rest]

theorem logInjective {log log' : List Decision} (fits : ∀ d ∈ log, d.Fits) (fits' : ∀ d ∈ log', d.Fits)
    (rising : Rising log) (rising' : Rising log')
    (same : log.flatMap Decision.bytes = log'.flatMap Decision.bytes) : log = log' := by
  have shown (log : List Decision) : (log.map Decision.wrapped).flatMap Decision.bytes = log.flatMap Decision.bytes := by
    rw [List.flatMap_map]
    exact List.flatMap_congr (fun d _ => wrappedBytes d)
  have inside {log : List Decision} (fits : ∀ d ∈ log, d.Fits) :
      ∀ d ∈ log.map Decision.wrapped, d.sequence < 256 ^ 8 ∧ d.Fits := by
    intro d member
    obtain ⟨original,listed,rfl⟩ := List.mem_map.mp member
    exact wrappedFits (fits original listed)
  have wrapped := joinedInjective decisionDelimited bytesSome (inside fits) (inside fits')
    ((shown log).trans (same.trans (shown log').symm))
  exact unwrappedEqual rising rising' wrapped

section Logging
variable {catalog : PageCatalog} {capacityBytes sequence request step targetStep layer : Nat} {id : PageId} {k k' : Kernel}

def Numbered (residents : Residents) : Prop := Every residents (fun id _ => id < 256 ^ 4)

theorem pagesFit {pages : List PageId} (distinct : pages.Nodup) (small : ∀ id ∈ pages, id < 256 ^ 4) : PagesFit pages := by
  have length := (distinct.subperm (fun id member => List.mem_range.mpr (small id member))).length_le
  rw [List.length_range] at length
  exact ⟨Nat.lt_of_le_of_lt length (by decide),small⟩

structure Logs (sequence : Nat) (before after : List Decision) (added : List Decision) : Prop where
  appended : after = before ++ added
  numbered : ∀ d ∈ added, d.sequence = sequence
  fits : ∀ d ∈ added, d.Fits

theorem oneLogged {before after : List Decision} {d : Decision} (same : after = before ++ [d])
    (number : d.sequence = sequence) (fits : d.Fits) : Logs sequence before after [d] := by
  refine ⟨same,fun e member => ?_,fun e member => ?_⟩
  · cases List.mem_singleton.mp member
    exact number
  · cases List.mem_singleton.mp member
    exact fits

theorem servedLogged (catalogued : Catalogued catalog) (known : id < 256 ^ 4) (numbered : Numbered k.residents)
    (served : Served catalog capacityBytes sequence request step id k k') :
    (∃ d, Logs sequence k.decisions k'.decisions [d]) ∧ Numbered k'.residents := by
  have alone : PagesFit [] := ⟨by decide,nofun⟩
  have here : ∀ page ∈ some id, page < 256 ^ 4 := by
    rintro page ⟨⟩
    exact known
  have hit {residents : Residents} (policy : PolicyState) (touch : Nat) (before : Numbered residents) :
      Numbered (policy.onHit residents id touch) := by
    intro page e found
    obtain ⟨old,present,-⟩ := sameFound (hitSame policy residents id touch) found
    exact before page old present
  cases served with
  | hit => exact ⟨⟨_,oneLogged rfl rfl ⟨rfl,here,alone⟩⟩,hit _ _ numbered⟩
  | useful => exact ⟨⟨_,oneLogged rfl rfl ⟨rfl,here,alone⟩⟩,hit _ _ (everyInsert numbered known)⟩
  | bypass => exact ⟨⟨_,oneLogged rfl rfl ⟨rfl,here,alone⟩⟩,numbered⟩
  | @admitted victims absent planned frees =>
    have small : ∀ victim ∈ victims, victim < 256 ^ 4 := by
      intro victim member
      obtain ⟨e,found⟩ := Option.isSome_iff_exists.mp
        (ExtTreeMap.mem_iff_isSome_getElem?.mp (frees.resident victim member))
      exact numbered victim e found
    refine ⟨⟨.event sequence .demandMissAdmit (some id) victims,oneLogged ?_ rfl ⟨rfl,here,pagesFit frees.distinct small⟩⟩,?_⟩
    · exact congrArg (· ++ _) (allFrame (k.missed (catalog.page id).logicalBytes) victims).2.2
    · refine everyInsert (fun page e found => ?_) (by rwa [catalogued.identity])
      rw [allLookup] at found
      split at found
      · contradiction
      · exact numbered page e found

theorem frameLogged {pages : List PageId} {before after : Kernel} {o : GroupOutcome} (numbered : Numbered before.residents)
    (distinct : pages.Nodup) (small : ∀ id ∈ pages, id < 256 ^ 4) (frame : GroupFrame sequence pages before after o) :
    Numbered after.residents ∧ ∀ tag, o.tag = some tag → tag.grouped = true →
      ∃ d, Logs sequence before.decisions after.decisions [d] := by
  have present {page : PageId} (member : page ∈ o.victims) : page < 256 ^ 4 := by
    obtain ⟨e,found,-⟩ := frame.probation page member
    exact numbered page e found
  constructor
  · intro page e found
    by_cases gone : page ∈ o.victims
    · exact present gone
    by_cases loaded : page ∈ o.admitted
    · rw [frame.whole] at loaded
      split at loaded
      · exact small page (List.mem_filter.mp loaded).1
      · contradiction
    · rw [frame.kept page gone loaded] at found
      exact numbered page e found
  · intro tag tagged grouped
    have part {keep : PageId → Bool} : PagesFit (pages.filter keep) :=
      pagesFit (distinct.filter keep) (fun page member => small page (List.mem_filter.mp member).1)
    have logged := frame.logged
    rw [tagged] at logged
    exact ⟨_,oneLogged logged rfl ⟨grouped,pagesFit distinct small,part,part,
      pagesFit frame.distinct (fun _ member => present member)⟩⟩

theorem expertsLogged (catalogued : Catalogued catalog) {s out : Kernel × PrefetchBudget}
    {selected : List ExpertPrediction} (small : ∀ expert, ∀ id ∈ catalog.groupPages layer expert, id < 256 ^ 4)
    (sound : Sound catalog capacityBytes 0 0 s.1) (divided : s.1.policy.initialSegment = .probation)
    (numbered : Numbered s.1.residents)
    (ran : selected.foldlM (Kernel.prefetchExpert catalog capacityBytes sequence request targetStep layer) s = .ok out) :
    Numbered out.1.residents ∧ ∃ added, Logs sequence s.1.decisions out.1.decisions added ∧
      (selected ≠ [] → s.2.remainingPages ≠ 0 → added ≠ []) := by
  induction selected generalizing s with
  | nil =>
    cases foldNil.mp ran
    exact ⟨numbered,[],⟨(List.append_nil _).symm,nofun,nofun⟩,fun none => absurd rfl none⟩
  | cons prediction rest ih =>
    obtain ⟨middle,first,later⟩ := foldCons.mp ran
    obtain ⟨after,policy,o,frame,-,tagged⟩ := expertFrame catalogued sound divided first
    obtain ⟨still,logs⟩ := frameLogged numbered (catalogued.groups layer prediction.expert) (small _) frame
    obtain ⟨last,added,more,-⟩ := ih after (policy ▸ divided) still later
    refine ⟨last,?_⟩
    rcases tagged with ⟨untried,spent⟩ | ⟨tag,tried,grouped⟩
    · have same := frame.logged
      rw [untried] at same
      have same : middle.1.decisions = s.1.decisions := same.trans (List.append_nil _)
      exact ⟨added,⟨same ▸ more.appended,more.numbered,more.fits⟩,fun _ room => absurd spent room⟩
    · obtain ⟨d,here⟩ := logs tag tried grouped
      refine ⟨d::added,⟨?_,?_,?_⟩,fun _ _ => List.cons_ne_nil _ _⟩
      · rw [more.appended,here.appended,List.append_assoc]
        rfl
      · exact List.forall_mem_cons.mpr ⟨here.numbered d List.mem_cons_self,more.numbered⟩
      · exact List.forall_mem_cons.mpr ⟨here.fits d List.mem_cons_self,more.fits⟩

theorem signalLogged (catalogued : Catalogued catalog) {predictions : List ExpertPrediction}
    (small : ∀ expert, ∀ id ∈ catalog.groupPages layer expert, id < 256 ^ 4) (sound : Sound catalog capacityBytes 0 0 k)
    (room : ∀ state, k.policy = .router state → state.config.maxPagesPerSignal ≠ 0) (numbered : Numbered k.residents)
    (ok : k.signal catalog capacityBytes sequence request targetStep layer predictions = .ok k') :
    Numbered k'.residents ∧ ∃ added, Logs sequence k.decisions k'.decisions added ∧ added ≠ [] := by
  have one (tag : DecisionTag) (kind : tag.grouped = false) : ∃ added, Logs sequence k.decisions
      (k.decisions ++ [.event sequence tag none []]) added ∧ added ≠ [] :=
    ⟨_,oneLogged rfl rfl ⟨kind,nofun,by decide,nofun⟩,List.cons_ne_nil _ _⟩
  unfold Kernel.signal at ok
  cases configured : k.policy.routerConfig with
  | none =>
    rw [configured] at ok
    cases ok
    exact ⟨numbered,one .signalIgnored rfl⟩
  | some config =>
    obtain ⟨state,policy,rfl⟩ : ∃ state, k.policy = .router state ∧ state.config = config := by
      cases policy : k.policy with
      | router state =>
        rw [policy] at configured
        exact ⟨state,rfl,Option.some.inj configured⟩
      | noCache | lru | slru | tinyLfu =>
        rw [policy] at configured
        contradiction
    simp only [configured] at ok
    split at ok
    · cases ok
      exact ⟨numbered,one .signalEmpty rfl⟩
    rename_i some_
    obtain ⟨recorded,after,ok⟩ := bindOk.mp ok
    split at ok
    · cases ok
      exact ⟨numbered,one .signalAdmissionOnly rfl⟩
    obtain ⟨⟨last,left⟩,ran,done⟩ := bindOk.mp ok
    cases done
    have divided : recorded.initialSegment = .probation := by
      rw [policy,PolicyState.recordSignal,if_neg some_] at after
      obtain ⟨next,-,same⟩ := bindOk.mp after
      cases same
      rfl
    obtain ⟨still,added,logs,nonempty⟩ :=
      expertsLogged catalogued small (recordedSound sound recorded) divided numbered ran
    refine ⟨still,added,logs,nonempty (fun none => some_ (List.isEmpty_iff.mpr none)) (room state policy)⟩

end Logging

section Replayed
variable {trace : ValidatedTrace} {config : SimulationConfig} {start k : Kernel} {past rest : List TraceEvent}

theorem knownSmall {id : PageId} (known : id < trace.pages.length) : id < 256 ^ 4 := by
  obtain ⟨scan,scanned,-⟩ := bindOk.mp trace.pagesValid
  have listed : (trace.page id,id) ∈ trace.pages.zipIdx := by
    rw [List.mem_zipIdx_iff_getElem?]
    exact pageKnown known
  obtain ⟨before,after,ok⟩ := foldEach scanned listed
  obtain ⟨small,-⟩ := guardOk.mp ok
  exact Nat.lt_of_le_of_lt (Nat.le_of_not_lt small) (by decide)

theorem groupSmall (trace : ValidatedTrace) (layer expert : Nat) :
    ∀ id ∈ trace.catalog.groupPages layer expert, id < 256 ^ 4 := by
  intro id member
  obtain ⟨page,listed,rfl,-⟩ := (groupMembers trace layer expert id).mp member
  obtain ⟨i,found⟩ := List.getElem?_of_mem listed
  rw [((catalogValid trace).2 i page found).id]
  exact knownSmall (List.getElem?_eq_some_iff.mp found).1

structure LogKept (past : List TraceEvent) (k : Kernel) : Prop where
  numbered : Numbered k.residents
  fits : ∀ d ∈ k.decisions, d.Fits
  rising : Rising k.decisions
  last : (0 :: k.decisions.map Decision.sequence).getLast? = some (past.length - 1)

theorem logGrows {event : TraceEvent} {k' : Kernel} (kept : LogKept past k) (number : event.sequence = past.length)
    (numbered : Numbered k'.residents) {added : List Decision}
    (logs : Logs event.sequence k.decisions k'.decisions added) (some_ : added ≠ []) : LogKept (past ++ [event]) k' := by
  have numbers : added.map Decision.sequence = List.replicate added.length past.length := by
    refine List.eq_replicate_iff.mpr ⟨List.length_map _,fun n member => ?_⟩
    obtain ⟨d,listed,rfl⟩ := List.mem_map.mp member
    rw [logs.numbered d listed,number]
  have whole : (0 :: k'.decisions.map Decision.sequence) =
      (0 :: k.decisions.map Decision.sequence) ++ List.replicate added.length past.length := by
    rw [logs.appended,List.map_append,numbers,List.cons_append]
  obtain ⟨count,positive⟩ : ∃ count, added.length = count + 1 :=
    Nat.exists_eq_succ_of_ne_zero (fun none => some_ (List.eq_nil_of_length_eq_zero none))
  refine ⟨numbered,?_,?_,?_⟩
  · rw [logs.appended]
    exact List.forall_mem_append.mpr ⟨kept.fits,logs.fits⟩
  · unfold Rising
    rw [whole,List.isChain_append]
    refine ⟨kept.rising,List.isChain_replicate_of_rel _ (.inl rfl),fun a before b after => ?_⟩
    rw [kept.last] at before
    cases Option.some.inj before
    rw [positive] at after
    cases Option.some.inj after
    unfold Follows
    omega
  · rw [whole,positive,List.replicate_succ',← List.append_assoc,List.getLast?_concat]
    simp

theorem pagesRemain (made : Kernel.new trace config = .ok start) (parts : trace.events = past ++ rest)
    (reached : past.foldlM (Kernel.event trace.catalog config.capacityBytes) start = .ok k) {state : RouterState}
    (same : k.policy = .router state) : state.config.maxPagesPerSignal ≠ 0 := by
  have kept := congrArg PolicyState.routerConfig (reachedSettings made parts reached)
  obtain ⟨ceiling,policy,limited,created,rfl⟩ := newOk.mp made
  have router : config.policy.router? = some state.config := by
    rw [← newRouter created]
    rw [same] at kept
    cases policy with
    | router first => exact kept.symm
    | noCache | lru | slru | tinyLfu => contradiction
  exact ((routedNewOk router).mp created).1.pages

theorem reachedLog (made : Kernel.new trace config = .ok start) (parts : trace.events = past ++ rest)
    (reached : past.foldlM (Kernel.event trace.catalog config.capacityBytes) start = .ok k) : LogKept past k := by
  refine reachedInvariant LogKept made ?_ ?_ parts reached
  · obtain ⟨ceiling,policy,-,-,rfl⟩ := newOk.mp made
    exact ⟨everyEmpty _,nofun,List.isChain_singleton _,rfl⟩
  · intro past event k k' next before kept sound ok stepped
    obtain ⟨later,parts⟩ := id next
    have number : event.sequence = past.length := (traceEventsCausal trace).dense _ event (hereAt parts)
    cases stepped with
    | @demand sequence request step id policy entered served =>
      have known := knownSmall (demandKnown (List.mem_filterMap.mpr ⟨_,nextMember next,rfl⟩))
      obtain ⟨⟨d,logs⟩,numbered⟩ := servedLogged (k := k.demanded (policy.observeDemand id) _) (traceCatalogued trace) known
        kept.numbered served
      exact logGrows kept number numbered logs (List.cons_ne_nil _ _)
    | @signal sequence request targetStep layer predictions =>
      obtain ⟨numbered,added,logs,some_⟩ := signalLogged (traceCatalogued trace) (groupSmall trace layer) sound
        (fun _ same => pagesRemain made parts before same) kept.numbered ok
      exact logGrows kept number numbered logs some_

theorem decisionLogInjective {trace' : ValidatedTrace} {config' : SimulationConfig} {start' k' : Kernel}
    {past' rest' : List TraceEvent}
    (made : Kernel.new trace config = .ok start) (parts : trace.events = past ++ rest)
    (reached : past.foldlM (Kernel.event trace.catalog config.capacityBytes) start = .ok k)
    (made' : Kernel.new trace' config' = .ok start') (parts' : trace'.events = past' ++ rest')
    (reached' : past'.foldlM (Kernel.event trace'.catalog config'.capacityBytes) start' = .ok k')
    (same : k.hashed = k'.hashed) : k.decisions = k'.decisions := by
  have kept := reachedLog made parts reached
  have kept' := reachedLog made' parts' reached'
  exact logInjective kept.fits kept'.fits kept.rising kept'.rising same

end Replayed

def roomier : SimulationConfig := ⟨256,prefetching.policy⟩

theorem roomierStart : (Kernel.new routed roomier).toOption.isSome := by decide +kernel

theorem roomierFilled : ((routed.events.take 2).foldlM (Kernel.event routed.catalog 256)
    (value _ roomierStart)).toOption.isSome := by decide +kernel

theorem routedLogged :
    (value _ routedFilled).hashed = (value _ roomierFilled).hashed ∧
      (value _ routedFilled).decisions = (value _ roomierFilled).decisions := by
  have same : (value _ routedFilled).hashed = (value _ roomierFilled).hashed := by decide +kernel
  exact ⟨same,decisionLogInjective (valueOk routedStart) (List.take_append_drop 2 routed.events).symm
    (valueOk routedFilled) (valueOk roomierStart) (List.take_append_drop 2 routed.events).symm (valueOk roomierFilled) same⟩

end RunnelMoe.Sim
