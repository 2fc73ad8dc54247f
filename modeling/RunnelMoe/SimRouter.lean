import RunnelMoe.SimPrefetch

/-! Router memory. The metadata ledger is the total over the held signals, every held
signal was emitted before, and what was recorded so far is the part of the ceiling that
the past events account for. A demand retires signals; only a signal adds one. -/
namespace RunnelMoe.Sim
open Words KeyedSum Results Vectors
open Std (ExtTreeMap)

def signalBytes (count : Nat) : Nat := 24 + count * 8

def heldBytes (signals : ExtTreeMap SignalKey ActiveSignal) : Nat :=
  total (fun _ signal => signalBytes signal.scores.size) signals

def activeBytes (active : ActiveSignals) : Nat := total (fun _ signals => heldBytes signals) active

structure HeldSound (past : List (Nat × Nat × Nat)) (request : Nat) (signals : ExtTreeMap SignalKey ActiveSignal) :
    Prop where
  some : signals.isEmpty = false
  scored : Every signals (fun _ signal => signal.scores.isEmpty = false)
  emitted : Every signals (fun key _ => (request,key.targetStep,key.layer) ∈ past)

structure RouterSound (past : List (Nat × Nat × Nat)) (spent : Nat) (state : RouterState) : Prop where
  live : state.currentMetadataBytes = activeBytes state.active
  held : Every state.active (HeldSound past)
  current : state.currentMetadataBytes ≤ state.peakMetadataBytes
  peak : state.peakMetadataBytes ≤ state.recordedMetadataBytes
  recorded : state.recordedMetadataBytes = spent

theorem signalBytesSafe (count : Nat) : Safe (· = signalBytes count) (routerSignalMetadataBytes count) := by
  have product : Safe (· = count * 8) (okOr (.counterOverflow "router prediction metadata")
      (checkedMul count routerPredictionBytes)) := by
    unfold checkedMul
    split
    · exact rfl
    · exact trivial
  refine endsBind product (fun _ same => ?_)
  subst same
  exact checkedSafe ..

section Entering
variable {past : List (Nat × Nat × Nat)} {spent request step : Nat} {state : RouterState}

def retiredRows (signals : ExtTreeMap SignalKey ActiveSignal) (step : Nat) : List (SignalKey × ActiveSignal) :=
  signals.toList.takeWhile (fun row => row.1.targetStep < step)

def keptSignals (signals : ExtTreeMap SignalKey ActiveSignal) (step : Nat) : ExtTreeMap SignalKey ActiveSignal :=
  (retiredRows signals step).foldl (fun signals row => signals.erase row.1) signals

def keptActive (active : ActiveSignals) (request step : Nat) (signals : ExtTreeMap SignalKey ActiveSignal) :
    ActiveSignals :=
  if (keptSignals signals step).isEmpty then active.erase request
  else active.insert request (keptSignals signals step)

theorem retiredTotal (signals : ExtTreeMap SignalKey ActiveSignal) (step : Nat) :
    heldBytes (keptSignals signals step) +
      ((retiredRows signals step).map (fun row => signalBytes row.2.scores.size)).sum = heldBytes signals := by
  have front : (retiredRows signals step).Sublist signals.toList := List.takeWhile_sublist _
  refine totalErasedAll ((keysNodup signals).sublist (front.map Prod.fst)) (fun row member => ?_)
  exact memToList.mp (front.subset member)

variable {signals : ExtTreeMap SignalKey ActiveSignal}

theorem keptEvery {P : SignalKey → ActiveSignal → Prop} (step : Nat)
    (every : Every signals P) : Every (keptSignals signals step) P := by
  intro key signal found
  rw [keptSignals,erasedAll] at found
  split at found
  · contradiction
  · exact every key signal found

theorem emptyBytes (none : signals.isEmpty = true) :
    heldBytes signals = 0 := by
  rw [ExtTreeMap.isEmpty_iff] at none
  rw [none]
  exact totalEmpty _

theorem keptBytes {active : ActiveSignals} (step : Nat) (found : active[request]? = some signals) :
    activeBytes (keptActive active request step signals) +
      ((retiredRows signals step).map (fun row => signalBytes row.2.scores.size)).sum = activeBytes active := by
  have split := totalSplit (fun _ signals => heldBytes signals) found
  have retired := retiredTotal signals step
  unfold activeBytes keptActive
  split
  · rename_i none
    rw [emptyBytes none] at retired
    omega
  · rw [totalInsert]
    omega

theorem keptHeld {active : ActiveSignals} (step : Nat)
    (held : Every active (HeldSound past)) (found : active[request]? = some signals) :
    Every (keptActive active request step signals) (HeldSound past) := by
  unfold keptActive
  split
  · exact everyErase held
  · rename_i some_
    have before := held request signals found
    exact everyInsert held ⟨Bool.eq_false_iff.mpr some_,keptEvery step before.scored,keptEvery step before.emitted⟩

theorem enterSafe (sound : RouterSound past spent state) :
    Safe (fun next => RouterSound past spent next ∧ ∃ active current,
        next = {state with active := active, currentMetadataBytes := current})
      (state.enterDemandStep request step) := by
  unfold RouterState.enterDemandStep
  split
  · exact ⟨sound,_,_,rfl⟩
  · rename_i signals found
    have bytes := keptBytes step found
    have live := sound.live
    have current := sound.current
    have sums : Safe (· = 0 + ((retiredRows signals step).map (fun row => signalBytes row.2.scores.size)).sum)
        ((retiredRows signals step).foldlM (fun bytes row => do
          let signalBytes ← routerSignalMetadataBytes row.2.scores.size
          okOr (.counterOverflow "retired router metadata") (checkedAdd bytes signalBytes)) 0) := by
      refine sumSafe (fun sum row _ => endsBind (signalBytesSafe _) (fun _ same => ?_)) 0
      subst same
      exact checkedSafe ..
    refine endsBind sums (fun retired same => ?_)
    rw [Nat.zero_add] at same
    subst same
    refine endsBind (subtractSafe _ (by omega)) (fun left same => ?_)
    subst same
    refine ⟨⟨?_,keptHeld step sound.held found,?_,sound.peak,sound.recorded⟩,_,_,rfl⟩
    · show state.currentMetadataBytes - _ = activeBytes (keptActive state.active request step signals)
      omega
    · show state.currentMetadataBytes - _ ≤ state.peakMetadataBytes
      omega

end Entering

section Recording
variable {past : List (Nat × Nat × Nat)} {spent request targetStep layer : Nat} {state : RouterState}
  {predictions : List ExpertPrediction}

theorem scoresSize (distinct : (predictions.map ExpertPrediction.expert).Nodup) :
    (scoresOf predictions).size = predictions.length := by
  have size := sizeInsertedAll ExpertPrediction.expert ExpertPrediction.scorePpm (m := (∅ : ExtTreeMap Nat Nat))
    distinct (fun _ _ => by simp)
  rwa [ExtTreeMap.size_empty,Nat.zero_add] at size

def recordedActive (active : ActiveSignals) (request : Nat) (key : SignalKey) (predictions : List ExpertPrediction) :
    ActiveSignals :=
  active.insert request ((active[request]?.getD ∅).insert key ⟨scoresOf predictions⟩)

theorem unrecorded (held : Every state.active (HeldSound past)) (fresh : (request,targetStep,layer) ∉ past) :
    (state.active[request]?.getD ∅)[(⟨targetStep,layer⟩ : SignalKey)]? = none := by
  cases found : state.active[request]? with
  | none => simp
  | some signals =>
    cases inside : signals[(⟨targetStep,layer⟩ : SignalKey)]? with
    | none => simpa using inside
    | some signal => exact absurd ((held request signals found).emitted _ _ inside) fresh

theorem recordedBytes {active : ActiveSignals} {key : SignalKey}
    (distinct : (predictions.map ExpertPrediction.expert).Nodup)
    (fresh : (active[request]?.getD ∅)[key]? = none) :
    activeBytes (recordedActive active request key predictions) =
      activeBytes active + signalBytes predictions.length := by
  have inner : heldBytes ((active[request]?.getD ∅).insert key ⟨scoresOf predictions⟩) =
      signalBytes predictions.length + heldBytes (active[request]?.getD ∅) := by
    rw [heldBytes,totalInsert,totalAbsent _ fresh,scoresSize distinct]
    rfl
  unfold activeBytes recordedActive
  rw [totalInsert,inner]
  cases found : active[request]? with
  | none =>
    rw [totalAbsent _ found]
    have none : heldBytes (∅ : ExtTreeMap SignalKey ActiveSignal) = 0 := totalEmpty _
    simp only [Option.getD_none,none]
    omega
  | some signals =>
    have split := totalSplit (fun _ signals => heldBytes signals) found
    simp only [Option.getD_some]
    omega

theorem recordedHeld {active : ActiveSignals} (held : Every active (HeldSound past))
    (distinct : (predictions.map ExpertPrediction.expert).Nodup) (some_ : predictions ≠ []) :
    Every (recordedActive active request ⟨targetStep,layer⟩ predictions)
      (HeldSound ((request,targetStep,layer)::past)) := by
  have older (r) (signals) (sound : HeldSound past r signals) : HeldSound ((request,targetStep,layer)::past) r signals :=
    ⟨sound.some,sound.scored,fun key signal found => List.mem_cons_of_mem _ (sound.emitted key signal found)⟩
  have size := scoresSize distinct
  have nonempty : (scoresOf predictions).isEmpty = false := by
    rw [ExtTreeMap.isEmpty_eq_size_beq_zero,size]
    simpa using some_
  refine everyInsert (fun r signals found => older r signals (held r signals found)) ⟨?_,?_,?_⟩
  · simp
  · refine everyInsert ?_ nonempty
    cases found : active[request]? with
    | none => exact everyEmpty _
    | some signals => exact (held request signals found).scored
  · refine everyInsert ?_ List.mem_cons_self
    cases found : active[request]? with
    | none => exact everyEmpty _
    | some signals => exact (older request signals (held request signals found)).emitted

theorem recordSafe (sound : RouterSound past spent state) (distinct : (predictions.map ExpertPrediction.expert).Nodup)
    (some_ : predictions ≠ []) (fresh : (request,targetStep,layer) ∉ past)
    (room : spent + signalBytes predictions.length ≤ state.metadataLimitBytes) :
    Safe (fun next => RouterSound ((request,targetStep,layer)::past) (spent + signalBytes predictions.length) next ∧
        next.config = state.config ∧ next.metadataLimitBytes = state.metadataLimitBytes)
      (state.recordSignal request targetStep layer predictions) := by
  have size := scoresSize distinct
  have free := unrecorded sound.held fresh
  have unseen : ¬ state.active[request]?.any (fun signals => signals.contains (⟨targetStep,layer⟩ : SignalKey)) := by
    cases found : state.active[request]? with
    | none => simp
    | some signals =>
      rw [found,Option.getD_some] at free
      rw [Option.any_some,ExtTreeMap.contains_eq_isSome_getElem?,free]
      exact Bool.false_ne_true
  have live := sound.live
  have current := sound.current
  have peak := sound.peak
  have recorded := sound.recorded
  unfold RouterState.recordSignal
  simp only
  rw [if_neg (not_not.mpr size),if_neg unseen]
  refine endsBind (signalBytesSafe _) (fun _ same => ?_)
  subst same
  refine endsBind (checkedSafe ..) (fun _ same => ?_)
  subst same
  refine endsBind (checkedSafe ..) (fun _ same => ?_)
  subst same
  rw [size,if_neg (by omega)]
  refine ⟨⟨?_,recordedHeld sound.held distinct some_,?_,?_,?_⟩,rfl,rfl⟩
  · show state.currentMetadataBytes + signalBytes predictions.length =
      activeBytes (recordedActive state.active request ⟨targetStep,layer⟩ predictions)
    rw [recordedBytes distinct free]
    omega
  · exact Nat.le_max_right _ _
  · show max state.peakMetadataBytes (state.currentMetadataBytes + signalBytes predictions.length) ≤
      state.recordedMetadataBytes + signalBytes predictions.length
    omega
  · show state.recordedMetadataBytes + signalBytes predictions.length = spent + signalBytes predictions.length
    omega

theorem finishSignalsSafe {bytes : Nat} {signals : ExtTreeMap SignalKey ActiveSignal}
    (held : HeldSound past request signals) :
    Safe (· = bytes + heldBytes signals) (finishSignals bytes (request,signals)) := by
  unfold finishSignals
  rw [if_neg (by simp [held.some])]
  refine sumSafe (fun sum row member => ?_) bytes
  have scored := held.scored row.1 row.2 (memToList.mp member)
  rw [if_neg (by simp [scored])]
  refine endsBind (signalBytesSafe _) (fun _ same => ?_)
  subst same
  exact checkedSafe ..

theorem finishRouterSafe (sound : RouterSound past spent state) (all : spent = state.metadataLimitBytes) :
    Safe (fun _ => True) state.finishMetadata := by
  have sums : Safe (· = 0 + activeBytes state.active) (state.active.toList.foldlM finishSignals 0) :=
    sumSafe (fun sum row member => finishSignalsSafe (sound.held row.1 row.2 (memToList.mp member))) 0
  have live := sound.live
  have current := sound.current
  have peak := sound.peak
  have recorded := sound.recorded
  refine endsBind sums (fun _ same => ?_)
  subst same
  rw [if_neg (by omega),if_neg (by omega),if_neg (by omega)]
  exact trivial

end Recording

def RouterState.adorned (target : Nat → Nat) (config : RouterPolicyConfig → RouterPolicyConfig) (prefetch : Bool → Bool)
    (limit : Nat → Nat) (state : RouterState) : RouterState :=
  {state with
    protectedTarget := target state.protectedTarget, config := config state.config,
    prefetch := prefetch state.prefetch, metadataLimitBytes := limit state.metadataLimitBytes}

section Settings
variable (target : Nat → Nat) (config : RouterPolicyConfig → RouterPolicyConfig) (prefetch : Bool → Bool)
  (limit : Nat → Nat) (state : RouterState)

theorem enterAdorned (request step : Nat) :
    (state.adorned target config prefetch limit).enterDemandStep request step =
      (state.enterDemandStep request step).map (RouterState.adorned target config prefetch limit) := by
  have active : (state.adorned target config prefetch limit).active = state.active := rfl
  unfold RouterState.enterDemandStep
  rw [active]
  cases state.active[request]? with
  | none => rfl
  | some signals =>
    simp only [mapBind]
    rfl

theorem recordAdorned (request targetStep layer : Nat) (predictions : List ExpertPrediction) :
    (state.adorned target config prefetch id).recordSignal request targetStep layer predictions =
      (state.recordSignal request targetStep layer predictions).map (RouterState.adorned target config prefetch id) := by
  unfold RouterState.recordSignal RouterState.adorned
  simp only [id]
  split
  · rfl
  split
  · rfl
  simp only [mapBind]
  congr 1
  funext charge
  congr 1
  funext current
  congr 1
  funext recorded
  show (if _ then _ else _) = Except.map _ (if _ then _ else _)
  split <;> rfl

end Settings

end RunnelMoe.Sim
