import RunnelMoe.CasCollect
import RunnelMoe.CasPlays
import RunnelMoe.ManifestUnique

/-! Names in the staging directory. A name is accepted exactly when it spells a kind, a
digest, a positive length and random digits. Every other name is refused, except one
whose 64th byte after the kind lies inside a character: there the split of the name
panics, and so does every operation that lists the stages. -/
namespace RunnelMoe.Cas
open Std (ExtTreeMap)
open Readers Results StoreErrors Words Format PageSpecs Scripts Script KeyedSum

def Named (name : Bytes) : Prop :=
  ∃ kind digest expectedLength random, isLowerHex digest 64 = true ∧ 0 < expectedLength ∧ expectedLength < modulus ∧
    isLowerHex random 32 = true ∧
    name = text "rmoa-stage-v1-" ++ (text (BlobKind.tokenName kind) ++ 45::(digest ++ 45::(decimal expectedLength ++ 45::random)))

-- A name that is long enough to be split after the 64 digits of its digest, inside a character.
def Straddles (name : Bytes) : Prop :=
  ∃ kind rest b, name = text "rmoa-stage-v1-" ++ (text (BlobKind.tokenName kind) ++ 45::rest) ∧ 99 ≤ rest.length ∧
    rest[64]? = some b ∧ continuation b = true

section Parts
variable {name rest : Bytes} {kind : BlobKind}

theorem strips (start rest : Bytes) : strip start (start ++ rest) = some rest := by
  rw [strip,if_pos (List.prefix_append ..),List.drop_left]

theorem kindFound (kind : BlobKind) (rest : Bytes) : ResumeToken.kindAndRest (kindStart kind ++ rest) = some (kind,rest) := by
  have other {wrong : BlobKind} (differs : wrong ≠ kind) : strip (kindStart wrong) (kindStart kind ++ rest) = none := by
    cases found : strip (kindStart wrong) (kindStart kind ++ rest) with
    | none => rfl
    | some tail => exact absurd (kindStartUnique (stripped found)).symm differs
  unfold ResumeToken.kindAndRest
  cases kind with
  | manifest => simp [strips]
  | pageTable => simp [strips,other (show BlobKind.manifest ≠ .pageTable by decide)]
  | object =>
    simp [strips,other (show BlobKind.manifest ≠ .object by decide),other (show BlobKind.pageTable ≠ .object by decide)]

theorem kindRead (found : ResumeToken.kindAndRest name = some (kind,rest)) : name = kindStart kind ++ rest := by
  obtain ⟨wanted,-,same⟩ := List.exists_of_findSome?_eq_some found
  obtain ⟨tail,split,pair⟩ := Option.map_eq_some_iff.mp same
  cases pair
  exact stripped split

theorem rsplitFound (front : Bytes) {back : Bytes} (none : 45 ∉ back) :
    rsplitOnce 45 (front ++ 45::back) = some (front,back) := by
  have nothing {bytes : Bytes} (absent : 45 ∉ bytes) : rsplitOnce 45 bytes = .none := by
    induction bytes with
    | nil => rfl
    | cons b rest ih =>
      rw [List.mem_cons,not_or] at absent
      rw [rsplitOnce,ih absent.2]
      exact if_neg (Ne.symm absent.1)
  induction front with
  | nil =>
    rw [List.nil_append,rsplitOnce,nothing none]
    rfl
  | cons b rest ih => rw [List.cons_append,rsplitOnce,ih]

theorem lowerHexBytes {value : Bytes} {length : Nat} (hex : isLowerHex value length = true) :
    value.length = length ∧ ∀ b ∈ value, ∃ n, lowercaseHexValue b = some n := by
  simp only [isLowerHex,Bool.and_eq_true,decide_eq_true_eq,List.all_eq_true,Bool.or_eq_true,isDigit] at hex
  refine ⟨hex.1,fun b member => ?_⟩
  unfold lowercaseHexValue
  rcases hex.2 b member with digit | letter
  · exact ⟨_,if_pos digit⟩
  · split
    · exact ⟨_,rfl⟩
    · exact ⟨_,rfl⟩

theorem hexPlain {b : UInt8} {n : Nat} (read : lowercaseHexValue b = some n) : b ≠ 45 := by
  rintro rfl
  contradiction

theorem hexPairsRead {digits : Bytes} (all : ∀ b ∈ digits, ∃ n, lowercaseHexValue b = some n) :
    ∃ bytes, hexPairs digits = some bytes := by
  induction digits using hexPairs.induct with
  | case1 h l rest ih =>
    obtain ⟨high,first⟩ := all h (by simp)
    obtain ⟨low,second⟩ := all l (by simp)
    obtain ⟨bytes,later⟩ := ih (fun b member => all b (by simp [member]))
    exact ⟨_,by simp only [hexPairs,first,second,later]; rfl⟩
  | case2 digits short => exact ⟨[],by rw [hexPairs]; exact short⟩

theorem digestSpelled {hex : Bytes} (lower : isLowerHex hex 64 = true) :
    ∃ digest, digestFromStr (digestStart ++ hex) = .ok digest ∧ pathComponent digest = hex := by
  obtain ⟨length,all⟩ := lowerHexBytes lower
  obtain ⟨bytes,read⟩ := hexPairsRead all
  have parsed : ∃ digest, digestFromStr (digestStart ++ hex) = .ok digest := by
    unfold digestFromStr
    rw [if_pos (List.prefix_append ..)]
    simp only [List.drop_left]
    rw [dif_pos length]
    split
    · rename_i none
      rw [List.drop_left,read] at none
      contradiction
    · exact ⟨_,rfl⟩
  obtain ⟨digest,ok⟩ := parsed
  exact ⟨digest,ok,(List.append_cancel_left (digestRead ok)).symm⟩

theorem numberRead {n : Nat} (small : n < modulus) : parseU64 (decimal n) = some n := by
  have all := decimalDigits n
  obtain ⟨b,rest,shape,digit,-,-⟩ := decimalHead n
  have unsigned : ¬((decimal n).length > 1 ∧ (decimal n).head? = some 43) := by
    rintro ⟨-,plus⟩
    rw [shape,List.head?_cons] at plus
    cases Option.some.inj plus
    contradiction
  have proper : ¬((decimal n).isEmpty = true ∨ (!(decimal n).all isDigit) = true) := by
    rw [List.all_eq_true.mpr all,shape]
    simp
  have read : digits 0 (decimal n ++ []) = (n,[]) := digitsDecimal n nofun
  rw [List.append_nil] at read
  simp only [parseU64,if_neg unsigned,if_neg proper,read,if_pos small]

theorem numberSmall {bytes : Bytes} {n : Nat} (read : parseU64 bytes = some n) : n < modulus := by
  simp only [parseU64] at read
  generalize (if bytes.length > 1 ∧ bytes.head? = some 43 then bytes.drop 1 else bytes) = unsigned at read
  split at read
  · contradiction
  · split at read
    · rename_i small
      cases Option.some.inj read
      exact small
    · contradiction

theorem pathComponentLower (digest : Digest) : isLowerHex (pathComponent digest) 64 = true := by
  have lower : ∀ n < 16, (isDigit (hexDigit n) || (97 ≤ hexDigit n && hexDigit n ≤ 102)) = true := by decide
  have pairs (bytes : Bytes) : (bytes.flatMap hexPair).all (fun b => isDigit b || (97 ≤ b && b ≤ 102)) = true := by
    induction bytes with
    | nil => rfl
    | cons b rest ih =>
      have small : b.toNat < 256 := b.toNat_lt
      rw [List.flatMap_cons,List.all_append,ih,Bool.and_true]
      simp only [hexPair,List.all_cons,List.all_nil,Bool.and_true,Bool.and_eq_true]
      exact ⟨lower _ (by omega),lower _ (by omega)⟩
  rw [isLowerHex,pathComponentLength,Format.pathComponent,pairs]
  rfl

theorem digestCut {hex : Bytes} (width : hex.length = 64) (rest : Bytes) :
    (hex ++ 45::rest).take 64 = hex ∧ (hex ++ 45::rest).drop 64 = [45] ++ rest ∧
      isCharBoundary (hex ++ 45::rest) 64 = true := by
  have dash : (hex ++ 45::rest)[64]? = some 45 := by
    rw [← width,List.getElem?_append_right (Nat.le_refl _),Nat.sub_self]
    rfl
  refine ⟨?_,?_,?_⟩
  · rw [← width,List.take_left]
  · rw [← width,List.drop_left]
    rfl
  · simp only [isCharBoundary,dash]
    rfl

theorem lengthCanonical {n : Nat} (positive : 0 < n) :
    (decimal n).isEmpty = false ∧ ¬((decimal n).length > 1 ∧ (decimal n).head? = some 48) := by
  obtain ⟨b,rest,shape,-,zero,-⟩ := decimalHead n
  rw [shape]
  refine ⟨rfl,fun both => ?_⟩
  exact Nat.ne_of_gt positive (zero (Option.some.inj both.2))

end Parts

section Names
variable {name : Bytes}

theorem startSpelled (kind : BlobKind) (rest : Bytes) :
    text "rmoa-stage-v1-" ++ (text kind.tokenName ++ 45::rest) = stageStart ++ (kindStart kind ++ rest) := by
  rw [kindStart,List.append_assoc]
  rfl

theorem namedRead (named : Named name) : ∃ token, ResumeToken.fromStageName name = .ok token := by
  obtain ⟨kind,hex,expectedLength,random,lower,positive,small,lower',rfl⟩ := named
  obtain ⟨digest,parsed,shown⟩ := digestSpelled lower
  have width := (lowerHexBytes lower).1
  have width' := (lowerHexBytes lower').1
  obtain ⟨cut,tail,boundary⟩ := digestCut width (decimal expectedLength ++ 45::random)
  obtain ⟨filled,leading⟩ := lengthCanonical positive
  have dashless : 45 ∉ random := by
    intro member
    obtain ⟨n,read⟩ := (lowerHexBytes lower').2 45 member
    exact hexPlain read rfl
  have enough : 0 < (decimal expectedLength).length := List.length_pos_iff.mpr (fun none => by
    rw [none] at filled
    contradiction)
  have long : ¬(hex ++ 45::(decimal expectedLength ++ 45::random)).length < 64 + 1 + 1 + 1 + randomHexBytes := by
    simp only [List.length_append,List.length_cons,width,width',randomHexBytes]
    omega
  have canonical : (!isLowerHex hex 64 || !isLowerHex random randomHexBytes || (decimal expectedLength).isEmpty ||
      ((decimal expectedLength).length > 1 && (decimal expectedLength).head? = some 48)) = false := by
    rw [lower,show isLowerHex random randomHexBytes = true from lower',filled]
    simpa using leading
  have whole : stageStart ++ (kindStart kind ++ (hex ++ 45::(decimal expectedLength ++ 45::random))) =
      stageStem kind digest expectedLength ++ random := by
    simp [stageStem,shown]
  rw [startSpelled]
  refine ⟨⟨kind,digest,expectedLength,stageStart ++ (kindStart kind ++ (hex ++ 45::(decimal expectedLength ++ 45::random)))⟩,?_⟩
  unfold ResumeToken.fromStageName
  refine bindOk.mpr ⟨_,orFailOk.mpr (strips ..),bindOk.mpr ⟨_,orFailOk.mpr (kindFound ..),?_⟩⟩
  simp only
  rw [if_neg long,if_neg (by simp [boundary]),cut,tail]
  refine bindOk.mpr ⟨_,orFailOk.mpr (strips ..),bindOk.mpr ⟨_,orFailOk.mpr (rsplitFound _ dashless),?_⟩⟩
  simp only
  rw [if_neg (by rw [canonical]; exact Bool.false_ne_true)]
  refine bindOk.mpr ⟨_,orFailOk.mpr (numberRead small),?_⟩
  rw [if_neg (by simp [Nat.ne_of_gt positive])]
  refine bindOk.mpr ⟨digest,orFailOk.mpr (by rw [parsed]; rfl),bindOk.mpr ⟨(),?_,rfl⟩⟩
  unfold ResumeToken.validateStageName
  refine bindOk.mpr ⟨random,orFailOk.mpr ?_,if_neg ?_⟩
  · rw [whole,strips]
  · rw [show isLowerHex random randomHexBytes = true from lower']
    exact Bool.false_ne_true

theorem readNamed {token : ResumeToken} (ok : ResumeToken.fromStageName name = .ok token) : Named name := by
  obtain ⟨-,random,lower,spelled⟩ := readSpells ok
  obtain ⟨_,-,ok⟩ := bindOk.mp ok
  obtain ⟨⟨kind,_⟩,-,ok⟩ := bindOk.mp ok
  obtain ⟨-,ok⟩ := guardOk.mp ok
  obtain ⟨-,ok⟩ := guardOk.mp ok
  obtain ⟨_,-,ok⟩ := bindOk.mp ok
  obtain ⟨_,-,ok⟩ := bindOk.mp ok
  obtain ⟨-,ok⟩ := guardOk.mp ok
  obtain ⟨n,number,ok⟩ := bindOk.mp ok
  obtain ⟨positive,ok⟩ := guardOk.mp ok
  obtain ⟨digest,-,ok⟩ := bindOk.mp ok
  obtain ⟨_,-,ok⟩ := bindOk.mp ok
  cases ok
  refine ⟨kind,Format.pathComponent digest,n,random,pathComponentLower digest,?_,numberSmall (orFailOk.mp number),lower,?_⟩
  · exact Nat.pos_of_ne_zero (fun zero => positive (.inl zero))
  · rw [spelled,startSpelled]
    simp [stageStem]

abbrev Steady {A : Type} (result : Result A) : Prop := Ends (fun stop => stop ≠ Stop.panic) (fun _ => True) result

theorem steadyIff {A : Type} {result : Result A} : Steady result ↔ result ≠ .error .panic := by
  cases result with
  | ok a => simp [Steady,Ends]
  | error stop => simp [Steady,Ends]

theorem steadyOrFail {A : Type} (error : StoreError) (found : Option A) : Steady (orFail error found) := by
  cases found with
  | none => exact nofun
  | some a => trivial

theorem validateSteady (token : ResumeToken) : Steady token.validateStageName := by
  refine endsBind (steadyOrFail ..) (fun random _ => ?_)
  split
  · exact nofun
  · trivial

theorem straddlesRest {kind : BlobKind} {rest : Bytes} : Straddles (stageStart ++ (kindStart kind ++ rest)) ↔
    99 ≤ rest.length ∧ ∃ b, rest[64]? = some b ∧ continuation b = true := by
  constructor
  · rintro ⟨kind',rest',b,same,long,found,inside⟩
    rw [startSpelled] at same
    have tails := List.append_cancel_left same
    cases kindStartUnique tails
    cases List.append_cancel_left tails
    exact ⟨long,b,found,inside⟩
  · rintro ⟨long,b,found,inside⟩
    exact ⟨kind,rest,b,(startSpelled kind rest).symm,long,found,inside⟩

theorem bindPanics {A B : Type} {x : Result A} {f : A → Result B} (calm : Steady x) (stop : x >>= f = .error .panic) :
    ∃ a, x = .ok a ∧ f a = .error .panic :=
  (bindError.mp stop).resolve_left (steadyIff.mp calm)

theorem readPanics : ResumeToken.fromStageName name = .error .panic ↔ Straddles name := by
  constructor
  · intro stop
    obtain ⟨remainder,start,stop⟩ := bindPanics (steadyOrFail ..) stop
    obtain ⟨⟨kind,rest⟩,found,stop⟩ := bindPanics (steadyOrFail ..) stop
    rw [stripped (orFailOk.mp start),kindRead (orFailOk.mp found),straddlesRest]
    simp only at stop
    split at stop
    · contradiction
    · rename_i long
      split at stop
      · rename_i inside
        refine ⟨Nat.le_of_not_lt long,?_⟩
        cases byte : rest[64]? with
        | none =>
          have short := List.getElem?_eq_none_iff.mp byte
          simp only [randomHexBytes] at long
          omega
        | some b => exact ⟨b,rfl,by simpa [isCharBoundary,byte] using inside⟩
      · obtain ⟨_,-,stop⟩ := bindPanics (steadyOrFail ..) stop
        obtain ⟨_,-,stop⟩ := bindPanics (steadyOrFail ..) stop
        split at stop
        · contradiction
        · obtain ⟨_,-,stop⟩ := bindPanics (steadyOrFail ..) stop
          split at stop
          · contradiction
          · obtain ⟨_,-,stop⟩ := bindPanics (steadyOrFail ..) stop
            obtain ⟨_,-,stop⟩ := bindPanics (validateSteady _) stop
            contradiction
  · rintro ⟨kind,rest,b,rfl,long,found,inside⟩
    have boundary : (!isCharBoundary rest 64) = true := by simp [isCharBoundary,found,inside]
    have enough : ¬rest.length < 64 + 1 + 1 + 1 + randomHexBytes := Nat.not_lt_of_le long
    rw [startSpelled]
    refine bindError.mpr (.inr ⟨_,orFailOk.mpr (strips ..),bindError.mpr (.inr ⟨_,orFailOk.mpr (kindFound ..),?_⟩)⟩)
    simp only
    rw [if_neg enough,if_pos boundary]

end Names

/-! Listings of the stages -/

-- Every name is read before the first one is parsed, so one that is no text or one too many hides a panic.
def StagePanics (s : Seen) : Prop :=
  let names := (s.names .staging).toList.map Prod.fst
  (∀ name ∈ names, utf8 name.bytes = true) ∧ names.length ≤ maxDirectoryEntries ∧
    ∃ front name back, names = front ++ name::back ∧ Straddles name.bytes ∧
      ∀ earlier ∈ front, Named earlier.bytes ∧ ∃ entry, openEntry s .staging "staging file" earlier = .ok entry

def Malformed (s : Seen) : Prop :=
  ∃ name, s.entry .staging name ≠ none ∧ utf8 name.bytes = true ∧ ¬Named name.bytes

def finalBytes (s : Seen) : Result (Finset Nat × Nat) :=
  [BlobKind.manifest,.pageTable,.object].foldlM (fun charged kind => do
    let entries ← digestEntries s kind
    entries.foldlM (chargeEntry "summing final CAS bytes") charged) (∅,0)

section Listings
variable {s : Seen}

theorem namesSteady (place : Place) (kind : String) : Steady (readNames s place kind) := by
  unfold readNames
  simp only
  split
  · exact nofun
  · split
    · exact nofun
    · trivial

theorem openSteady (place : Place) (kind : String) (name : Name) : Steady (openEntry s place kind name) := by
  unfold openEntry
  split
  · exact endsBind (steadyOrFail ..) (fun _ _ => trivial)
  · obtain ⟨error,fails⟩ := foreignFails place _ _ kind "opening CAS entry"
    rw [fails]
    exact nofun
  · exact nofun

theorem stageEntryPanics {name : Name} : stageEntry s name = .error .panic ↔ Straddles name.bytes := by
  rw [← readPanics]
  unfold stageEntry
  split
  · rename_i stop
    exact ⟨fun _ => stop,fun _ => rfl⟩
  · rename_i stop
    rw [stop]
    exact ⟨nofun,nofun⟩
  · rename_i read
    rw [read]
    exact ⟨fun stop => absurd stop (steadyIff.mp (openSteady ..)),nofun⟩

theorem stageEntryOk {name : Name} {entry : LeafEntry} : stageEntry s name = .ok entry ↔
    Named name.bytes ∧ openEntry s .staging "staging file" name = .ok entry := by
  constructor
  · intro ok
    obtain ⟨opened,token,read⟩ := stageOpened ok
    exact ⟨readNamed read,opened⟩
  · rintro ⟨named,opened⟩
    obtain ⟨token,read⟩ := namedRead named
    rw [stageEntry,read]
    exact opened

theorem stagesPanic : stageEntries s = .error .panic ↔ StagePanics s := by
  constructor
  · intro stop
    obtain ⟨names,read,stop⟩ := bindPanics (namesSteady ..) stop
    obtain ⟨rfl,texts,few⟩ := namesOk.mp read
    obtain ⟨front,name,back,split,stop,early⟩ := collectError.mp stop
    refine ⟨texts,few,front,name,back,split,stageEntryPanics.mp stop,fun earlier member => ?_⟩
    obtain ⟨entry,ok⟩ := early earlier member
    obtain ⟨named,opened⟩ := stageEntryOk.mp ok
    exact ⟨named,entry,opened⟩
  · rintro ⟨texts,few,front,name,back,split,straddles,early⟩
    refine bindError.mpr (.inr ⟨_,namesOk.mpr ⟨rfl,texts,few⟩,collectError.mpr ⟨front,name,back,split,?_,?_⟩⟩)
    · exact stageEntryPanics.mpr straddles
    · intro earlier member
      obtain ⟨named,entry,opened⟩ := early earlier member
      exact ⟨entry,stageEntryOk.mpr ⟨named,opened⟩⟩

theorem malformedUnlisted (malformed : Malformed s) (entries : List LeafEntry) : stageEntries s ≠ .ok entries := by
  intro ok
  obtain ⟨name,present,-,unnamed⟩ := malformed
  rcases stageListed ok name with absent | listed
  · exact present absent
  · obtain ⟨entry,member,same⟩ := List.mem_map.mp listed
    obtain ⟨names,read,collected⟩ := bindOk.mp ok
    obtain ⟨found,-,opened⟩ := collectMem collected member
    obtain ⟨named,opened⟩ := stageEntryOk.mp opened
    rw [← (entryOpened opened).1,same] at named
    exact unnamed named

theorem digestsSteady (kind : BlobKind) : Steady (digestEntries s kind) := by
  have each (name : Name) : Steady (digestEntry s kind name) := by
    unfold digestEntry
    split
    · exact nofun
    · exact openSteady ..
  refine endsBind (namesSteady ..) (fun names _ => steadyIff.mpr (fun stop => ?_))
  obtain ⟨-,name,-,-,stop,-⟩ := collectError.mp stop
  exact steadyIff.mp (each name) stop

theorem chargeSteady (context : String) (charged : Finset Nat × Nat) (entry : LeafEntry) :
    Steady (chargeEntry context charged entry) := by
  unfold chargeEntry
  split
  · trivial
  · exact endsBind (steadyOrFail ..) (fun _ _ => trivial)

theorem chargesSteady (context : String) (entries : List LeafEntry) (charged : Finset Nat × Nat) :
    Steady (entries.foldlM (chargeEntry context) charged) :=
  endsFold (fun _ _ => True) trivial (fun entry _ charged _ _ => chargeSteady context charged entry)

theorem finalsSteady : Steady (finalBytes s) :=
  endsFold (fun _ _ => True) trivial (fun kind _ charged _ _ =>
    endsBind (digestsSteady kind) (fun entries _ => chargesSteady _ entries charged))

theorem usedSplit : usedBytes s = (do
    let final ← finalBytes s
    let stages ← stageEntries s
    let staged ← stages.foldlM (chargeEntry "summing staged CAS bytes") (final.1,0)
    .ok (final.2,staged.2)) := rfl

theorem usedPanics : usedBytes s = .error .panic ↔ (∃ final, finalBytes s = .ok final) ∧ StagePanics s := by
  rw [usedSplit,← stagesPanic]
  constructor
  · intro stop
    obtain ⟨final,read,stop⟩ := bindPanics finalsSteady stop
    refine ⟨⟨final,read⟩,(bindError.mp stop).resolve_right ?_⟩
    rintro ⟨stages,-,stop⟩
    obtain ⟨_,-,stop⟩ := bindPanics (chargesSteady ..) stop
    contradiction
  · rintro ⟨⟨final,read⟩,stop⟩
    exact bindError.mpr (.inr ⟨final,read,bindError.mpr (.inl stop)⟩)

theorem malformedUnused (malformed : Malformed s) (used : Nat × Nat) : usedBytes s ≠ .ok used := by
  intro ok
  obtain ⟨_,-,ok⟩ := bindOk.mp ok
  obtain ⟨stages,listed,-⟩ := bindOk.mp ok
  exact malformedUnlisted malformed stages listed

end Listings

def resumeTokens : Task (List ResumeToken) := do
  let entries ← peek stageEntries
  lift (collect (fun entry => ResumeToken.fromStageName entry.name.bytes) entries)

section Operations
variable (fs : FileSystem)

def Refuses {A : Type} (p : Task A) (s : Store) : Prop := Concludes (Happens fs) (fun out => ∃ error, out = failed error) p s

variable {fs} {A B : Type} {s : Store}

theorem refusesError {stop : Stop} : Refuses fs (.done (.error stop) : Task A) s ↔ stop ≠ .panic := by
  rw [Refuses,concludesDone]
  cases stop with
  | panic => exact ⟨nofun,fun differs => absurd rfl differs⟩
  | failed error => exact ⟨fun _ => nofun,fun _ => ⟨error,rfl⟩⟩

theorem refusesLift {result : Result A} {f : A → Task B} : Refuses fs (lift result >>= f) s ↔
    result ≠ .error .panic ∧ ∀ a, result = .ok a → Refuses fs (f a) s := by
  cases result with
  | error stop =>
    refine refusesError.trans ?_
    simp
  | ok a =>
    simp
    rfl

theorem refusesCheck {f : Unit → Task B} : Refuses fs (check >>= f) s ↔ Refuses fs (f ()) s := by
  refine concludesAct.trans ⟨fun all => all (.ok ()) s ?_,fun refuses answer t happened => ?_⟩
  · exact ⟨s,rfl,rfl,.inl ⟨(),rfl,trivial⟩⟩
  · obtain ⟨_,rfl,rfl,⟨_,rfl,-⟩ | ⟨stop,fault,rfl⟩⟩ := happened
    · exact refuses
    · refine refusesError.mpr ?_
      rintro rfl
      exact fault

theorem refusesPeek {read : Seen → Result A} {f : A → Task B} : Refuses fs (peek read >>= f) s ↔
    read s.seen ≠ .error .panic ∧ ∀ a, read s.seen = .ok a → Refuses fs (f a) s := by
  have looked : Refuses fs (reading (fun s => read s.seen) >>= f) s ↔ Refuses fs (lift (read s.seen) >>= f) s :=
    concludesLook
  rw [peek,bindAssoc,refusesCheck,looked,refusesLift]

theorem refusesManifest {supplied : Bytes} {maximum : Nat} {f : Bytes → Task B} :
    Refuses fs (sourceManifestBytes supplied maximum >>= f) s ↔ (supplied.length ≤ maximum → Refuses fs (f supplied) s) := by
  refine concludesAct.trans ⟨fun all short => all (.ok supplied) s ?_,fun refuses answer t happened => ?_⟩
  · exact ⟨s,rfl,rfl,.inl ⟨supplied,rfl,rfl,short⟩⟩
  · obtain ⟨_,rfl,rfl,⟨bytes,rfl,same,short⟩ | ⟨error,rfl⟩⟩ := happened
    · cases same
      exact refuses short
    · exact refusesError.mpr nofun

theorem refusesUsed {f : Nat × Nat → Task B} (malformed : Malformed s.seen) :
    Refuses fs (peek usedBytes >>= f) s ↔ ¬((∃ final, finalBytes s.seen = .ok final) ∧ StagePanics s.seen) := by
  rw [refusesPeek,← usedPanics]
  exact ⟨And.left,fun calm => ⟨calm,fun used ok => absurd ok (malformedUnused malformed used)⟩⟩

theorem liftFormatSteady {result : Except FormatError A} : liftFormat result ≠ .error .panic := by
  cases result with
  | error error => exact nofun
  | ok a => exact nofun

def Accepts (sha256 : Bytes → Digest) (supplied : Bytes) (expectedId : Digest) (limits : Limits) : Prop :=
  ∃ checked manifest, limits.validate = .ok checked ∧ supplied.length ≤ checked.manifestBytes ∧
    parseWithExpectedId sha256 supplied checked expectedId = .ok manifest

variable {sha256 : Bytes → Digest}

theorem refusesImport {config : CasConfig} {unit : Nat} {supplied : Bytes} {expectedId : Digest} {limits : Limits}
    {tokens : List ResumeToken} (malformed : Malformed s.seen) :
    Refuses fs (importWithResumes sha256 config unit supplied expectedId limits tokens) s ↔
      ¬(Accepts sha256 supplied expectedId limits ∧ (∃ final, finalBytes s.seen = .ok final) ∧ StagePanics s.seen) := by
  rw [importWithResumes,refusesCheck,refusesLift]
  constructor
  · rintro ⟨-,refuses⟩ ⟨⟨checked,manifest,valid,short,parsed⟩,stops⟩
    have refuses := refusesManifest.mp (refuses checked (by rw [valid]; rfl)) short
    have refuses := refusesCheck.mp ((refusesLift.mp refuses).2 manifest (by rw [parsed]; rfl))
    rw [usage,bindAssoc,refusesUsed malformed] at refuses
    exact refuses stops
  · intro calm
    refine ⟨liftFormatSteady,fun checked valid => refusesManifest.mpr (fun short => ?_)⟩
    refine refusesLift.mpr ⟨liftFormatSteady,fun manifest parsed => refusesCheck.mpr ?_⟩
    rw [usage,bindAssoc,refusesUsed malformed]
    exact fun stops => calm ⟨⟨checked,manifest,liftOk valid,short,liftOk parsed⟩,stops⟩

theorem refusesGc {unit : Nat} {policy : GcPolicy} {limits : Limits} (malformed : Malformed s.seen) :
    Refuses fs (gc sha256 unit policy limits) s ↔
      ¬((∃ checked, limits.validate = .ok checked) ∧ (∃ final, finalBytes s.seen = .ok final) ∧ StagePanics s.seen) := by
  rw [gc,gcPrepare,bindAssoc,refusesCheck,bindAssoc,refusesLift]
  constructor
  · rintro ⟨-,refuses⟩ ⟨⟨checked,valid⟩,stops⟩
    have refuses := refuses checked (by rw [valid]; rfl)
    rw [bindAssoc,refusesCheck,bindAssoc,usage,bindAssoc,refusesUsed malformed] at refuses
    exact refuses stops
  · intro calm
    refine ⟨liftFormatSteady,fun checked valid => ?_⟩
    rw [bindAssoc,refusesCheck,bindAssoc,usage,bindAssoc,refusesUsed malformed]
    exact fun stops => calm ⟨⟨checked,liftOk valid⟩,stops⟩

theorem stageNamesRefused (fs : FileSystem) (sha256 : Bytes → Digest) (config : CasConfig) :
    (∀ name, utf8 name = true → ((∃ token, ResumeToken.fromStageName name = .ok token) ↔ Named name) ∧
      (ResumeToken.fromStageName name ≠ .error .panic ↔ ¬Straddles name)) ∧
    ∀ s : Store, Malformed s.seen →
      ((∃ error, stageEntries s.seen = failed error) ↔ ¬StagePanics s.seen) ∧
      (Refuses fs resumeTokens s ↔ ¬StagePanics s.seen) ∧
      (Refuses fs (usage fs.unit) s ↔ ¬((∃ final, finalBytes s.seen = .ok final) ∧ StagePanics s.seen)) ∧
      (∀ supplied expectedId limits tokens,
        Refuses fs (importWithResumes sha256 config fs.unit supplied expectedId limits tokens) s ↔
          ¬(Accepts sha256 supplied expectedId limits ∧ (∃ final, finalBytes s.seen = .ok final) ∧ StagePanics s.seen)) ∧
      ∀ policy limits, Refuses fs (gc sha256 fs.unit policy limits) s ↔
        ¬((∃ checked, limits.validate = .ok checked) ∧ (∃ final, finalBytes s.seen = .ok final) ∧ StagePanics s.seen) := by
  refine ⟨fun name _ => ⟨⟨fun ⟨token,ok⟩ => readNamed ok,namedRead⟩,not_congr readPanics⟩,fun s malformed => ?_⟩
  refine ⟨?_,?_,?_,fun _ _ _ _ => refusesImport malformed,fun _ _ => refusesGc malformed⟩
  · rw [← stagesPanic]
    cases listed : stageEntries s.seen with
    | ok entries => exact absurd listed (malformedUnlisted malformed entries)
    | error stop =>
      cases stop with
      | panic => exact ⟨nofun,fun calm => absurd rfl calm⟩
      | failed error => exact ⟨fun _ => nofun,fun _ => ⟨error,rfl⟩⟩
  · rw [resumeTokens,refusesPeek,← stagesPanic]
    exact ⟨And.left,fun calm => ⟨calm,fun entries listed => absurd listed (malformedUnlisted malformed entries)⟩⟩
  · rw [usage,refusesUsed malformed]

end Operations

/-! A name that is split inside a character, and one that is refused -/

section Samples

def straddling : Name := ⟨text "rmoa-stage-v1-object-" ++ (List.replicate 63 97 ++ 195::169::List.replicate 34 97)⟩

def junk : Name := ⟨text "junk"⟩

def staging (name : Name) : Store := Store.empty.bound .staging name (.file 0)

theorem stagingMalformed {name : Name} (shown : utf8 name.bytes = true) (unnamed : ¬Named name.bytes) :
    Malformed (staging name).seen := by
  have found : (staging name).entry .visible .staging name = some (.file 0) := by
    rw [staging,Store.entryBound,if_pos ⟨rfl,rfl,rfl⟩]
  refine ⟨name,fun none => ?_,shown,unnamed⟩
  rw [show (staging name).seen.entry .staging name = some (.file 0) from found] at none
  contradiction

theorem straddlingUnnamed : ¬Named straddling.bytes := by
  intro named
  obtain ⟨token,read⟩ := namedRead named
  have stops : ResumeToken.fromStageName straddling.bytes = .error .panic := by decide +kernel
  rw [stops] at read
  contradiction

theorem straddlingStops : utf8 straddling.bytes = true ∧ ¬Named straddling.bytes ∧
    ResumeToken.fromStageName straddling.bytes = .error .panic ∧ Malformed (staging straddling).seen ∧
    stageEntries (staging straddling).seen = .error .panic ∧
    Runs (Happens plainDisk) resumeTokens (staging straddling) (some (.error .panic)) (staging straddling) ∧
    ∀ sha256 policy, ¬Refuses plainDisk (gc sha256 4096 policy Limits.default) (staging straddling) := by
  have shown : utf8 straddling.bytes = true := by decide +kernel
  have malformed := stagingMalformed shown straddlingUnnamed
  have stops : stageEntries (staging straddling).seen = .error .panic := by decide +kernel
  refine ⟨shown,straddlingUnnamed,by decide +kernel,malformed,stops,?_,fun sha256 policy refuses => ?_⟩
  · refine .act ⟨_,rfl,rfl,.inl ⟨(),rfl,trivial⟩⟩ (.look ?_)
    rw [stops]
    exact .done _ _
  · have finals : (finalBytes (staging straddling).seen).toOption.isSome := by decide +kernel
    exact (refusesGc malformed).mp refuses ⟨⟨_,rfl⟩,⟨_,valueOk finals⟩,stagesPanic.mp stops⟩

theorem junkRefused : (∃ error, stageEntries (staging junk).seen = failed error) ∧
    Refuses plainDisk resumeTokens (staging junk) ∧ Refuses plainDisk (usage 4096) (staging junk) ∧
    ∀ sha256 policy limits, Refuses plainDisk (gc sha256 4096 policy limits) (staging junk) := by
  have refused : stageEntries (staging junk).seen = failed (.unsafeLayout "staging file") := by decide +kernel
  have unnamed : ¬Named junk.bytes := by
    intro named
    obtain ⟨token,read⟩ := namedRead named
    have fails : ResumeToken.fromStageName junk.bytes = failed .invalidResumeToken := by decide +kernel
    rw [fails] at read
    contradiction
  have malformed := stagingMalformed (show utf8 junk.bytes = true by decide +kernel) unnamed
  have calm : ¬StagePanics (staging junk).seen := by
    rw [← stagesPanic,refused]
    exact nofun
  have all (sha256 : Bytes → Digest) := (stageNamesRefused plainDisk sha256 plainConfig).2 (staging junk) malformed
  refine ⟨⟨_,refused⟩,(all (fun _ => zeroDigest)).2.1.mpr calm,(all (fun _ => zeroDigest)).2.2.1.mpr (fun stops => calm stops.2),?_⟩
  exact fun sha256 policy limits => ((all sha256).2.2.2.2 policy limits).mpr (fun stops => calm stops.2.2)

end Samples

end RunnelMoe.Cas
