import RunnelMoe.StageNames

/-! The text of a resume token. Five fields between bars: the version, the kind, the digest,
the length, and the name of the stage that spells the last three again. What is read back
is what was shown, and the name alone decides the token. -/
namespace RunnelMoe.Cas
open Readers Results StoreErrors Words Format

def tokenStart : Bytes := text "rmoa-resume-v1"

def BlobKind.parse (value : Bytes) : Option BlobKind :=
  if value = text "manifest" then some .manifest
  else if value = text "page-table" then some .pageTable
  else if value = text "object" then some .object
  else none

namespace ResumeToken

def display (token : ResumeToken) : Bytes :=
  [124].intercalate
    [tokenStart,text token.kind.tokenName,pathComponent token.digest,decimal token.expectedLength,token.stageName]

def fromStr (value : Bytes) : Result ResumeToken := do
  let fields := value.splitOn 124
  if fields.head? ≠ some tokenStart then failed .invalidResumeToken
  else
    let fields := fields.tail
    let kind ← orFail .invalidResumeToken (fields.head?.bind BlobKind.parse)
    let fields := fields.tail
    let digestHex ← orFail .invalidResumeToken fields.head?
    let fields := fields.tail
    if !isLowerHex digestHex 64 then failed .invalidResumeToken
    else
      let digest ← orFail .invalidResumeToken (digestFromStr (digestStart ++ digestHex)).toOption
      let encodedLength ← orFail .invalidResumeToken fields.head?
      let fields := fields.tail
      if encodedLength.isEmpty || (encodedLength.length > 1 && encodedLength.head? = some 48) then
        failed .invalidResumeToken
      else
        let expectedLength ← orFail .invalidResumeToken (parseU64 encodedLength)
        if expectedLength = 0 ∨ decimal expectedLength ≠ encodedLength then failed .invalidResumeToken
        else
          let stageName ← orFail .invalidResumeToken (fields.head?.filter (fun name => !name.isEmpty))
          if fields.tail.head?.isSome then failed .invalidResumeToken
          else
            let token : ResumeToken := ⟨kind,digest,expectedLength,stageName⟩
            token.validateStageName
            .ok token

end ResumeToken

structure Proper (token : ResumeToken) : Prop where
  positive : 0 < token.expectedLength
  word : token.expectedLength < modulus
  spelled : Spells token.stageName token.kind token.digest token.expectedLength

section Tokens
variable {value : Bytes} {token other : ResumeToken} {kind : BlobKind} {digest : Digest} {expectedLength : Nat}
  {random : Bytes}

theorem parseShown (kind : BlobKind) : BlobKind.parse (text kind.tokenName) = some kind := by
  cases kind <;> decide

theorem parseRead (read : BlobKind.parse value = some kind) : value = text kind.tokenName := by
  unfold BlobKind.parse at read
  split at read
  · cases read
    assumption
  split at read
  · cases read
    assumption
  split at read
  · cases read
    assumption
  · contradiction

theorem digestShown {hex : Bytes} (read : digestFromStr (digestStart ++ hex) = .ok digest) : hex = pathComponent digest :=
  List.append_cancel_left (digestRead read)

theorem lowerHexBarless {length : Nat} (hex : isLowerHex value length = true) : 124 ∉ value := by
  intro member
  obtain ⟨n,read⟩ := (lowerHexBytes hex).2 124 member
  contradiction

theorem decimalBarless (n : Nat) : 124 ∉ decimal n := by
  intro member
  have digit := decimalDigits n 124 member
  contradiction

theorem kindBarless (kind : BlobKind) : 124 ∉ text kind.tokenName := by
  cases kind <;> decide

theorem spelledBarless (spells : Spells value kind digest expectedLength) : 124 ∉ value := by
  obtain ⟨random,hex,rfl⟩ := spells
  have start : 124 ∉ stageStart := by decide
  have middle : 124 ∉ kindStart kind := by cases kind <;> decide
  have digits := lowerHexBarless (pathComponentLower digest)
  have number := decimalBarless expectedLength
  have last := lowerHexBarless hex
  simp only [stageStem,List.mem_append,List.mem_cons,List.not_mem_nil,or_false,not_or]
  exact ⟨⟨start,middle,digits,by decide,number,by decide⟩,last⟩

theorem fieldsShown (proper : Proper token) : token.display.splitOn 124 =
    [tokenStart,text token.kind.tokenName,pathComponent token.digest,decimal token.expectedLength,token.stageName] := by
  refine List.splitOn_intercalate 124 ?_ (by simp)
  have start : 124 ∉ tokenStart := by decide
  simp only [List.forall_mem_cons]
  exact ⟨start,kindBarless token.kind,lowerHexBarless (pathComponentLower token.digest),
    decimalBarless token.expectedLength,spelledBarless proper.spelled,nofun⟩

theorem spelledFilled (spells : Spells value kind digest expectedLength) : value.isEmpty = false := by
  obtain ⟨random,-,rfl⟩ := spells
  rfl

theorem spelledValidates (spells : Spells token.stageName token.kind token.digest token.expectedLength) :
    token.validateStageName = .ok () := by
  obtain ⟨random,hex,named⟩ := spells
  unfold ResumeToken.validateStageName
  refine bindOk.mpr ⟨random,orFailOk.mpr ?_,if_neg (by simp [hex])⟩
  rw [named,strips]

theorem readShown (proper : Proper token) : ResumeToken.fromStr token.display = .ok token := by
  obtain ⟨found,parsed,shown⟩ := digestSpelled (pathComponentLower token.digest)
  cases pathComponentInjective shown
  obtain ⟨filled,leading⟩ := lengthCanonical proper.positive
  have canonical : ((decimal token.expectedLength).isEmpty ||
      ((decimal token.expectedLength).length > 1 && (decimal token.expectedLength).head? = some 48)) = false := by
    rw [filled]
    simpa using leading
  unfold ResumeToken.fromStr
  rw [fieldsShown proper]
  refine guardOk.mpr ⟨by simp,?_⟩
  refine bindOk.mpr ⟨token.kind,orFailOk.mpr (parseShown token.kind),?_⟩
  refine bindOk.mpr ⟨_,orFailOk.mpr rfl,guardOk.mpr ⟨by simp [pathComponentLower],?_⟩⟩
  refine bindOk.mpr ⟨token.digest,orFailOk.mpr (by rw [parsed]; rfl),?_⟩
  refine bindOk.mpr ⟨_,orFailOk.mpr rfl,guardOk.mpr ⟨by rw [canonical]; exact Bool.false_ne_true,?_⟩⟩
  refine bindOk.mpr ⟨_,orFailOk.mpr (numberRead proper.word),guardOk.mpr ⟨by simp [Nat.ne_of_gt proper.positive],?_⟩⟩
  refine bindOk.mpr ⟨token.stageName,orFailOk.mpr ?_,guardOk.mpr ⟨by simp,?_⟩⟩
  · simp [spelledFilled proper.spelled]
  · exact bindOk.mpr ⟨(),spelledValidates proper.spelled,rfl⟩

theorem shownRead (ok : ResumeToken.fromStr value = .ok token) : token.display = value ∧ Proper token := by
  unfold ResumeToken.fromStr at ok
  have whole : [124].intercalate (value.splitOn 124) = value := List.intercalate_splitOn 124
  generalize value.splitOn 124 = fields at ok whole
  obtain ⟨start,ok⟩ := guardOk.mp ok
  obtain ⟨kind,second,ok⟩ := bindOk.mp ok
  obtain ⟨digestHex,third,ok⟩ := bindOk.mp ok
  obtain ⟨lower,ok⟩ := guardOk.mp ok
  obtain ⟨digest,parsed,ok⟩ := bindOk.mp ok
  obtain ⟨encodedLength,fourth,ok⟩ := bindOk.mp ok
  obtain ⟨-,ok⟩ := guardOk.mp ok
  obtain ⟨expectedLength,number,ok⟩ := bindOk.mp ok
  obtain ⟨canonical,ok⟩ := guardOk.mp ok
  obtain ⟨stageName,fifth,ok⟩ := bindOk.mp ok
  obtain ⟨last,ok⟩ := guardOk.mp ok
  obtain ⟨_,valid,ok⟩ := bindOk.mp ok
  cases ok
  obtain ⟨kindName,named,parsedKind⟩ := Option.bind_eq_some_iff.mp (orFailOk.mp second)
  obtain ⟨found,-⟩ := Option.filter_eq_some_iff.mp (orFailOk.mp fifth)
  have ended : fields.tail.tail.tail.tail.tail = [] :=
    List.head?_eq_none_iff.mp (Option.not_isSome_iff_eq_none.mp last)
  have listed : fields = [tokenStart,kindName,digestHex,encodedLength,stageName] := by
    rw [← List.cons_head?_tail (not_not.mp start),← List.cons_head?_tail named,
      ← List.cons_head?_tail (orFailOk.mp third),← List.cons_head?_tail (orFailOk.mp fourth),
      ← List.cons_head?_tail found,ended]
  obtain ⟨positive,shown⟩ := not_or.mp canonical
  have read : digestFromStr (digestStart ++ digestHex) = .ok digest := by
    cases result : digestFromStr (digestStart ++ digestHex) with
    | error stop => rw [result] at parsed; contradiction
    | ok found => rw [result] at parsed; exact congrArg Except.ok (Option.some.inj (orFailOk.mp parsed))
  refine ⟨?_,Nat.pos_of_ne_zero positive,numberSmall (orFailOk.mp number),validatedSpells valid⟩
  rw [← whole,listed,parseRead parsedKind,digestShown read,← not_not.mp shown]
  rfl

theorem newOk (positive : 0 < expectedLength) (hex : isLowerHex random randomHexBytes = true) :
    ∃ token, ResumeToken.new kind digest expectedLength random = .ok token := by
  refine ⟨⟨kind,digest,expectedLength,stageStem kind digest expectedLength ++ random⟩,?_⟩
  refine guardOk.mpr ⟨by simp [Nat.ne_of_gt positive,hex],bindOk.mpr ⟨(),spelledValidates ⟨random,hex,rfl⟩,rfl⟩⟩

theorem newProper (word : expectedLength < modulus) (ok : ResumeToken.new kind digest expectedLength random = .ok token) :
    Proper token := by
  obtain ⟨rfl,rfl,rfl,spelled⟩ := newSpells ok
  obtain ⟨accepted,-⟩ := guardOk.mp ok
  exact ⟨Nat.pos_of_ne_zero (not_or.mp accepted).1,word,spelled⟩

theorem stageProper (ok : ResumeToken.fromStageName value = .ok token) : Proper token := by
  obtain ⟨kind,hex,length,random,lower,positive,word,lower',named⟩ := readNamed ok
  obtain ⟨stage,spelled⟩ := readSpells ok
  obtain ⟨digest,-,rfl⟩ := digestSpelled lower
  have spells : Spells value kind digest length := ⟨random,lower',by rw [named,startSpelled]; simp [stageStem]⟩
  obtain ⟨-,-,same⟩ := spellsUnique spelled spells
  refine ⟨same ▸ positive,same ▸ word,?_⟩
  rw [stage]
  exact spelled

theorem properUnique (first : Proper token) (second : Proper other) (same : token.stageName = other.stageName) :
    token = other := by
  obtain ⟨kinds,digests,lengths⟩ := spellsUnique (same ▸ first.spelled) second.spelled
  cases token
  cases other
  cases kinds
  cases digests
  cases lengths
  cases same
  rfl

theorem properNamed (proper : Proper token) : Named token.stageName := by
  obtain ⟨random,hex,named⟩ := proper.spelled
  refine ⟨token.kind,pathComponent token.digest,token.expectedLength,random,pathComponentLower token.digest,
    proper.positive,proper.word,hex,?_⟩
  rw [named,startSpelled]
  simp [stageStem]

theorem stageResumed (proper : Proper token) : ResumeToken.fromStageName token.stageName = .ok token := by
  obtain ⟨read,ok⟩ := namedRead (properNamed proper)
  rw [ok,properUnique (stageProper ok) proper (readSpells ok).1]

end Tokens

-- A token the program holds was made for a new stage, read from its text, or read from a stage's name.
inductive Accepted (token : ResumeToken) : Prop
  | made {kind : BlobKind} {digest : Digest} {expectedLength : Nat} {random : Bytes} (word : expectedLength < modulus)
      (ok : ResumeToken.new kind digest expectedLength random = .ok token)
  | read {value : Bytes} (ok : ResumeToken.fromStr value = .ok token)
  | staged {name : Bytes} (ok : ResumeToken.fromStageName name = .ok token)

theorem acceptedProper {token : ResumeToken} (accepted : Accepted token) : Proper token := by
  cases accepted with
  | made word ok => exact newProper word ok
  | read ok => exact (shownRead ok).2
  | staged ok => exact stageProper ok

theorem tokensBindStages :
    (∀ (kind : BlobKind) (digest : Digest) (expectedLength : Nat) (random : Bytes),
      0 < expectedLength → expectedLength < modulus → isLowerHex random 32 = true →
        ∃ token, ResumeToken.new kind digest expectedLength random = .ok token ∧
          token.kind = kind ∧ token.digest = digest ∧ token.expectedLength = expectedLength ∧
          ResumeToken.fromStr token.display = .ok token ∧ ResumeToken.fromStageName token.stageName = .ok token) ∧
    (∀ value token, ResumeToken.fromStr value = .ok token → token.display = value) ∧
    (∀ token other, Accepted token → Accepted other → token.stageName = other.stageName → token = other) ∧
    (∀ (token other : ResumeToken) kind digest expectedLength kind' digest' length', token.stageName = other.stageName →
      token.validateFor kind digest expectedLength = .ok () → other.validateFor kind' digest' length' = .ok () →
        kind = kind' ∧ digest = digest' ∧ expectedLength = length') := by
  refine ⟨?made,?shown,?unique,?bound⟩
  case made =>
    intro kind digest expectedLength random positive word hex
    obtain ⟨token,ok⟩ := newOk positive hex
    obtain ⟨kinds,digests,lengths,-⟩ := newSpells ok
    have proper := newProper word ok
    exact ⟨token,ok,kinds,digests,lengths,readShown proper,stageResumed proper⟩
  case shown => exact fun value token ok => (shownRead ok).1
  case unique =>
    intro token other first second same
    exact properUnique (acceptedProper first) (acceptedProper second) same
  case bound =>
    intro token other kind digest expectedLength kind' digest' length' same first second
    exact spellsUnique (same ▸ resumedSpells first) (resumedSpells second)

theorem longestTokenReads : ∃ token,
    ResumeToken.new .pageTable zeroDigest maxWord (text "0123456789abcdef0123456789abcdef") = .ok token ∧
      ResumeToken.fromStr token.display = .ok token ∧ ResumeToken.fromStageName token.stageName = .ok token := by
  obtain ⟨token,ok,-,-,-,read,resumed⟩ := tokensBindStages.1 .pageTable zeroDigest maxWord
    (text "0123456789abcdef0123456789abcdef") (by decide) (by decide) (by decide)
  exact ⟨token,ok,read,resumed⟩

end RunnelMoe.Cas
