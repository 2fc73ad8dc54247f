import RunnelMoe.ManifestModel

/-! Names of staged files and the tokens that resume them. A stage name spells the kind,
the digest and the length of its blob, so a name that passes the check of a token fixes
all three. Splitting a text inside a character stops the program; that outcome is kept
apart from the errors it reports. -/
namespace RunnelMoe.Cas
open Readers Results StoreErrors Words Format PageSpecs

inductive Stop where
  | panic
  | failed (error : StoreError)
  deriving DecidableEq, Repr

abbrev Result (A : Type) := Except Stop A

def failed {A : Type} (error : StoreError) : Result A := .error (.failed error)

def orFail {A : Type} (error : StoreError) : Option A → Result A
  | some a => .ok a
  | none => failed error

inductive BlobKind where
  | manifest
  | pageTable
  | object
  deriving DecidableEq, Repr

def BlobKind.tokenName : BlobKind → String
  | .manifest => "manifest"
  | .pageTable => "page-table"
  | .object => "object"

def BlobKind.errorName (kind : BlobKind) : String := kind.tokenName

structure ResumeToken where
  kind : BlobKind
  digest : Digest
  expectedLength : Nat
  stageName : Bytes
  deriving DecidableEq, Repr

def randomHexBytes : Nat := 32

def stageStart : Bytes := text "rmoa-stage-v1-"

def kindStart (kind : BlobKind) : Bytes := text kind.tokenName ++ [45]

def isLowerHex (value : Bytes) (length : Nat) : Bool :=
  value.length = length && value.all (fun b => isDigit b || (97 ≤ b && b ≤ 102))

def stageStem (kind : BlobKind) (digest : Digest) (expectedLength : Nat) : Bytes :=
  stageStart ++ (kindStart kind ++ (pathComponent digest ++ 45::(decimal expectedLength ++ [45])))

def strip (start value : Bytes) : Option Bytes :=
  if start <+: value then some (value.drop start.length) else none

def rsplitOnce (separator : UInt8) : Bytes → Option (Bytes × Bytes)
  | [] => none
  | b::rest => match rsplitOnce separator rest with
    | some (front,back) => some (b::front,back)
    | none => if b = separator then some ([],rest) else none

def parseU64 (value : Bytes) : Option Nat :=
  let unsigned := if value.length > 1 ∧ value.head? = some 43 then value.drop 1 else value
  if unsigned.isEmpty ∨ !unsigned.all isDigit then none
  else
    let number := (digits 0 unsigned).1
    if number < modulus then some number else none

def isCharBoundary (value : Bytes) (index : Nat) : Bool :=
  index = 0 || match value[index]? with
    | some b => !continuation b
    | none => index = value.length

namespace ResumeToken

def validateStageName (token : ResumeToken) : Result Unit := do
  let random ← orFail .invalidResumeToken (strip (stageStem token.kind token.digest token.expectedLength) token.stageName)
  if !isLowerHex random randomHexBytes then failed .invalidResumeToken else .ok ()

def new (kind : BlobKind) (digest : Digest) (expectedLength : Nat) (randomHex : Bytes) : Result ResumeToken := do
  if expectedLength = 0 ∨ !isLowerHex randomHex randomHexBytes then failed .invalidResumeToken
  else
    let token : ResumeToken := ⟨kind,digest,expectedLength,stageStem kind digest expectedLength ++ randomHex⟩
    token.validateStageName
    .ok token

def kindAndRest (remainder : Bytes) : Option (BlobKind × Bytes) :=
  [.manifest,.pageTable,.object].findSome? (fun kind => (strip (kindStart kind) remainder).map (fun rest => (kind,rest)))

def fromStageName (stageName : Bytes) : Result ResumeToken := do
  let remainder ← orFail .invalidResumeToken (strip stageStart stageName)
  let (kind,remainder) ← orFail .invalidResumeToken (kindAndRest remainder)
  if remainder.length < 64 + 1 + 1 + 1 + randomHexBytes then failed .invalidResumeToken
  else if !isCharBoundary remainder 64 then .error .panic
  else
    let digestHex := remainder.take 64
    let remainder ← orFail .invalidResumeToken (strip [45] (remainder.drop 64))
    let (encodedLength,randomHex) ← orFail .invalidResumeToken (rsplitOnce 45 remainder)
    if !isLowerHex digestHex 64 || !isLowerHex randomHex randomHexBytes || encodedLength.isEmpty ||
        (encodedLength.length > 1 && encodedLength.head? = some 48) then failed .invalidResumeToken
    else
      let expectedLength ← orFail .invalidResumeToken (parseU64 encodedLength)
      if expectedLength = 0 ∨ decimal expectedLength ≠ encodedLength then failed .invalidResumeToken
      else
        let digest ← orFail .invalidResumeToken (digestFromStr (digestStart ++ digestHex)).toOption
        let token : ResumeToken := ⟨kind,digest,expectedLength,stageName⟩
        token.validateStageName
        .ok token

def validateFor (token : ResumeToken) (kind : BlobKind) (digest : Digest) (expectedLength : Nat) : Result Unit := do
  token.validateStageName
  if token.kind ≠ kind then failed (.resumeMismatch "kind")
  else if token.digest ≠ digest then failed (.resumeMismatch "digest")
  else if token.expectedLength ≠ expectedLength then failed (.resumeMismatch "length")
  else .ok ()

end ResumeToken

theorem orFailOk {A : Type} {error : StoreError} {found : Option A} {a : A} :
    orFail error found = .ok a ↔ found = some a := by
  cases found with
  | none => exact ⟨nofun,nofun⟩
  | some b => exact ⟨fun same => congrArg some (Except.ok.inj same),fun same => congrArg Except.ok (Option.some.inj same)⟩

def Spells (name : Bytes) (kind : BlobKind) (digest : Digest) (expectedLength : Nat) : Prop :=
  ∃ random, isLowerHex random randomHexBytes ∧ name = stageStem kind digest expectedLength ++ random

theorem stripped {start value rest : Bytes} (ok : strip start value = some rest) : value = start ++ rest := by
  unfold strip at ok
  split at ok
  · rename_i begins
    cases ok
    exact (List.prefix_iff_eq_append.mp begins).symm
  · contradiction

variable {token : ResumeToken} {kind : BlobKind} {digest : Digest} {expectedLength : Nat}

theorem validatedSpells (ok : token.validateStageName = .ok ()) :
    Spells token.stageName token.kind token.digest token.expectedLength := by
  obtain ⟨random,found,ok⟩ := bindOk.mp ok
  obtain ⟨hex,-⟩ := guardOk.mp ok
  exact ⟨random,by simpa using hex,stripped (orFailOk.mp found)⟩

theorem newSpells {random : Bytes} (ok : ResumeToken.new kind digest expectedLength random = .ok token) :
    token.kind = kind ∧ token.digest = digest ∧ token.expectedLength = expectedLength ∧
      Spells token.stageName kind digest expectedLength := by
  obtain ⟨-,ok⟩ := guardOk.mp ok
  obtain ⟨_,valid,ok⟩ := bindOk.mp ok
  cases ok
  exact ⟨rfl,rfl,rfl,validatedSpells valid⟩

theorem resumedSpells
    (ok : token.validateFor kind digest expectedLength = .ok ()) : Spells token.stageName kind digest expectedLength := by
  obtain ⟨_,valid,ok⟩ := bindOk.mp ok
  obtain ⟨sameKind,ok⟩ := guardOk.mp ok
  obtain ⟨sameDigest,ok⟩ := guardOk.mp ok
  obtain ⟨sameLength,-⟩ := guardOk.mp ok
  rw [← not_not.mp sameKind,← not_not.mp sameDigest,← not_not.mp sameLength]
  exact validatedSpells valid

theorem readSpells {name : Bytes} (ok : ResumeToken.fromStageName name = .ok token) :
    token.stageName = name ∧ Spells name token.kind token.digest token.expectedLength := by
  obtain ⟨_,-,ok⟩ := bindOk.mp ok
  obtain ⟨_,-,ok⟩ := bindOk.mp ok
  obtain ⟨-,ok⟩ := guardOk.mp ok
  obtain ⟨-,ok⟩ := guardOk.mp ok
  obtain ⟨_,-,ok⟩ := bindOk.mp ok
  obtain ⟨_,-,ok⟩ := bindOk.mp ok
  obtain ⟨-,ok⟩ := guardOk.mp ok
  obtain ⟨_,-,ok⟩ := bindOk.mp ok
  obtain ⟨-,ok⟩ := guardOk.mp ok
  obtain ⟨_,-,ok⟩ := bindOk.mp ok
  obtain ⟨_,valid,ok⟩ := bindOk.mp ok
  cases ok
  exact ⟨rfl,validatedSpells valid⟩

theorem pairsLength (bytes : Bytes) : (bytes.flatMap hexPair).length = 2 * bytes.length := by
  induction bytes with
  | nil => rfl
  | cons b rest ih =>
    rw [List.flatMap_cons,List.length_append,ih,List.length_cons,hexPair]
    simp only [List.length_cons,List.length_nil]
    omega

theorem pathComponentLength (digest : Digest) : (pathComponent digest).length = 64 := by
  rw [Format.pathComponent,pairsLength,digest.width]

theorem pathComponentInjective {a b : Digest} (same : pathComponent a = pathComponent b) : a = b := by
  have read := pairsRead a.bytes
  rw [show a.bytes.flatMap hexPair = b.bytes.flatMap hexPair from same,pairsRead] at read
  cases a
  cases b
  cases Option.some.inj read
  rfl

theorem kindStartUnique {a b : BlobKind} {s t : Bytes} (same : kindStart a ++ s = kindStart b ++ t) : a = b := by
  have heads (kind : BlobKind) (rest : Bytes) : (kindStart kind ++ rest).head? = (kindStart kind).head? := by
    cases kind <;> rfl
  have first := congrArg List.head? same
  rw [heads,heads] at first
  revert first
  cases a <;> cases b <;> decide

theorem spellsUnique {name : Bytes} {kind' : BlobKind} {digest' : Digest} {length' : Nat}
    (spells : Spells name kind digest expectedLength) (spells' : Spells name kind' digest' length') :
    kind = kind' ∧ digest = digest' ∧ expectedLength = length' := by
  obtain ⟨random,-,rfl⟩ := spells
  obtain ⟨random',-,same⟩ := spells'
  simp only [stageStem,List.append_assoc,List.cons_append,List.nil_append] at same
  have kinds := List.append_cancel_left same
  cases kindStartUnique kinds
  obtain ⟨digests,tails⟩ := List.append_inj (List.append_cancel_left kinds)
    (by rw [pathComponentLength,pathComponentLength])
  have stops (rest : Bytes) : Stops isDigit (45::rest) := fun b first => by
    cases first
    decide
  have read := digitsDecimal expectedLength (stops random)
  rw [List.tail_eq_of_cons_eq tails,digitsDecimal length' (stops random')] at read
  exact ⟨rfl,pathComponentInjective digests,(congrArg Prod.fst read).symm⟩

end RunnelMoe.Cas
