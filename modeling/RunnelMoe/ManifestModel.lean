import RunnelMoe.JsonRoundTrip
import RunnelMoe.PageSpecs
import RunnelMoe.Vectors

/-! Schema-checked manifests. The checks are those of the source in its order, with the
paths and texts of its errors. The hash function is a parameter; a map from digests is
the list of its rows. -/
namespace RunnelMoe.Format
open Readers Results StoreErrors Words Vectors

def text (s : String) : Bytes := s.toList.map (fun c => c.toNat.toUInt8)

def okOr {E A : Type} (error : E) : Option A → Except E A
  | some a => .ok a
  | none => .error error

def formatManifestBytes : Nat := 4 * 1024 * 1024
def formatObjects : Nat := 65536
def formatTensors : Nat := 65536
def formatObjectBytes : Nat := 2 ^ 40
def formatAggregateObjectBytes : Nat := 8 * 2 ^ 40
def formatPageTableBytes : Nat := 64 * 1024 * 1024
def formatAggregatePageTableBytes : Nat := 1024 * 1024 * 1024
def minPageSize : Nat := 65536
def maxPageSize : Nat := 2097152
def maxTensorDimension : Nat := 2147483647
def maxU32 : Nat := 4294967295

structure Limits where
  manifestBytes : Nat
  objects : Nat
  tensors : Nat
  objectBytes : Nat
  aggregateObjectBytes : Nat
  pageTableBytes : Nat
  aggregatePageTableBytes : Nat
  eagerMemoryBytes : Nat
  deriving DecidableEq, Repr

def checkLimit (field : String) (value ceiling : Nat) : Except FormatError Unit :=
  if value > ceiling then .error (.limitExceedsFormat field value ceiling) else .ok ()

def Limits.validate (limits : Limits) : Except FormatError Limits := do
  checkLimit "manifest_bytes" limits.manifestBytes formatManifestBytes
  checkLimit "objects" limits.objects formatObjects
  checkLimit "tensors" limits.tensors formatTensors
  checkLimit "object_bytes" limits.objectBytes formatObjectBytes
  checkLimit "aggregate_object_bytes" limits.aggregateObjectBytes formatAggregateObjectBytes
  checkLimit "page_table_bytes" limits.pageTableBytes formatPageTableBytes
  checkLimit "aggregate_page_table_bytes" limits.aggregatePageTableBytes formatAggregatePageTableBytes
  .ok limits

theorem validatedSame {limits valid : Limits} (ok : limits.validate = .ok valid) : valid = limits := by
  simp only [Limits.validate,bindOk,Except.ok.injEq] at ok
  grind

def Limits.default : Limits :=
  ⟨1024 * 1024,4096,16384,2 * 1024 * 1024 * 1024,2 * 1024 * 1024 * 1024,8 * 1024 * 1024,64 * 1024 * 1024,
    256 * 1024 * 1024⟩

inductive DigestParseError where
  | start
  | length
  | lowercaseHex
  deriving DecidableEq, Repr

def DigestParseError.text : DigestParseError → String
  | .start => "digest must begin with sha256:"
  | .length => "SHA-256 digest must contain exactly 64 hexadecimal digits"
  | .lowercaseHex => "SHA-256 digest must use lowercase hexadecimal digits"

def digestStart : Bytes := text "sha256:"

def hexPair (b : UInt8) : Bytes := [hexDigit (b.toNat / 16),hexDigit (b.toNat % 16)]

def pathComponent (digest : Digest) : Bytes := digest.bytes.flatMap hexPair

def displayDigest (digest : Digest) : Bytes := digestStart ++ pathComponent digest

-- Digits are taken two by two; a single one at the end would be left over.
def hexPairs : Bytes → Option Bytes
  | h::l::rest => do
    let high ← lowercaseHexValue h
    let low ← lowercaseHexValue l
    let more ← hexPairs rest
    some ((high * 16 + low).toUInt8 :: more)
  | _ => some []

theorem shortDigits {digits : Bytes} (short : ∀ h l rest, digits = h::l::rest → False) : digits.length ≤ 1 := by
  cases digits with
  | nil => exact Nat.zero_le 1
  | cons h rest =>
    cases rest with
    | nil => exact Nat.le_refl 1
    | cons l rest => exact (short h l rest rfl).elim

theorem hexPairsLength {digits bytes : Bytes} (read : hexPairs digits = some bytes) :
    bytes.length = digits.length / 2 := by
  induction digits using hexPairs.induct generalizing bytes with
  | case1 h l rest ih =>
    simp only [hexPairs,Option.bind_eq_bind,Option.bind_eq_some_iff] at read
    obtain ⟨_,-,_,-,more,later,last⟩ := read
    cases last
    simp only [List.length_cons,ih later]
    omega
  | case2 digits short =>
    have single := shortDigits short
    rw [hexPairs] at read
    · cases read
      rw [List.length_nil]
      omega
    · exact short

theorem pairsRead (bytes : Bytes) : hexPairs (bytes.flatMap hexPair) = some bytes := by
  induction bytes with
  | nil => rfl
  | cons b rest ih =>
    have high : b.toNat / 16 < 16 := by have := b.toNat_lt; omega
    have value : b.toNat / 16 * 16 + b.toNat % 16 = b.toNat := by omega
    rw [List.flatMap_cons,hexPair]
    simp only [List.cons_append,List.nil_append,hexPairs,hexRead high,hexRead (Nat.mod_lt _ (by decide)),ih,value,
      Option.bind_eq_bind,Option.bind_some]
    rw [show b.toNat.toUInt8 = b from UInt8.ofNat_toNat]

def digestFromStr (value : Bytes) : Except DigestParseError Digest :=
  if digestStart <+: value then
    let hexadecimal := value.drop digestStart.length
    if width : hexadecimal.length = 64 then
      match read : hexPairs hexadecimal with
      | none => .error .lowercaseHex
      | some bytes => .ok ⟨bytes,by rw [hexPairsLength read,width]⟩
    else .error .length
  else .error .start

structure Adapter where
  id : Bytes
  version : Nat
  deriving DecidableEq, Repr

structure Tokenizer where
  id : Bytes
  version : Nat
  vocabSize : Nat
  deriving DecidableEq, Repr

structure TinyModel where
  contextLength : Nat
  expertHiddenSize : Nat
  hiddenSize : Nat
  numExperts : Nat
  numHeads : Nat
  numLayers : Nat
  topK : Nat
  vocabSize : Nat
  deriving DecidableEq, Repr

structure ObjectRecord where
  digest : Digest
  length : Nat
  pageSize : Nat
  pageTable : Digest
  pageTableLength : Nat
  deriving DecidableEq, Repr

inductive DType where
  | f32Le
  | bf16Le
  | u8
  | i8
  deriving DecidableEq, Repr

def DType.byteWidth : DType → Nat
  | .f32Le => 4
  | .bf16Le => 2
  | .u8 | .i8 => 1

def DType.asStr : DType → Bytes
  | .f32Le => text "f32-le"
  | .bf16Le => text "bf16-le"
  | .u8 => text "u8"
  | .i8 => text "i8"

structure TensorRecord where
  dtype : DType
  id : Nat
  length : Nat
  object : Digest
  offset : Nat
  role : Bytes
  shape : List Nat
  deriving DecidableEq, Repr

structure Manifest where
  adapter : Adapter
  model : TinyModel
  objects : List ObjectRecord
  tensors : List TensorRecord
  tokenizer : Tokenizer
  artifactId : Digest
  canonicalBytes : Bytes
  deriving DecidableEq, Repr

def schema {A : Type} (path problem : String) : Except FormatError A := .error (.schema path problem)

def debugByte (b : UInt8) : String :=
  if b < 128 then debugChar (Char.ofNat b.toNat) else String.singleton (Char.ofNat b.toNat)

def debugText (value : Bytes) : String := "\"" ++ String.join (value.map debugByte) ++ "\""

def lookup (key : Bytes) (object : List (Bytes × Json)) : Option Json :=
  (object.find? (fun e => e.1 = key)).map Prod.snd

def required (object : List (Bytes × Json)) (key : Bytes) (path : String) : Except FormatError Json :=
  okOr (.schema path ("missing required key " ++ debugText key)) (lookup key object)

def exactKeys (object : List (Bytes × Json)) (expected : List Bytes) (path : String) : Except FormatError Unit :=
  match (object.map Prod.fst).find? (fun key => !expected.contains key) with
  | some key => schema path ("unknown key " ++ debugText key)
  | none => match expected.find? (fun key => !(object.map Prod.fst).contains key) with
    | some key => schema path ("missing required key " ++ debugText key)
    | none => .ok ()

section Readers
variable (value : Json) (path : String)

def expectObject : Except FormatError (List (Bytes × Json)) :=
  match value with
  | .object entries => .ok entries
  | _ => schema path "expected object"

def expectArray : Except FormatError (List Json) :=
  match value with
  | .array values => .ok values
  | _ => schema path "expected array"

def expectString : Except FormatError Bytes :=
  match value with
  | .string value => .ok value
  | _ => schema path "expected string"

def expectInteger : Except FormatError Nat :=
  match value with
  | .integer value => .ok value
  | _ => schema path "expected unsigned integer"

def positiveInteger : Except FormatError Nat := do
  let value ← expectInteger value path
  if value = 0 then schema path "must be positive" else .ok value

end Readers

def expectLiteralString (value : Json) (expected : Bytes) (path : String) : Except FormatError Unit := do
  let value ← expectString value path
  if value ≠ expected then schema path ("must be " ++ debugText expected) else .ok ()

def expectLiteralInteger (value : Json) (expected : Nat) (path : String) : Except FormatError Unit := do
  let value ← expectInteger value path
  if value ≠ expected then schema path s!"must be {expected}" else .ok ()

def isLower (b : UInt8) : Bool := 97 ≤ b && b ≤ 122

def validName (maximum : Nat) (underscore : Bool) (value : Bytes) (path size shape : String) : Except FormatError Unit :=
  if value.isEmpty ∨ value.length > maximum then schema path size
  else if value.head?.all isLower && (value.drop 1).all (fun b => isLower b || isDigit b || b = 46 || b = 45 ||
      (underscore && b = 95)) then .ok ()
  else schema path shape

def validateIdentifier (value : Bytes) (path : String) : Except FormatError Unit :=
  validName 64 false value path "identifier length must be from 1 through 64 bytes"
    "identifier does not match [a-z][a-z0-9.-]\x7b0,63\x7d"

def validateRole (value : Bytes) (path : String) : Except FormatError Unit :=
  validName 128 true value path "role length must be from 1 through 128 bytes"
    "role does not match [a-z][a-z0-9_.-]\x7b0,127\x7d"

def parseDigest (value : Json) (path : String) : Except FormatError Digest := do
  let value ← expectString value path
  match digestFromStr value with
  | .error error => schema path error.text
  | .ok digest => .ok digest

def parseDtype (value : Json) (path : String) : Except FormatError DType := do
  let value ← expectString value path
  if value = DType.f32Le.asStr then .ok .f32Le
  else if value = DType.bf16Le.asStr then .ok .bf16Le
  else if value = DType.u8.asStr then .ok .u8
  else if value = DType.i8.asStr then .ok .i8
  else schema path "unsupported dtype"

def parseAdapter (value : Json) : Except FormatError Adapter := do
  let object ← expectObject value "$.adapter"
  exactKeys object [text "id",text "version"] "$.adapter"
  let idValue ← required object (text "id") "$.adapter"
  let id ← expectString idValue "$.adapter.id"
  validateIdentifier id "$.adapter.id"
  if id ≠ text "runnel.tiny-causal-moe" then schema "$.adapter.id" "unsupported tiny adapter ID"
  else
    let versionValue ← required object (text "version") "$.adapter"
    let version ← positiveInteger versionValue "$.adapter.version"
    if version ≠ 1 ∧ version ≠ 2 then schema "$.adapter.version" "unsupported tiny adapter version"
    else .ok ⟨id,version⟩

def parseTokenizer (value : Json) : Except FormatError Tokenizer := do
  let object ← expectObject value "$.tokenizer"
  exactKeys object [text "id",text "version",text "vocab_size"] "$.tokenizer"
  let idValue ← required object (text "id") "$.tokenizer"
  let id ← expectString idValue "$.tokenizer.id"
  validateIdentifier id "$.tokenizer.id"
  let versionValue ← required object (text "version") "$.tokenizer"
  let version ← positiveInteger versionValue "$.tokenizer.version"
  let vocabValue ← required object (text "vocab_size") "$.tokenizer"
  let vocabSize ← positiveInteger vocabValue "$.tokenizer.vocab_size"
  .ok ⟨id,version,vocabSize⟩

def dimension (object : List (Bytes × Json)) (key : String) : Except FormatError Nat := do
  let value ← required object (text key) "$.model"
  positiveInteger value s!"$.model.{key}"

def parseModel (value : Json) : Except FormatError TinyModel := do
  let object ← expectObject value "$.model"
  exactKeys object [text "context_length",text "expert_hidden_size",text "hidden_size",text "num_experts",
    text "num_heads",text "num_layers",text "top_k",text "vocab_size"] "$.model"
  let contextLength ← dimension object "context_length"
  let expertHiddenSize ← dimension object "expert_hidden_size"
  let hiddenSize ← dimension object "hidden_size"
  let numExperts ← dimension object "num_experts"
  let numHeads ← dimension object "num_heads"
  let numLayers ← dimension object "num_layers"
  let topK ← dimension object "top_k"
  let vocabSize ← dimension object "vocab_size"
  if topK > numExperts then schema "$.model.top_k" "must not exceed num_experts"
  else if hiddenSize % numHeads ≠ 0 then schema "$.model.hidden_size" "must be divisible by num_heads"
  else .ok ⟨contextLength,expertHiddenSize,hiddenSize,numExperts,numHeads,numLayers,topK,vocabSize⟩

def pageCount (objectLength pageSize : Nat) : Except FormatError Nat := do
  let rounding ← okOr (.arithmeticOverflow "nonzero page size") (checkedSub pageSize 1)
  okOr (.arithmeticOverflow "page count") ((checkedAdd objectLength rounding).map (fun rounded => rounded / pageSize))

def expectedPageTableLength (objectLength pageSize : Nat) : Except FormatError Nat := do
  let pages ← pageCount objectLength pageSize
  okOr (.arithmeticOverflow "page-table byte length") ((checkedMul pages 32).bind (fun hashBytes => checkedAdd hashBytes 64))

def isPowerOfTwo (n : Nat) : Bool := n ≠ 0 && n &&& (n - 1) = 0

structure ObjectScan where
  records : List ObjectRecord
  pageTables : List Digest
  aggregateObjectBytes : Nat
  aggregatePageTableBytes : Nat

def parseObject (limits : Limits) (scan : ObjectScan) (row : Json × Nat) : Except FormatError ObjectScan := do
  let index := row.2
  let path := s!"$.objects[{index}]"
  let object ← expectObject row.1 path
  exactKeys object [text "digest",text "length",text "page_size",text "page_table",text "page_table_length"] path
  let digestValue ← required object (text "digest") path
  let digest ← parseDigest digestValue s!"{path}.digest"
  if scan.records.getLast?.any (fun previous => digest ≤ previous.digest) then
    schema s!"{path}.digest" "object digests must be unique and strictly increasing"
  else
    let lengthValue ← required object (text "length") path
    let length ← positiveInteger lengthValue s!"{path}.length"
    if length > limits.objectBytes then schema s!"{path}.length" "exceeds the configured per-object byte limit"
    else
      let aggregateObjectBytes ← okOr (.arithmeticOverflow "aggregate object bytes")
        (checkedAdd scan.aggregateObjectBytes length)
      if aggregateObjectBytes > limits.aggregateObjectBytes then
        schema "$.objects" "exceeds the configured aggregate object byte limit"
      else
        let pageSizeValue ← required object (text "page_size") path
        let pageSize ← positiveInteger pageSizeValue s!"{path}.page_size"
        if pageSize > maxU32 then schema s!"{path}.page_size" "does not fit u32"
        else if ¬(minPageSize ≤ pageSize ∧ pageSize ≤ maxPageSize) ∨ !isPowerOfTwo pageSize then
          schema s!"{path}.page_size" "must be a power of two from 65536 through 2097152"
        else
          let pageTableValue ← required object (text "page_table") path
          let pageTable ← parseDigest pageTableValue s!"{path}.page_table"
          if pageTable ∈ scan.pageTables then schema s!"{path}.page_table" "page-table digests must be unique"
          else
            let tableLengthValue ← required object (text "page_table_length") path
            let pageTableLength ← positiveInteger tableLengthValue s!"{path}.page_table_length"
            let expectedTableLength ← expectedPageTableLength length pageSize
            if pageTableLength ≠ expectedTableLength then
              schema s!"{path}.page_table_length" "does not equal 64 + 32 * ceil(length / page_size)"
            else if pageTableLength > limits.pageTableBytes then
              schema s!"{path}.page_table_length" "exceeds the configured per-page-table byte limit"
            else
              let aggregatePageTableBytes ← okOr (.arithmeticOverflow "aggregate page-table bytes")
                (checkedAdd scan.aggregatePageTableBytes pageTableLength)
              if aggregatePageTableBytes > limits.aggregatePageTableBytes then
                schema "$.objects" "exceeds the configured aggregate page-table byte limit"
              else .ok ⟨scan.records ++ [⟨digest,length,pageSize,pageTable,pageTableLength⟩],
                pageTable::scan.pageTables,aggregateObjectBytes,aggregatePageTableBytes⟩

def parseObjects (value : Json) (limits : Limits) : Except FormatError (List ObjectRecord) := do
  let values ← expectArray value "$.objects"
  if values.length > limits.objects then .error (.countLimit "objects" values.length limits.objects)
  else
    let scan ← values.zipIdx.foldlM (parseObject limits) ⟨[],[],0,0⟩
    .ok scan.records

structure TensorScan where
  ranges : List (Digest × Nat × Nat)
  roles : List Bytes
  tensors : List TensorRecord

def parseDimension (path : String) (scan : List Nat × Nat) (row : Json × Nat) : Except FormatError (List Nat × Nat) := do
  let index := row.2
  let dimensionPath := s!"{path}.shape[{index}]"
  let dimension ← positiveInteger row.1 dimensionPath
  if dimension > maxTensorDimension then schema dimensionPath "dimension exceeds 2147483647"
  else
    let elements ← okOr (.arithmeticOverflow "tensor shape product") (checkedMul scan.2 dimension)
    if dimension > maxU32 then schema dimensionPath "dimension does not fit the RMOA v1 representation"
    else .ok (scan.1 ++ [dimension],elements)

def parseTensor (objects : List ObjectRecord) (scan : TensorScan) (row : Json × Nat) : Except FormatError TensorScan := do
  let index := row.2
  let path := s!"$.tensors[{index}]"
  let object ← expectObject row.1 path
  exactKeys object [text "dtype",text "id",text "length",text "object",text "offset",text "role",text "shape"] path
  let idValue ← required object (text "id") path
  let id ← expectInteger idValue s!"{path}.id"
  if id ≠ index then schema s!"{path}.id" "tensor IDs must be contiguous from zero"
  else
    let dtypeValue ← required object (text "dtype") path
    let dtype ← parseDtype dtypeValue s!"{path}.dtype"
    let lengthValue ← required object (text "length") path
    let length ← positiveInteger lengthValue s!"{path}.length"
    let digestValue ← required object (text "object") path
    let objectDigest ← parseDigest digestValue s!"{path}.object"
    let objectLength ← okOr (.schema s!"{path}.object" "does not name a declared object")
      ((objects.find? (fun record => record.digest = objectDigest)).map ObjectRecord.length)
    let offsetValue ← required object (text "offset") path
    let offset ← expectInteger offsetValue s!"{path}.offset"
    if offset % dtype.byteWidth ≠ 0 then schema s!"{path}.offset" "must be aligned to the dtype width"
    else
      let roleValue ← required object (text "role") path
      let role ← expectString roleValue s!"{path}.role"
      validateRole role s!"{path}.role"
      if scan.roles.contains role then schema s!"{path}.role" "tensor roles must be unique"
      else
        let shapeValue ← required object (text "shape") path
        let shapeValues ← expectArray shapeValue s!"{path}.shape"
        if ¬(1 ≤ shapeValues.length ∧ shapeValues.length ≤ 8) then
          schema s!"{path}.shape" "rank must be from 1 through 8"
        else
          let (shape,elements) ← shapeValues.zipIdx.foldlM (parseDimension path) ([],1)
          let expectedLength ← okOr (.arithmeticOverflow "tensor logical byte length")
            (checkedMul elements dtype.byteWidth)
          if length ≠ expectedLength then schema s!"{path}.length" "does not equal shape product times dtype width"
          else
            let last ← okOr (.arithmeticOverflow "tensor object range") (checkedAdd offset length)
            if last > objectLength then schema path "tensor range exceeds its declared object"
            else .ok ⟨scan.ranges ++ [(objectDigest,offset,last)],role::scan.roles,
              scan.tensors ++ [⟨dtype,id,length,objectDigest,offset,role,shape⟩]⟩

def coverRange (object : Digest) (cursor : Nat) (range : Nat × Nat) : Except FormatError Nat :=
  if range.1 > cursor then .error (.tensorGap object cursor range.1)
  else if range.1 < cursor then .error (.tensorOverlap object cursor range.1)
  else .ok range.2

def objectRanges (ranges : List (Digest × Nat × Nat)) (object : Digest) : List (Nat × Nat) :=
  sortByKey (fun range => toLex range) ((ranges.filter (fun row => row.1 = object)).map Prod.snd)

def validateTensorCoverage (objects : List ObjectRecord) (ranges : List (Digest × Nat × Nat)) :
    Except FormatError Unit :=
  objects.foldlM (fun _ object => do
    let cursor ← (objectRanges ranges object.digest).foldlM (coverRange object.digest) 0
    if cursor ≠ object.length then .error (.tensorCoverage object.digest cursor object.length) else .ok ()) ()

def parseTensors (value : Json) (objects : List ObjectRecord) (limits : Limits) :
    Except FormatError (List TensorRecord) := do
  let values ← expectArray value "$.tensors"
  if values.length > limits.tensors then .error (.countLimit "tensors" values.length limits.tensors)
  else
    let scan ← values.zipIdx.foldlM (parseTensor objects) ⟨[],[],[]⟩
    validateTensorCoverage objects scan.ranges
    .ok scan.tensors

def zeroDigest : Digest := ⟨List.replicate 32 0,by rfl⟩

def validateSchema (document : Json) (limits : Limits) : Except FormatError Manifest := do
  let root ← expectObject document "$"
  exactKeys root [text "adapter",text "format",text "model",text "objects",text "tensors",text "tokenizer",
    text "version"] "$"
  let formatValue ← required root (text "format") "$"
  expectLiteralString formatValue (text "rmoa") "$.format"
  let versionValue ← required root (text "version") "$"
  expectLiteralInteger versionValue 1 "$.version"
  let adapterValue ← required root (text "adapter") "$"
  let adapter ← parseAdapter adapterValue
  let modelValue ← required root (text "model") "$"
  let model ← parseModel modelValue
  let tokenizerValue ← required root (text "tokenizer") "$"
  let tokenizer ← parseTokenizer tokenizerValue
  if tokenizer.vocabSize ≠ model.vocabSize then schema "$.tokenizer.vocab_size" "must equal $.model.vocab_size"
  else
    let objectsValue ← required root (text "objects") "$"
    let objects ← parseObjects objectsValue limits
    let tensorsValue ← required root (text "tensors") "$"
    let tensors ← parseTensors tensorsValue objects limits
    .ok ⟨adapter,model,objects,tensors,tokenizer,zeroDigest,[]⟩

section Parsing
variable (sha256 : Bytes → Digest)

def parseWithLimits (bytes : Bytes) (limits : Limits) : Except FormatError Manifest := do
  let limits ← limits.validate
  if bytes.length > limits.manifestBytes then .error (.manifestTooLarge bytes.length limits.manifestBytes)
  else
    let document ← parse bytes
    let manifest ← validateSchema document.tree limits
    if canonicalBytes document ≠ bytes then .error .nonCanonicalManifest
    else .ok {manifest with artifactId := sha256 bytes, canonicalBytes := bytes}

/-! Limits only refuse: they do not change what a manifest says -/

theorem objectAgrees (limits other : Limits) (scan : ObjectScan) (row : Json × Nat) :
    Agrees (parseObject limits scan row) (parseObject other scan row) := by
  refine agreesThen (fun object => agreesThen (fun _ => agreesThen (fun _ => agreesThen (fun digest => ?_))))
  refine agreesGuard (agreesThen (fun _ => agreesThen (fun length => agreesGuard (agreesThen (fun aggregate => ?_)))))
  refine agreesGuard (agreesThen (fun _ => agreesThen (fun pageSize => agreesGuard (agreesGuard ?_))))
  refine agreesThen (fun _ => agreesThen (fun pageTable => agreesGuard (agreesThen (fun _ => ?_))))
  refine agreesThen (fun tableLength => agreesThen (fun _ => agreesGuard (agreesGuard (agreesThen (fun _ => ?_)))))
  exact agreesGuard (agreesRefl _)

theorem objectsAgree (value : Json) (limits other : Limits) : Agrees (parseObjects value limits) (parseObjects value other) := by
  refine agreesThen (fun values => agreesGuard (agreesBind ?_ (fun scan => agreesRefl _)))
  exact agreesFold (fun scan row => objectAgrees limits other scan row) _ _

theorem tensorsAgree (value : Json) (objects : List ObjectRecord) (limits other : Limits) :
    Agrees (parseTensors value objects limits) (parseTensors value objects other) :=
  agreesThen (fun _ => agreesGuard (agreesRefl _))

theorem schemaAgrees (document : Json) (limits other : Limits) :
    Agrees (validateSchema document limits) (validateSchema document other) := by
  refine agreesThen (fun root => agreesThen (fun _ => agreesThen (fun _ => agreesThen (fun _ => agreesThen (fun _ => ?_)))))
  refine agreesThen (fun _ => agreesThen (fun _ => agreesThen (fun adapter => agreesThen (fun _ => agreesThen (fun model => ?_)))))
  refine agreesThen (fun _ => agreesThen (fun tokenizer => agreesGuard (agreesThen (fun objectsValue => ?_))))
  refine agreesBind (objectsAgree objectsValue limits other) (fun objects => agreesThen (fun tensorsValue => ?_))
  exact agreesBind (tensorsAgree tensorsValue objects limits other) (fun _ => agreesRefl _)

theorem limitsAgree (bytes : Bytes) (limits other : Limits) :
    Agrees (parseWithLimits sha256 bytes limits) (parseWithLimits sha256 bytes other) := by
  intro m m' left right
  obtain ⟨limits,-,left⟩ := bindOk.mp left
  obtain ⟨other,-,right⟩ := bindOk.mp right
  have rest : Agrees (parse bytes >>= fun document => validateSchema document.tree limits >>= fun manifest =>
        if canonicalBytes document ≠ bytes then .error .nonCanonicalManifest
        else .ok {manifest with artifactId := sha256 bytes, canonicalBytes := bytes})
      (parse bytes >>= fun document => validateSchema document.tree other >>= fun manifest =>
        if canonicalBytes document ≠ bytes then .error .nonCanonicalManifest
        else .ok {manifest with artifactId := sha256 bytes, canonicalBytes := bytes}) :=
    agreesThen (fun document => agreesBind (schemaAgrees document.tree limits other) (fun _ => agreesRefl _))
  exact rest m m' (guardOk.mp left).2 (guardOk.mp right).2

theorem parsedIdentity {sha256 : Bytes → Digest} {bytes : Bytes} {limits : Limits} {m : Manifest}
    (ok : parseWithLimits sha256 bytes limits = .ok m) : m.artifactId = sha256 bytes ∧ m.canonicalBytes = bytes := by
  obtain ⟨_,-,ok⟩ := bindOk.mp ok
  obtain ⟨_,-,ok⟩ := bindOk.mp (guardOk.mp ok).2
  obtain ⟨_,-,ok⟩ := bindOk.mp ok
  cases (guardOk.mp ok).2
  exact ⟨rfl,rfl⟩

end Parsing

end RunnelMoe.Format
