import RunnelMoe.BinaryFloats
import RunnelMoe.Readers
import RunnelMoe.Results
import RunnelMoe.StoreErrors
import RunnelMoe.Words

/-! The JSON subset of manifests: a reader of the JSON grammar that builds values under
the policy of the format, and the canonical writer. A string is the list of its UTF-8
bytes. The reader stands for the deserializer of the source driven by its visitor: a
policy violation ends it at once, and any other failure is a fault of the text, whose
line, column and message are not modelled. -/
namespace RunnelMoe.Format
open BinaryFloats Readers Results StoreErrors Words

def maxSafeInteger : Nat := 9007199254740991
def maxNestingDepth : Nat := 12
def maxSchemaStringBytes : Nat := 256
def maxJsonCollectionEntries : Nat := 65536

inductive Json where
  | bool (value : Bool)
  | integer (value : Nat)
  | string (value : Bytes)
  | array (values : List Json)
  | object (entries : List (Bytes × Json))

def Ascending (entries : List (Bytes × Json)) : Prop := (entries.map Prod.fst).Pairwise (· < ·)

inductive Json.Sorted : Json → Prop where
  | bool (value : Bool) : Sorted (.bool value)
  | integer (value : Nat) : Sorted (.integer value)
  | string (value : Bytes) : Sorted (.string value)
  | array {values : List Json} (each : ∀ v ∈ values, Sorted v) : Sorted (.array values)
  | object {entries : List (Bytes × Json)} (ascending : Ascending entries) (each : ∀ e ∈ entries, Sorted e.2) :
      Sorted (.object entries)

structure JsonValue where
  tree : Json
  sorted : tree.Sorted

inductive JsonIssue where
  | duplicateKey (key : Bytes)
  | nestingTooDeep
  | null
  | floatingPoint
  | integerOutOfRange
  | stringTooLong (actual : Nat)
  | nonAsciiString
  | collectionTooLarge
  deriving DecidableEq, Repr

inductive JsonFault where
  | grammar
  | policy (issue : JsonIssue)
  deriving DecidableEq, Repr

def escaped (b : UInt8) : Option UInt8 :=
  if b = 34 ∨ b = 92 ∨ b = 47 then some b
  else if b = 98 then some 8
  else if b = 102 then some 12
  else if b = 110 then some 10
  else if b = 114 then some 13
  else if b = 116 then some 9
  else none

def hexValue (b : UInt8) : Option Nat :=
  if 65 ≤ b ∧ b ≤ 70 then some (b.toNat - 55) else lowercaseHexValue b

def unit (a b c d : UInt8) : Option Nat := do
  let a ← hexValue a
  let b ← hexValue b
  let c ← hexValue c
  let d ← hexValue d
  some (((a * 16 + b) * 16 + c) * 16 + d)

def push (text : Bytes) (read : Except JsonFault (Bytes × Bytes)) : Except JsonFault (Bytes × Bytes) := do
  let (more,rest) ← read
  .ok (text ++ more,rest)

-- The bytes of a string after its opening quote. A leading surrogate needs a trailing one.
def characters : Reader JsonFault Bytes
  | [] => .error .grammar
  | b::rest =>
    if b = 34 then .ok ([],rest)
    else if b = 92 then match rest with
      | [] => .error .grammar
      | e::rest =>
        if e = 117 then match rest with
          | p::q::r::s::rest => match unit p q r s with
            | none => .error .grammar
            | some code =>
              if 56320 ≤ code ∧ code ≤ 57343 then .error .grammar
              else if 55296 ≤ code ∧ code ≤ 56319 then match rest with
                | x::y::p::q::r::s::rest =>
                  if x = 92 ∧ y = 117 then match unit p q r s with
                    | none => .error .grammar
                    | some low =>
                      if 56320 ≤ low ∧ low ≤ 57343 then
                        push (encodeUtf8 (65536 + (code - 55296) * 1024 + (low - 56320))) (characters rest)
                      else .error .grammar
                  else .error .grammar
                | _ => .error .grammar
              else push (encodeUtf8 code) (characters rest)
          | _ => .error .grammar
        else match escaped e with
          | none => .error .grammar
          | some c => push [c] (characters rest)
    else if b < 32 then .error .grammar
    else push [b] (characters rest)

def quoted : Reader JsonFault Bytes := fun bytes => do
  let (text,rest) ← characters bytes
  if utf8 text then .ok (text,rest) else .error .grammar

def validateString (value : Bytes) : Except JsonFault Unit :=
  if value.length > maxSchemaStringBytes then .error (.policy (.stringTooLong value.length))
  else if !ascii value then .error (.policy .nonAsciiString)
  else .ok ()

inductive Number where
  | unsigned (value : Nat)
  | negative (value : Nat)
  | float
  deriving DecidableEq, Repr

/- Floats are refused by the policy, but one that is out of range is a fault of the text. A significand is a word, and
the digits that would leave it only raise the exponent. -/

def truncated : Nat → Nat → Nat × Nat
  | 0, n => (n,0)
  | fuel + 1, n => if n < modulus then (n,0) else ((truncated fuel (n / 10)).1,(truncated fuel (n / 10)).2 + 1)

def nearestDouble (n : Nat) : Nat := if n.log2 ≤ 52 then n else roundEven (n.log2 - 53) n * 2^(n.log2 - 52)

def leastInfinite : Nat := 2^1024 - 2^970

def floatFromParts (significand : Nat) (exponent : Int) : Except JsonFault Unit :=
  if significand = 0 ∨ exponent < 0 then .ok ()
  else if exponent > 308 ∨ nearestDouble significand * nearestDouble (10^exponent.toNat) ≥ leastInfinite then .error .grammar
  else .ok ()

def fractionDigits (significand : Nat) (exponent : Int) : Bytes → Nat × Int
  | [] => (significand,exponent)
  | b::rest =>
    if isDigit b ∧ significand * 10 + (b.toNat - 48) < modulus then
      fractionDigits (significand * 10 + (b.toNat - 48)) (exponent - 1) rest
    else (significand,exponent)

def exponentDigits (positive : Bool) (significand : Nat) (start : Int) : Reader JsonFault Unit
  | [] => .error .grammar
  | b::rest =>
    if isDigit b then
      let (exponent,rest) := digits 0 (b::rest)
      if exponent > 2147483647 then
        if significand ≠ 0 ∧ positive then .error .grammar else .ok ((),rest)
      else do
        floatFromParts significand (if positive then start + exponent else start - exponent)
        .ok ((),rest)
    else .error .grammar

def exponent (significand : Nat) (start : Int) : Reader JsonFault Unit
  | [] => .error .grammar
  | b::rest =>
    if b = 43 then exponentDigits true significand start rest
    else if b = 45 then exponentDigits false significand start rest
    else exponentDigits true significand start (b::rest)

-- A negated significand is a float if it is zero or leaves the signed word.
def integerNumber (positive : Bool) (significand : Nat) : Number :=
  if positive then .unsigned significand
  else if significand = 0 ∨ significand > 9223372036854775808 then .float
  else .negative significand

def isExponent (b : UInt8) : Bool := b = 101 || b = 69

def optionalExponent (significand : Nat) (start : Int) : Reader JsonFault Unit
  | [] => do
    floatFromParts significand start
    .ok ((),[])
  | b::rest =>
    if isExponent b then exponent significand start rest
    else do
      floatFromParts significand start
      .ok ((),b::rest)

def fraction (significand : Nat) (start : Int) : Reader JsonFault Unit
  | [] => .error .grammar
  | b::rest =>
    if isDigit b then
      let (significand,start) := fractionDigits significand start (b::rest)
      optionalExponent significand start (digits 0 (b::rest)).2
    else .error .grammar

def integerEnd (positive : Bool) (n : Nat) : Except JsonFault Number :=
  if n < modulus then .ok (integerNumber positive n)
  else do
    floatFromParts (truncated n.log2 n).1 (truncated n.log2 n).2
    .ok .float

def numberEnd (positive : Bool) (n : Nat) : Reader JsonFault Number
  | [] => do
    let number ← integerEnd positive n
    .ok (number,[])
  | b::rest =>
    if b = 46 then do
      let (_,rest) ← fraction (truncated n.log2 n).1 (truncated n.log2 n).2 rest
      .ok (.float,rest)
    else if isExponent b then do
      let (_,rest) ← exponent (truncated n.log2 n).1 (truncated n.log2 n).2 rest
      .ok (.float,rest)
    else do
      let number ← integerEnd positive n
      .ok (number,b::rest)

def number (positive : Bool) : Reader JsonFault Number
  | [] => .error .grammar
  | b::rest =>
    if b = 48 then
      if rest.head?.any isDigit then .error .grammar else numberEnd positive 0 rest
    else if isDigit b then
      let (significand,rest) := digits 0 (b::rest)
      numberEnd positive significand rest
    else .error .grammar

def visitNumber : Number → Except JsonFault Json
  | .unsigned value =>
    if value > maxSafeInteger then .error (.policy .integerOutOfRange) else .ok (.integer value)
  | .negative _ => .error (.policy .integerOutOfRange)
  | .float => .error (.policy .floatingPoint)

def insertEntry (key : Bytes) (value : Json) : List (Bytes × Json) → List (Bytes × Json)
  | [] => [(key,value)]
  | e::rest =>
    if key < e.1 then (key,value)::e::rest
    else if key = e.1 then (key,value)::rest
    else e :: insertEntry key value rest

def literal (word : Bytes) : Reader JsonFault Unit
  | bytes => if word <+: bytes then .ok ((),bytes.drop word.length) else .error .grammar

def keyOf (entries : List (Bytes × Json)) : Reader JsonFault Bytes
  | 34::rest => do
    let (key,rest) ← quoted rest
    validateString key
    if key ∈ entries.map Prod.fst then .error (.policy (.duplicateKey key)) else .ok (key,rest)
  | _ => .error .grammar

def colon : Reader JsonFault Unit := fun bytes =>
  match skipSpace bytes with
  | 58::rest => .ok ((),rest)
  | _ => .error .grammar

def member (inner : Reader JsonFault Json) (entries : List (Bytes × Json)) (key : Bytes) :
    Reader JsonFault (List (Bytes × Json)) := fun bytes => do
  let (_,rest) ← colon bytes
  let (value,rest) ← inner rest
  .ok (insertEntry key value entries,rest)

def visitSeq (inner : Reader JsonFault Json) : Reader JsonFault Json := fun bytes => do
  let (values,rest) ← series .grammar (.policy .collectionTooLarge) 93 (fun _ => inner)
    (fun values value rest => .ok (values ++ [value],rest)) maxJsonCollectionEntries true ([] : List Json) bytes
  .ok (.array values,rest)

def visitMap (inner : Reader JsonFault Json) : Reader JsonFault Json := fun bytes => do
  let (entries,rest) ← series .grammar (.policy .collectionTooLarge) 125 keyOf (member inner)
    maxJsonCollectionEntries true ([] : List (Bytes × Json)) bytes
  .ok (.object entries,rest)

-- The reader of what is inside a collection is absent at the depth that allows none.
def valueWith (inner : Option (Reader JsonFault Json)) : Reader JsonFault Json := fun bytes =>
  match skipSpace bytes with
  | [] => .error .grammar
  | b::rest =>
    if b = 110 then do
      let _ ← literal [117,108,108] rest
      .error (.policy .null)
    else if b = 116 then do
      let (_,rest) ← literal [114,117,101] rest
      .ok (.bool true,rest)
    else if b = 102 then do
      let (_,rest) ← literal [97,108,115,101] rest
      .ok (.bool false,rest)
    else if b = 45 then do
      let (n,rest) ← number false rest
      let value ← visitNumber n
      .ok (value,rest)
    else if isDigit b then do
      let (n,rest) ← number true (b::rest)
      let value ← visitNumber n
      .ok (value,rest)
    else if b = 34 then do
      let (text,rest) ← quoted rest
      validateString text
      .ok (.string text,rest)
    else if b = 91 then match inner with
      | none => .error (.policy .nestingTooDeep)
      | some inner => visitSeq inner rest
    else if b = 123 then match inner with
      | none => .error (.policy .nestingTooDeep)
      | some inner => visitMap inner rest
    else .error .grammar

def readValue : Nat → Reader JsonFault Json
  | 0 => valueWith none
  | levels + 1 => valueWith (some (readValue levels))

def document (bytes : Bytes) : Except JsonFault Json := do
  let (tree,rest) ← readValue maxNestingDepth bytes
  match skipSpace rest with
  | [] => .ok tree
  | _ => .error .grammar

def showText (text : Bytes) : String := String.ofList (text.map (fun b => Char.ofNat b.toNat))

def JsonIssue.error : JsonIssue → FormatError
  | .duplicateKey key => .duplicateKey (showText key)
  | .nestingTooDeep => .nestingTooDeep maxNestingDepth
  | .null => .nullNotAllowed
  | .floatingPoint => .floatingPointNotAllowed
  | .integerOutOfRange => .integerOutOfRange maxSafeInteger
  | .stringTooLong actual => .stringTooLong actual maxSchemaStringBytes
  | .nonAsciiString => .nonAsciiString
  | .collectionTooLarge => .countLimit "JSON collection" (maxJsonCollectionEntries + 1) maxJsonCollectionEntries

def JsonFault.error : JsonFault → FormatError
  | .grammar => .jsonSyntax 0 0 ""
  | .policy issue => issue.error

def escapeByte (b : UInt8) : Bytes :=
  if b = 34 then [92,34]
  else if b = 92 then [92,92]
  else if b = 8 then [92,98]
  else if b = 9 then [92,116]
  else if b = 10 then [92,110]
  else if b = 12 then [92,102]
  else if b = 13 then [92,114]
  else if b ≤ 31 then [92,117,48,48,hexDigit (b.toNat / 16),hexDigit (b.toNat % 16)]
  else [b]

def writeString (text : Bytes) : Bytes := 34 :: text.flatMap escapeByte ++ [34]

mutual
def writeValue : Json → Bytes
  | .bool value => if value then [116,114,117,101] else [102,97,108,115,101]
  | .integer value => decimal value
  | .string value => writeString value
  | .array values => 91 :: writeItems true values ++ [93]
  | .object entries => 123 :: writeEntries true entries ++ [125]
termination_by structural v => v
def writeItems (first : Bool) : List Json → Bytes
  | [] => []
  | v::rest => (if first then writeValue v else 44::writeValue v) ++ writeItems false rest
termination_by structural vs => vs
def writeEntries (first : Bool) : List (Bytes × Json) → Bytes
  | [] => []
  | e::rest => (if first then writeEntry e else 44::writeEntry e) ++ writeEntries false rest
termination_by structural es => es
def writeEntry : Bytes × Json → Bytes
  | (key,v) => writeString key ++ 58 :: writeValue v
termination_by structural e => e
end

def canonicalTree (tree : Json) : Bytes := writeValue tree ++ [10]

def canonicalBytes (v : JsonValue) : Bytes := canonicalTree v.tree

end RunnelMoe.Format
