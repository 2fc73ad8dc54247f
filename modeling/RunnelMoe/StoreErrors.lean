import Mathlib.Tactic.Common

/-! Digests and the typed failures of the storage boundary. Texts are the ones
of the source; the sanitized I/O error kind is kept as an enumeration index. -/
namespace RunnelMoe.StoreErrors

structure Digest where
  bytes : List UInt8
  width : bytes.length = 32
  deriving DecidableEq, Repr

inductive FormatError where
  | limitExceedsFormat (field : String) (value ceiling : Nat)
  | manifestTooLarge (actual limit : Nat)
  | memoryBudgetExceeded (required limit : Nat)
  | jsonSyntax (line column : Nat) (message : String)
  | duplicateKey (key : String)
  | nestingTooDeep (limit : Nat)
  | nullNotAllowed
  | floatingPointNotAllowed
  | integerOutOfRange (max : Nat)
  | stringTooLong (actual limit : Nat)
  | nonAsciiString
  | schema (path problem : String)
  | countLimit (field : String) (actual limit : Nat)
  | arithmeticOverflow (context : String)
  | nonCanonicalManifest
  | artifactIdMismatch (expected actual : Digest)
  | io (operation message : String)
  | notRegularFile (kind : String)
  | missingBlob (kind : String) (digest : Digest)
  | blobLengthMismatch (kind : String) (digest : Digest) (expected actual : Nat)
  | blobDigestMismatch (kind : String) (expected actual : Digest)
  | pageTable (object : Digest) (problem : String)
  | pageHashMismatch (object : Digest) (pageIndex : Nat)
  | unknownTensorRole (role : String)
  | tensorGap (object : Digest) (expectedOffset actualOffset : Nat)
  | tensorOverlap (object : Digest) (previousEnd nextOffset : Nat)
  | tensorCoverage (object : Digest) (covered length : Nat)
  deriving DecidableEq, Repr

inductive StoreError where
  | invalidConfig (field problem : String)
  | resourceExhausted (resource : String) (required limit : Nat)
  | queueFull
  | shutdown
  | cancelled
  | deadlineExceeded
  | unsafeLayout (kind : String)
  | missing (kind : String)
  | alreadyExists (kind : String)
  | lengthMismatch (kind : String) (expected actual : Nat)
  | integrity (kind : String)
  | pageOutOfRange (index count : Nat)
  | invalidResumeToken
  | resumeMismatch (field : String)
  | budgetExceeded (required limit : Nat)
  | filesystemReserve (required available reserve : Nat)
  | publishedButDurabilityUnconfirmed (kind : String)
  | arithmeticOverflow (context : String)
  | io (operation : String) (kind : Nat)
  | format (source : FormatError)
  | invariant (problem : String)
  deriving DecidableEq, Repr

end RunnelMoe.StoreErrors
