import Mathlib.Data.BitVec

/-! The closed errors of the kernels and the statuses of their native interface. -/
namespace RunnelMoe.Kernels

abbrev F32 := BitVec 32

inductive BufferRole where
  | weights
  | input
  | output
  | workspace
  deriving DecidableEq, Repr

inductive NativeStatus where
  | success
  | nullPointer
  | invalidDimension
  | sizeOverflow
  | byteLengthMismatch
  | naturalAlignmentFailure
  | addressRangeOverflow
  | rangeOverlap
  | unavailableIsa
  deriving DecidableEq, Repr

inductive KernelError where
  | invalidDimensions (rows columns : Nat)
  | sizeOverflow (buffer : BufferRole)
  | matrixLengthMismatch (expectedWords actualWords : Nat)
  | byteLengthMismatch (expectedBytes actualBytes : Nat)
  | bufferLengthMismatch (buffer : BufferRole) (expectedElements actualElements : Nat)
  | nullPointer (buffer : BufferRole)
  | naturalAlignmentFailure (buffer : BufferRole)
  | nonFiniteWeight (index : Nat) (bits : BitVec 16)
  | nonFiniteInput (index : Nat) (bits : F32)
  | nonFiniteOutput (index : Nat) (bits : F32)
  | nonFiniteConversionInput (bits : F32)
  | conversionRoundedToInfinity (bits : F32)
  | addressRangeOverflow (buffer : BufferRole)
  | rangeOverlap (first second : BufferRole)
  | backendUnavailable
  | nativeFailure (status : NativeStatus)
  | nativeContractViolation (status : Int)
  deriving DecidableEq, Repr

end RunnelMoe.Kernels
