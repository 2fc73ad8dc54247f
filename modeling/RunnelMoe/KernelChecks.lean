import RunnelMoe.KernelErrors
import RunnelMoe.Results
import RunnelMoe.Words

/-! The two validations in front of the native kernel: the one made on slices before the call
and the one its entry point makes on addresses and byte lengths. They check the same things
in different orders and words, so each is compared with what both accept. Addresses and sizes
are words of 64 bits. -/
namespace RunnelMoe.Kernels
open Results Words

structure Slice where
  address : Nat
  length : Nat
  deriving DecidableEq, Repr

structure ByteRange where
  start : Nat
  stop : Nat
  deriving DecidableEq, Repr

def requirePointer (address alignment : Nat) (buffer : BufferRole) : Except KernelError Unit :=
  if address = 0 then .error (.nullPointer buffer)
  else if address % alignment ≠ 0 then .error (.naturalAlignmentFailure buffer)
  else .ok ()

def checkedBytes (elements elementSize : Nat) (buffer : BufferRole) : Except KernelError Nat :=
  match checkedMul elements elementSize with
  | some bytes => .ok bytes
  | none => .error (.sizeOverflow buffer)

def requireBytes (elements elementSize expected : Nat) (buffer : BufferRole) : Except KernelError Unit := do
  let actual ← checkedBytes elements elementSize buffer
  if actual ≠ expected then .error (.bufferLengthMismatch buffer (expected / elementSize) elements) else .ok ()

def checkedRange (start bytes : Nat) (buffer : BufferRole) : Except KernelError ByteRange :=
  match checkedAdd start bytes with
  | some stop => .ok ⟨start,stop⟩
  | none => .error (.addressRangeOverflow buffer)

def overlap (first second : ByteRange) : Prop := first.start < second.stop ∧ second.start < first.stop
instance (first second : ByteRange) : Decidable (overlap first second) := by unfold overlap; infer_instance

def requireDisjoint (first second : ByteRange) (firstRole secondRole : BufferRole) : Except KernelError Unit :=
  if overlap first second then .error (.rangeOverlap firstRole secondRole) else .ok ()

structure ByteLengths where
  weights : Nat
  input : Nat
  output : Nat
  deriving DecidableEq, Repr

def gemvChecks (weights input output : Slice) (rows columns : Nat) : Except KernelError ByteLengths := do
  if rows = 0 ∨ columns = 0 then .error (.invalidDimensions rows columns)
  else
    let elements ← checkedBytes rows columns .weights
    let weightBytes ← checkedBytes elements 2 .weights
    let inputBytes ← checkedBytes columns 4 .input
    let outputBytes ← checkedBytes rows 4 .output
    requireBytes weights.length 2 weightBytes .weights
    requirePointer weights.address 2 .weights
    requirePointer input.address 4 .input
    requirePointer output.address 4 .output
    requireBytes input.length 4 inputBytes .input
    requireBytes output.length 4 outputBytes .output
    let weightRange ← checkedRange weights.address weightBytes .weights
    let inputRange ← checkedRange input.address inputBytes .input
    let outputRange ← checkedRange output.address outputBytes .output
    requireDisjoint weightRange inputRange .weights .input
    requireDisjoint weightRange outputRange .weights .output
    requireDisjoint inputRange outputRange .input .output
    .ok ⟨weightBytes,inputBytes,outputBytes⟩

def runnelCheckedMultiply (left right : Nat) : Option Nat :=
  if left ≠ 0 ∧ right > maxWord / left then none else some (left * right % modulus)

def runnelCheckedRange (start byteLength : Nat) : Option ByteRange :=
  if byteLength > maxWord ∨ start > maxWord - byteLength then none
  else some ⟨start,(start + byteLength) % modulus⟩

structure Arguments where
  weights : Nat
  weightBytes : Nat
  input : Nat
  inputBytes : Nat
  output : Nat
  outputBytes : Nat
  rows : Nat
  columns : Nat
  deriving DecidableEq, Repr

structure Arguments.Words (a : Arguments) : Prop where
  weights : a.weights < modulus
  weightBytes : a.weightBytes < modulus
  input : a.input < modulus
  inputBytes : a.inputBytes < modulus
  output : a.output < modulus
  outputBytes : a.outputBytes < modulus
  rows : a.rows < modulus
  columns : a.columns < modulus

def expectedSizes (rows columns : Nat) : Option ByteLengths := do
  let elementCount ← runnelCheckedMultiply rows columns
  let weights ← runnelCheckedMultiply elementCount 2
  let input ← runnelCheckedMultiply columns 4
  let output ← runnelCheckedMultiply rows 4
  some ⟨weights,input,output⟩

def entryRanges (a : Arguments) : Option (ByteRange × ByteRange × ByteRange) := do
  let weights ← runnelCheckedRange a.weights a.weightBytes
  let input ← runnelCheckedRange a.input a.inputBytes
  let output ← runnelCheckedRange a.output a.outputBytes
  some (weights,input,output)

def entryRejects (a : Arguments) : Option NativeStatus :=
  if a.weights = 0 ∨ a.input = 0 ∨ a.output = 0 then some .nullPointer
  else if a.rows = 0 ∨ a.columns = 0 then some .invalidDimension
  else match expectedSizes a.rows a.columns with
    | none => some .sizeOverflow
    | some sizes =>
      if a.weightBytes ≠ sizes.weights ∨ a.inputBytes ≠ sizes.input ∨ a.outputBytes ≠ sizes.output then
        some .byteLengthMismatch
      else if a.weights % 2 ≠ 0 ∨ a.input % 4 ≠ 0 ∨ a.output % 4 ≠ 0 then some .naturalAlignmentFailure
      else match entryRanges a with
        | none => some .addressRangeOverflow
        | some (weights,input,output) =>
          if overlap weights input ∨ overlap weights output ∨ overlap input output then some .rangeOverlap
          else none

def entryStatus (avx2 : Bool) (a : Arguments) : NativeStatus :=
  match entryRejects a with
  | some status => status
  | none => if avx2 then .success else .unavailableIsa

structure Accepts (a : Arguments) : Prop where
  rows : a.rows ≠ 0
  columns : a.columns ≠ 0
  weightBytes : a.weightBytes = a.rows * a.columns * 2
  inputBytes : a.inputBytes = a.columns * 4
  outputBytes : a.outputBytes = a.rows * 4
  weightsNonnull : a.weights ≠ 0
  inputNonnull : a.input ≠ 0
  outputNonnull : a.output ≠ 0
  weightsAligned : a.weights % 2 = 0
  inputAligned : a.input % 4 = 0
  outputAligned : a.output % 4 = 0
  weightsEnd : a.weights + a.weightBytes < modulus
  inputEnd : a.input + a.inputBytes < modulus
  outputEnd : a.output + a.outputBytes < modulus
  weightsInput : ¬overlap ⟨a.weights,a.weights + a.weightBytes⟩ ⟨a.input,a.input + a.inputBytes⟩
  weightsOutput : ¬overlap ⟨a.weights,a.weights + a.weightBytes⟩ ⟨a.output,a.output + a.outputBytes⟩
  inputOutput : ¬overlap ⟨a.input,a.input + a.inputBytes⟩ ⟨a.output,a.output + a.outputBytes⟩

theorem multiplyChecked (left right : Nat) : runnelCheckedMultiply left right = checkedMul left right := by
  have top : modulus = maxWord + 1 := rfl
  have fits : (left ≠ 0 ∧ right > maxWord / left) ↔ ¬left * right < modulus := by
    rcases Nat.eq_zero_or_pos left with rfl | positive
    · simp [modulus]
    · rw [gt_iff_lt,Nat.div_lt_iff_lt_mul positive,Nat.mul_comm right,top]
      have := Nat.ne_of_gt positive
      omega
  unfold runnelCheckedMultiply checkedMul
  by_cases small : left * right < modulus
  · rw [if_neg (fun large => fits.mp large small),if_pos small,Nat.mod_eq_of_lt small]
  · rw [if_pos (fits.mpr small),if_neg small]

theorem rangeChecked {start byteLength : Nat} (word : byteLength < modulus) :
    runnelCheckedRange start byteLength = (checkedAdd start byteLength).map (ByteRange.mk start) := by
  have top : modulus = maxWord + 1 := rfl
  have fits : (byteLength > maxWord ∨ start > maxWord - byteLength) ↔ ¬start + byteLength < modulus := by
    rw [top] at word ⊢
    omega
  unfold runnelCheckedRange checkedAdd
  by_cases small : start + byteLength < modulus
  · rw [if_neg (fun out => fits.mp out small),if_pos small,Nat.mod_eq_of_lt small]
    rfl
  · rw [if_pos (fits.mpr small),if_neg small]
    rfl

section Before
variable {elements elementSize expected bytes address alignment start : Nat} {buffer other : BufferRole}

theorem checkedBytesOk : checkedBytes elements elementSize buffer = .ok bytes ↔
    elements * elementSize < modulus ∧ bytes = elements * elementSize := by
  rw [← checkedMulSome,checkedBytes]
  cases checkedMul elements elementSize with
  | none => exact ⟨nofun,nofun⟩
  | some found => simp

theorem requireBytesOk (fits : expected < modulus) :
    requireBytes elements elementSize expected buffer = .ok () ↔ elements * elementSize = expected := by
  constructor
  · intro ok
    obtain ⟨actual,sized,ok⟩ := bindOk.mp ok
    obtain ⟨same,-⟩ := guardOk.mp ok
    rw [← (checkedBytesOk.mp sized).2]
    exact not_not.mp same
  · rintro rfl
    exact bindOk.mpr ⟨_,checkedBytesOk.mpr ⟨fits,rfl⟩,if_neg (not_not.mpr rfl)⟩

theorem requirePointerOk : requirePointer address alignment buffer = .ok () ↔ address ≠ 0 ∧ address % alignment = 0 := by
  rw [requirePointer,guardOk,guardOk,not_not,and_iff_left rfl]

theorem checkedRangeOk {range : ByteRange} : checkedRange start bytes buffer = .ok range ↔
    start + bytes < modulus ∧ range = ⟨start,start + bytes⟩ := by
  rw [checkedRange]
  cases sum : checkedAdd start bytes with
  | none =>
    have := checkedAddNone.mp sum
    exact ⟨nofun,fun both => by omega⟩
  | some stop =>
    obtain ⟨small,rfl⟩ := checkedAddSome.mp sum
    simp [small,eq_comm]

theorem requireDisjointOk {first second : ByteRange} :
    requireDisjoint first second buffer other = .ok () ↔ ¬overlap first second := by
  rw [requireDisjoint,guardOk,and_iff_left rfl]

end Before

def sliceArguments (weights input output : Slice) (rows columns : Nat) (sizes : ByteLengths) : Arguments :=
  ⟨weights.address,sizes.weights,input.address,sizes.input,output.address,sizes.output,rows,columns⟩

section Agreement
variable {weights input output : Slice} {rows columns : Nat} {sizes : ByteLengths} {a : Arguments}

theorem gemvChecksOk : gemvChecks weights input output rows columns = .ok sizes ↔
    Accepts (sliceArguments weights input output rows columns sizes) ∧
      weights.length = rows * columns ∧ input.length = columns ∧ output.length = rows := by
  constructor
  · intro ok
    obtain ⟨dimensions,ok⟩ := guardOk.mp ok
    obtain ⟨_,elements,ok⟩ := bindOk.mp ok
    obtain ⟨-,rfl⟩ := checkedBytesOk.mp elements
    obtain ⟨_,sized,ok⟩ := bindOk.mp ok
    obtain ⟨weightFits,rfl⟩ := checkedBytesOk.mp sized
    obtain ⟨_,sized,ok⟩ := bindOk.mp ok
    obtain ⟨inputFits,rfl⟩ := checkedBytesOk.mp sized
    obtain ⟨_,sized,ok⟩ := bindOk.mp ok
    obtain ⟨outputFits,rfl⟩ := checkedBytesOk.mp sized
    obtain ⟨_,weightLength,ok⟩ := bindOk.mp ok
    obtain ⟨_,weightPointer,ok⟩ := bindOk.mp ok
    obtain ⟨_,inputPointer,ok⟩ := bindOk.mp ok
    obtain ⟨_,outputPointer,ok⟩ := bindOk.mp ok
    obtain ⟨_,inputLength,ok⟩ := bindOk.mp ok
    obtain ⟨_,outputLength,ok⟩ := bindOk.mp ok
    obtain ⟨_,ranged,ok⟩ := bindOk.mp ok
    obtain ⟨weightsEnd,rfl⟩ := checkedRangeOk.mp ranged
    obtain ⟨_,ranged,ok⟩ := bindOk.mp ok
    obtain ⟨inputEnd,rfl⟩ := checkedRangeOk.mp ranged
    obtain ⟨_,ranged,ok⟩ := bindOk.mp ok
    obtain ⟨outputEnd,rfl⟩ := checkedRangeOk.mp ranged
    obtain ⟨_,weightsInput,ok⟩ := bindOk.mp ok
    obtain ⟨_,weightsOutput,ok⟩ := bindOk.mp ok
    obtain ⟨_,inputOutput,ok⟩ := bindOk.mp ok
    cases ok
    obtain ⟨weightsNonnull,weightsAligned⟩ := requirePointerOk.mp weightPointer
    obtain ⟨inputNonnull,inputAligned⟩ := requirePointerOk.mp inputPointer
    obtain ⟨outputNonnull,outputAligned⟩ := requirePointerOk.mp outputPointer
    refine ⟨⟨fun none => dimensions (.inl none),fun none => dimensions (.inr none),rfl,rfl,rfl,weightsNonnull,inputNonnull,
      outputNonnull,weightsAligned,inputAligned,outputAligned,weightsEnd,inputEnd,outputEnd,
      requireDisjointOk.mp weightsInput,requireDisjointOk.mp weightsOutput,requireDisjointOk.mp inputOutput⟩,?_,?_,?_⟩
    · exact Nat.eq_of_mul_eq_mul_right (by decide) ((requireBytesOk weightFits).mp weightLength)
    · exact Nat.eq_of_mul_eq_mul_right (by decide) ((requireBytesOk inputFits).mp inputLength)
    · exact Nat.eq_of_mul_eq_mul_right (by decide) ((requireBytesOk outputFits).mp outputLength)
  · rintro ⟨accepts,weightLength,inputLength,outputLength⟩
    obtain ⟨weightBytes,inputBytes,outputBytes⟩ := sizes
    obtain rfl : weightBytes = rows * columns * 2 := accepts.weightBytes
    obtain rfl : inputBytes = columns * 4 := accepts.inputBytes
    obtain rfl : outputBytes = rows * 4 := accepts.outputBytes
    have weightFits : rows * columns * 2 < modulus := Nat.lt_of_le_of_lt (Nat.le_add_left ..) accepts.weightsEnd
    have inputFits : columns * 4 < modulus := Nat.lt_of_le_of_lt (Nat.le_add_left ..) accepts.inputEnd
    have outputFits : rows * 4 < modulus := Nat.lt_of_le_of_lt (Nat.le_add_left ..) accepts.outputEnd
    have elements : rows * columns < modulus := Nat.lt_of_le_of_lt (Nat.le_mul_of_pos_right _ (by decide)) weightFits
    refine guardOk.mpr ⟨fun none => none.elim accepts.rows accepts.columns,?_⟩
    refine bindOk.mpr ⟨_,checkedBytesOk.mpr ⟨elements,rfl⟩,?_⟩
    refine bindOk.mpr ⟨_,checkedBytesOk.mpr ⟨weightFits,rfl⟩,?_⟩
    refine bindOk.mpr ⟨_,checkedBytesOk.mpr ⟨inputFits,rfl⟩,?_⟩
    refine bindOk.mpr ⟨_,checkedBytesOk.mpr ⟨outputFits,rfl⟩,?_⟩
    refine bindOk.mpr ⟨(),(requireBytesOk weightFits).mpr (by rw [weightLength]),?_⟩
    refine bindOk.mpr ⟨(),requirePointerOk.mpr ⟨accepts.weightsNonnull,accepts.weightsAligned⟩,?_⟩
    refine bindOk.mpr ⟨(),requirePointerOk.mpr ⟨accepts.inputNonnull,accepts.inputAligned⟩,?_⟩
    refine bindOk.mpr ⟨(),requirePointerOk.mpr ⟨accepts.outputNonnull,accepts.outputAligned⟩,?_⟩
    refine bindOk.mpr ⟨(),(requireBytesOk inputFits).mpr (by rw [inputLength]),?_⟩
    refine bindOk.mpr ⟨(),(requireBytesOk outputFits).mpr (by rw [outputLength]),?_⟩
    refine bindOk.mpr ⟨_,checkedRangeOk.mpr ⟨accepts.weightsEnd,rfl⟩,?_⟩
    refine bindOk.mpr ⟨_,checkedRangeOk.mpr ⟨accepts.inputEnd,rfl⟩,?_⟩
    refine bindOk.mpr ⟨_,checkedRangeOk.mpr ⟨accepts.outputEnd,rfl⟩,?_⟩
    refine bindOk.mpr ⟨(),requireDisjointOk.mpr accepts.weightsInput,?_⟩
    refine bindOk.mpr ⟨(),requireDisjointOk.mpr accepts.weightsOutput,?_⟩
    exact bindOk.mpr ⟨(),requireDisjointOk.mpr accepts.inputOutput,rfl⟩

theorem expectedSizesSome : expectedSizes rows columns = some sizes ↔
    rows * columns < modulus ∧ rows * columns * 2 < modulus ∧ columns * 4 < modulus ∧ rows * 4 < modulus ∧
      sizes = ⟨rows * columns * 2,columns * 4,rows * 4⟩ := by
  simp only [expectedSizes,multiplyChecked,bind,Option.bind_eq_some_iff,checkedMulSome]
  constructor
  · rintro ⟨_,⟨elements,rfl⟩,_,⟨weightFits,rfl⟩,_,⟨inputFits,rfl⟩,_,⟨outputFits,rfl⟩,same⟩
    exact ⟨elements,weightFits,inputFits,outputFits,(Option.some.inj same).symm⟩
  · rintro ⟨elements,weightFits,inputFits,outputFits,rfl⟩
    exact ⟨_,⟨elements,rfl⟩,_,⟨weightFits,rfl⟩,_,⟨inputFits,rfl⟩,_,⟨outputFits,rfl⟩,rfl⟩

theorem entryRangesSome {ranges : ByteRange × ByteRange × ByteRange} (words : a.Words) : entryRanges a = some ranges ↔
    a.weights + a.weightBytes < modulus ∧ a.input + a.inputBytes < modulus ∧ a.output + a.outputBytes < modulus ∧
      ranges = (⟨a.weights,a.weights + a.weightBytes⟩,⟨a.input,a.input + a.inputBytes⟩,
        ⟨a.output,a.output + a.outputBytes⟩) := by
  simp only [entryRanges,rangeChecked words.weightBytes,rangeChecked words.inputBytes,rangeChecked words.outputBytes,
    bind,Option.bind_eq_some_iff,Option.map_eq_some_iff,checkedAddSome]
  constructor
  · rintro ⟨_,⟨_,⟨first,rfl⟩,rfl⟩,_,⟨_,⟨second,rfl⟩,rfl⟩,_,⟨_,⟨third,rfl⟩,rfl⟩,same⟩
    exact ⟨first,second,third,(Option.some.inj same).symm⟩
  · rintro ⟨first,second,third,rfl⟩
    exact ⟨_,⟨_,⟨first,rfl⟩,rfl⟩,_,⟨_,⟨second,rfl⟩,rfl⟩,_,⟨_,⟨third,rfl⟩,rfl⟩,rfl⟩

theorem entryAccepts (words : a.Words) : entryRejects a = none ↔ Accepts a := by
  constructor
  · intro passed
    unfold entryRejects at passed
    split at passed
    · contradiction
    rename_i nonnull
    split at passed
    · contradiction
    rename_i dimensions
    split at passed
    · contradiction
    rename_i sizes expected
    obtain ⟨-,-,-,-,rfl⟩ := expectedSizesSome.mp expected
    split at passed
    · contradiction
    rename_i lengths
    split at passed
    · contradiction
    rename_i aligned
    split at passed
    · contradiction
    rename_i ranges
    split at passed
    · contradiction
    rename_i disjoint
    obtain ⟨weightsEnd,inputEnd,outputEnd,same⟩ := (entryRangesSome words).mp ranges
    cases same
    simp only [not_or,not_not,ne_eq] at nonnull dimensions lengths aligned disjoint
    exact ⟨dimensions.1,dimensions.2,lengths.1,lengths.2.1,lengths.2.2,nonnull.1,nonnull.2.1,nonnull.2.2,aligned.1,
      aligned.2.1,aligned.2.2,weightsEnd,inputEnd,outputEnd,disjoint.1,disjoint.2.1,disjoint.2.2⟩
  · intro accepts
    have weightFits := words.weightBytes
    have inputFits := words.inputBytes
    have outputFits := words.outputBytes
    rw [accepts.weightBytes] at weightFits
    rw [accepts.inputBytes] at inputFits
    rw [accepts.outputBytes] at outputFits
    have elements : a.rows * a.columns < modulus := Nat.lt_of_le_of_lt (Nat.le_mul_of_pos_right _ (by decide)) weightFits
    have sizes := expectedSizesSome.mpr ⟨elements,weightFits,inputFits,outputFits,rfl⟩
    have ranges := (entryRangesSome words).mpr ⟨accepts.weightsEnd,accepts.inputEnd,accepts.outputEnd,rfl⟩
    unfold entryRejects
    rw [if_neg (by simp [accepts.weightsNonnull,accepts.inputNonnull,accepts.outputNonnull]),
      if_neg (by simp [accepts.rows,accepts.columns]),sizes]
    simp only
    rw [if_neg (by simp [accepts.weightBytes,accepts.inputBytes,accepts.outputBytes]),
      if_neg (by simp [accepts.weightsAligned,accepts.inputAligned,accepts.outputAligned]),ranges]
    simp only
    rw [if_neg (by simp [accepts.weightsInput,accepts.weightsOutput,accepts.inputOutput])]

end Agreement
end RunnelMoe.Kernels
