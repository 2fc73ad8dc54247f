import Mathlib.Data.Rat.Cast.Order
import Mathlib.Algebra.Order.Field.Basic
import Mathlib.Tactic.Linarith
import RunnelMoe.Bitmasks
import RunnelMoe.KernelErrors
import RunnelMoe.BinaryFloats

/-! Storage words of sixteen bits and their rounding from single precision. A value of `f32` is
its bit pattern; what a finite pattern stands for is a rational number. -/
namespace RunnelMoe.Kernels
open BinaryFloats

structure Bf16 where
  bits : BitVec 16
  deriving DecidableEq, Repr

inductive Bf16Class where
  | zero
  | subnormal
  | normal
  | infinity
  | nan
  deriving DecidableEq, Repr

namespace Bf16

def toF32 (b : Bf16) : F32 := b.bits.setWidth 32 <<< 16

def classify (b : Bf16) : Bf16Class :=
  let exponent := b.bits &&& 0x7f80
  let fraction := b.bits &&& 0x007f
  if exponent = 0 then if fraction = 0 then .zero else .subnormal
  else if exponent = 0x7f80 then if fraction = 0 then .infinity else .nan
  else .normal

def isFinite (b : Bf16) : Bool := b.classify ≠ .infinity && b.classify ≠ .nan

def trailingZeros (word : BitVec 16) : Nat :=
  if word = 0 then 16 else Bitmasks.trailingZeros word.toNat

def fromF32Rne (value : F32) : Bf16 :=
  let exponent := value &&& 0x7f800000
  let fraction := value &&& 0x007fffff
  if exponent = 0x7f800000 ∧ fraction ≠ 0 then
    let word := (value >>> 16).setWidth 16
    if trailingZeros word ≥ 7 then ⟨word ||| 1⟩ else ⟨word⟩
  else
    let retainedLsb := (value >>> 16) &&& 1
    let rounded := value + (0x7fff + retainedLsb)
    ⟨(rounded >>> 16).setWidth 16⟩

end Bf16

def finite32 (value : F32) : Bool := value &&& 0x7f800000 ≠ 0x7f800000

def nan32 (value : F32) : Bool := value &&& 0x7f800000 = 0x7f800000 ∧ value &&& 0x007fffff ≠ 0

def Bf16.tryFromF32Rne (value : F32) : Except KernelError Bf16 :=
  if !finite32 value then .error (.nonFiniteConversionInput value)
  else
    let converted := fromF32Rne value
    if !converted.isFinite then .error (.conversionRoundedToInfinity value)
    else .ok converted

def signed (negative : Bool) (q : ℚ) : ℚ := if negative then -q else q

def value32 (value : F32) : ℚ := signed value.msb (units 23 (value.toNat % 2^31) / 2^149)

def Bf16.value (b : Bf16) : ℚ := signed b.bits.msb (units 7 (b.bits.toNat % 2^15) / 2^133)

def Bf16.largest : Bf16 := ⟨0x7f7f⟩

def halfway : ℚ := (Bf16.largest.value + 2^128) / 2

def Bf16.signedInfinity (negative : Bool) : Bf16 := ⟨if negative then 0xff80 else 0x7f80⟩

section Patterns
variable {x : F32} {b : Bf16}

theorem exponentField (x : F32) : (x &&& 0x7f800000).toNat = x.toNat / 2^23 % 2^8 * 2^23 := by
  rw [BitVec.toNat_and,← fieldMasked]
  rfl

theorem fractionField (x : F32) : (x &&& 0x007fffff).toNat = x.toNat % 2^23 := by
  rw [BitVec.toNat_and]
  exact Nat.and_two_pow_sub_one_eq_mod x.toNat 23

theorem finiteMagnitude : finite32 x = true ↔ x.toNat % 2^31 < 0x7f800000 := by
  have field := exponentField x
  simp only [finite32,ne_eq,← BitVec.toNat_inj,field,decide_not,Bool.not_eq_true',decide_eq_false_iff_not]
  show ¬x.toNat / 2^23 % 2^8 * 2^23 = 0x7f800000 ↔ _
  omega

theorem nanMagnitude : nan32 x = true ↔ 0x7f800000 < x.toNat % 2^31 := by
  have field := exponentField x
  have rest := fractionField x
  simp only [nan32,decide_eq_true_eq,ne_eq,← BitVec.toNat_inj,field,rest]
  show x.toNat / 2^23 % 2^8 * 2^23 = 0x7f800000 ∧ ¬x.toNat % 2^23 = 0 ↔ _
  omega

theorem negative32 (x : F32) : x.msb = true ↔ 2^31 ≤ x.toNat := BitVec.msb_eq_true_iff_two_mul_ge.trans (by omega)

theorem negative16 (w : BitVec 16) : w.msb = true ↔ 2^15 ≤ w.toNat := BitVec.msb_eq_true_iff_two_mul_ge.trans (by omega)

theorem exponentField16 (w : BitVec 16) : (w &&& 0x7f80).toNat = w.toNat / 2^7 % 2^8 * 2^7 := by
  rw [BitVec.toNat_and,← fieldMasked]
  rfl

theorem fractionField16 (w : BitVec 16) : (w &&& 0x007f).toNat = w.toNat % 2^7 := by
  rw [BitVec.toNat_and]
  exact Nat.and_two_pow_sub_one_eq_mod w.toNat 7

theorem classifyNan : b.classify = .nan ↔ 0x7f80 < b.bits.toNat % 2^15 := by
  have field := exponentField16 b.bits
  have rest := fractionField16 b.bits
  simp only [Bf16.classify,← BitVec.toNat_inj,field,rest]
  show (if b.bits.toNat / 2^7 % 2^8 * 2^7 = 0 then if b.bits.toNat % 2^7 = 0 then Bf16Class.zero else .subnormal
    else if b.bits.toNat / 2^7 % 2^8 * 2^7 = 0x7f80 then if b.bits.toNat % 2^7 = 0 then .infinity else .nan else .normal) = .nan ↔ _
  split_ifs <;> simp only [false_iff,true_iff] <;> omega

theorem classifyInfinity : b.classify = .infinity ↔ b.bits.toNat % 2^15 = 0x7f80 := by
  have field := exponentField16 b.bits
  have rest := fractionField16 b.bits
  simp only [Bf16.classify,← BitVec.toNat_inj,field,rest]
  show (if b.bits.toNat / 2^7 % 2^8 * 2^7 = 0 then if b.bits.toNat % 2^7 = 0 then Bf16Class.zero else .subnormal
    else if b.bits.toNat / 2^7 % 2^8 * 2^7 = 0x7f80 then if b.bits.toNat % 2^7 = 0 then .infinity else .nan else .normal) = .infinity ↔ _
  split_ifs <;> simp only [false_iff,true_iff] <;> omega

theorem finiteWord : b.isFinite = true ↔ b.bits.toNat % 2^15 < 0x7f80 := by
  have infinite := classifyInfinity (b := b)
  have nan := classifyNan (b := b)
  simp only [Bf16.isFinite,Bool.and_eq_true,decide_eq_true_eq,ne_eq,infinite,nan]
  omega

theorem widenedBits (b : Bf16) : b.toF32.toNat = b.bits.toNat * 2^16 := by
  have small := b.bits.isLt
  rw [Bf16.toF32,BitVec.toNat_shiftLeft,BitVec.toNat_setWidth,Nat.shiftLeft_eq]
  omega

theorem highWord (x : F32) : ((x >>> 16).setWidth 16 : BitVec 16).toNat = x.toNat / 2^16 := by
  have small := x.isLt
  rw [BitVec.toNat_setWidth,BitVec.toNat_ushiftRight,Nat.shiftRight_eq_div_pow]
  omega

theorem roundedBits (number : nan32 x = false) :
    (Bf16.fromF32Rne x).bits.toNat = x.toNat / 2^31 * 2^15 + roundEven 15 (x.toNat % 2^31) := by
  have magnitude : x.toNat % 2^31 ≤ 0x7f800000 := Nat.not_lt.mp (fun more => by simp [nanMagnitude.mpr more] at number)
  have small := x.isLt
  have lsb : ((x >>> 16) &&& 1).toNat = x.toNat / 2^16 % 2 := by
    rw [BitVec.toNat_and,BitVec.toNat_ushiftRight,Nat.shiftRight_eq_div_pow]
    exact Nat.and_two_pow_sub_one_eq_mod _ 1
  have sum : (x + ((0x7fff : F32) + ((x >>> 16) &&& 1))).toNat = x.toNat + (0x7fff + x.toNat / 2^16 % 2) := by
    rw [BitVec.toNat_add,BitVec.toNat_add,lsb]
    show (x.toNat + (0x7fff + x.toNat / 2^16 % 2) % 2^32) % 2^32 = _
    omega
  have ordinary : ¬(x &&& 0x7f800000 = 0x7f800000 ∧ x &&& 0x007fffff ≠ 0) := by
    simpa only [nan32,decide_eq_false_iff_not] using number
  rw [Bf16.fromF32Rne]
  simp only [if_neg ordinary]
  rw [highWord,sum,roundEven]
  omega

theorem orOne {n : Nat} (even : n % 2 = 0) : n ||| 1 = n + 1 := by
  have shifted := Nat.two_pow_add_eq_or_of_lt (i := 1) (show 1 < 2^1 by decide) (n / 2)
  have whole : 2^1 * (n / 2) = n := by omega
  rw [whole] at shifted
  exact shifted.symm

theorem nanBits (nan : nan32 x = true) : (Bf16.fromF32Rne x).bits.toNat / 2^15 = x.toNat / 2^31 ∧
    0x7f80 < (Bf16.fromF32Rne x).bits.toNat % 2^15 ∧
    (x.toNat / 2^16 % 2^7 ≠ 0 → (Bf16.fromF32Rne x).bits.toNat = x.toNat / 2^16) := by
  have small := x.isLt
  have magnitude := nanMagnitude.mp nan
  have high := highWord x
  have nonzero : ((x >>> 16).setWidth 16 : BitVec 16) ≠ 0 := by
    intro none
    rw [none] at high
    have : x.toNat / 2^16 = 0 := high.symm
    omega
  have zeros : Bf16.trailingZeros ((x >>> 16).setWidth 16) ≥ 7 ↔ x.toNat / 2^16 % 2^7 = 0 := by
    rw [Bf16.trailingZeros,if_neg nonzero,ge_iff_le,Bitmasks.trailingAtLeast 7 (by rw [high]; omega),high]
  have payload : x &&& 0x7f800000 = 0x7f800000 ∧ x &&& 0x007fffff ≠ 0 := by
    simpa only [nan32,decide_eq_true_eq] using nan
  rw [Bf16.fromF32Rne]
  simp only [if_pos payload]
  split
  · rename_i cleared
    have low := zeros.mp cleared
    have bits : ((x >>> 16).setWidth 16 ||| (1 : BitVec 16)).toNat = x.toNat / 2^16 + 1 := by
      rw [BitVec.toNat_or,high]
      exact orOne (by omega)
    rw [bits]
    exact ⟨by omega,by omega,fun some => absurd low some⟩
  · rename_i kept
    have low := mt zeros.mpr kept
    rw [high]
    exact ⟨by omega,by omega,fun _ => rfl⟩

theorem widenedBack (b : Bf16) : Bf16.fromF32Rne b.toF32 = b := by
  have wide := widenedBits b
  have small := b.bits.isLt
  have same : (Bf16.fromF32Rne b.toF32).bits.toNat = b.bits.toNat := by
    cases nan : nan32 b.toF32 with
    | true =>
      have magnitude := nanMagnitude.mp nan
      rw [(nanBits nan).2.2 (by omega),wide]
      omega
    | false =>
      rw [roundedBits nan,wide,roundEven]
      omega
  cases b
  exact congrArg Bf16.mk (BitVec.eq_of_toNat_eq same)

end Patterns

section Values
variable {x : F32} {b c : Bf16}

theorem signedAbs (negative : Bool) {q : ℚ} (nonnegative : 0 ≤ q) : |signed negative q| = q := by
  cases negative with
  | true => rw [signed,if_pos rfl,abs_neg,abs_of_nonneg nonnegative]
  | false => exact abs_of_nonneg nonnegative

theorem scaledNonneg (n k : Nat) : (0:ℚ) ≤ n / 2^k := div_nonneg (Nat.cast_nonneg n) (pow_nonneg (by norm_num) k)

theorem unitsScaled (w : Nat) : (units 7 w : ℚ) / 2^133 = units 23 (w * 2^16) / 2^149 := by
  have power : ((2^16 : Nat) : ℚ) = 2^16 := by norm_num
  rw [unitsWiden 7 16 w,Nat.cast_mul,power,show (2:ℚ)^149 = 2^133 * 2^16 by norm_num,mul_div_mul_right _ _ (by norm_num)]

theorem wordValue (b : Bf16) : b.value = signed b.bits.msb (units 23 (b.bits.toNat % 2^15 * 2^16) / 2^149) := by
  rw [Bf16.value,unitsScaled]

theorem castDist (a b : Nat) : |(a : ℚ) - b| = (Nat.dist a b : ℚ) := by
  rcases Nat.le_total a b with le | le
  · rw [Nat.dist_eq_sub_of_le le,Nat.cast_sub le,abs_sub_comm,abs_of_nonneg (sub_nonneg.mpr (Nat.cast_le.mpr le))]
  · rw [Nat.dist_eq_sub_of_le_right le,Nat.cast_sub le,abs_of_nonneg (sub_nonneg.mpr (Nat.cast_le.mpr le))]

theorem signedSame (negative : Bool) (p q : ℚ) : |signed negative p - signed negative q| = |p - q| := by
  cases negative with
  | true =>
    rw [signed,signed,if_pos rfl,if_pos rfl,abs_sub_comm]
    congr 1
    ring
  | false => rfl

theorem signedApart {s t : Bool} (apart : s ≠ t) {p q : ℚ} (first : 0 ≤ p) (second : 0 ≤ q) :
    |signed s p - signed t q| = p + q := by
  cases s <;> cases t
  · contradiction
  · rw [signed,signed,if_neg Bool.false_ne_true,if_pos rfl,sub_neg_eq_add,abs_of_nonneg (add_nonneg first second)]
  · rw [signed,signed,if_pos rfl,if_neg Bool.false_ne_true,← neg_add',abs_neg,abs_of_nonneg (add_nonneg first second)]
  · contradiction

theorem scaledDist (a b : Nat) : |(a : ℚ) / 2^149 - b / 2^149| = (Nat.dist a b : ℚ) / 2^149 := by
  rw [← sub_div,abs_div,castDist,abs_of_pos (by norm_num)]

theorem magnitudeValue (x : F32) : |value32 x| = units 23 (x.toNat % 2^31) / 2^149 :=
  signedAbs _ (scaledNonneg _ _)

theorem halfwayUnits : halfway = (units 23 0x7f7f8000 : ℚ) / 2^149 := by
  have largest : Bf16.largest.value = (units 7 0x7f7f : ℚ) / 2^133 := rfl
  rw [halfway,largest]
  norm_num [units]

theorem halfwayReached : halfway ≤ |value32 x| ↔ 0x7f7f8000 ≤ x.toNat % 2^31 := by
  rw [halfwayUnits,magnitudeValue,div_le_div_iff_of_pos_right (by norm_num),Nat.cast_le,(unitsMono 23).le_iff_le]

theorem largestFinite (finite : b.isFinite = true) : |b.value| ≤ Bf16.largest.value := by
  have below := finiteWord.mp finite
  rw [Bf16.value,signedAbs _ (scaledNonneg _ _)]
  show _ ≤ (units 7 0x7f7f : ℚ) / 2^133
  rw [div_le_div_iff_of_pos_right (by norm_num),Nat.cast_le,(unitsMono 7).le_iff_le]
  omega

theorem finiteNumber (finite : finite32 x = true) : nan32 x = false := by
  have below := finiteMagnitude.mp finite
  cases nan : nan32 x with
  | true =>
    have above := nanMagnitude.mp nan
    omega
  | false => rfl

theorem roundedSmall {m : Nat} (below : m < 0x7f7f8000) : roundEven 15 m < 0x7f80 := by
  unfold roundEven
  omega

theorem roundedLarge {m : Nat} (above : 0x7f7f8000 ≤ m) (below : m ≤ 0x7f800000) : roundEven 15 m = 0x7f80 := by
  unfold roundEven
  omega

theorem roundedSign (finite : finite32 x = true) : (Bf16.fromF32Rne x).bits.msb = x.msb := by
  have below := finiteMagnitude.mp finite
  have bits := roundedBits (finiteNumber finite)
  have small : roundEven 15 (x.toNat % 2^31) < 2^15 := by
    unfold roundEven
    omega
  rw [Bool.eq_iff_iff,negative16,negative32,bits]
  omega

theorem roundedMagnitude (finite : finite32 x = true) :
    (Bf16.fromF32Rne x).bits.toNat % 2^15 = roundEven 15 (x.toNat % 2^31) := by
  have below := finiteMagnitude.mp finite
  have small : roundEven 15 (x.toNat % 2^31) < 2^15 := by
    unfold roundEven
    omega
  rw [roundedBits (finiteNumber finite)]
  omega

theorem roundedInfinity (finite : finite32 x = true) (far : halfway ≤ |value32 x|) :
    Bf16.fromF32Rne x = Bf16.signedInfinity x.msb := by
  have above := halfwayReached.mp far
  have below := finiteMagnitude.mp finite
  have bits := roundedBits (finiteNumber finite)
  rw [roundedLarge above (Nat.le_of_lt below)] at bits
  have small := x.isLt
  have sign := negative32 x
  have same : (Bf16.fromF32Rne x).bits.toNat = (Bf16.signedInfinity x.msb).bits.toNat := by
    rw [bits]
    cases negative : x.msb with
    | true =>
      rw [negative] at sign
      have high := sign.mp rfl
      show _ = 0xff80
      omega
    | false =>
      rw [negative] at sign
      have low := mt sign.mpr Bool.false_ne_true
      show _ = 0x7f80
      omega
  exact congrArg Bf16.mk (BitVec.eq_of_toNat_eq same)

theorem roundedFinite (finite : finite32 x = true) : (Bf16.fromF32Rne x).isFinite = true ↔ |value32 x| < halfway := by
  have below := finiteMagnitude.mp finite
  have close : |value32 x| < halfway ↔ ¬0x7f7f8000 ≤ x.toNat % 2^31 := not_le.symm.trans (not_congr halfwayReached)
  rw [finiteWord,roundedMagnitude finite,close]
  constructor
  · intro small above
    have large := roundedLarge above (Nat.le_of_lt below)
    omega
  · exact fun near => roundedSmall (Nat.not_le.mp near)

end Values

def Nearest (x : F32) (b : Bf16) : Prop :=
  ∀ c : Bf16, c.isFinite = true → |value32 x - b.value| ≤ |value32 x - c.value| ∧
    (|value32 x - b.value| = |value32 x - c.value| → c = b ∨ b.bits.getLsbD 0 = false)

theorem lastBit (w : BitVec 16) : w.getLsbD 0 = false ↔ w.toNat % 2 = 0 := by
  rw [BitVec.getLsbD,Nat.testBit_zero,decide_eq_false_iff_not]
  omega

theorem roundedNearest {x : F32} (finite : finite32 x = true) : Nearest x (Bf16.fromF32Rne x) := by
  intro c _
  have magnitude := roundedMagnitude finite
  have even : roundEven 15 (x.toNat % 2^31) % 2 = 0 → (Bf16.fromF32Rne x).bits.getLsbD 0 = false := by
    intro even
    rw [lastBit]
    omega
  have chosen : |value32 x - (Bf16.fromF32Rne x).value| =
      (Nat.dist (units 23 (x.toNat % 2^31)) (units 23 (roundEven 15 (x.toNat % 2^31) * 2^16)) : ℚ) / 2^149 := by
    rw [value32,wordValue,roundedSign finite,magnitude,signedSame,scaledDist]
  have scale : (0:ℚ) < 2^149 := by norm_num
  rw [chosen]
  by_cases same : c.bits.msb = x.msb
  · have other : |value32 x - c.value| =
        (Nat.dist (units 23 (x.toNat % 2^31)) (units 23 (c.bits.toNat % 2^15 * 2^16)) : ℚ) / 2^149 := by
      rw [value32,wordValue,same,signedSame,scaledDist]
    obtain ⟨nearer,ties⟩ := roundEvenNearest (f := 23) (k := 15) (by decide) (x.toNat % 2^31) (c.bits.toNat % 2^15)
    rw [other,div_le_div_iff_of_pos_right scale,Nat.cast_le,div_left_inj' (ne_of_gt scale),Nat.cast_inj]
    refine ⟨nearer,fun tie => ?_⟩
    rcases ties tie with word | zero
    · left
      have sign : c.bits.msb = (Bf16.fromF32Rne x).bits.msb := same.trans (roundedSign finite).symm
      rw [Bool.eq_iff_iff,negative16,negative16] at sign
      have small := c.bits.isLt
      have small' := (Bf16.fromF32Rne x).bits.isLt
      have bits : c.bits.toNat = (Bf16.fromF32Rne x).bits.toNat := by omega
      exact congrArg Bf16.mk (BitVec.eq_of_toNat_eq bits)
    · exact .inr (even zero)
  · -- A word of the other sign is no closer than the zero of this sign.
    have other : |value32 x - c.value| =
        units 23 (x.toNat % 2^31) / 2^149 + units 23 (c.bits.toNat % 2^15 * 2^16) / 2^149 := by
      rw [value32,wordValue,signedApart (Ne.symm same) (scaledNonneg _ _) (scaledNonneg _ _)]
    obtain ⟨nearer,ties⟩ := roundEvenNearest (f := 23) (k := 15) (by decide) (x.toNat % 2^31) 0
    have zero : units 23 (0 * 2^(15+1)) = 0 := by decide
    rw [zero,Nat.dist_zero_right] at nearer ties
    rw [other,← add_div,div_le_div_iff_of_pos_right scale,div_left_inj' (ne_of_gt scale),← Nat.cast_add,Nat.cast_le,Nat.cast_inj]
    refine ⟨Nat.le_trans nearer (Nat.le_add_right ..),fun tie => .inr (even ?_)⟩
    have close : Nat.dist (units 23 (x.toNat % 2^31)) (units 23 (roundEven 15 (x.toNat % 2^31) * 2^(15+1))) =
        units 23 (x.toNat % 2^31) := Nat.le_antisymm nearer (by rw [tie]; exact Nat.le_add_right ..)
    rcases ties close with none | rest
    · rw [← none]
    · exact rest

theorem roundingExact :
    (∀ x, finite32 x = true → |value32 x| < halfway →
      (Bf16.fromF32Rne x).isFinite = true ∧ (Bf16.fromF32Rne x).bits.msb = x.msb ∧ Nearest x (Bf16.fromF32Rne x) ∧
        Bf16.tryFromF32Rne x = .ok (Bf16.fromF32Rne x)) ∧
    (∀ x, finite32 x = true → halfway ≤ |value32 x| →
      Bf16.fromF32Rne x = Bf16.signedInfinity x.msb ∧ (Bf16.fromF32Rne x).classify = .infinity ∧
        Bf16.tryFromF32Rne x = .error (.conversionRoundedToInfinity x)) ∧
    (∀ x, finite32 x = false → Bf16.tryFromF32Rne x = .error (.nonFiniteConversionInput x)) ∧
    (∀ x, nan32 x = true → (Bf16.fromF32Rne x).classify = .nan ∧ (Bf16.fromF32Rne x).bits.msb = x.msb) ∧
    (∀ b : Bf16, Bf16.fromF32Rne b.toF32 = b) ∧
    ∀ b : Bf16, b.isFinite = true → |b.value| ≤ Bf16.largest.value := by
  refine ⟨?near,?far,?outside,?nan,widenedBack,fun b => largestFinite⟩
  case near =>
    intro x finite close
    have word := (roundedFinite finite).mpr close
    refine ⟨word,roundedSign finite,roundedNearest finite,?_⟩
    simp [Bf16.tryFromF32Rne,finite,word]
  case far =>
    intro x finite far
    have word := roundedInfinity finite far
    have infinite : (Bf16.fromF32Rne x).isFinite = false := by
      rw [← Bool.not_eq_true,roundedFinite finite]
      exact not_lt.mpr far
    refine ⟨word,?_,by simp [Bf16.tryFromF32Rne,finite,infinite]⟩
    rw [word]
    cases x.msb <;> decide
  case outside =>
    intro x outside
    simp [Bf16.tryFromF32Rne,outside]
  case nan =>
    intro x nan
    obtain ⟨sign,magnitude,-⟩ := nanBits nan
    have small := x.isLt
    have small' := (Bf16.fromF32Rne x).bits.isLt
    refine ⟨classifyNan.mpr magnitude,?_⟩
    rw [Bool.eq_iff_iff,negative16,negative32]
    omega

theorem tieRoundsEven : finite32 0x3f818000 = true ∧ Nearest 0x3f818000 (Bf16.fromF32Rne 0x3f818000) ∧
    Bf16.fromF32Rne 0x3f818000 = ⟨0x3f82⟩ := by
  have finite : finite32 0x3f818000 = true := by decide
  have close : |value32 0x3f818000| < halfway := not_le.mp (mt halfwayReached.mp (by decide))
  exact ⟨finite,(roundingExact.1 _ finite close).2.2.1,by decide⟩

end RunnelMoe.Kernels
