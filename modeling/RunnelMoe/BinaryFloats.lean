import Mathlib.Data.Nat.Bitwise
import Mathlib.Data.Nat.Dist
import Mathlib.Order.Monotone.Basic
import Mathlib.Tactic.Ring

/-! Magnitudes of a binary floating-point format with `f` fraction bits. Counted in units of
the least subnormal, consecutive magnitudes differ by the gap of their binade, so the
magnitudes whose low bits are cleared cut the rest into pieces on which the value is affine. -/
namespace RunnelMoe.BinaryFloats

def units (f m : Nat) : Nat :=
  if m / 2^f = 0 then m % 2^f else (2^f + m % 2^f) * 2^(m / 2^f - 1)

def gap (f m : Nat) : Nat := 2^(m / 2^f - 1)

theorem fieldMasked (x n k : Nat) : x &&& (2^k - 1) * 2^n = x / 2^n % 2^k * 2^n := by
  apply Nat.eq_of_testBit_eq
  intro i
  rw [Nat.testBit_and,← Nat.shiftLeft_eq,← Nat.shiftLeft_eq,Nat.testBit_shiftLeft,Nat.testBit_shiftLeft,
    Nat.testBit_two_pow_sub_one,Nat.testBit_mod_two_pow,Nat.testBit_div_two_pow]
  by_cases low : n ≤ i
  · have same : n + (i - n) = i := by omega
    simp [low,Bool.and_comm,Nat.sub_add_cancel low]
  · simp [low]

theorem unitsSucc (f m : Nat) : units f (m+1) = units f m + gap f m := by
  have positive : 0 < 2^f := Nat.two_pow_pos f
  have whole := Nat.div_add_mod m (2^f)
  have rest := Nat.mod_lt m positive
  generalize quotient : m / 2^f = e at whole
  generalize remainder : m % 2^f = r at whole rest
  rcases Nat.lt_or_ge (r+1) (2^f) with inside | last
  · -- The next magnitude is in the same binade.
    have division : (m+1) / 2^f = e := by
      rw [← whole,Nat.add_assoc,Nat.mul_add_div positive,Nat.div_eq_of_lt inside,Nat.add_zero]
    have modulo : (m+1) % 2^f = r+1 := by
      rw [← whole,Nat.add_assoc,Nat.mul_add_mod,Nat.mod_eq_of_lt inside]
    unfold units gap
    rw [division,modulo,quotient,remainder]
    split
    · rename_i none
      rw [none]
      rfl
    · rw [← Nat.add_assoc,Nat.add_mul,Nat.one_mul]
  · -- The next magnitude starts the next binade, where the gap may double.
    have full : r + 1 = 2^f := by omega
    have division : (m+1) / 2^f = e+1 := by
      rw [← whole,Nat.add_assoc,full,Nat.mul_add_div positive,Nat.div_self positive]
    have modulo : (m+1) % 2^f = 0 := by
      rw [← whole,Nat.add_assoc,full,Nat.mul_add_mod,Nat.mod_self]
    unfold units gap
    rw [division,modulo,quotient,remainder,if_neg (Nat.succ_ne_zero e)]
    cases e with
    | zero => simp [full]
    | succ e =>
      rw [if_neg (Nat.succ_ne_zero e)]
      simp only [Nat.add_sub_cancel,Nat.add_zero]
      calc 2^f * 2^(e+1) = (2^f + 2^f) * 2^e := by ring
        _ = (2^f + (r+1)) * 2^e := by rw [full]
        _ = (2^f + r) * 2^e + 2^e := by ring

theorem unitsMono (f : Nat) : StrictMono (units f) :=
  strictMono_nat_of_lt_succ fun m => by
    rw [unitsSucc]
    exact Nat.lt_add_of_pos_right (Nat.two_pow_pos _)

theorem unitsAffine {f k w j : Nat} (fraction : k ≤ f) (inside : j ≤ 2^k) :
    units f (w * 2^k + j) = units f (w * 2^k) + j * gap f (w * 2^k) := by
  induction j with
  | zero => simp
  | succ j ih =>
    have binade : (w * 2^k + j) / 2^f = w * 2^k / 2^f := by
      obtain ⟨d,rfl⟩ := Nat.exists_eq_add_of_le fraction
      rw [Nat.pow_add,← Nat.div_div_eq_div_mul,← Nat.div_div_eq_div_mul,Nat.mul_comm w,
        Nat.mul_add_div (Nat.two_pow_pos k),Nat.div_eq_of_lt inside,Nat.mul_div_cancel_left _ (Nat.two_pow_pos k),Nat.add_zero]
    have same : gap f (w * 2^k + j) = gap f (w * 2^k) := by rw [gap,binade,gap]
    rw [← Nat.add_assoc,unitsSucc,ih (Nat.le_of_succ_le inside),same,Nat.succ_mul,Nat.add_assoc]

theorem unitsWiden (f k w : Nat) : units (f+k) (w * 2^k) = units f w * 2^k := by
  have positive : 0 < 2^k := Nat.two_pow_pos k
  have exponent : w * 2^k / 2^(f+k) = w / 2^f := by
    rw [Nat.pow_add,Nat.mul_div_mul_right _ _ positive]
  have fraction : w * 2^k % 2^(f+k) = w % 2^f * 2^k := by
    rw [Nat.pow_add,Nat.mul_mod_mul_right]
  unfold units
  rw [exponent,fraction]
  split
  · rfl
  · ring

/-! Rounding away k+1 low bits, ties to the even word -/

def roundEven (k m : Nat) : Nat := (m + (2^k - 1 + m / 2^(k+1) % 2)) / 2^(k+1)

theorem roundEvenCases (k m : Nat) :
    (roundEven k m = m / 2^(k+1) ∧ m % 2^(k+1) ≤ 2^k ∧ (m % 2^(k+1) = 2^k → m / 2^(k+1) % 2 = 0)) ∨
    (roundEven k m = m / 2^(k+1) + 1 ∧ 2^k ≤ m % 2^(k+1) ∧ (m % 2^(k+1) = 2^k → m / 2^(k+1) % 2 = 1)) := by
  have positive : 0 < 2^k := Nat.two_pow_pos k
  have double : 2^(k+1) = 2^k + 2^k := by ring
  have whole := Nat.div_add_mod m (2^(k+1))
  have rest := Nat.mod_lt m (Nat.two_pow_pos (k+1))
  unfold roundEven
  generalize m / 2^(k+1) = w at whole
  generalize m % 2^(k+1) = j at whole rest
  have parity := Nat.mod_lt w (show 0 < 2 by decide)
  rw [← whole,Nat.add_assoc,Nat.mul_add_div (Nat.two_pow_pos (k+1))]
  rcases Nat.lt_or_ge (j + (2^k - 1 + w % 2)) (2^(k+1)) with stays | carries
  · refine .inl ⟨by rw [Nat.div_eq_of_lt stays,Nat.add_zero],by omega,by omega⟩
  · have once : (j + (2^k - 1 + w % 2)) / 2^(k+1) = 1 :=
      Nat.div_eq_of_lt_le (by omega) (by omega)
    exact .inr ⟨by rw [once],by omega,by omega⟩

theorem roundEvenNearest {f k : Nat} (fraction : k + 1 ≤ f) (m v : Nat) :
    Nat.dist (units f m) (units f (roundEven k m * 2^(k+1))) ≤ Nat.dist (units f m) (units f (v * 2^(k+1))) ∧
    (Nat.dist (units f m) (units f (roundEven k m * 2^(k+1))) = Nat.dist (units f m) (units f (v * 2^(k+1))) →
      v = roundEven k m ∨ roundEven k m % 2 = 0) := by
  have positive : 0 < 2^(k+1) := Nat.two_pow_pos (k+1)
  have double : 2^(k+1) = 2^k + 2^k := by ring
  have whole := Nat.div_add_mod' m (2^(k+1))
  have rest := Nat.mod_lt m positive
  have cases := roundEvenCases k m
  generalize roundEven k m = r at cases
  generalize m / 2^(k+1) = w at whole cases
  generalize m % 2^(k+1) = j at whole rest cases
  have here : units f m = units f (w * 2^(k+1)) + j * gap f (w * 2^(k+1)) := by
    rw [← whole,unitsAffine fraction (Nat.le_of_lt rest)]
  have above : units f ((w+1) * 2^(k+1)) = units f (w * 2^(k+1)) +
      (2^k * gap f (w * 2^(k+1)) + 2^k * gap f (w * 2^(k+1))) := by
    rw [Nat.succ_mul,unitsAffine fraction (Nat.le_refl _),← Nat.add_mul,← double]
  have step : 0 < gap f (w * 2^(k+1)) := Nat.two_pow_pos _
  have strict {a b : Nat} (less : a < b) : units f (a * 2^(k+1)) < units f (b * 2^(k+1)) :=
    unitsMono f (Nat.mul_lt_mul_of_pos_right less positive)
  have top : units f m ≤ units f ((w+1) * 2^(k+1)) := by
    refine (unitsMono f).monotone ?_
    rw [Nat.succ_mul]
    omega
  have scaled : j * gap f (w * 2^(k+1)) ≤ 2^k * gap f (w * 2^(k+1)) ↔ j ≤ 2^k := Nat.mul_le_mul_right_iff step
  have scaled' : 2^k * gap f (w * 2^(k+1)) ≤ j * gap f (w * 2^(k+1)) ↔ 2^k ≤ j := Nat.mul_le_mul_right_iff step
  generalize j * gap f (w * 2^(k+1)) = t at here scaled scaled'
  generalize 2^k * gap f (w * 2^(k+1)) = half at above scaled scaled'
  have near : v < w ∧ units f (v * 2^(k+1)) < units f (w * 2^(k+1)) ∨ v = w ∨ v = w + 1 ∨
      w + 1 < v ∧ units f ((w+1) * 2^(k+1)) < units f (v * 2^(k+1)) := by
    rcases Nat.lt_trichotomy v w with less | same | more
    · exact .inl ⟨less,strict less⟩
    · exact .inr (.inl same)
    · rcases Nat.lt_or_eq_of_le more with far | next
      · exact .inr (.inr (.inr ⟨far,strict far⟩))
      · exact .inr (.inr (.inl next.symm))
  unfold Nat.dist
  rcases cases with ⟨rfl,low,tie⟩ | ⟨rfl,high,tie⟩
  · rcases near with ⟨-,below⟩ | rfl | rfl | ⟨-,beyond⟩
    · exact ⟨by omega,by omega⟩
    · exact ⟨Nat.le_refl _,fun _ => .inl rfl⟩
    · exact ⟨by omega,fun same => .inr (tie (by omega))⟩
    · exact ⟨by omega,by omega⟩
  · rcases near with ⟨-,below⟩ | rfl | rfl | ⟨-,beyond⟩
    · exact ⟨by omega,by omega⟩
    · refine ⟨by omega,fun same => .inr ?_⟩
      have odd := tie (by omega)
      omega
    · exact ⟨Nat.le_refl _,fun _ => .inl rfl⟩
    · exact ⟨by omega,by omega⟩

end RunnelMoe.BinaryFloats
