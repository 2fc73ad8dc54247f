import Mathlib.Algebra.BigOperators.Group.Finset.Basic
import Mathlib.Combinatorics.Colex
import Mathlib.Tactic.Common

/-! Sets of small numbers as bit masks. The members of a mask are the positions of
its ones. Two loops over masks are kept as they are usually written: clearing the
lowest one until nothing remains, and stepping down through all submasks. -/
namespace RunnelMoe.Bitmasks

def members (mask : Nat) : Finset Nat := Finset.equivBitIndices mask

variable {mask n retained state other : Nat}

theorem memMembers {i : Nat} : i ∈ members mask ↔ mask.testBit i = true := by simp [members]

theorem membersOf (set : Finset Nat) : members (Finset.equivBitIndices.symm set) = set :=
  Finset.equivBitIndices.apply_symm_apply set

theorem membersZero : members 0 = ∅ := by
  ext i
  simp [memMembers]

theorem membersOr (mask bit : Nat) : members (mask ||| 1 <<< bit) = insert bit (members mask) := by
  ext i
  simp only [memMembers,Finset.mem_insert,Nat.testBit_or,Nat.one_shiftLeft,Nat.testBit_two_pow]
  grind

theorem bitSet (mask bit : Nat) : mask &&& 1 <<< bit ≠ 0 ↔ bit ∈ members mask := by
  rw [memMembers,Nat.one_shiftLeft]
  constructor
  · intro some
    obtain ⟨i,set⟩ := Nat.exists_testBit_of_ne_zero some
    rw [Nat.testBit_and,Nat.testBit_two_pow,Bool.and_eq_true,decide_eq_true_eq] at set
    rw [set.2]
    exact set.1
  · intro set none
    have bits := congrArg (Nat.testBit · bit) none
    simp [Nat.testBit_and,set] at bits

def trailingZeros (n : Nat) : Nat :=
  if n = 0 then 0 else if n % 2 = 1 then 0 else trailingZeros (n / 2) + 1
termination_by n
decreasing_by omega

theorem trailingOdd (odd : n % 2 = 1) : trailingZeros n = 0 := by
  rw [trailingZeros,if_neg (by omega),if_pos odd]

theorem trailingEven (positive : n ≠ 0) (even : n % 2 = 0) :
    trailingZeros n = trailingZeros (n / 2) + 1 := by
  rw [trailingZeros,if_neg positive,if_neg (by omega)]

theorem trailingAtLeast (k : Nat) (positive : n ≠ 0) : k ≤ trailingZeros n ↔ n % 2^k = 0 := by
  induction k generalizing n with
  | zero => simp [Nat.mod_one]
  | succ k ih =>
    have split : n % 2^(k+1) = n % 2 + 2 * (n / 2 % 2^k) := by
      rw [Nat.pow_succ,Nat.mul_comm,Nat.mod_mul]
    rcases Nat.mod_two_eq_zero_or_one n with even | odd
    · have halved := ih (n := n / 2) (by omega)
      rw [trailingEven positive even,split,even]
      omega
    · rw [trailingOdd odd,split,odd]
      omega

theorem lowestSet (positive : n ≠ 0) : n.testBit (trailingZeros n) = true := by
  induction n using Nat.strongRecOn with
  | ind n ih =>
    rcases Nat.mod_two_eq_zero_or_one n with even | odd
    · rw [trailingEven positive even,Nat.testBit_succ]
      exact ih (n / 2) (by omega) (by omega)
    · rw [trailingOdd odd,Nat.testBit_zero]
      simp [odd]

theorem lowestCleared (positive : n ≠ 0) (i : Nat) :
    (n &&& (n - 1)).testBit i = (n.testBit i && decide (i ≠ trailingZeros n)) := by
  induction n using Nat.strongRecOn generalizing i with
  | ind n ih =>
    rw [Nat.testBit_and]
    rcases Nat.mod_two_eq_zero_or_one n with even | odd
    · have half : (n - 1) / 2 = n / 2 - 1 := by omega
      rw [trailingEven positive even]
      cases i with
      | zero => simp [Nat.testBit_zero,even]
      | succ i =>
        have below := ih (n / 2) (by omega) (by omega) i
        rw [Nat.testBit_and] at below
        simpa [Nat.testBit_succ,half] using below
    · have half : (n - 1) / 2 = n / 2 := by omega
      have bit : (n - 1) % 2 = 0 := by omega
      rw [trailingOdd odd]
      cases i with
      | zero => simp [Nat.testBit_zero,bit]
      | succ i => simp [Nat.testBit_succ,half]

theorem clearedMembers (positive : mask ≠ 0) :
    members (mask &&& (mask - 1)) = (members mask).erase (trailingZeros mask) := by
  ext i
  simp only [memMembers,Finset.mem_erase,lowestCleared positive,Bool.and_eq_true,decide_eq_true_eq]
  exact And.comm

theorem clearedLess (positive : mask ≠ 0) : mask &&& (mask - 1) < mask :=
  Nat.lt_of_le_of_lt Nat.and_le_right (by omega)

theorem membersSum {M : Type*} [AddCommMonoid M] (weight : Nat → M) (positive : mask ≠ 0) :
    ∑ i ∈ members mask, weight i =
      weight (trailingZeros mask) + ∑ i ∈ members (mask &&& (mask - 1)), weight i := by
  rw [clearedMembers positive]
  exact (Finset.add_sum_erase _ weight (memMembers.mpr (lowestSet positive))).symm

/-! Submasks, from the whole mask down to the empty one -/

theorem submaskLess (state : Nat) (positive : retained ≠ 0) : (retained - 1) &&& state < retained :=
  Nat.lt_of_le_of_lt Nat.and_le_left (by omega)

def submasksFrom (state retained : Nat) : List Nat :=
  if last : retained = 0 then [0] else retained :: submasksFrom state ((retained - 1) &&& state)
termination_by retained
decreasing_by exact submaskLess state last

def submasks (state : Nat) : List Nat := submasksFrom state state

theorem submaskMembers {a b : Nat} : a &&& b = a ↔ members a ⊆ members b := by
  constructor
  · intro inside i member
    rw [memMembers,← inside,Nat.testBit_and,Bool.and_eq_true] at member
    exact memMembers.mpr member.2
  · intro subset
    refine Nat.eq_of_testBit_eq fun i => ?_
    rw [Nat.testBit_and]
    cases bit : a.testBit i with
    | false => rfl
    | true => exact memMembers.mp (subset (memMembers.mpr bit))

/- Nothing lies between a submask and the next one of the loop. -/
theorem submaskNext (inside : retained &&& state = retained)
    (other_inside : other &&& state = other) (below : other < retained) : other ≤ (retained - 1) &&& state := by
  induction retained using Nat.strongRecOn generalizing state other with
  | ind retained ih =>
    have half := congrArg (· / 2) inside
    have half_other := congrArg (· / 2) other_inside
    simp only [Nat.and_div_two] at half half_other
    have next_half : ((retained - 1) &&& state) / 2 = (retained - 1) / 2 &&& state / 2 := Nat.and_div_two
    rcases Nat.mod_two_eq_zero_or_one retained with even | odd
    · have step : (retained - 1) / 2 = retained / 2 - 1 := by omega
      have smaller := ih (retained / 2) (by omega) half half_other (by omega)
      rw [step] at next_half
      have low : other % 2 = 1 → ((retained - 1) &&& state) % 2 = 1 := by
        intro set
        have inside_bit : (other &&& state) % 2 = 1 := by rw [other_inside]; exact set
        exact Nat.and_mod_two_eq_one.mpr ⟨by omega,(Nat.and_mod_two_eq_one.mp inside_bit).2⟩
      omega
    · have step : (retained - 1) / 2 = retained / 2 := by omega
      rw [step,half] at next_half
      omega

theorem submaskStep : ((retained - 1) &&& state) &&& state = (retained - 1) &&& state := by
  rw [Nat.and_assoc,Nat.and_self]

theorem memSubmasksFrom (inside : retained &&& state = retained) :
    other ∈ submasksFrom state retained ↔ other &&& state = other ∧ other ≤ retained := by
  induction retained using Nat.strongRecOn generalizing other with
  | ind retained ih =>
    rw [submasksFrom]
    split
    · rename_i last
      subst last
      simp only [List.mem_singleton,Nat.le_zero]
      constructor
      · rintro rfl
        exact ⟨inside,rfl⟩
      · exact And.right
    · rename_i positive
      have less := submaskLess state positive
      rw [List.mem_cons,ih _ less submaskStep]
      constructor
      · rintro (rfl | ⟨other_inside,below⟩)
        · exact ⟨inside,le_rfl⟩
        · exact ⟨other_inside,below.trans less.le⟩
      · rintro ⟨other_inside,below⟩
        rcases below.eq_or_lt with same | smaller
        · exact .inl same
        · exact .inr ⟨other_inside,submaskNext inside other_inside smaller⟩

theorem memSubmasks : other ∈ submasks state ↔ members other ⊆ members state := by
  rw [submasks,memSubmasksFrom (Nat.and_self state),← submaskMembers]
  constructor
  · exact And.left
  · intro inside
    refine ⟨inside,?_⟩
    rw [← inside]
    exact Nat.and_le_right

end RunnelMoe.Bitmasks
