import Mathlib.Data.Nat.Count
import Mathlib.Data.Nat.Periodic
import Mathlib.Data.FinEnum
import Mathlib.Data.Fintype.Card
import Mathlib.Data.BitVec

/-! Maps on words of a fixed width: a word mixed with its own shift, rotations, and the
residues of the words that a rejection threshold leaves. -/
namespace RunnelMoe.WordMaps

variable {w : Nat}

def shiftXor (n : Nat) (x : BitVec w) : BitVec w := x ^^^ x <<< n

theorem shiftXorTwice (n : Nat) (x : BitVec w) : shiftXor n (shiftXor n x) = shiftXor (n+n) x := by
  unfold shiftXor
  rw [BitVec.shiftLeft_xor_distrib,← BitVec.shiftLeft_add,BitVec.xor_assoc,← BitVec.xor_assoc (x <<< n),
    BitVec.xor_self,BitVec.zero_xor]

theorem shiftXorSwap (m n : Nat) (x : BitVec w) : shiftXor m (shiftXor n x) = shiftXor n (shiftXor m x) := by
  unfold shiftXor
  rw [BitVec.shiftLeft_xor_distrib,BitVec.shiftLeft_xor_distrib,← BitVec.shiftLeft_add,← BitVec.shiftLeft_add,
    Nat.add_comm n m]
  ac_rfl

theorem shiftXorWide {n : Nat} (wide : w ≤ n) (x : BitVec w) : shiftXor n x = x := by
  rw [shiftXor,BitVec.shiftLeft_eq_zero wide,BitVec.xor_zero]

def unshift (n : Nat) (x : BitVec w) : BitVec w := shiftXor (n+n) (shiftXor n x)

theorem unshiftLeft {n : Nat} (wide : w ≤ n+n+(n+n)) (x : BitVec w) : unshift n (shiftXor n x) = x := by
  rw [unshift,shiftXorTwice,shiftXorTwice,shiftXorWide wide]

theorem unshiftRight {n : Nat} (wide : w ≤ n+n+(n+n)) (x : BitVec w) : shiftXor n (unshift n x) = x := by
  rw [unshift,shiftXorSwap,shiftXorTwice,shiftXorTwice,shiftXorWide wide]

theorem rotateBack {r : Nat} (small : r < w) (x : BitVec w) : (x.rotateLeft r).rotateRight r = x := by
  apply BitVec.eq_of_getLsbD_eq
  intro i inside
  rw [BitVec.getLsbD_rotateRight,Nat.mod_eq_of_lt small]
  by_cases low : i < w - r
  · have reached : ¬r + i < r := by omega
    have bounded : r + i < w := by omega
    simp [low,BitVec.getLsbD_rotateLeft,Nat.mod_eq_of_lt small,reached,bounded,BitVec.getLsbD_eq_getElem inside]
  · have reached : i - (w - r) < r := by omega
    have same : w - r + (i - (w - r)) = i := by omega
    simp [low,inside,BitVec.getLsbD_rotateLeft,Nat.mod_eq_of_lt small,reached,same]

theorem rotateForth {r : Nat} (small : r < w) (x : BitVec w) : (x.rotateRight r).rotateLeft r = x := by
  apply BitVec.eq_of_getLsbD_eq
  intro i inside
  rw [BitVec.getLsbD_rotateLeft,Nat.mod_eq_of_lt small]
  by_cases low : i < r
  · have bounded : w - r + i < w := by omega
    simp [low,BitVec.getLsbD_rotateRight,Nat.mod_eq_of_lt small,bounded,BitVec.getLsbD_eq_getElem inside]
  · have reached : i - r < w - r := by omega
    have same : r + (i - r) = i := by omega
    simp [low,inside,BitVec.getLsbD_rotateRight,Nat.mod_eq_of_lt small,reached,same]

theorem wordsCard (p : Nat → Prop) [DecidablePred p] :
    (Finset.univ.filter (fun x : BitVec w => p x.toNat)).card = ((Finset.range (2^w)).filter p).card := by
  refine Finset.card_bij (fun x _ => x.toNat) ?_ ?_ ?_
  · intro x member
    exact Finset.mem_filter.mpr ⟨Finset.mem_range.mpr x.isLt,(Finset.mem_filter.mp member).2⟩
  · intro x _ y _ same
    exact BitVec.eq_of_toNat_eq same
  · intro n member
    obtain ⟨inside,holds⟩ := Finset.mem_filter.mp member
    have value : (BitVec.ofNat w n).toNat = n := by
      rw [BitVec.toNat_ofNat,Nat.mod_eq_of_lt (Finset.mem_range.mp inside)]
    exact ⟨BitVec.ofNat w n,Finset.mem_filter.mpr ⟨Finset.mem_univ _,by rw [value]; exact holds⟩,value⟩

theorem residueCard {b r : Nat} (inside : r < b) (start blocks : Nat) :
    ((Finset.Ico start (start + b * blocks)).filter (fun n => n % b = r)).card = blocks := by
  have periodic : Function.Periodic (fun n => n % b = r) b := fun n => by simp
  have once : Nat.count (fun n => n % b = r) b = 1 := by
    have only : (Finset.range b).filter (fun n => n % b = r) = {r} := by
      ext n
      simp only [Finset.mem_filter,Finset.mem_range,Finset.mem_singleton]
      constructor
      · intro both
        rw [← both.2,Nat.mod_eq_of_lt both.1]
      · intro same
        rw [same]
        exact ⟨inside,Nat.mod_eq_of_lt inside⟩
    rw [Nat.count_eq_card_filter_range,only,Finset.card_singleton]
  induction blocks with
  | zero => simp
  | succ blocks ih =>
    have cut : Finset.Ico start (start + b * (blocks+1)) =
        Finset.Ico start (start + b * blocks) ∪ Finset.Ico (start + b * blocks) (start + b * blocks + b) := by
      rw [Finset.Ico_union_Ico_eq_Ico (Nat.le_add_right ..) (Nat.le_add_right ..),Nat.mul_succ,Nat.add_assoc]
    rw [cut,Finset.filter_union,Finset.card_union_of_disjoint
      (Finset.disjoint_filter_filter (Finset.Ico_disjoint_Ico_consecutive ..)),ih,
      Nat.filter_Ico_card_eq_of_periodic _ _ _ periodic,once]

theorem negRemainder {b : BitVec w} (positive : 0 < b.toNat) : (-b % b).toNat = 2^w % b.toNat := by
  have below := b.isLt
  have negated : (-b).toNat = 2^w - b.toNat := by
    rw [BitVec.toNat_neg,Nat.mod_eq_of_lt (by omega)]
  rw [BitVec.toNat_umod,negated,← Nat.mod_eq_sub_mod (Nat.le_of_lt below)]

theorem remainderHalf {b n : Nat} (positive : 0 < b) (below : b < n) : 2 * (n % b) ≤ n := by
  have rest := Nat.mod_lt n positive
  have whole := Nat.div_add_mod n b
  have least : b ≤ b * (n / b) := Nat.le_mul_of_pos_right b (Nat.div_pos (Nat.le_of_lt below) positive)
  omega

end RunnelMoe.WordMaps
