import RunnelMoe.WordMaps

/-! The generator's random words. A draw below a bound takes words until one passes the
threshold, and what is left above the threshold is a whole number of periods. The state
moves by an invertible map that keeps zero, so a state that starts elsewhere never gets there. -/
namespace RunnelMoe.Sim
open WordMaps

abbrev Word := BitVec 64

structure Xoshiro256StarStar where
  state0 : Word
  state1 : Word
  state2 : Word
  state3 : Word
  deriving DecidableEq, Repr

namespace Xoshiro256StarStar

def zero : Xoshiro256StarStar := ⟨0,0,0,0⟩

-- The seed's bytes, low byte first in each word.
def wordAt (seed : Vector UInt8 32) (index : Nat) : Word :=
  (List.range 8).foldr (fun k (word : Word) => word <<< 8 ||| ((seed.toList.getD (8*index + k) 0).toNat : Word)) 0

def fromSeed (seed : Vector UInt8 32) : Xoshiro256StarStar :=
  let state : Xoshiro256StarStar := ⟨wordAt seed 0,wordAt seed 1,wordAt seed 2,wordAt seed 3⟩
  if state = zero then ⟨1,0,0,0⟩ else state

def transition (s : Xoshiro256StarStar) : Xoshiro256StarStar :=
  let temporary := s.state1 <<< 17
  let state2 := s.state2 ^^^ s.state0
  let state3 := s.state3 ^^^ s.state1
  let state1 := s.state1 ^^^ state2
  let state0 := s.state0 ^^^ state3
  let state2 := state2 ^^^ temporary
  let state3 := state3.rotateLeft 45
  ⟨state0,state1,state2,state3⟩

def nextU64 (s : Xoshiro256StarStar) : Word × Xoshiro256StarStar :=
  ((s.state1 * 5).rotateLeft 7 * 9,transition s)

def rejectionThreshold (bound : Word) : Word := -bound % bound

def attempt (bound draw : Word) : Option Word :=
  if draw ≥ rejectionThreshold bound then some (draw % bound) else none

-- The assertion on the bound stops the program; a loop still running has its state.
inductive Drawn where
  | panicked
  | running (s : Xoshiro256StarStar)
  | drawn (value : Word) (s : Xoshiro256StarStar)
  deriving DecidableEq, Repr

def drawLoop (bound : Word) : Nat → Xoshiro256StarStar → Drawn
  | 0, s => .running s
  | fuel+1, s => match attempt bound (nextU64 s).1 with
    | some value => .drawn value (nextU64 s).2
    | none => drawLoop bound fuel (nextU64 s).2

def bounded (fuel : Nat) (bound : Word) (s : Xoshiro256StarStar) : Drawn :=
  if bound = 0 then .panicked else drawLoop bound fuel s

def untransition (s : Xoshiro256StarStar) : Xoshiro256StarStar :=
  let state3 := s.state3.rotateRight 45
  let state0 := s.state0 ^^^ state3
  let state1 := unshift 17 (s.state2 ^^^ s.state1)
  let state2 := s.state1 ^^^ state1 ^^^ state0
  ⟨state0,state1,state2,state3 ^^^ state1⟩

end Xoshiro256StarStar
open Xoshiro256StarStar

section Transition
variable {s : Xoshiro256StarStar}

theorem xorUndone (x y : Word) : x ^^^ y ^^^ y = x := by
  rw [BitVec.xor_assoc,BitVec.xor_self,BitVec.xor_zero]

theorem transitionUndone (s : Xoshiro256StarStar) : untransition (transition s) = s := by
  have mixed : s.state2 ^^^ s.state0 ^^^ s.state1 <<< 17 ^^^ (s.state1 ^^^ (s.state2 ^^^ s.state0)) = shiftXor 17 s.state1 := by
    rw [BitVec.xor_comm _ (s.state1 <<< 17),BitVec.xor_comm s.state1,BitVec.xor_assoc,← BitVec.xor_assoc (s.state2 ^^^ s.state0),
      BitVec.xor_self,BitVec.zero_xor,BitVec.xor_comm]
    rfl
  have second : s.state1 ^^^ (s.state2 ^^^ s.state0) ^^^ s.state1 ^^^ s.state0 = s.state2 := by
    rw [BitVec.xor_comm s.state1,xorUndone,xorUndone]
  simp only [untransition,transition,rotateBack (show 45 < 64 by decide),xorUndone,mixed,
    unshiftLeft (show 64 ≤ 17+17+(17+17) by decide),second]

theorem transitionReached (s : Xoshiro256StarStar) : transition (untransition s) = s := by
  have unmixed : unshift 17 (s.state2 ^^^ s.state1) ^^^ unshift 17 (s.state2 ^^^ s.state1) <<< 17 = s.state2 ^^^ s.state1 :=
    unshiftRight (show 64 ≤ 17+17+(17+17) by decide) _
  generalize drawn : unshift 17 (s.state2 ^^^ s.state1) = x at unmixed
  have first : x ^^^ (s.state1 ^^^ x) = s.state1 := by
    rw [BitVec.xor_comm,xorUndone]
  have second : s.state1 ^^^ x ^^^ x <<< 17 = s.state2 := by
    rw [BitVec.xor_assoc,unmixed,BitVec.xor_comm,xorUndone]
  simp only [transition,untransition,drawn,xorUndone,rotateForth (show 45 < 64 by decide),first,second]

theorem transitionBijective : Function.Bijective transition :=
  ⟨Function.LeftInverse.injective transitionUndone,Function.RightInverse.surjective transitionReached⟩

theorem transitionZero : transition zero = zero := by decide

theorem transitionNonzero (nonzero : s ≠ zero) : transition s ≠ zero := by
  intro reached
  exact nonzero (transitionBijective.1 (reached.trans transitionZero.symm))

theorem iterateNonzero (nonzero : s ≠ zero) (steps : Nat) : transition^[steps] s ≠ zero := by
  induction steps with
  | zero => exact nonzero
  | succ steps ih =>
    rw [Function.iterate_succ_apply']
    exact transitionNonzero ih

theorem seedNonzero (seed : Vector UInt8 32) : fromSeed seed ≠ zero := by
  unfold fromSeed
  simp only
  split
  · decide
  · assumption

end Transition

section Draws
variable {bound draw value : Word} {s s' : Xoshiro256StarStar} {fuel : Nat}

theorem thresholdValue (nonzero : bound ≠ 0) : (rejectionThreshold bound).toNat = 2^64 % bound.toNat :=
  negRemainder (Nat.pos_of_ne_zero (fun none => nonzero (BitVec.eq_of_toNat_eq none)))

theorem attemptSome (nonzero : bound ≠ 0) : attempt bound draw = some value ↔
    2^64 % bound.toNat ≤ draw.toNat ∧ draw.toNat % bound.toNat = value.toNat := by
  rw [← thresholdValue nonzero]
  unfold attempt
  split
  · rename_i passed
    rw [Option.some.injEq,← BitVec.toNat_inj,BitVec.toNat_umod]
    exact ⟨fun same => ⟨passed,same⟩,And.right⟩
  · rename_i low
    exact ⟨nofun,fun both => absurd both.1 low⟩

theorem attemptNone (nonzero : bound ≠ 0) : attempt bound draw = none ↔ draw.toNat < 2^64 % bound.toNat := by
  rw [← thresholdValue nonzero]
  unfold attempt
  split
  · rename_i passed
    exact ⟨nofun,fun low => absurd low (Nat.not_lt.mpr passed)⟩
  · rename_i low
    exact ⟨fun _ => Nat.not_le.mp low,fun _ => rfl⟩

theorem producedCard (below : value < bound) :
    (Finset.univ.filter (fun draw => attempt bound draw = some value)).card = 2^64 / bound.toNat := by
  have inside : value.toNat < bound.toNat := below
  have nonzero : bound ≠ 0 := by
    rintro rfl
    exact Nat.not_lt_zero _ inside
  have whole := Nat.mod_add_div (2^64) bound.toNat
  have cut : (Finset.range (2^64)).filter (fun n => 2^64 % bound.toNat ≤ n ∧ n % bound.toNat = value.toNat) =
      (Finset.Ico (2^64 % bound.toNat) (2^64 % bound.toNat + bound.toNat * (2^64 / bound.toNat))).filter
        (fun n => n % bound.toNat = value.toNat) := by
    rw [whole]
    ext n
    simp only [Finset.mem_filter,Finset.mem_range,Finset.mem_Ico]
    exact ⟨fun h => ⟨⟨h.2.1,h.1⟩,h.2.2⟩,fun h => ⟨h.1.2,h.1.1,h.2⟩⟩
  rw [Finset.filter_congr (fun draw _ => attemptSome nonzero),
    wordsCard (fun n => 2^64 % bound.toNat ≤ n ∧ n % bound.toNat = value.toNat),cut,residueCard inside]

theorem rejectedCard (nonzero : bound ≠ 0) :
    (Finset.univ.filter (fun draw => attempt bound draw = none)).card = 2^64 % bound.toNat := by
  have small : 2^64 % bound.toNat ≤ 2^64 := Nat.mod_le ..
  have cut : (Finset.range (2^64)).filter (fun n => n < 2^64 % bound.toNat) = Finset.range (2^64 % bound.toNat) := by
    ext n
    simp only [Finset.mem_filter,Finset.mem_range]
    exact ⟨And.right,fun low => ⟨Nat.lt_of_lt_of_le low small,low⟩⟩
  rw [Finset.filter_congr (fun draw _ => attemptNone nonzero),wordsCard (fun n => n < 2^64 % bound.toNat),cut,Finset.card_range]

theorem loopDraws : drawLoop bound fuel s = .drawn value s' ↔
    ∃ n < fuel, (∀ k < n, attempt bound (nextU64 (transition^[k] s)).1 = none) ∧
      attempt bound (nextU64 (transition^[n] s)).1 = some value ∧ s' = transition^[n+1] s := by
  induction fuel generalizing s with
  | zero => exact ⟨nofun,fun ⟨_,early,_⟩ => absurd early (Nat.not_lt_zero _)⟩
  | succ fuel ih =>
    unfold drawLoop
    cases first : attempt bound (nextU64 s).1 with
    | some found =>
      constructor
      · intro same
        cases same
        exact ⟨0,Nat.succ_pos _,nofun,first,rfl⟩
      · rintro ⟨n,-,before,last,rfl⟩
        cases n with
        | zero =>
          rw [Function.iterate_zero_apply,first] at last
          cases last
          rfl
        | succ n =>
          have rejected := before 0 (Nat.succ_pos n)
          rw [Function.iterate_zero_apply,first] at rejected
          contradiction
    | none =>
      simp only
      rw [ih]
      constructor
      · rintro ⟨n,inside,before,last,rfl⟩
        refine ⟨n+1,Nat.succ_lt_succ inside,fun k low => ?_,last,rfl⟩
        cases k with
        | zero => exact first
        | succ k => exact before k (Nat.lt_of_succ_lt_succ low)
      · rintro ⟨n,inside,before,last,rfl⟩
        cases n with
        | zero =>
          rw [Function.iterate_zero_apply,first] at last
          contradiction
        | succ n =>
          exact ⟨n,Nat.lt_of_succ_lt_succ inside,fun k low => before (k+1) (Nat.succ_lt_succ low),last,rfl⟩

theorem boundedDraws (nonzero : bound ≠ 0) : bounded fuel bound s = .drawn value s' ↔
    ∃ n < fuel, (∀ k < n, attempt bound (nextU64 (transition^[k] s)).1 = none) ∧
      attempt bound (nextU64 (transition^[n] s)).1 = some value ∧ s' = transition^[n+1] s := by
  rw [bounded,if_neg nonzero,loopDraws]

theorem attemptBelow (nonzero : bound ≠ 0) (accepted : attempt bound draw = some value) : value < bound := by
  obtain ⟨-,rest⟩ := (attemptSome nonzero).mp accepted
  have positive : 0 < bound.toNat := Nat.pos_of_ne_zero (fun none => nonzero (BitVec.eq_of_toNat_eq none))
  show value.toNat < bound.toNat
  rw [← rest]
  exact Nat.mod_lt _ positive

end Draws

theorem drawsUnbiased :
    (∀ bound : Word, bound ≠ 0 →
      (∀ value < bound, (Finset.univ.filter (fun draw => attempt bound draw = some value)).card = 2^64 / bound.toNat) ∧
      (∀ draw value, attempt bound draw = some value → value < bound) ∧
      2 * (Finset.univ.filter (fun draw => attempt bound draw = none)).card ≤ 2^64 ∧
      ∀ fuel value s s', bounded fuel bound s = .drawn value s' ↔
        ∃ n < fuel, (∀ k < n, attempt bound (nextU64 (transition^[k] s)).1 = none) ∧
          attempt bound (nextU64 (transition^[n] s)).1 = some value ∧ s' = transition^[n+1] s) ∧
    Function.Bijective (fun s => (nextU64 s).2) ∧
    (∀ s, s ≠ zero → ∀ steps, (fun s => (nextU64 s).2)^[steps] s ≠ zero) ∧
    ∀ seed, fromSeed seed ≠ zero := by
  refine ⟨fun bound nonzero => ⟨fun value below => producedCard below,fun draw value => attemptBelow nonzero,?_,
    fun fuel value s s' => boundedDraws nonzero⟩,transitionBijective,fun s nonzero steps => iterateNonzero nonzero steps,seedNonzero⟩
  rw [rejectedCard nonzero]
  exact remainderHalf (Nat.pos_of_ne_zero (fun none => nonzero (BitVec.eq_of_toNat_eq none))) bound.isLt

theorem sixSidedDraws : (6 : Word) ≠ 0 ∧ (5 : Word) < 6 ∧
    (Finset.univ.filter (fun draw => attempt 6 draw = some 5)).card = 2^64 / 6 ∧ ⟨1,0,0,0⟩ ≠ zero ∧
      (fun s => (nextU64 s).2)^[3] ⟨1,0,0,0⟩ ≠ zero :=
  ⟨by decide,by decide,(drawsUnbiased.1 6 (by decide)).1 5 (by decide),by decide,drawsUnbiased.2.2.1 _ (by decide) 3⟩

end RunnelMoe.Sim
