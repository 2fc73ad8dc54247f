import Mathlib.Data.List.Basic
import Mathlib.Tactic.Common

/-! Half-open ranges of a list. Ranges that follow one another without a gap tile the
range from the first start to the last end, and what they hold is joined to what that
range holds. A list is cut into chunks of one size, the last of which may be short. -/
namespace RunnelMoe.Slices

variable {A : Type*} {xs : List A} {a b c d size : Nat}

theorem extractLength (inside : b ≤ xs.length) : (xs.extract a b).length = b - a := by
  rw [List.length_take,List.length_drop]
  omega

theorem extractJoin (first : a ≤ b) (second : b ≤ c) : xs.extract a b ++ xs.extract b c = xs.extract a c := by
  have whole : c - a = (b - a) + (c - b) := by omega
  have next : xs.drop b = (xs.drop a).drop (b - a) := by
    rw [List.drop_drop]
    congr 1
    omega
  rw [List.extract,List.extract,List.extract,whole,List.take_add,next]

theorem extractWhole (xs : List A) : xs.extract 0 xs.length = xs := by
  rw [List.extract,List.drop_zero,Nat.sub_zero,List.take_length]

theorem extractInside (below : a + d ≤ b) : (xs.extract a b).extract c d = xs.extract (a + c) (a + d) := by
  rw [List.extract,List.extract,List.extract,List.drop_take,List.take_take,List.drop_drop]
  congr 1
  omega

theorem extractClamped (a b : Nat) : xs.extract a (min b xs.length) = xs.extract a b := by
  rw [List.extract,List.extract,List.take_eq_take_iff,List.length_drop]
  omega

inductive Tiled : Nat → List (Nat × Nat) → Nat → Prop where
  | nil (a : Nat) : Tiled a [] a
  | cons {a b c : Nat} {rest : List (Nat × Nat)} (forward : a ≤ b) (tail : Tiled b rest c) : Tiled a ((a,b)::rest) c

variable {ranges : List (Nat × Nat)}

theorem tiledForward (tiled : Tiled a ranges b) : a ≤ b := by
  induction tiled with
  | nil => exact Nat.le_refl _
  | cons forward _ ih => exact Nat.le_trans forward ih

theorem tiledJoin (xs : List A) (tiled : Tiled a ranges b) :
    (ranges.map (fun range => xs.extract range.1 range.2)).flatten = xs.extract a b := by
  induction tiled with
  | nil a => rw [List.extract,Nat.sub_self]; rfl
  | cons forward tail ih =>
    rw [List.map_cons,List.flatten_cons,ih]
    exact extractJoin forward (tiledForward tail)

theorem tiledAscending (tiled : Tiled a ranges b) (some_ : ∀ range ∈ ranges, range.1 < range.2) :
    ranges.Pairwise (fun r s => r.1 < s.1) ∧ ∀ range ∈ ranges, a ≤ range.1 := by
  induction tiled with
  | nil => exact ⟨.nil,nofun⟩
  | @cons a b c rest forward _ ih =>
    obtain ⟨ascending,above⟩ := ih (fun range member => some_ range (List.mem_cons_of_mem _ member))
    have first : a < b := some_ (a,b) List.mem_cons_self
    refine ⟨List.pairwise_cons.mpr ⟨fun range member => ?_,ascending⟩,fun range member => ?_⟩
    · exact Nat.lt_of_lt_of_le first (above range member)
    · rcases List.mem_cons.mp member with rfl | later
      · exact Nat.le_refl _
      · exact Nat.le_trans forward (above range later)

/- The pages that a range touches tile it, when the first and the last one are cut off at
its ends. -/
theorem pagesTiled (positive : 0 < size) (some_ : a < b) :
    Tiled a ((List.range' (a / size) ((b - 1) / size + 1 - a / size)).map
      (fun i => (max a (i * size),min b ((i + 1) * size)))) b := by
  have rest (count : Nat) : ∀ i, a / size ≤ i → i + count = (b - 1) / size + 1 →
      Tiled (min b (max a (i * size))) ((List.range' i count).map
        (fun i => (max a (i * size),min b ((i + 1) * size)))) b := by
    induction count with
    | zero =>
      intro i _ last
      have past : b ≤ i * size := by
        have below := Nat.lt_div_mul_add positive (a := b - 1)
        rw [show i = (b - 1) / size + 1 by omega,Nat.succ_mul]
        omega
      rw [show min b (max a (i * size)) = b by omega]
      exact .nil b
    | succ count ih =>
      intro i started last
      have inside : i * size ≤ b - 1 :=
        Nat.le_trans (Nat.mul_le_mul_right size (by omega)) (Nat.div_mul_le_self (b - 1) size)
      have reached : a ≤ (i + 1) * size := by
        have below := Nat.lt_div_mul_add positive (a := a)
        have page := Nat.mul_le_mul_right size started
        rw [Nat.succ_mul]
        omega
      have next := ih (i + 1) (by omega) (by omega)
      rw [show min b (max a ((i + 1) * size)) = min b ((i + 1) * size) by omega] at next
      rw [List.range'_succ,List.map_cons,show min b (max a (i * size)) = max a (i * size) by omega]
      have grows : i * size ≤ (i + 1) * size := Nat.mul_le_mul_right size (by omega)
      exact .cons (by omega) next
  have order : a / size ≤ (b - 1) / size := Nat.div_le_div_right (by omega)
  have whole := rest ((b - 1) / size + 1 - a / size) (a / size) (Nat.le_refl _) (by omega)
  rwa [show min b (max a (a / size * size)) = a by
    have below := Nat.div_mul_le_self a size
    omega] at whole

def chunks (size : Nat) (xs : List A) : List (List A) :=
  if size = 0 ∨ xs.length = 0 then [] else xs.take size :: chunks size (xs.drop size)
termination_by xs.length
decreasing_by
  rw [List.length_drop]
  omega

theorem chunksFlatten (positive : 0 < size) (xs : List A) : (chunks size xs).flatten = xs := by
  induction xs using chunks.induct size with
  | case1 xs stop =>
    rw [chunks,if_pos stop]
    exact (List.eq_nil_of_length_eq_zero (stop.resolve_left (by omega))).symm
  | case2 xs go ih =>
    rw [chunks,if_neg go,List.flatten_cons,ih,List.take_append_drop]

theorem chunkAt (positive : 0 < size) (xs : List A) (i : Nat) : (chunks size xs)[i]? =
    if i * size < xs.length then some (xs.extract (i * size) (min ((i + 1) * size) xs.length)) else none := by
  induction i generalizing xs with
  | zero =>
    rw [chunks]
    split
    · rename_i stop
      rw [if_neg (by omega)]
      rfl
    · rename_i go
      rw [if_pos (by omega),extractClamped]
      simp
  | succ i ih =>
    rw [chunks]
    split
    · rename_i stop
      rw [if_neg (by omega)]
      rfl
    · rw [List.getElem?_cons_succ,ih,extractClamped,extractClamped,List.length_drop]
      have shift (n : Nat) : (n + 1) * size = size + n * size := by rw [Nat.succ_mul,Nat.add_comm]
      have same : (xs.drop size).extract (i * size) ((i + 1) * size) = xs.extract ((i + 1) * size) ((i + 1 + 1) * size) := by
        rw [List.extract,List.extract,List.drop_drop,shift i,shift (i + 1),shift i]
        congr 1
        omega
      rw [same]
      congr 1
      rw [shift i]
      exact propext (by omega)

theorem pageWithin (positive : 0 < size) (i n : Nat) : i < (n + (size - 1)) / size ↔ i * size < n := by
  rw [← Nat.succ_le_iff,Nat.le_div_iff_mul_le positive,Nat.succ_mul]
  omega

end RunnelMoe.Slices
