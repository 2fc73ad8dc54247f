import Mathlib.Data.List.GetD
import Mathlib.Data.Nat.Bitwise
import Mathlib.Tactic.Common

/-! Counters shared by many keys. A key owns some cells of a table and is estimated by the
least of them; raising a key raises only its least cells, up to a cap, so no key ever
loses by it. The same for bits packed into bytes: a key is known when all its bits are
set. -/
namespace RunnelMoe.Sketches

variable {counters cells : List Nat} {value cap i : Nat}

theorem getSet (xs : List Nat) (j v i : Nat) :
    (xs.set j v).getD i 0 = if j = i ∧ j < xs.length then v else xs.getD i 0 := by
  rw [List.getD_eq_getElem?_getD,List.getD_eq_getElem?_getD,List.getElem?_set]
  by_cases same : j = i
  · subst same
    by_cases inside : j < xs.length
    · simp [inside]
    · simp [inside]
  · simp [same]

def least (counters cells : List Nat) : Nat := (cells.map (counters.getD · 0)).min?.getD 0

theorem atMostLeast (some_ : cells ≠ []) {a : Nat} : a ≤ least counters cells ↔ ∀ i ∈ cells, a ≤ counters.getD i 0 := by
  have mapped : cells.map (counters.getD · 0) ≠ [] := by simpa using some_
  obtain ⟨m,found⟩ := Option.isSome_iff_exists.mp (List.isSome_min?_of_ne_nil mapped)
  rw [least,found,Option.getD_some,List.le_min?_iff found,List.forall_mem_map]

theorem leastBelow (member : i ∈ cells) : least counters cells ≤ counters.getD i 0 :=
  (atMostLeast (List.ne_nil_of_mem member)).mp (Nat.le_refl _) i member

def Capped (cap : Nat) (counters : List Nat) : Prop := ∀ i, counters.getD i 0 ≤ cap

def raiseCell (value cap : Nat) (counters : List Nat) (i : Nat) : List Nat :=
  if counters.getD i 0 = value then counters.set i (min (counters.getD i 0 + 1) cap) else counters

def raise (value cap : Nat) (cells counters : List Nat) : List Nat := cells.foldl (raiseCell value cap) counters

theorem raiseCellLength (j : Nat) : (raiseCell value cap counters j).length = counters.length := by
  unfold raiseCell
  split
  · rw [List.length_set]
  · rfl

theorem raiseCellReaches (inside : i < counters.length) (least_ : value ≤ counters.getD i 0) :
    min (value + 1) cap ≤ (raiseCell value cap counters i).getD i 0 := by
  unfold raiseCell
  split
  · rename_i same
    rw [getSet,if_pos ⟨rfl,inside⟩,same]
  · omega

theorem raiseLength (cells counters : List Nat) : (raise value cap cells counters).length = counters.length := by
  induction cells generalizing counters with
  | nil => rfl
  | cons j rest ih =>
    rw [raise,List.foldl_cons]
    exact (ih _).trans (raiseCellLength j)

theorem getHalved (counters : List Nat) (i : Nat) : (counters.map (· / 2)).getD i 0 = counters.getD i 0 / 2 :=
  List.getD_map (d := 0) ..

theorem leastHalved (some_ : cells ≠ []) : least counters cells / 2 ≤ least (counters.map (· / 2)) cells := by
  refine (atMostLeast some_).mpr (fun i member => ?_)
  rw [getHalved]
  exact Nat.div_le_div_right (leastBelow member)

section Caps
variable (capped : Capped cap counters)
include capped

theorem raiseCellCapped (j : Nat) : Capped cap (raiseCell value cap counters j) := by
  intro i
  unfold raiseCell
  split
  · rw [getSet]
    split
    · exact Nat.min_le_right ..
    · exact capped i
  · exact capped i

theorem raiseCellGrows (j i : Nat) :
    counters.getD i 0 ≤ (raiseCell value cap counters j).getD i 0 := by
  unfold raiseCell
  split
  · rw [getSet]
    split
    · rename_i here
      rw [← here.1]
      have := capped j
      omega
    · exact Nat.le_refl _
  · exact Nat.le_refl _

theorem raiseCapped (cells : List Nat) : Capped cap (raise value cap cells counters) := by
  induction cells generalizing counters with
  | nil => exact capped
  | cons j rest ih =>
    rw [raise,List.foldl_cons]
    exact ih (raiseCellCapped capped j)

theorem raiseGrows (cells : List Nat) (i : Nat) :
    counters.getD i 0 ≤ (raise value cap cells counters).getD i 0 := by
  induction cells generalizing counters with
  | nil => exact Nat.le_refl _
  | cons j rest ih =>
    rw [raise,List.foldl_cons]
    exact Nat.le_trans (raiseCellGrows capped j i) (ih (raiseCellCapped capped j))

theorem raiseReaches (member : i ∈ cells) (inside : i < counters.length)
    (least_ : value ≤ counters.getD i 0) : min (value + 1) cap ≤ (raise value cap cells counters).getD i 0 := by
  induction cells generalizing counters with
  | nil => contradiction
  | cons j rest ih =>
    rw [raise,List.foldl_cons]
    rcases List.mem_cons.mp member with rfl | later
    · exact Nat.le_trans (raiseCellReaches inside least_) (raiseGrows (raiseCellCapped capped i) rest i)
    · exact ih (raiseCellCapped capped j) later (by rwa [raiseCellLength])
        (Nat.le_trans least_ (raiseCellGrows capped j i))

theorem leastRaised (some_ : cells ≠ []) (inside : ∀ i ∈ cells, i < counters.length) :
    min (least counters cells + 1) cap ≤ least (raise (least counters cells) cap cells counters) cells := by
  refine (atMostLeast some_).mpr (fun i member => ?_)
  exact raiseReaches capped member (inside i member) (leastBelow member)

theorem leastGrows (cells : List Nat) {others : List Nat} (some_ : others ≠ []) :
    least counters others ≤ least (raise value cap cells counters) others := by
  refine (atMostLeast some_).mpr (fun i member => ?_)
  exact Nat.le_trans (leastBelow member) (raiseGrows capped cells i)

theorem cappedHalved : Capped cap (counters.map (· / 2)) := by
  intro i
  rw [getHalved]
  exact Nat.le_trans (Nat.div_le_self ..) (capped i)

end Caps

section Bits
variable {bytes places : List Nat} {c d : Nat}

def bitAt (bytes : List Nat) (c : Nat) : Bool := (bytes.getD (c / 8) 0).testBit (c % 8)

def setBit (bytes : List Nat) (c : Nat) : List Nat :=
  bytes.set (c / 8) (bytes.getD (c / 8) 0 ||| 1 <<< (c % 8))

def setBits (places bytes : List Nat) : List Nat := places.foldl setBit bytes

theorem setBitKeeps (set : bitAt bytes d = true) (c : Nat) : bitAt (setBit bytes c) d = true := by
  unfold bitAt setBit at *
  rw [getSet]
  split
  · rename_i here
    rw [here.1,Nat.testBit_or,set,Bool.true_or]
  · exact set

theorem setBitSets (inside : c / 8 < bytes.length) : bitAt (setBit bytes c) c = true := by
  unfold bitAt setBit
  rw [getSet,if_pos ⟨rfl,inside⟩,Nat.testBit_or,Nat.one_shiftLeft,Nat.testBit_two_pow_self,Bool.or_true]

theorem setBitsLength (places bytes : List Nat) : (setBits places bytes).length = bytes.length := by
  induction places generalizing bytes with
  | nil => rfl
  | cons c rest ih =>
    rw [setBits,List.foldl_cons]
    exact (ih _).trans List.length_set

theorem setBitsKeep (set : bitAt bytes d = true) (places : List Nat) : bitAt (setBits places bytes) d = true := by
  induction places generalizing bytes with
  | nil => exact set
  | cons c rest ih =>
    rw [setBits,List.foldl_cons]
    exact ih (setBitKeeps set c)

theorem setBitsSet (inside : ∀ c ∈ places, c / 8 < bytes.length) (member : c ∈ places) :
    bitAt (setBits places bytes) c = true := by
  induction places generalizing bytes with
  | nil => contradiction
  | cons first rest ih =>
    rw [setBits,List.foldl_cons]
    rcases List.mem_cons.mp member with rfl | later
    · exact setBitsKeep (setBitSets (inside c List.mem_cons_self)) rest
    · refine ih (fun d among => ?_) later
      rw [setBit,List.length_set]
      exact inside d (List.mem_cons_of_mem _ among)

end Bits

end RunnelMoe.Sketches
