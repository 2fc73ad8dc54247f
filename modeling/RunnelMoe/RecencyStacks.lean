import Mathlib.Data.List.Induction
import RunnelMoe.Vectors

/-! Least recently used replacement over a request sequence. The requests so far, each
kept at its last place, form one stack for all cache sizes: a cache of a given size holds
the end of it. A larger cache therefore holds more, and misses less. Where the elements
have weights, the order of the requests and what fits decide together what is held. -/
namespace RunnelMoe.RecencyStacks
open Vectors

variable {α : Type*}

def latest (count : Nat) (xs : List α) : List α := xs.drop (xs.length - count)

section Latest
variable {count : Nat} {xs : List α}

theorem latestParts (count : Nat) (xs : List α) : xs.take (xs.length - count) ++ latest count xs = xs :=
  List.take_append_drop _ xs

theorem latestLength (count : Nat) (xs : List α) : (latest count xs).length = min count xs.length := by
  rw [latest,List.length_drop]
  omega

theorem latestAll (few : xs.length ≤ count) : latest count xs = xs := by
  rw [latest,Nat.sub_eq_zero_of_le few,List.drop_zero]

theorem latestAppend {ys : List α} (enough : count ≤ ys.length) (xs : List α) :
    latest count (xs ++ ys) = latest count ys := by
  unfold latest
  rw [List.length_append,List.drop_append,List.drop_of_length_le (by omega),List.nil_append]
  congr 1
  omega

theorem latestExact {ys : List α} (size : ys.length = count) (xs : List α) : latest count (xs ++ ys) = ys := by
  rw [latestAppend (Nat.le_of_eq size.symm),latestAll (Nat.le_of_eq size)]

theorem latestConcat (count : Nat) (xs : List α) (a : α) : latest (count + 1) (xs ++ [a]) = latest count xs ++ [a] := by
  unfold latest
  rw [List.length_append,List.length_singleton,List.drop_append_of_le_length (by omega)]
  congr 2
  omega

theorem latestMono {more : Nat} (larger : count ≤ more) {a : α} (inside : a ∈ latest count xs) : a ∈ latest more xs := by
  unfold latest at inside ⊢
  exact (List.drop_suffix_drop_left xs (by omega)).subset inside

end Latest

section Requests
variable [DecidableEq α] {count : Nat} {stack : List α} {a : α}

def refreshed (stack : List α) (a : α) : List α := stack.erase a ++ [a]

theorem refreshedNodup (distinct : stack.Nodup) (a : α) : (refreshed stack a).Nodup := by
  refine List.nodup_append.mpr ⟨distinct.erase a,List.nodup_singleton a,fun b left c right same => ?_⟩
  rw [same,List.mem_singleton.mp right] at left
  exact (distinct.mem_erase_iff.mp left).1 rfl

theorem refreshedMem {b : α} : b ∈ refreshed stack a → b ∈ stack ∨ b = a := by
  intro inside
  rcases List.mem_append.mp inside with old | new
  · exact .inl (List.mem_of_mem_erase old)
  · exact .inr (List.mem_singleton.mp new)

theorem latestHit (distinct : stack.Nodup) (inside : a ∈ latest count stack) :
    latest count (refreshed stack a) = (latest count stack).erase a ++ [a] := by
  have parts := latestParts count stack
  have apart : a ∉ stack.take (stack.length - count) := fun early => by
    rw [← parts,List.nodup_append] at distinct
    exact distinct.2.2 a early a inside rfl
  have moved : refreshed stack a = stack.take (stack.length - count) ++ ((latest count stack).erase a ++ [a]) := by
    rw [← List.append_assoc,← List.erase_append_right _ apart,parts]
    rfl
  have size : ((latest count stack).erase a ++ [a]).length = (latest count stack).length := by
    have positive := List.length_pos_of_mem inside
    rw [List.length_append,List.length_erase_of_mem inside,List.length_singleton]
    omega
  have bound := latestLength count stack
  rw [moved]
  by_cases full : count ≤ stack.length
  · exact latestExact (by omega) _
  · have none : stack.take (stack.length - count) = [] := by
      rw [Nat.sub_eq_zero_of_le (by omega),List.take_zero]
    rw [none,List.nil_append]
    exact latestAll (by omega)

theorem latestMiss (outside : a ∉ latest (count + 1) stack) :
    latest (count + 1) (refreshed stack a) = latest count (latest (count + 1) stack) ++ [a] := by
  have parts := latestParts (count + 1) stack
  have size := latestLength (count + 1) stack
  unfold refreshed
  rw [latestConcat]
  congr 1
  by_cases full : count + 1 ≤ stack.length
  · by_cases early : a ∈ stack.take (stack.length - (count + 1))
    · have erased : stack.erase a = (stack.take (stack.length - (count + 1))).erase a ++ latest (count + 1) stack := by
        rw [← List.erase_append_left _ early,parts]
      rw [erased,latestAppend (by omega)]
    · have absent : a ∉ stack := fun there => by
        rw [← parts] at there
        rcases List.mem_append.mp there with first | last
        · exact early first
        · exact outside last
      rw [List.erase_of_not_mem absent]
      nth_rewrite 1 [← parts]
      exact latestAppend (by omega) _
  · have all : latest (count + 1) stack = stack := latestAll (by omega)
    rw [all] at outside ⊢
    rw [List.erase_of_not_mem outside]

def missCost (cost : α → Nat) (count : Nat) : List α → List α → Nat
  | _, [] => 0
  | stack, a::rest => (if a ∈ latest count stack then 0 else cost a) + missCost cost count (refreshed stack a) rest

theorem missCostLast (cost : α → Nat) (count : Nat) (stack requests : List α) (a : α) :
    missCost cost count stack (requests ++ [a]) = missCost cost count stack requests +
      if a ∈ latest count (requests.foldl refreshed stack) then 0 else cost a := by
  induction requests generalizing stack with
  | nil => by_cases inside : a ∈ latest count stack <;> simp [missCost,inside]
  | cons b rest ih =>
    rw [List.cons_append,missCost,ih,missCost,List.foldl_cons]
    omega

theorem missCostMono {more : Nat} (larger : count ≤ more) (cost : α → Nat) (stack requests : List α) :
    missCost cost more stack requests ≤ missCost cost count stack requests := by
  induction requests generalizing stack with
  | nil => exact Nat.le_refl _
  | cons b rest ih =>
    have later := ih (refreshed stack b)
    unfold missCost
    by_cases inside : b ∈ latest count stack
    · rw [if_pos inside,if_pos (latestMono larger inside)]
      omega
    · rw [if_neg inside]
      split <;> omega

end Requests

theorem shedUniform {weight : α → Nat} {target size : Nat} {xs : List α} (positive : 0 < size)
    (uniform : ∀ x ∈ xs, weight x = size) : (shed weight target xs).2 = latest (target / size) xs := by
  induction xs with
  | nil => simp [shed,latest]
  | cons x rest ih =>
    have sum : ((x::rest).map weight).sum = (rest.length + 1) * size := by
      rw [List.map_congr_left uniform,List.map_const',List.sum_replicate_nat,List.length_cons]
    have fits : ((x::rest).map weight).sum ≤ target ↔ rest.length + 1 ≤ target / size := by
      rw [sum,Nat.le_div_iff_mul_le positive]
    have later := ih (fun y member => uniform y (List.mem_cons_of_mem _ member))
    by_cases light : ((x::rest).map weight).sum ≤ target
    · rw [shedNone light,latestAll (fits.mp light)]
    · have short : target / size ≤ rest.length := by
        have heavy := fun few => light (fits.mpr few)
        omega
      rw [shed,if_neg light,later,← List.singleton_append,latestAppend short]

/-! Different weights: on a miss the oldest leave until the new one fits -/

structure Recency (α : Type*) where
  order : List α
  hits : Nat
  misses : Nat
  evictions : Nat
  loaded : Nat

structure Counters where
  hits : Nat
  misses : Nat
  admissions : Nat
  evictions : Nat
  loaded : Nat

def Recency.counters (r : Recency α) : Counters := ⟨r.hits,r.misses,r.misses,r.evictions,r.loaded⟩

def Counters.hit (c : Counters) : Counters := {c with hits := c.hits + 1}
def Counters.missed (c : Counters) (evictions bytes : Nat) : Counters :=
  ⟨c.hits,c.misses + 1,c.admissions + 1,c.evictions + evictions,c.loaded + bytes⟩

section Weights
variable [DecidableEq α] (weight size : α → Nat) (capacity : Nat)

def Recency.demand (r : Recency α) (a : α) : Recency α :=
  if a ∈ r.order then {r with order := refreshed r.order a, hits := r.hits + 1}
  else
    let parts := shed weight (capacity - weight a) r.order
    ⟨parts.2 ++ [a],r.hits,r.misses + 1,r.evictions + parts.1.length,r.loaded + size a⟩

def recencyAfter (demands : List α) : Recency α :=
  demands.foldl (Recency.demand weight size capacity) ⟨[],0,0,0,0⟩

theorem recencyLast (past : List α) (a : α) : recencyAfter weight size capacity (past ++ [a]) =
    (recencyAfter weight size capacity past).demand weight size capacity a := List.foldl_concat ..

def Recency.Counts (r : Recency α) (demands : Nat) : Prop :=
  r.hits + r.misses = demands ∧ r.evictions + r.order.length = r.misses

theorem demandCounts {r : Recency α} {demands : Nat} (counts : r.Counts demands) (a : α) :
    (r.demand weight size capacity a).Counts (demands + 1) := by
  obtain ⟨all,kept⟩ := counts
  unfold Recency.demand Recency.Counts
  split
  · rename_i inside
    have positive := List.length_pos_of_mem inside
    simp only [refreshed,List.length_append,List.length_erase_of_mem inside,List.length_singleton]
    omega
  · have parts := congrArg List.length (shedParts weight (capacity - weight a) r.order)
    simp only [List.length_append,List.length_singleton] at parts ⊢
    omega

theorem recencyCounts (past : List α) : (recencyAfter weight size capacity past).Counts past.length := by
  induction past using List.reverseRecOn with
  | nil => exact ⟨rfl,rfl⟩
  | append_singleton past a ih =>
    rw [recencyLast,List.length_append]
    exact demandCounts weight size capacity ih a

theorem demandHeld {r : Recency α} {a b : α} (held : b ∈ (r.demand weight size capacity a).order) :
    b ∈ r.order ∨ b = a := by
  unfold Recency.demand at held
  split at held
  · exact refreshedMem held
  · rcases List.mem_append.mp held with kept | last
    · exact .inl (shedKept weight kept)
    · exact .inr (List.mem_singleton.mp last)

theorem recencyDemanded (past : List α) : ∀ a ∈ (recencyAfter weight size capacity past).order, a ∈ past := by
  induction past using List.reverseRecOn with
  | nil => exact fun _ held => held
  | append_singleton past a ih =>
    intro b held
    rw [recencyLast] at held
    rcases demandHeld weight size capacity held with old | new
    · exact List.mem_append_left _ (ih b old)
    · exact List.mem_append_right _ (List.mem_singleton.mpr new)

end Weights

theorem refreshedNamed {β : Type*} [DecidableEq α] [DecidableEq β] {name : α → β} {stack : List α} {a : α}
    (apart : ∀ b ∈ stack, name b = name a → b = a) :
    refreshed (stack.map name) (name a) = (refreshed stack a).map name := by
  have erased : (stack.map name).erase (name a) = (stack.erase a).map name := by
    induction stack with
    | nil => rfl
    | cons b rest ih =>
      rw [List.map_cons,List.erase_cons,List.erase_cons]
      by_cases same : b = a
      · simp [same]
      · have other : name b ≠ name a := fun equal => same (apart b List.mem_cons_self equal)
        simp [same,other,ih (fun c member => apart c (List.mem_cons_of_mem _ member))]
  rw [refreshed,refreshed,erased,List.map_append]
  rfl

end RunnelMoe.RecencyStacks
