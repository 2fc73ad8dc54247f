import Mathlib.Data.List.MinMax
import Mathlib.Data.Prod.Lex
import RunnelMoe.KeyedSum
import RunnelMoe.Vectors

/-! Finite maps that are read as queues. The rows that a condition selects are listed by
a rank in the row, equal ranks by key. A map has one such list, and an update of one key
moves that key only: out of the queue, or to its end when the new rank is the highest. -/
namespace RunnelMoe.Queues
open KeyedSum Vectors
open Std (ExtTreeMap)

variable {K V R : Type*} [LinearOrder K] [LinearOrder R] {selected : V → Prop} {rank : V → R}
  {m : ExtTreeMap K V} {queue : List K} {k : K} {v : V}

theorem ordTrans : Std.TransOrd K := inferInstance

attribute [local instance] ordTrans

def Precedes (rank : V → R) (m : ExtTreeMap K V) (a b : K) : Prop :=
  ∀ v w, m[a]? = some v → m[b]? = some w → toLex (rank v,a) < toLex (rank w,b)

structure Queued (selected : V → Prop) (rank : V → R) (m : ExtTreeMap K V) (queue : List K) : Prop where
  members : ∀ k, k ∈ queue ↔ ∃ v, m[k]? = some v ∧ selected v
  ordered : queue.Pairwise (Precedes rank m)

theorem queuedEmpty : Queued selected rank (∅ : ExtTreeMap K V) [] := by
  refine ⟨fun k => ?_,List.Pairwise.nil⟩
  simp

theorem queuedNodup (queued : Queued selected rank m queue) : queue.Nodup := by
  refine queued.ordered.imp_of_mem (fun {a b} member _ before same => ?_)
  obtain ⟨v,found,-⟩ := (queued.members a).mp member
  subst same
  exact lt_irrefl _ (before v v found found)

theorem precedesAsymm {a b : K} {w : V} (here : m[a]? = some v) (there : m[b]? = some w)
    (before : Precedes rank m a b) (after : Precedes rank m b a) : False :=
  lt_asymm (before v w here there) (after w v there here)

section Moves
variable (queued : Queued selected rank m queue)
include queued

theorem queuedUnique {other : List K} (again : Queued selected rank m other) : queue = other := by
  have same : queue.Perm other := by
    refine (List.perm_ext_iff_of_nodup (queuedNodup queued) (queuedNodup again)).mpr (fun a => ?_)
    rw [queued.members,again.members]
  refine same.eq_of_pairwise (fun a b left right before after => ?_) queued.ordered again.ordered
  obtain ⟨v,here,-⟩ := (queued.members a).mp left
  obtain ⟨w,there,-⟩ := (again.members b).mp right
  exact (precedesAsymm here there before after).elim

theorem queuedFrame {m' : ExtTreeMap K V} (members : ∀ k, k ∈ queue ↔ ∃ v, m'[k]? = some v ∧ selected v) (same : ∀ k ∈ queue, m'[k]? = m[k]?) :
    Queued selected rank m' queue := by
  refine ⟨members,queued.ordered.imp_of_mem (fun {a b} left right before v w here there => ?_)⟩
  rw [same a left] at here
  rw [same b right] at there
  exact before v w here there

theorem queuedErase (k : K) :
    Queued selected rank (m.erase k) (queue.erase k) := by
  have nodup := queuedNodup queued
  have others (a) (member : a ∈ queue.erase k) : a ≠ k := (nodup.mem_erase_iff.mp member).1
  refine ⟨fun a => ?_,(queued.ordered.sublist List.erase_sublist).imp_of_mem ?_⟩
  · rw [nodup.mem_erase_iff,queued.members,getErase]
    by_cases here : a = k <;> simp [here]
  · intro a b left right before v w here there
    rw [getEraseOther _ _ (others a left)] at here
    rw [getEraseOther _ _ (others b right)] at there
    exact before v w here there

theorem queuedWithout {m' : ExtTreeMap K V} {gone : List K} (lookup : ∀ a : K, m'[a]? = if a ∈ gone then none else m[a]?) :
    Queued selected rank m' (queue.filter (· ∉ gone)) := by
  refine ⟨fun a => ?_,(queued.ordered.sublist List.filter_sublist).imp_of_mem ?_⟩
  · rw [List.mem_filter,queued.members,lookup a]
    by_cases here : a ∈ gone <;> simp [here]
  · intro a b left right before v w here there
    have stays : a ∉ gone := by simpa using (List.mem_filter.mp left).2
    have stays' : b ∉ gone := by simpa using (List.mem_filter.mp right).2
    rw [lookup a,if_neg stays] at here
    rw [lookup b,if_neg stays'] at there
    exact before v w here there

theorem queuedOut (k : K) (out : ¬selected v) :
    Queued selected rank (m.insert k v) (queue.erase k) := by
  have erased := queuedErase queued k
  have others (a) (member : a ∈ queue.erase k) : a ≠ k := ((queuedNodup queued).mem_erase_iff.mp member).1
  refine queuedFrame erased (fun a => ?_) (fun a member => ?_)
  · rw [erased.members,getInsert,getErase]
    by_cases here : a = k <;> simp [here,out]
  · rw [getInsertOther _ _ (others a member),getEraseOther _ _ (others a member)]

theorem queuedLast (k : K) (chosen : selected v)
    (last : ∀ a w, a ≠ k → m[a]? = some w → selected w → rank w < rank v) :
    Queued selected rank (m.insert k v) (queue.erase k ++ [k]) := by
  have erased := queuedErase queued k
  have others (a) (member : a ∈ queue.erase k) : a ≠ k := ((queuedNodup queued).mem_erase_iff.mp member).1
  refine ⟨fun a => ?_,?_⟩
  · rw [List.mem_append,erased.members,getInsert,getErase]
    by_cases here : a = k <;> simp [here,chosen]
  · refine List.pairwise_append.mpr ⟨?_,List.pairwise_singleton ..,fun a left b right => ?_⟩
    · refine erased.ordered.imp_of_mem (fun {a b} left right before v w here there => ?_)
      rw [getInsertOther _ _ (others a left)] at here
      rw [getInsertOther _ _ (others b right)] at there
      refine before v w ?_ ?_
      · rwa [getEraseOther _ _ (others a left)]
      · rwa [getEraseOther _ _ (others b right)]
    · intro v' w here there
      cases List.mem_singleton.mp right
      rw [getInsertSame] at there
      cases Option.some.inj there
      rw [getInsertOther _ _ (others a left)] at here
      obtain ⟨w',found,sel⟩ := (erased.members a).mp left
      rw [getEraseOther _ _ (others a left),here] at found
      cases Option.some.inj found
      exact Prod.Lex.toLex_lt_toLex.mpr (.inl (last a v' (others a left) here sel))

/- Several keys move to the end at once, with one common rank: they stand there by key. -/
theorem queuedTogether {m' : ExtTreeMap K V} {moved : List K} {r : R} (distinct : moved.Nodup) (fresh : ∀ a ∈ queue, a ∉ moved) (same : ∀ a, a ∉ moved → m'[a]? = m[a]?)
    (new : ∀ a ∈ moved, ∃ v, m'[a]? = some v ∧ selected v ∧ rank v = r)
    (last : ∀ (a : K) w, m[a]? = some w → selected w → rank w < r) :
    Queued selected rank m' (queue ++ sortByKey id moved) := by
  have sorted := sortByKeyPerm id moved
  refine ⟨fun a => ?_,List.pairwise_append.mpr ⟨?_,?_,fun a left b right => ?_⟩⟩
  · rw [List.mem_append,sorted.mem_iff]
    by_cases inside : a ∈ moved
    · obtain ⟨v,found,sel,-⟩ := new a inside
      simp [inside,found,sel]
    · simp only [inside,or_false,same a inside]
      exact queued.members a
  · refine queued.ordered.imp_of_mem (fun {a b} left right before v w here there => ?_)
    rw [same a (fresh a left)] at here
    rw [same b (fresh b right)] at there
    exact before v w here there
  · have increasing : (sortByKey id moved).Pairwise (fun a b => id a ≤ id b) :=
      List.pairwise_insertionSort (fun a b => id a ≤ id b) moved
    have apart : (sortByKey id moved).Nodup := sorted.nodup_iff.mpr distinct
    refine (increasing.and apart).imp_of_mem (fun {a b} left right ordered v w here there => ?_)
    obtain ⟨v',found,-,equal⟩ := new a (sorted.subset left)
    obtain ⟨w',found',-,equal'⟩ := new b (sorted.subset right)
    cases Option.some.inj (found.symm.trans here)
    cases Option.some.inj (found'.symm.trans there)
    exact Prod.Lex.toLex_lt_toLex.mpr (.inr ⟨equal.trans equal'.symm,lt_of_le_of_ne ordered.1 ordered.2⟩)
  · intro v w here there
    obtain ⟨v',found,sel⟩ := (queued.members a).mp left
    rw [same a (fresh a left)] at here
    cases Option.some.inj (found.symm.trans here)
    obtain ⟨w',found',-,equal⟩ := new b (sorted.subset right)
    cases Option.some.inj (found'.symm.trans there)
    exact Prod.Lex.toLex_lt_toLex.mpr (.inl (equal ▸ last a v found sel))

end Moves

section Listing
variable [DecidablePred selected]

def queueOf (selected : V → Prop) [DecidablePred selected] (rank : V → R) (m : ExtTreeMap K V) : List K :=
  (sortByKey (fun row : K × V => toLex (rank row.2,row.1)) (m.toList.filter (fun row => selected row.2))).map Prod.fst

theorem queueOfQueued (m : ExtTreeMap K V) : Queued selected rank m (queueOf selected rank m) := by
  have sorted := sortByKeyPerm (fun row : K × V => toLex (rank row.2,row.1))
    (m.toList.filter (fun row => selected row.2))
  have found (row) (member : row ∈ sortByKey (fun row : K × V => toLex (rank row.2,row.1))
      (m.toList.filter (fun row => selected row.2))) : m[row.1]? = some row.2 :=
    memToList.mp (List.mem_filter.mp (sorted.subset member)).1
  refine ⟨fun k => ?_,?_⟩
  · rw [queueOf,List.mem_map]
    constructor
    · intro inside
      obtain ⟨row,member,same⟩ := inside
      subst same
      refine ⟨row.2,found row member,?_⟩
      simpa using (List.mem_filter.mp (sorted.subset member)).2
    · intro inside
      obtain ⟨v,present,sel⟩ := inside
      refine ⟨(k,v),sorted.symm.subset (List.mem_filter.mpr ⟨memToList.mpr present,?_⟩),rfl⟩
      simpa using sel
  · have increasing := List.pairwise_insertionSort
      (fun a b : K × V => toLex (rank a.2,a.1) ≤ toLex (rank b.2,b.1)) (m.toList.filter (fun row => selected row.2))
    have distinct : (sortByKey (fun row : K × V => toLex (rank row.2,row.1))
        (m.toList.filter (fun row => selected row.2))).Nodup :=
      sorted.nodup_iff.mpr ((toListNodup m).filter _)
    rw [queueOf,List.pairwise_map]
    refine (List.Pairwise.and increasing distinct).imp_of_mem (fun {a b} left right both v w here there => ?_)
    cases Option.some.inj ((found a left).symm.trans here)
    cases Option.some.inj ((found b right).symm.trans there)
    refine lt_of_le_of_ne both.1 (fun same => both.2 ?_)
    have parts := Prod.mk.inj (toLex.injective same)
    have key : a.1 = b.1 := parts.2
    have row := found b right
    rw [← key,found a left] at row
    exact Prod.ext key (Option.some.inj row)

end Listing

theorem headLeast {rest : List K} (queued : Queued selected rank m (k::rest)) (found : m[k]? = some v) {a : K} {w : V}
    (there : m[a]? = some w) (chosen : selected w) : toLex (rank v,k) ≤ toLex (rank w,a) := by
  rcases List.mem_cons.mp ((queued.members a).mpr ⟨w,there,chosen⟩) with same | later
  · subst same
    cases Option.some.inj (found.symm.trans there)
    exact le_refl _
  · exact le_of_lt ((List.pairwise_cons.mp queued.ordered).1 a later v w found there)

theorem queuedTotal {weight : K → V → Nat} (listed : K → Nat) (queued : Queued (fun _ => True) rank m queue)
    (same : ∀ k v, m[k]? = some v → weight k v = listed k) : total weight m = (queue.map listed).sum := by
  have keys : queue.Perm (m.toList.map Prod.fst) := by
    refine (List.perm_ext_iff_of_nodup (queuedNodup queued) (keysNodup m)).mpr (fun k => ?_)
    simp only [queued.members,and_true,List.mem_map,Prod.exists,memToList,exists_and_right,exists_eq_right]
  rw [(keys.map listed).sum_eq,List.map_map,total]
  congr 1
  exact List.map_congr_left (fun row member => same row.1 row.2 (memToList.mp member))

theorem sortedUnique {A : Type*} (key : A → R) {xs ys : List A} (same : ys.Perm xs)
    (increasing : ys.Pairwise (fun a b => key a < key b)) : sortByKey key xs = ys := by
  have sorted := (sortByKeyPerm key xs).trans same.symm
  have keys : (ys.map key).Nodup := by
    rw [List.Nodup,List.pairwise_map]
    exact increasing.imp ne_of_lt
  refine sorted.eq_of_pairwise (fun a b left right before after => ?_)
    (List.pairwise_insertionSort (fun a b => key a ≤ key b) xs) (increasing.imp le_of_lt)
  exact List.inj_on_of_nodup_map keys (sorted.subset left) right (le_antisymm before after)

/- A queue of the whole map is its rows sorted by any key that orders them alike. -/
theorem sortedQueue {L : Type*} [LinearOrder L] {key : V → L} (queued : Queued (fun _ => True) rank m queue)
    (alike : ∀ (a b : K) v w, m[a]? = some v → m[b]? = some w → toLex (rank v,a) < toLex (rank w,b) → key v < key w) :
    sortByKey key (m.toList.map Prod.snd) = queue.filterMap (fun k => m[k]?) := by
  have keys : queue.Perm (m.toList.map Prod.fst) := by
    refine (List.perm_ext_iff_of_nodup (queuedNodup queued) (keysNodup m)).mpr (fun k => ?_)
    simp only [queued.members,and_true,List.mem_map,Prod.exists,memToList,exists_and_right,exists_eq_right]
  have values : (m.toList.map Prod.fst).filterMap (fun k => m[k]?) = m.toList.map Prod.snd := by
    rw [List.filterMap_map,← List.filterMap_eq_map]
    refine List.filterMap_congr (fun row member => ?_)
    exact memToList.mp member
  refine sortedUnique key ?_ ?_
  · rw [← values]
    exact keys.filterMap _
  · refine List.pairwise_filterMap.mpr (queued.ordered.imp (fun {a b} before v here w there => ?_))
    exact alike a b v w here there (before v w here there)

end RunnelMoe.Queues
