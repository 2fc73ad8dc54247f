import Mathlib.Algebra.BigOperators.Group.List.Basic
import Mathlib.Algebra.GroupWithZero.Nat
import Mathlib.Data.List.Perm.Basic
import Mathlib.Data.List.Sort
import Mathlib.Order.Basic
import Mathlib.Tactic.Common

/-! Operations on growable vectors that the standard list library lacks: removal
by swapping with the last element, a stable sort by a key, the shortest front part that
weighs enough, and the shortest one whose removal makes the rest light enough. -/
namespace RunnelMoe.Vectors

variable {α : Type*}

def swapRemove (xs : List α) (i : Nat) : List α :=
  match xs.getLast? with
  | none => xs
  | some last => (xs.set i last).dropLast

variable {xs : List α}

theorem swapRemovePerm {i : Nat} {x : α} (found : xs[i]? = some x) :
    xs.Perm (x :: swapRemove xs i) := by
  obtain ⟨inside,value⟩ := List.getElem?_eq_some_iff.mp found
  rcases List.eq_nil_or_concat xs with rfl | ⟨front,last,rfl⟩
  · simp at inside
  simp only [List.concat_eq_append] at found inside value ⊢
  simp only [swapRemove,List.getLast?_concat]
  rcases Nat.lt_or_ge i front.length with early | late
  · rw [List.set_append_left _ _ early,List.dropLast_concat]
    rw [List.getElem_append_left early] at value
    subst value
    have swapped : (front.set i last).Perm (last :: front.eraseIdx i) := List.set_perm_cons_eraseIdx early last
    have restored : front.Perm (front[i] :: front.eraseIdx i) := (List.getElem_cons_eraseIdx_perm early).symm
    have moved : (front ++ [last]).Perm (last :: front[i] :: front.eraseIdx i) :=
      (List.perm_append_singleton last front).trans (restored.cons last)
    exact moved.trans ((List.Perm.swap _ _ _).trans (swapped.symm.cons _))
  · have exact : i = front.length := by simp at inside; omega
    subst exact
    simp only [List.getElem_concat_length] at value
    subst value
    simp [List.perm_append_singleton]

theorem swapRemoveLength {i : Nat} {x : α} (found : xs[i]? = some x) :
    (swapRemove xs i).length + 1 = xs.length := by
  have lengths := (swapRemovePerm found).length_eq
  simpa using lengths.symm

def sortByKey {K : Type*} [LinearOrder K] (key : α → K) (xs : List α) : List α :=
  xs.insertionSort (fun a b => key a ≤ key b)

theorem sortByKeyPerm {K : Type*} [LinearOrder K] (key : α → K) (xs : List α) : (sortByKey key xs).Perm xs :=
  List.perm_insertionSort _ xs

def takeEnough (weight : α → Nat) (needed : Nat) : Nat → List α → List α
  | _, [] => []
  | taken, x::rest => if needed ≤ taken + weight x then [x] else x :: takeEnough weight needed (taken + weight x) rest

theorem takeEnoughPrefix (weight : α → Nat) (needed taken : Nat) (xs : List α) :
    takeEnough weight needed taken xs <+: xs := by
  induction xs generalizing taken with
  | nil => exact List.prefix_rfl
  | cons x rest ih =>
    unfold takeEnough
    split
    · exact ⟨rest,rfl⟩
    · exact (List.prefix_cons_inj x).mpr (ih _)

theorem takeWhileFilter {before : α → α → Prop} {keep : α → Bool} (ordered : xs.Pairwise before)
    (down : ∀ a b, before a b → keep b → keep a) : xs.takeWhile keep = xs.filter keep := by
  induction xs with
  | nil => rfl
  | cons x rest ih =>
    obtain ⟨first,later⟩ := List.pairwise_cons.mp ordered
    cases kept : keep x with
    | true => rw [List.takeWhile_cons_of_pos kept,List.filter_cons_of_pos kept,ih later]
    | false =>
      have none : rest.filter keep = [] := by
        refine List.filter_eq_nil_iff.mpr (fun y member held => ?_)
        exact Bool.false_ne_true (kept.symm.trans (down x y (first y member) held))
      rw [List.takeWhile_cons_of_neg (by simp [kept]),List.filter_cons_of_neg (by simp [kept]),none]

theorem sortByKeyMapped {β K : Type*} [LinearOrder K] {key : α → K} {key' : β → K} (f : α → β) (xs : List α)
    (same : ∀ x ∈ xs, key' (f x) = key x) : sortByKey key' (xs.map f) = (sortByKey key xs).map f := by
  unfold sortByKey
  refine (List.map_insertionSort _ _ f xs (fun a left b right => ?_)).symm
  rw [same a left,same b right]

theorem takeEnoughScaled {β : Type*} {weight : α → Nat} {weight' : β → Nat} {scale : Nat} (positive : 0 < scale)
    (f : α → β) (same : ∀ x ∈ xs, weight' (f x) = scale * weight x) (needed taken : Nat) :
    takeEnough weight' (scale * needed) (scale * taken) (xs.map f) = (takeEnough weight needed taken xs).map f := by
  induction xs generalizing taken with
  | nil => rfl
  | cons x rest ih =>
    have here := same x List.mem_cons_self
    have later := ih (fun y member => same y (List.mem_cons_of_mem _ member))
    rw [List.map_cons]
    unfold takeEnough
    rw [here,← Nat.mul_add]
    by_cases enough : needed ≤ taken + weight x
    · rw [if_pos enough,if_pos (Nat.mul_le_mul_left _ enough)]
      rfl
    · rw [if_neg enough,if_neg (fun less => enough (Nat.le_of_mul_le_mul_left less positive)),later]
      rfl

theorem takeEnoughMapped {β : Type*} {weight : α → Nat} {weight' : β → Nat} (f : α → β)
    (same : ∀ x ∈ xs, weight x = weight' (f x)) (needed taken : Nat) :
    (takeEnough weight needed taken xs).map f = takeEnough weight' needed taken (xs.map f) := by
  have once (x) (member : x ∈ xs) : weight' (f x) = 1 * weight x := by rw [Nat.one_mul,same x member]
  simpa using (takeEnoughScaled Nat.one_pos f once needed taken).symm

section Taking
variable {K : Type*} [LinearOrder K] {key : α → K} {xs : List α} {x : α}

theorem sortByKeyStrict (distinct : (xs.map key).Nodup) : (sortByKey key xs).Pairwise (fun a b => key a < key b) := by
  have sorted : (sortByKey key xs).Pairwise (fun a b => key a ≤ key b) := List.pairwise_insertionSort _ xs
  have apart : (sortByKey key xs).Pairwise (fun a b => key a ≠ key b) := by
    rw [← List.pairwise_map (R := (· ≠ ·))]
    exact ((sortByKeyPerm key xs).map key).nodup_iff.mpr distinct
  exact (sorted.and apart).imp (fun both => lt_of_le_of_ne both.1 both.2)

theorem sortByKeyUnique {ys : List α} (same : ys.Perm xs) (sorted : ys.Pairwise (fun a b => key a < key b)) :
    sortByKey key xs = ys := by
  have ordered : (sortByKey key xs).Pairwise (fun a b => key a ≤ key b) := List.pairwise_insertionSort _ xs
  have distinct : (xs.map key).Nodup := by
    rw [← (same.map key).nodup_iff]
    exact (List.pairwise_map.mpr sorted).imp ne_of_lt
  refine List.Perm.eq_of_pairwise (fun a b left right below above => ?_) ordered (sorted.imp le_of_lt)
    ((sortByKeyPerm key xs).trans same.symm)
  exact List.inj_on_of_nodup_map distinct ((sortByKeyPerm key xs).mem_iff.mp left) (same.mem_iff.mp right)
    (le_antisymm below above)

theorem takenIff {needed taken : Nat} (weight : α → Nat) (short : taken < needed)
    (sorted : xs.Pairwise (fun a b => key a < key b)) (member : x ∈ xs) :
    x ∈ takeEnough weight needed taken xs ↔ taken + ((xs.filter (fun y => key y < key x)).map weight).sum < needed := by
  induction xs generalizing taken with
  | nil => contradiction
  | cons y rest ih =>
    obtain ⟨first,sorted⟩ := List.pairwise_cons.mp sorted
    rcases List.mem_cons.mp member with same | later
    · subst same
      have none : rest.filter (fun y => key y < key x) = [] :=
        List.filter_eq_nil_iff.mpr (fun z inside => by simpa using (first z inside).le)
      have here : x ∈ takeEnough weight needed taken (x::rest) := by
        unfold takeEnough
        split <;> exact List.mem_cons_self
      simp [here,none,short]
    · have before := first x later
      have other : x ≠ y := fun same => (same ▸ before).ne rfl
      unfold takeEnough
      simp only [List.filter_cons,before,decide_true,if_true,List.map_cons,List.sum_cons]
      split
      · simp [other]
        omega
      · rw [List.mem_cons,or_iff_right other,ih (by omega) sorted later,Nat.add_assoc]

theorem takenSorted {needed : Nat} (weight : α → Nat) (positive : 0 < needed) (distinct : (xs.map key).Nodup)
    (member : x ∈ xs) :
    x ∈ takeEnough weight needed 0 (sortByKey key xs) ↔ ((xs.filter (fun y => key y < key x)).map weight).sum < needed := by
  have order := sortByKeyPerm key xs
  rw [takenIff weight positive (sortByKeyStrict distinct) (order.mem_iff.mpr member),Nat.zero_add,
    ((order.filter _).map weight).sum_eq]

end Taking

def shed (weight : α → Nat) (target : Nat) : List α → List α × List α
  | [] => ([],[])
  | x::rest =>
    if ((x::rest).map weight).sum ≤ target then ([],x::rest)
    else (x::(shed weight target rest).1,(shed weight target rest).2)

section Shedding
variable {weight : α → Nat} {target : Nat} {xs : List α} {last : α}

theorem shedParts (weight : α → Nat) (target : Nat) (xs : List α) :
    (shed weight target xs).1 ++ (shed weight target xs).2 = xs := by
  induction xs with
  | nil => rfl
  | cons x rest ih =>
    unfold shed
    split
    · rfl
    · simp [ih]

theorem shedKept (weight : α → Nat) {target : Nat} {xs : List α} : (shed weight target xs).2 ⊆ xs := fun _ kept =>
  shedParts weight target xs ▸ List.mem_append_right _ kept

theorem shedNone (light : (xs.map weight).sum ≤ target) : shed weight target xs = ([],xs) := by
  cases xs with
  | nil => rfl
  | cons x rest =>
    unfold shed
    rw [if_pos light]

theorem shedWithin (weight : α → Nat) (target : Nat) (xs : List α) :
    ((shed weight target xs).2.map weight).sum ≤ target := by
  induction xs with
  | nil => simp [shed]
  | cons x rest ih =>
    unfold shed
    split
    · assumption
    · exact ih

theorem shedEnough {needed taken : Nat} (short : taken < needed) (xs : List α)
    (exact_ : taken + (xs.map weight).sum = target + needed) :
    takeEnough weight needed taken xs = (shed weight target xs).1 := by
  induction xs generalizing taken with
  | nil => rfl
  | cons x rest ih =>
    rw [List.map_cons,List.sum_cons] at exact_
    have heavy : ¬((x::rest).map weight).sum ≤ target := by
      rw [List.map_cons,List.sum_cons]
      omega
    unfold takeEnough shed
    rw [if_neg heavy]
    split
    · rw [shedNone (by omega)]
    · rw [ih (by omega) (by omega)]

theorem shedRest [DecidableEq α] (weight : α → Nat) (target : Nat) (distinct : xs.Nodup) :
    xs.filter (· ∉ (shed weight target xs).1) = (shed weight target xs).2 := by
  have parts := shedParts weight target xs
  rw [← parts,List.nodup_append] at distinct
  have gone : (shed weight target xs).1.filter (· ∉ (shed weight target xs).1) = [] := by simp
  have kept : (shed weight target xs).2.filter (· ∉ (shed weight target xs).1) = (shed weight target xs).2 :=
    List.filter_eq_self.mpr (fun x member => by simpa using fun early => distinct.2.2 x early x member rfl)
  calc xs.filter (· ∉ (shed weight target xs).1)
      = ((shed weight target xs).1 ++ (shed weight target xs).2).filter (· ∉ (shed weight target xs).1) := by rw [parts]
    _ = (shed weight target xs).2 := by rw [List.filter_append,gone,kept,List.nil_append]

theorem shedLast (fits : weight last ≤ target) (xs : List α) :
    ∃ kept, (shed weight target (xs ++ [last])).2 = kept ++ [last] := by
  induction xs with
  | nil =>
    rw [List.nil_append,shedNone (by simpa using fits)]
    exact ⟨[],rfl⟩
  | cons first rest ih =>
    rw [List.cons_append]
    unfold shed
    split
    · exact ⟨first::rest,rfl⟩
    · exact ih

theorem shedShortest {taken rest : List α} (light : (rest.map weight).sum ≤ target)
    (shortest : ∀ i < taken.length, target < ((taken.drop i ++ rest).map weight).sum) :
    shed weight target (taken ++ rest) = (taken,rest) := by
  induction taken with
  | nil => exact shedNone light
  | cons x taken ih =>
    have heavy := shortest 0 (Nat.zero_lt_succ _)
    rw [List.drop_zero] at heavy
    have later := ih (fun i inside => shortest (i + 1) (Nat.succ_lt_succ inside))
    rw [List.cons_append] at heavy ⊢
    rw [shed,if_neg (Nat.not_le.mpr heavy),later]

theorem shedNamed {β : Type*} {name : α → β} {weight' : β → Nat} (same : ∀ x ∈ xs, weight' (name x) = weight x) :
    shed weight' target (xs.map name) = ((shed weight target xs).1.map name,(shed weight target xs).2.map name) := by
  induction xs with
  | nil => rfl
  | cons x rest ih =>
    have later := ih (fun y member => same y (List.mem_cons_of_mem _ member))
    have sum : (((x::rest).map name).map weight').sum = ((x::rest).map weight).sum := by
      rw [List.map_map]
      exact congrArg List.sum (List.map_congr_left same)
    rw [List.map_cons] at sum ⊢
    unfold shed
    rw [sum,later]
    split <;> rfl

end Shedding

end RunnelMoe.Vectors
