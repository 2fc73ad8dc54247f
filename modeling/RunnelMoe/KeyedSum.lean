import Mathlib.Algebra.BigOperators.Group.List.Basic
import Mathlib.Algebra.GroupWithZero.Nat
import Mathlib.Order.Compare
import Mathlib.Tactic.Common

/-! Totals over a finite map with ordered keys. The map is the extensional tree
map of the standard library, so two maps with equal lookups are equal and the
iteration order is the key order. Every update of a map touches one key; the
split and insert lemmas turn such an update into arithmetic on one summand. -/
namespace RunnelMoe.KeyedSum
open Std (ExtTreeMap)

variable {K V M : Type*} [LinearOrder K]

instance lawfulEqOrd : Std.LawfulEqOrd K := ⟨compare_eq_iff_eq.mp⟩

section Lookup
variable (m : ExtTreeMap K V) (k : K)

theorem getInsert (a : K) (v : V) : (m.insert k v)[a]? = if a = k then some v else m[a]? := by
  rw [ExtTreeMap.getElem?_insert]
  simp only [compare_eq_iff_eq,@eq_comm K k a]

theorem getErase (a : K) : (m.erase k)[a]? = if a = k then none else m[a]? := by
  rw [ExtTreeMap.getElem?_erase]
  simp only [compare_eq_iff_eq,@eq_comm K k a]

theorem getInsertSame (v : V) : (m.insert k v)[k]? = some v := by simp

theorem getInsertOther {a : K} (other : a ≠ k) (v : V) : (m.insert k v)[a]? = m[a]? := by
  simp [getInsert,other]

theorem getEraseSame : (m.erase k)[k]? = none := by simp

theorem getEraseOther {a : K} (other : a ≠ k) : (m.erase k)[a]? = m[a]? := by
  simp [getErase,other]

theorem insertErase (v : V) : (m.erase k).insert k v = m.insert k v := by
  apply ExtTreeMap.ext_getElem?
  intro a
  simp only [getInsert,getErase]
  split <;> rfl

theorem insertInsert (v w : V) : (m.insert k v).insert k w = m.insert k w := by
  apply ExtTreeMap.ext_getElem?
  intro a
  simp only [getInsert]
  split <;> rfl

theorem eraseInsert (v : V) : (m.insert k v).erase k = m.erase k := by
  apply ExtTreeMap.ext_getElem?
  intro a
  simp only [getInsert,getErase]
  split <;> rfl

variable {m k}

theorem eraseAbsent (absent : m[k]? = none) : m.erase k = m := by
  apply ExtTreeMap.ext_getElem?
  intro a
  rw [getErase]
  split
  · subst a; exact absent.symm
  · rfl

variable {v : V} {P : K → V → Prop}

theorem insertPresent (present : m[k]? = some v) : m.insert k v = m := by
  apply ExtTreeMap.ext_getElem?
  intro a
  rw [getInsert]
  split
  · subst a; exact present.symm
  · rfl

def Every (m : ExtTreeMap K V) (P : K → V → Prop) : Prop := ∀ k v, m[k]? = some v → P k v

/- A condition on every row survives an update of one key when the new row meets
it; the old row under that key is not looked at. -/
theorem everyInsertOther (others : ∀ a b, a ≠ k → m[a]? = some b → P a b)
    (new : P k v) : Every (m.insert k v) P := by
  intro a b found
  rw [getInsert] at found
  split at found
  · subst a; cases Option.some.inj found; exact new
  · rename_i other; exact others a b other found

theorem everyEraseOther (others : ∀ a b, a ≠ k → m[a]? = some b → P a b) :
    Every (m.erase k) P := by
  intro a b found
  rw [getErase] at found
  split at found
  · contradiction
  · rename_i other; exact others a b other found

theorem everyInsert (every : Every m P) (new : P k v) : Every (m.insert k v) P :=
  everyInsertOther (fun a b _ => every a b) new

theorem everyErase (every : Every m P) : Every (m.erase k) P :=
  everyEraseOther (fun a b _ => every a b)

theorem everyEmpty (P : K → V → Prop) : Every (∅ : ExtTreeMap K V) P := by
  intro a b found
  simp at found

end Lookup

section Total
variable [AddCommMonoid M]

def total (weight : K → V → M) (m : ExtTreeMap K V) : M :=
  (m.toList.map (fun p => weight p.1 p.2)).sum

theorem toListNodup (m : ExtTreeMap K V) : m.toList.Nodup := by
  refine (ExtTreeMap.distinct_keys_toList (t := m)).imp ?_
  intro a b different same
  exact different (by rw [same]; exact compare_eq_iff_eq.mpr rfl)

theorem keysNodup (m : ExtTreeMap K V) : (m.toList.map Prod.fst).Nodup := by
  rw [List.Nodup,List.pairwise_map]
  refine (ExtTreeMap.distinct_keys_toList (t := m)).imp ?_
  intro a b different same
  exact different (compare_eq_iff_eq.mpr same)

variable {m : ExtTreeMap K V}

theorem memToList {k v} : (k,v) ∈ m.toList ↔ m[k]? = some v :=
  ExtTreeMap.mem_toList_iff_getElem?_eq_some

theorem toListInsert (m : ExtTreeMap K V) (k : K) (v : V) :
    (m.insert k v).toList.Perm ((k,v) :: (m.erase k).toList) := by
  have fresh : (k,v) ∉ (m.erase k).toList := by simp
  refine (List.perm_ext_iff_of_nodup (toListNodup _) (List.nodup_cons.mpr ⟨fresh,toListNodup _⟩)).mpr ?_
  rintro ⟨a,b⟩
  by_cases same : a = k
  · subst a
    simp [eq_comm]
  · simp [getInsert,getErase,same]

theorem totalEmpty (weight : K → V → M) : total weight (∅ : ExtTreeMap K V) = 0 := by
  have empty : (∅ : ExtTreeMap K V).toList = [] := ExtTreeMap.toList_eq_nil_iff.mpr rfl
  simp [total,empty]

theorem totalInsert (weight : K → V → M) (m : ExtTreeMap K V) (k : K) (v : V) :
    total weight (m.insert k v) = weight k v + total weight (m.erase k) := by
  simpa [total] using ((toListInsert m k v).map (fun p => weight p.1 p.2)).sum_eq

theorem totalSplit (weight : K → V → M) {k v} (present : m[k]? = some v) :
    total weight m = weight k v + total weight (m.erase k) := by
  have same := totalInsert weight m k v
  rwa [insertPresent present] at same

theorem totalAbsent (weight : K → V → M) {k} (absent : m[k]? = none) :
    total weight (m.erase k) = total weight m := by rw [eraseAbsent absent]

theorem sizeTotal (m : ExtTreeMap K V) : m.size = total (fun _ _ => 1) m := by
  simp [total]

theorem sizeInsert (m : ExtTreeMap K V) (k : K) (v : V) : (m.insert k v).size = 1 + (m.erase k).size := by
  simp only [sizeTotal,totalInsert]

theorem sizeSplit {k v} (present : m[k]? = some v) : m.size = 1 + (m.erase k).size := by
  simp only [sizeTotal]
  exact totalSplit _ present

end Total

section NatTotal
variable {weight other : K → V → Nat} {m : ExtTreeMap K V}

theorem totalZero : total weight m = 0 ↔ ∀ k v, m[k]? = some v → weight k v = 0 := by
  simp only [total,List.sum_eq_zero_iff_forall_eq_nat,List.mem_map,Prod.exists,memToList]
  constructor
  · intro h k v present; exact h _ ⟨k,v,present,rfl⟩
  · rintro h _ ⟨k,v,present,rfl⟩; exact h k v present

theorem totalCongr (same : ∀ k v, m[k]? = some v → weight k v = other k v) :
    total weight m = total other m := by
  unfold total
  congr 1
  apply List.map_congr_left
  rintro ⟨k,v⟩ member
  exact same k v (memToList.mp member)

theorem totalProjected {W : Type*} (project : V → W) (weigh : K → W → Nat) {m' : ExtTreeMap K V}
    (same : ∀ k : K, m'[k]?.map project = m[k]?.map project) :
    total (fun k v => weigh k (project v)) m' = total (fun k v => weigh k (project v)) m := by
  have mapped (n : ExtTreeMap K V) :
      total (fun k v => weigh k (project v)) n = total weigh (n.map (fun _ v => project v)) := by
    simp [total,ExtTreeMap.toList_map,Function.comp_def]
  have equal : m'.map (fun _ v => project v) = m.map (fun _ v => project v) := by
    apply ExtTreeMap.ext_getElem?
    intro k
    simpa using same k
  rw [mapped,mapped,equal]

theorem totalAdd : total (fun k v => weight k v + other k v) m = total weight m + total other m := by
  simp [total,List.sum_map_add]

end NatTotal

section Rows
variable {weight : K → V → Nat}

theorem erasedAll (rows : List (K × V)) (m : ExtTreeMap K V) (a : K) :
    (rows.foldl (fun m row => m.erase row.1) m)[a]? = if a ∈ rows.map Prod.fst then none else m[a]? := by
  induction rows generalizing m with
  | nil => rfl
  | cons row rest ih =>
    rw [List.foldl_cons,ih,getErase]
    by_cases here : a = row.1 <;> by_cases later : a ∈ rest.map Prod.fst <;> simp_all

theorem totalErasedAll {rows : List (K × V)} {m : ExtTreeMap K V} (distinct : (rows.map Prod.fst).Nodup)
    (present : ∀ row ∈ rows, m[row.1]? = some row.2) :
    total weight (rows.foldl (fun m row => m.erase row.1) m) + (rows.map (fun row => weight row.1 row.2)).sum =
      total weight m := by
  induction rows generalizing m with
  | nil => rfl
  | cons row rest ih =>
    obtain ⟨fresh,distinct⟩ := List.nodup_cons.mp distinct
    have here := totalSplit weight (present row List.mem_cons_self)
    have later := ih (m := m.erase row.1) distinct (fun other member => by
      have different : other.1 ≠ row.1 := fun same => fresh (same ▸ List.mem_map_of_mem member)
      rw [getEraseOther _ _ different]
      exact present other (List.mem_cons_of_mem _ member))
    rw [List.foldl_cons,List.map_cons,List.sum_cons]
    omega

theorem sizeInsertedAll {A : Type*} (key : A → K) (value : A → V) {items : List A} {m : ExtTreeMap K V}
    (distinct : (items.map key).Nodup) (fresh : ∀ a ∈ items, m[key a]? = none) :
    (items.foldl (fun m a => m.insert (key a) (value a)) m).size = m.size + items.length := by
  induction items generalizing m with
  | nil => rfl
  | cons a rest ih =>
    obtain ⟨unseen,distinct⟩ := List.nodup_cons.mp distinct
    have size : (m.insert (key a) (value a)).size = 1 + m.size := by
      rw [sizeInsert,eraseAbsent (fresh a List.mem_cons_self)]
    rw [List.foldl_cons,ih distinct (fun b member => ?_),size,List.length_cons]
    · omega
    · have different : key b ≠ key a := fun same => unseen (same ▸ List.mem_map_of_mem member)
      rw [getInsertOther _ _ different]
      exact fresh b (List.mem_cons_of_mem _ member)

end Rows
end RunnelMoe.KeyedSum
