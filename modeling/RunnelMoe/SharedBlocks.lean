import Mathlib.Algebra.BigOperators.Group.Finset.Basic
import Mathlib.Algebra.GroupWithZero.Nat

/-! Names that share what they name. Each name leads to an inode and each inode has a
size, which is charged once however many names lead to it. When the names of a plan are
removed one after another, the blocks of an inode are freed by the last of its names in
the plan, and never if a name that is kept leads to it too. -/
namespace RunnelMoe.SharedBlocks

variable {N I : Type*} [DecidableEq N] [DecidableEq I] (inode : N → I) (size : I → Nat)

def charged (names : Finset N) : Nat := ∑ i ∈ names.image inode, size i

def frees (kept : I → Prop) [DecidablePred kept] : List N → List Nat
  | [] => []
  | name::rest =>
    (if kept (inode name) ∨ ∃ later ∈ rest, inode later = inode name then 0 else size (inode name))::frees kept rest

variable {names : Finset N}

theorem chargedErase {name : N} (member : name ∈ names) :
    (if inode name ∈ (names.erase name).image inode then 0 else size (inode name)) + charged inode size (names.erase name) =
      charged inode size names := by
  have split : names.image inode = insert (inode name) ((names.erase name).image inode) := by
    rw [← Finset.image_insert,Finset.insert_erase member]
  rw [charged,charged,split]
  by_cases shared : inode name ∈ (names.erase name).image inode
  · rw [if_pos shared,Finset.insert_eq_self.mpr shared,Nat.zero_add]
  · rw [if_neg shared,Finset.sum_insert shared]

/- The kept inodes are those of the names outside of the plan. After a part of the plan has
been removed, an inode is still named by a kept name or by a later name of the plan. -/
theorem freesExact {kept : I → Prop} [DecidablePred kept] {plan : List N} (distinct : plan.Nodup)
    (inside : ∀ name ∈ plan, name ∈ names) (others : ∀ i, kept i ↔ ∃ name ∈ names, name ∉ plan ∧ inode name = i) (k : Nat) :
    ((frees inode size kept plan).take k).sum + charged inode size (names \ (plan.take k).toFinset) =
      charged inode size names := by
  induction plan generalizing names k with
  | nil => simp [frees]
  | cons name rest ih =>
    cases k with
    | zero => simp
    | succ k =>
      obtain ⟨fresh,distinct⟩ := List.nodup_cons.mp distinct
      have here : name ∈ names := inside name List.mem_cons_self
      have later : ∀ other ∈ rest, other ∈ names.erase name := fun other member =>
        Finset.mem_erase.mpr ⟨fun same => fresh (same ▸ member),inside other (List.mem_cons_of_mem _ member)⟩
      have shared : (kept (inode name) ∨ ∃ later ∈ rest, inode later = inode name) ↔
          inode name ∈ (names.erase name).image inode := by
        rw [others,Finset.mem_image]
        constructor
        · rintro (⟨other,member,outside,same⟩ | ⟨other,member,same⟩)
          · exact ⟨other,Finset.mem_erase.mpr ⟨fun equal => outside (equal ▸ List.mem_cons_self),member⟩,same⟩
          · exact ⟨other,later other member,same⟩
        · rintro ⟨other,member,same⟩
          obtain ⟨apart,member⟩ := Finset.mem_erase.mp member
          by_cases planned : other ∈ rest
          · exact .inr ⟨other,planned,same⟩
          · exact .inl ⟨other,member,fun among => (List.mem_cons.mp among).elim apart planned,same⟩
      have others (i : I) : kept i ↔ ∃ other ∈ names.erase name, other ∉ rest ∧ inode other = i := by
        rw [others]
        simp only [Finset.mem_erase,List.mem_cons,not_or]
        constructor
        · rintro ⟨other,member,⟨apart,outside⟩,same⟩
          exact ⟨other,⟨apart,member⟩,outside,same⟩
        · rintro ⟨other,⟨apart,member⟩,outside,same⟩
          exact ⟨other,member,⟨apart,outside⟩,same⟩
      have left : names \ ((name::rest).take (k + 1)).toFinset = names.erase name \ (rest.take k).toFinset := by
        rw [List.take_succ_cons,List.toFinset_cons,Finset.sdiff_insert,Finset.erase_sdiff_comm]
      have tail := ih distinct later others k
      have head := chargedErase inode size here
      simp only [← shared] at head
      rw [left,frees,List.take_succ_cons,List.sum_cons]
      omega

end RunnelMoe.SharedBlocks
