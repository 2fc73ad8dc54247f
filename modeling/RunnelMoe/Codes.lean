import Mathlib.Algebra.GroupWithZero.Nat
import Mathlib.Data.List.Basic
import Mathlib.Data.List.Chain
import Mathlib.Tactic.Common

/-! Codes that show where they end. The code of a value is delimited when it can be
cut off the front of any longer list, so that delimited codes may follow one another
without a separator. Words of a fixed width are delimited, and so is a list of
delimited codes after a word that counts them. -/
namespace RunnelMoe.Codes

variable {A B : Type*}

def Delimited (domain : A → Prop) (encode : A → List B) : Prop :=
  ∀ a b, domain a → domain b → ∀ u v, encode a ++ u = encode b ++ v → a = b ∧ u = v

theorem fixedDelimited {domain : A → Prop} {encode : A → List B} {width : Nat}
    (lengths : ∀ a, (encode a).length = width)
    (injective : ∀ a b, domain a → domain b → encode a = encode b → a = b) : Delimited domain encode := by
  intro a b left right u v same
  obtain ⟨codes,rest⟩ := List.append_inj same ((lengths a).trans (lengths b).symm)
  exact ⟨injective a b left right codes,rest⟩

def littleEndian : Nat → Nat → List UInt8
  | 0, _ => []
  | width + 1, n => (n % 256).toUInt8 :: littleEndian width (n / 256)

theorem littleEndianLength (width n : Nat) : (littleEndian width n).length = width := by
  induction width generalizing n with
  | zero => rfl
  | succ width ih => rw [littleEndian,List.length_cons,ih]

theorem littleEndianSame {width n m : Nat} :
    littleEndian width n = littleEndian width m ↔ n % 256 ^ width = m % 256 ^ width := by
  induction width generalizing n m with
  | zero => simp [littleEndian,Nat.mod_one]
  | succ width ih =>
    have byte : (n % 256).toUInt8 = (m % 256).toUInt8 ↔ n % 256 = m % 256 := by
      rw [← UInt8.toNat_inj,UInt8.toNat_ofNat',UInt8.toNat_ofNat']
      simp
    rw [littleEndian,littleEndian,List.cons.injEq,ih,byte,Nat.pow_succ',Nat.mod_mul,Nat.mod_mul]
    have first := Nat.mod_lt n (show 0 < 256 by decide)
    have second := Nat.mod_lt m (show 0 < 256 by decide)
    omega

theorem wordDelimited (width : Nat) : Delimited (· < 256 ^ width) (littleEndian width) := by
  refine fixedDelimited (littleEndianLength width) (fun n m small small' same => ?_)
  have values := littleEndianSame.mp same
  rwa [Nat.mod_eq_of_lt small,Nat.mod_eq_of_lt small'] at values

def counted (width : Nat) (encode : A → List UInt8) (items : List A) : List UInt8 :=
  littleEndian width items.length ++ items.flatMap encode

section Lists
variable {domain : A → Prop}

theorem sameLengthDelimited {encode : A → List B} (each : Delimited domain encode) {xs ys : List A}
    (length : xs.length = ys.length) (left : ∀ x ∈ xs, domain x) (right : ∀ y ∈ ys, domain y) {u v : List B}
    (same : xs.flatMap encode ++ u = ys.flatMap encode ++ v) : xs = ys ∧ u = v := by
  induction xs generalizing ys with
  | nil =>
    cases List.eq_nil_of_length_eq_zero length.symm
    exact ⟨rfl,same⟩
  | cons x xs ih =>
    cases ys with
    | nil => contradiction
    | cons y ys =>
      rw [List.flatMap_cons,List.flatMap_cons,List.append_assoc,List.append_assoc] at same
      obtain ⟨rfl,rest⟩ := each x y (left x List.mem_cons_self) (right y List.mem_cons_self) _ _ same
      obtain ⟨rfl,tail⟩ := ih (Nat.succ.inj length) (fun z member => left z (List.mem_cons_of_mem _ member))
        (fun z member => right z (List.mem_cons_of_mem _ member)) rest
      exact ⟨rfl,tail⟩

theorem countedDelimited {encode : A → List UInt8} (each : Delimited domain encode) (width : Nat) :
    Delimited (fun items : List A => items.length < 256 ^ width ∧ ∀ x ∈ items, domain x) (counted width encode) := by
  intro xs ys left right u v same
  rw [counted,counted,List.append_assoc,List.append_assoc] at same
  obtain ⟨length,rest⟩ := wordDelimited width _ _ left.1 right.1 _ _ same
  exact sameLengthDelimited each length left.2 right.2 rest

theorem joinedInjective {encode : A → List B} (each : Delimited domain encode) (some_ : ∀ a, encode a ≠ []) {xs ys : List A}
    (left : ∀ x ∈ xs, domain x) (right : ∀ y ∈ ys, domain y) (same : xs.flatMap encode = ys.flatMap encode) : xs = ys := by
  induction xs generalizing ys with
  | nil =>
    cases ys with
    | nil => rfl
    | cons y ys => exact absurd (List.append_eq_nil_iff.mp same.symm).1 (some_ y)
  | cons x xs ih =>
    cases ys with
    | nil => exact absurd (List.append_eq_nil_iff.mp same).1 (some_ x)
    | cons y ys =>
      rw [List.flatMap_cons,List.flatMap_cons] at same
      obtain ⟨rfl,rest⟩ := each x y (left x List.mem_cons_self) (right y List.mem_cons_self) _ _ same
      rw [ih (fun z member => left z (List.mem_cons_of_mem _ member))
        (fun z member => right z (List.mem_cons_of_mem _ member)) rest]

end Lists

def Follows (a b : Nat) : Prop := b = a ∨ b = a + 1

theorem followsExact {n a b limit : Nat} (wide : 1 < limit) (left : Follows n a) (right : Follows n b)
    (same : a % limit = b % limit) : a = b := by
  have one (m : Nat) : m % limit ≠ (m + 1) % limit := by
    intro equal
    have apart := Nat.sub_mod_eq_zero_of_mod_eq equal.symm
    rw [Nat.add_sub_cancel_left,Nat.mod_eq_of_lt wide] at apart
    contradiction
  rcases left with rfl | rfl <;> rcases right with rfl | rfl
  · rfl
  · exact absurd same (one _)
  · exact absurd same.symm (one _)
  · rfl

end RunnelMoe.Codes
