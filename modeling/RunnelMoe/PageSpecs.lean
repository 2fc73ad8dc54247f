import Mathlib.Data.Prod.Lex
import Mathlib.Data.List.Lex
import RunnelMoe.StoreErrors
import RunnelMoe.Words

/-! Identity of a logical page, its immutable specification and the page value
that the reader hands out after verification. A specification carries the u64
range of its length; the retained object handle is read by the reader only and
has no field here. The capacity of a verified page is that of its byte vector. -/
namespace RunnelMoe.PageSpecs
open StoreErrors Words

instance : LinearOrder Digest :=
  LinearOrder.lift' (fun d => d.bytes.map UInt8.toNat) (by
    intro a b same
    cases a; cases b
    simpa using List.map_injective_iff.mpr (fun _ _ => UInt8.toNat_inj.mp) same)

structure PageKey where
  object : Digest
  pageSize : Nat
  index : Nat
  deriving DecidableEq, Repr

-- The derived order of the source: object first, then page size, then index.
instance : LinearOrder PageKey :=
  LinearOrder.lift' (fun k => toLex (k.object,toLex (k.pageSize,k.index))) (by
    intro a b same
    cases a; cases b
    simp only [EmbeddingLike.apply_eq_iff_eq,Prod.mk.injEq] at same
    simp [same.1,same.2.1,same.2.2])

instance keyTransOrd : Std.TransOrd PageKey := inferInstance

structure PageSpec where
  key : PageKey
  offset : Nat
  length : Nat
  fingerprint : Digest
  lengthFits : length < modulus
  deriving DecidableEq, Repr

structure VerifiedPage where
  key : PageKey
  bytes : List UInt8
  capacity : Nat
  deriving DecidableEq, Repr

structure ReadStats where
  physicalBytes : Nat
  ioNanoseconds : Nat
  deriving DecidableEq, Repr

def pageBufferAlignment : Nat := 64

def alignedPageBufferBytes (length : Nat) : Except StoreError Nat :=
  if length = 0 then .ok 0
  else match checkedAdd length (pageBufferAlignment - 1) with
    | some value => .ok (value / pageBufferAlignment * pageBufferAlignment)
    | none => .error (.arithmeticOverflow "aligning a page-buffer allocation")

def PageSpec.allocationBytes (spec : PageSpec) : Except StoreError Nat :=
  alignedPageBufferBytes spec.length

theorem alignedExact {length allocation} (ok : alignedPageBufferBytes length = .ok allocation) :
    length ≤ allocation ∧ allocation < length + 64 ∧ 64 ∣ allocation ∧ allocation < modulus := by
  unfold alignedPageBufferBytes at ok
  split at ok
  · cases ok
    simp_all [modulus]
  · split at ok
    · rename_i value added
      obtain ⟨fits,rfl⟩ := checkedAddSome.mp added
      cases ok
      simp only [pageBufferAlignment] at fits ⊢
      exact ⟨by omega,by omega,Nat.dvd_mul_left 64 _,by omega⟩
    · cases ok

example : alignedPageBufferBytes 17 = .ok 64 := by decide

end RunnelMoe.PageSpecs
