import Mathlib.Order.Basic
import Mathlib.Tactic.Common

/-! Unsigned 64-bit arithmetic on natural numbers. The checked, saturating and
wrapping operators are separate functions, as they are in a systems language.
A wrapping result equals the mathematical one exactly when nothing overflows;
the two lemmas that say so are the only places where the modulus is unfolded. -/
namespace RunnelMoe.Words

def modulus : Nat := 18446744073709551616
def maxWord : Nat := 18446744073709551615

def checkedAdd (a b : Nat) : Option Nat := if a + b < modulus then some (a + b) else none
def checkedSub (a b : Nat) : Option Nat := if b ≤ a then some (a - b) else none
def checkedMul (a b : Nat) : Option Nat := if a * b < modulus then some (a * b) else none
def saturatingAdd (a b : Nat) : Nat := min (a + b) maxWord
def wideModulus : Nat := 340282366920938463463374607431768211456
def checkedWideAdd (a b : Nat) : Option Nat := if a + b < wideModulus then some (a + b) else none
def checkedWideMul (a b : Nat) : Option Nat := if a * b < wideModulus then some (a * b) else none
-- On words, these are the operations modulo 2^64.
def wrappingAdd (a b : Nat) : Nat := if a + b < modulus then a + b else a + b - modulus
def wrappingSub (a b : Nat) : Nat := if b ≤ a then a - b else a + modulus - b

theorem checkedAddSome {a b c} : checkedAdd a b = some c ↔ a + b < modulus ∧ c = a + b := by
  unfold checkedAdd
  split
  · simp_all [eq_comm]
  · simp; omega

theorem checkedAddNone {a b} : checkedAdd a b = none ↔ modulus ≤ a + b := by
  unfold checkedAdd
  split <;> simp_all

theorem checkedSubSome {a b c} : checkedSub a b = some c ↔ b ≤ a ∧ c = a - b := by
  unfold checkedSub
  split
  · simp_all [eq_comm]
  · simp; omega

theorem checkedMulSome {a b c} : checkedMul a b = some c ↔ a * b < modulus ∧ c = a * b := by
  unfold checkedMul
  split
  · simp_all [eq_comm]
  · simp; omega

theorem wrappingAddExact {a b} (fits : a + b < modulus) : wrappingAdd a b = a + b := if_pos fits

theorem wrappingSubExact {a b} (below : b ≤ a) : wrappingSub a b = a - b := if_pos below

theorem saturatingAddExact {a b} (fits : a + b < modulus) : saturatingAdd a b = a + b := by
  unfold saturatingAdd maxWord
  unfold modulus at fits
  omega

def debugChar (c : Char) : String :=
  let code := c.toNat
  if code = 0 then "\\0"
  else if code = 9 then "\\t"
  else if code = 10 then "\\n"
  else if code = 13 then "\\r"
  else if code = 34 then "\\\""
  else if code = 92 then "\\\\"
  else if code < 32 ∨ 127 ≤ code ∧ code < 160 then "\\u\x7b" ++ String.ofList (Nat.toDigits 16 code) ++ "\x7d"
  else String.singleton c

def debugString (value : String) : String := "\"" ++ String.join (value.toList.map debugChar) ++ "\""

end RunnelMoe.Words
