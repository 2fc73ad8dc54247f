import Mathlib.Data.List.Basic
import Mathlib.Data.Nat.Digits.Defs
import Mathlib.Tactic.Common
import Mathlib.Tactic.IntervalCases
import RunnelMoe.Results

/-! Reading values out of bytes. A reader takes the bytes that are left and gives a
value with those it did not use. Numbers are written in decimal, nibbles in lower-case
hexadecimal, and a series is a list of items between commas up to a closing byte. -/
namespace RunnelMoe.Readers
open Results

abbrev Bytes := List UInt8
abbrev Reader (F A : Type) := Bytes → Except F (A × Bytes)

theorem bytesTotal (a b : Bytes) : a < b ∨ a = b ∨ b < a := by
  have total : Std.Trichotomous (fun x y : Bytes => x < y) := inferInstance
  exact total.rel_or_eq_or_rel_swap

def blank (b : UInt8) : Bool := b = 32 || b = 9 || b = 10 || b = 13

def skipSpace : Bytes → Bytes
  | [] => []
  | b::rest => if blank b then skipSpace rest else b::rest

theorem skipSolid {b : UInt8} (solid : blank b = false) (rest : Bytes) : skipSpace (b::rest) = b::rest := by
  simp [skipSpace,solid]

def isDigit (b : UInt8) : Bool := 48 ≤ b && b ≤ 57

def decimal (n : Nat) : Bytes := (Nat.toDigits 10 n).map (fun c => c.toNat.toUInt8)

def digits (soFar : Nat) : Bytes → Nat × Bytes
  | [] => (soFar,[])
  | b::rest => if isDigit b then digits (soFar * 10 + (b.toNat - 48)) rest else (soFar,b::rest)

def Stops (more : UInt8 → Bool) (rest : Bytes) : Prop := ∀ b ∈ rest.head?, more b = false

theorem digitByte {c : Char} (digit : c.isDigit = true) :
    (c.toNat.toUInt8).toNat = c.toNat ∧ isDigit c.toNat.toUInt8 = true := by
  have small : 48 ≤ c.toNat ∧ c.toNat ≤ 57 := by
    simp only [Char.isDigit,Bool.and_eq_true,decide_eq_true_eq] at digit
    exact ⟨UInt32.le_iff_toNat_le.mp digit.1,UInt32.le_iff_toNat_le.mp digit.2⟩
  have value : (c.toNat.toUInt8).toNat = c.toNat := by
    rw [UInt8.toNat_ofNat']
    omega
  refine ⟨value,?_⟩
  simp only [isDigit,Bool.and_eq_true,decide_eq_true_eq,UInt8.le_iff_toNat_le,value]
  exact small

theorem digitsOfChars (chars : List Char) (all : ∀ c ∈ chars, c.isDigit) (soFar : Nat) {rest : Bytes}
    (stops : Stops isDigit rest) :
    digits soFar (chars.map (fun c => c.toNat.toUInt8) ++ rest) = (Nat.ofDigitChars 10 chars soFar,rest) := by
  induction chars generalizing soFar with
  | nil =>
    cases rest with
    | nil => rfl
    | cons b rest =>
      have stop := stops b rfl
      simp [digits,stop]
  | cons c chars ih =>
    obtain ⟨value,digit⟩ := digitByte (all c List.mem_cons_self)
    rw [List.map_cons,List.cons_append,digits,if_pos digit,ih (fun d member => all d (List.mem_cons_of_mem _ member)),
      Nat.ofDigitChars_cons,value,Nat.mul_comm]
    rfl

theorem decimalChars (n : Nat) : ∀ c ∈ Nat.toDigits 10 n, c.isDigit :=
  fun _ member => Nat.isDigit_of_mem_toDigits (by decide) (by decide) member

theorem decimalDigits (n : Nat) : ∀ b ∈ decimal n, isDigit b = true := by
  intro b member
  obtain ⟨c,listed,rfl⟩ := List.mem_map.mp member
  exact (digitByte (decimalChars n c listed)).2

theorem digitsDecimal (n : Nat) {rest : Bytes} (stops : Stops isDigit rest) : digits 0 (decimal n ++ rest) = (n,rest) := by
  rw [decimal,digitsOfChars _ (decimalChars n) 0 stops,Nat.ofDigitChars_ten_toDigits]

theorem decimalHead (n : Nat) :
    ∃ b rest, decimal n = b::rest ∧ isDigit b = true ∧ (b = 48 → n = 0) ∧ (n = 0 → rest = []) := by
  induction n using Nat.strongRecOn with
  | ind n ih =>
    by_cases small : n < 10
    · refine ⟨n.digitChar.toNat.toUInt8,[],?_,?_,?_,fun _ => rfl⟩
      · rw [decimal,Nat.toDigits_of_lt_base small]
        rfl
      · interval_cases n <;> decide
      · interval_cases n <;> decide
    · obtain ⟨b,rest,written,digit,zero,-⟩ := ih (n / 10) (by omega)
      refine ⟨b,rest ++ [((n % 10).digitChar).toNat.toUInt8],?_,digit,?_,?_⟩
      · rw [decimal,Nat.toDigits_of_base_le (by decide) (by omega),List.map_append]
        rw [decimal] at written
        rw [written]
        rfl
      · intro first
        have none := zero first
        omega
      · intro none
        omega

def hexDigit (n : Nat) : UInt8 := if n < 10 then (48 + n).toUInt8 else (87 + n).toUInt8

def lowercaseHexValue (b : UInt8) : Option Nat :=
  if 48 ≤ b ∧ b ≤ 57 then some (b.toNat - 48)
  else if 97 ≤ b ∧ b ≤ 102 then some (b.toNat - 87)
  else none

theorem hexRead {n : Nat} (small : n < 16) : lowercaseHexValue (hexDigit n) = some n := by
  interval_cases n <;> rfl

theorem hexWritten {b : UInt8} {n : Nat} (read : lowercaseHexValue b = some n) : n < 16 ∧ hexDigit n = b := by
  unfold lowercaseHexValue at read
  split at read
  · rename_i range
    simp only [UInt8.le_iff_toNat_le] at range
    cases read
    have bounds : 48 ≤ b.toNat ∧ b.toNat ≤ 57 := range
    refine ⟨by omega,?_⟩
    rw [hexDigit,if_pos (by omega),show 48 + (b.toNat - 48) = b.toNat by omega]
    exact UInt8.ofNat_toNat
  · split at read
    · rename_i range
      simp only [UInt8.le_iff_toNat_le] at range
      cases read
      have bounds : 97 ≤ b.toNat ∧ b.toNat ≤ 102 := range
      refine ⟨by omega,?_⟩
      rw [hexDigit,if_neg (by omega),show 87 + (b.toNat - 87) = b.toNat by omega]
      exact UInt8.ofNat_toNat
    · contradiction

def continuation (b : UInt8) : Bool := 128 ≤ b && b ≤ 191

def utf8 : Bytes → Bool
  | [] => true
  | a::rest =>
    if a ≤ 127 then utf8 rest
    else if 194 ≤ a ∧ a ≤ 223 then match rest with
      | b::rest => continuation b && utf8 rest
      | _ => false
    else if 224 ≤ a ∧ a ≤ 239 then match rest with
      | b::c::rest => continuation b && continuation c && (a != 224 || 160 ≤ b) && (a != 237 || b ≤ 159) && utf8 rest
      | _ => false
    else if 240 ≤ a ∧ a ≤ 244 then match rest with
      | b::c::d::rest => continuation b && continuation c && continuation d && (a != 240 || 144 ≤ b) &&
          (a != 244 || b ≤ 143) && utf8 rest
      | _ => false
    else false

def ascii (text : Bytes) : Bool := text.all (fun b => b ≤ 127)

theorem asciiUtf8 {text : Bytes} (plain : ascii text = true) : utf8 text = true := by
  induction text with
  | nil => rfl
  | cons b rest ih =>
    rw [ascii,List.all_cons,Bool.and_eq_true,decide_eq_true_eq] at plain
    unfold utf8
    rw [if_pos plain.1]
    exact ih plain.2

def encodeUtf8 (code : Nat) : Bytes :=
  if code < 128 then [code.toUInt8]
  else if code < 2048 then [(192 + code / 64).toUInt8,(128 + code % 64).toUInt8]
  else if code < 65536 then
    [(224 + code / 4096).toUInt8,(128 + code / 64 % 64).toUInt8,(128 + code % 64).toUInt8]
  else [(240 + code / 262144).toUInt8,(128 + code / 4096 % 64).toUInt8,(128 + code / 64 % 64).toUInt8,
    (128 + code % 64).toUInt8]

inductive Entry where
  | closed (rest : Bytes)
  | item (rest : Bytes)

section Series
variable {F S K I : Type} (broken full : F) (close : UInt8)

def entry (first : Bool) (bytes : Bytes) : Except F Entry :=
  match skipSpace bytes with
  | [] => .error broken
  | b::rest =>
    if b = close then .ok (.closed rest)
    else if first then .ok (.item (b::rest))
    else if b = 44 then match skipSpace rest with
      | [] => .error broken
      | c::more => if c = close then .error broken else .ok (.item (c::more))
    else .error broken

/- An item is read in two parts; the room for it is looked at between them. -/
def series (before : S → Reader F K) (after : S → K → Reader F S) : Nat → Bool → S → Reader F S
  | 0, first, s, bytes => do
    match ← entry broken close first bytes with
    | .closed rest => .ok (s,rest)
    | .item rest => do
      let _ ← before s rest
      .error full
  | room + 1, first, s, bytes => do
    match ← entry broken close first bytes with
    | .closed rest => .ok (s,rest)
    | .item rest => do
      let (k,rest) ← before s rest
      let (s,rest) ← after s k rest
      series before after room false s rest

def listed (first : Bool) : List Bytes → Bytes
  | [] => []
  | text::texts => (if first then text else 44::text) ++ listed false texts

variable {broken full close} {before : S → Reader F K} {after : S → K → Reader F S} {first : Bool} {s : S}

theorem entryClosed (solid : blank close = false) (rest : Bytes) :
    entry broken close first (close::rest) = .ok (.closed rest) := by
  rw [entry,skipSolid solid]
  exact if_pos rfl

theorem entryItem {b : UInt8} {text : Bytes} (solid : blank b = false) (other : b ≠ close) (comma : close ≠ 44) :
    entry broken close first ((if first then b::text else 44::b::text)) = .ok (.item (b::text)) := by
  cases first with
  | true =>
    rw [if_pos rfl,entry,skipSolid solid]
    simp [other]
  | false =>
    have plain : blank 44 = false := by decide
    simp only [entry,Bool.false_eq_true,if_false,skipSolid plain,skipSolid solid]
    rw [if_neg comma.symm]
    simp [other]

theorem seriesInvariant (Inv : S → Prop) {room : Nat} {bytes rest : Bytes} {out : S} (holds : Inv s)
    (preserved : ∀ s k next bytes middle late rest, Inv s → before s bytes = .ok (k,middle) →
      after s k late = .ok (next,rest) → Inv next)
    (ok : series broken full close before after room first s bytes = .ok (out,rest)) : Inv out := by
  induction room generalizing first s bytes with
  | zero =>
    obtain ⟨found,-,last⟩ := bindOk.mp ok
    cases found with
    | closed rest =>
      cases last
      exact holds
    | item rest =>
      obtain ⟨_,-,wrong⟩ := bindOk.mp last
      contradiction
  | succ room ih =>
    obtain ⟨found,-,last⟩ := bindOk.mp ok
    cases found with
    | closed rest =>
      cases last
      exact holds
    | item rest =>
      obtain ⟨left,read,last⟩ := bindOk.mp last
      obtain ⟨right,taken,last⟩ := bindOk.mp last
      exact ih (preserved s left.1 right.1 _ left.2 left.2 right.2 holds read taken) last

-- The induction is on the items; the state that has taken the items so far is what the rest is read with.
theorem seriesListed {text : I → Bytes} {step : S → I → S} (Inv : S → List I → Prop) {items : List I} {room : Nat}
    (solid : blank close = false) (comma : close ≠ 44) (fits : items.length ≤ room) (holds : Inv s items)
    (opens : ∀ i ∈ items, ∃ b more, text i = b::more ∧ blank b = false ∧ b ≠ close)
    (reads : ∀ s i more sep tail, Inv s (i::more) → sep = close ∨ sep = 44 → ∃ k middle,
      before s (text i ++ sep::tail) = .ok (k,middle) ∧ after s k middle = .ok (step s i,sep::tail) ∧
        Inv (step s i) more) (rest : Bytes) :
    series broken full close before after room first s (listed first (items.map text) ++ close::rest) =
      .ok (items.foldl step s,rest) := by
  induction items generalizing room first s with
  | nil => cases room <;> simp [series,listed,entryClosed solid,bind,Except.bind]
  | cons i items ih =>
    cases room with
    | zero => simp at fits
    | succ room =>
      obtain ⟨b,more,shape,plain,other⟩ := opens i List.mem_cons_self
      obtain ⟨sep,tail,separator,follows⟩ : ∃ sep tail, (sep = close ∨ sep = 44) ∧
          listed false (items.map text) ++ close::rest = sep::tail := by
        cases items with
        | nil => exact ⟨close,rest,.inl rfl,rfl⟩
        | cons j items => exact ⟨44,_,.inr rfl,rfl⟩
      obtain ⟨k,middle,left,right,kept⟩ := reads s i items sep tail holds separator
      have later : series broken full close before after room false (step s i) (listed false (items.map text) ++ close::rest) =
          _ := ih (by simpa using fits) kept (fun j member => opens j (List.mem_cons_of_mem _ member))
      rw [follows] at later
      have here : entry broken close first ((if first then text i else 44::text i) ++ sep::tail) =
          .ok (.item (text i ++ sep::tail)) := by
        rw [shape]
        cases first with
        | true => exact entryItem plain other comma
        | false => exact entryItem plain other comma
      rw [List.map_cons,listed,List.append_assoc,follows,series,here]
      simp only [bind,Except.bind,left,right]
      exact later

end Series

def unlines (lines : List Bytes) : Bytes := lines.flatMap (· ++ [10])

theorem unlinesIntercalate {lines : List Bytes} (filled : lines ≠ []) : unlines lines = [10].intercalate lines ++ [10] := by
  induction lines with
  | nil => contradiction
  | cons line rest ih =>
    cases rest with
    | nil => simp [unlines,List.intercalate]
    | cons next later =>
      rw [unlines,List.flatMap_cons,← unlines,ih (by simp)]
      simp [List.intercalate,List.intersperse]

theorem unlinesSplit (content : Bytes) : unlines (content.splitOn 10) = content ++ [10] := by
  rw [unlinesIntercalate (List.splitOn_ne_nil _ _),List.intercalate_splitOn]

end RunnelMoe.Readers
