import DebugConsole.Numeral.Whole
import DebugConsole.Proofs.Variable.Printed

set_option autoImplicit false

/-!
# Numbers as a debugger prints them

Counts are printed in decimal digits, of which no more are read than `Numeral.maxDigits`.  Addresses and the
cells of memory are printed in hexadecimal digits, in either case and with or without leading zeros: a
`Spelling` says how.  What is read of a printed number is that number.
-/

namespace DebugConsole.Printed

open Numeral (hexDigits maxDigits ofDigits readHex)

variable {base n : Nat} {value? : Char → Option Nat} {c : Char}

/-! ## Digits -/

theorem ofDigits_concat (base : Nat) (digits : List Nat) (d : Nat) :
    ofDigits base (digits ++ [d]) = ofDigits base digits * base + d := by
  rw [ofDigits, List.foldl_append]
  rfl

theorem ofDigits_zeros (base k : Nat) (digits : List Nat) :
    ofDigits base (List.replicate k 0 ++ digits) = ofDigits base digits := by
  induction k with
  | zero => rfl
  | succ k ih =>
    rw [← ih, List.replicate_succ, List.cons_append, ofDigits, List.foldl_cons, Nat.zero_mul, Nat.add_zero]
    rfl

/-- The digits of a number write it. -/
theorem ofDigits_toDigits (hbase : 1 < base) (hvalue : ∀ d < base, value? (Nat.digitChar d) = some d)
    (n : Nat) : ofDigits base ((Nat.toDigits base n).filterMap value?) = n := by
  induction n using Nat.strongRecOn with
  | ind n ih =>
    by_cases hn : n < base
    · rw [Nat.toDigits_of_lt_base hn, List.filterMap_cons, hvalue n hn, List.filterMap_nil, ofDigits,
        List.foldl_cons, List.foldl_nil, Nat.zero_mul, Nat.zero_add]
    · have hle : base ≤ n := Nat.le_of_not_lt hn
      have hlast : value? (Nat.digitChar (n % base)) = some (n % base) :=
        hvalue _ (Nat.mod_lt n (by omega))
      have hrest := ih (n / base) (Nat.div_lt_self (by omega) hbase)
      rw [Nat.toDigits_of_base_le hbase hle, List.filterMap_append, List.filterMap_cons, hlast,
        List.filterMap_nil, ofDigits_concat, hrest]
      exact Nat.div_add_mod' n base

/-- The digits of a number are digits. -/
theorem isSome_of_mem_toDigits (hbase : 1 < base)
    (hvalue : ∀ d < base, value? (Nat.digitChar d) = some d) (h : c ∈ Nat.toDigits base n) :
    (value? c).isSome = true := by
  have hdigit : ∀ d < base, (value? (Nat.digitChar d)).isSome = true := fun d hd => by
    rw [hvalue d hd]
    rfl
  induction n using Nat.strongRecOn with
  | ind n ih =>
    by_cases hn : n < base
    · rw [Nat.toDigits_of_lt_base hn, List.mem_singleton] at h
      rw [h]
      exact hdigit n hn
    · have hle : base ≤ n := Nat.le_of_not_lt hn
      rw [Nat.toDigits_of_base_le hbase hle, List.mem_append, List.mem_singleton] at h
      obtain h | rfl := h
      · exact ih (n / base) (Nat.div_lt_self (by omega) hbase) h
      · exact hdigit _ (Nat.mod_lt n (by omega))

theorem decimalValue?_digitChar : ∀ d < 10, Text.decimalValue? (Nat.digitChar d) = some d := by decide

theorem hexValue?_digitChar : ∀ d < 16, Text.hexValue? (Nat.digitChar d) = some d := by decide

/-! ## Counts -/

/-- A decimal number with no more digits than are read. -/
structure Count where
  digits : Digits
  isShort : digits.chars.length ≤ maxDigits

namespace Count

def chars (count : Count) : List Char := count.digits.chars

def value (count : Count) : Nat := ofDigits 10 (count.chars.filterMap Text.decimalValue?)

theorem readDecimal_chars (count : Count) : Numeral.readDecimal count.chars = .ok count.value :=
  Numeral.readDecimal_eq_ok_iff.2 ⟨count.isShort, rfl⟩

/-- A number in its own decimal digits. -/
def ofNat (n : Nat) (h : (Nat.toDigits 10 n).length ≤ maxDigits) : Count where
  digits := {
    chars := Nat.toDigits 10 n
    nonempty := Nat.toDigits_ne_nil
    all := fun _ hc => isSome_of_mem_toDigits (by decide) decimalValue?_digitChar hc }
  isShort := h

end Count

/-! ## Hexadecimal numbers -/

/-- A way to write numbers in hexadecimal digits. -/
structure Spelling where
  digits : Nat → HexDigits
  value : ∀ n, readHex (digits n).chars = n

namespace Spelling

def text (s : Spelling) (n : Nat) : List Char := '0' :: 'x' :: (s.digits n).chars

theorem readHex_padded (width n : Nat) : readHex ((hexDigits n).leftpad width '0') = n := by
  have hzero : Text.hexValue? '0' = some 0 := by decide
  rw [List.leftpad, readHex, List.filterMap_append, List.filterMap_replicate_of_some hzero, ofDigits_zeros]
  exact ofDigits_toDigits (by decide) hexValue?_digitChar n

/-- Numbers in lower case, with leading zeros up to a width. -/
def lower (width : Nat) : Spelling where
  digits := fun n => {
    chars := (hexDigits n).leftpad width '0'
    nonempty := List.append_ne_nil_of_right_ne_nil _ Nat.toDigits_ne_nil
    all := by
      intro c hc
      rw [List.leftpad, List.mem_append] at hc
      obtain hc | hc := hc
      · rw [List.eq_of_mem_replicate hc]
        decide
      · exact isSome_of_mem_toDigits (by decide) hexValue?_digitChar hc }
  value := readHex_padded width

end Spelling

end DebugConsole.Printed
