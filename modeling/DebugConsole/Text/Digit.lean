import DebugConsole.Text.Ranges

set_option autoImplicit false

/-!
# Digits

A decimal digit may come from any script that writes numbers in base ten: each such script has ten
consecutive code points, zero first.  Hexadecimal digits are ASCII only.
-/

namespace DebugConsole.Text

/-- The zeros of the scripts beyond ASCII that have decimal digits, in ascending order. -/
def digitZeros : List Nat := [
  0x660, 0x6f0, 0x7c0, 0x966, 0x9e6, 0xa66, 0xae6, 0xb66, 0xbe6, 0xc66, 0xce6, 0xd66, 0xde6, 0xe50,
  0xed0, 0xf20, 0x1040, 0x1090, 0x17e0, 0x1810, 0x1946, 0x19d0, 0x1a80, 0x1a90, 0x1b50, 0x1bb0,
  0x1c40, 0x1c50, 0xa620, 0xa8d0, 0xa900, 0xa9d0, 0xa9f0, 0xaa50, 0xabf0, 0xff10, 0x104a0, 0x10d30,
  0x11066, 0x110f0, 0x11136, 0x111d0, 0x112f0, 0x11450, 0x114d0, 0x11650, 0x116c0, 0x11730, 0x118e0,
  0x11950, 0x11c50, 0x11d50, 0x11da0, 0x16a60, 0x16ac0, 0x16b50, 0x1d7ce, 0x1d7d8, 0x1d7e2, 0x1d7ec,
  0x1d7f6, 0x1e140, 0x1e2f0, 0x1e950, 0x1fbf0]

/-- The value of a decimal digit of any script. -/
def decimalValue? (c : Char) : Option Nat :=
  let n := c.toNat
  if n < 128 then
    if 48 ≤ n && n < 58 then some (n - 48) else none
  else
    (digitZeros.find? fun z => decide (z ≤ n) && decide (n < z + 10)).map (n - ·)

/-- Is the character a decimal digit of some script? -/
def isDecimal (c : Char) : Bool := (decimalValue? c).isSome

/-- The value of an ASCII hexadecimal digit, in either case. -/
def hexValue? (c : Char) : Option Nat :=
  let n := c.toNat
  if 48 ≤ n && n < 58 then some (n - 48)
  else if 97 ≤ n && n < 103 then some (n - 87)
  else if 65 ≤ n && n < 71 then some (n - 55)
  else none

/-- Is the character an ASCII hexadecimal digit? -/
def isHex (c : Char) : Bool := (hexValue? c).isSome

/-- The value of an octal digit. -/
def octalValue? (c : Char) : Option Nat :=
  if 48 ≤ c.toNat && c.toNat < 56 then some (c.toNat - 48) else none

theorem octalValue?_lt {c : Char} {v : Nat} (h : octalValue? c = some v) : v < 8 := by
  simp only [octalValue?, Bool.and_eq_true, decide_eq_true_eq] at h
  split at h
  · simp only [Option.some.injEq] at h; omega
  · simp at h

end DebugConsole.Text
