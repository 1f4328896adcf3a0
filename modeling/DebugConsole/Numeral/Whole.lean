import DebugConsole.Text.Blank
import DebugConsole.Text.Digit
import DebugConsole.Text.Quoted

set_option autoImplicit false

/-!
# Whole numbers

Reading line numbers, levels, addresses and bytes.  Decimal numbers may be written in the digits of
any script and have at most `maxDigits` of them; hexadecimal ones are not limited.
-/

namespace DebugConsole.Numeral

/-- Why a text is not read as a whole number. -/
inductive Fault where
  /-- a decimal number with more digits than are read -/
  | tooLong (digits : Nat)
  /-- a text that is no hexadecimal number -/
  | notHex (text : String)
  deriving DecidableEq, Repr

/-- The longest decimal number that is read. -/
def maxDigits : Nat := 4300

/-- A shown text is cut after this many characters when it is quoted in a number fault. -/
def shownLimit : Nat := 200

/-- The wording of a fault. -/
def Fault.message : Fault → String
  | .tooLong digits =>
    "Exceeds the limit (" ++ toString maxDigits
      ++ " digits) for integer string conversion: value has " ++ toString digits
      ++ " digits; use sys.set_int_max_str_digits() to increase the limit"
  | .notHex text =>
    "invalid literal for int() with base 16: "
      ++ String.ofList ((Text.quotedChars text.toList).take shownLimit)

/-- The number that digits of the given base write, given the value of each digit. -/
def ofDigits (base : Nat) (digits : List Nat) : Nat :=
  digits.foldl (fun n d => n * base + d) 0

/-- Reads a decimal number from a text that holds nothing but decimal digits. -/
def readDecimal (s : List Char) : Except Fault Nat :=
  if s.length ≤ maxDigits then .ok (ofDigits 10 (s.filterMap Text.decimalValue?))
  else .error (.tooLong s.length)

/-- Reads a hexadecimal number from a text that holds nothing but hexadecimal digits. -/
def readHex (s : List Char) : Nat := ofDigits 16 (s.filterMap Text.hexValue?)

/-- The decimal digits of a number, as it is written in commands. -/
def decimal (n : Int) : String := toString n

/-- The lower-case hexadecimal digits of a number. -/
def hexDigits (n : Nat) : List Char := Nat.toDigits 16 n

/-- A number in lower-case hexadecimal behind its mark; the sign of a negative one stands behind the
mark too, as the commands of the debugger console are written. -/
def hexadecimal (n : Int) : String :=
  String.ofList ('0' :: 'x' :: (if n < 0 then '-' :: hexDigits n.natAbs else hexDigits n.natAbs))

theorem readDecimal_eq_ok_iff {s : List Char} {n : Nat} :
    readDecimal s = .ok n ↔
      s.length ≤ maxDigits ∧ ofDigits 10 (s.filterMap Text.decimalValue?) = n := by
  unfold readDecimal
  split
  · simp_all
  · simp only [reduceCtorEq, false_iff, not_and]
    omega

/-! ## Hexadecimal numbers typed by a person -/

/-- Takes digits apart that single underscores may group; every other character refuses. -/
def groupedHex : List Char → Option (List Nat)
  | [] => none
  | [c] => (digitOrHex c).map fun d => [d]
  | c :: '_' :: rest => do return (← digitOrHex c) :: (← groupedHex rest)
  | c :: rest => do return (← digitOrHex c) :: (← groupedHex rest)
where
  /-- Decimal digits of any script count, hexadecimal letters are ASCII. -/
  digitOrHex (c : Char) : Option Nat := (Text.decimalValue? c).orElse fun _ => Text.hexValue? c

/-- Blanks that may follow a typed number: all but the information separators. -/
def isPadding (c : Char) : Bool := Text.isBlank c && !(28 ≤ c.toNat && c.toNat ≤ 31)

/-- Does a text start with the mark of a hexadecimal number? -/
def hasHexMark : List Char → Bool
  | '0' :: x :: _ => x == 'x' || x == 'X'
  | _ => false

/-- Reads a typed hexadecimal number behind its mark. -/
def readTypedHex (text : String) : Except Fault Nat :=
  let padded := text.toList.drop 2
  let digits := (padded.reverse.dropWhile isPadding).reverse
  let ungrouped := match digits with
    | '_' :: rest => rest
    | rest => rest
  match groupedHex ungrouped with
  | some ds => .ok (ofDigits 16 ds)
  | none => .error (.notHex text)

end DebugConsole.Numeral
