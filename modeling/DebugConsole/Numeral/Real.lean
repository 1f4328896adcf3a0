import DebugConsole.Text.Blank
import DebugConsole.Text.Digit

set_option autoImplicit false

/-!
# Reading real numbers

Timeouts are given as texts: a decimal with an optional fraction and power of ten, in the digits of
any script, where single underscores may group digits; or the words for infinity and not-a-number.
A sign may precede either, blanks may surround it, and the nearest binary64 number is taken.
-/

namespace DebugConsole.Numeral

/-- Reads a run of decimal digits, which single underscores may group, and returns their values and
the rest of the text. -/
def digitRun : List Char → List Nat × List Char
  | [] => ([], [])
  | c :: rest =>
    match Text.decimalValue? c with
    | none => ([], c :: rest)
    | some d =>
      match rest with
      | '_' :: e :: _ =>
        if Text.isDecimal e then
          let (ds, tail) := underscored rest
          (d :: ds, tail)
        else ([d], rest)
      | _ =>
        let (ds, tail) := digitRun rest
        (d :: ds, tail)
where
  /-- The same, behind one underscore. -/
  underscored : List Char → List Nat × List Char
    | [] => ([], [])
    | _ :: rest => digitRun rest

/-- An unsigned decimal: digits before and after the point and the power of ten. -/
structure RealText where
  whole : List Nat
  fraction : List Nat
  power : Int
  deriving DecidableEq, Repr

/-- Reads an optional sign: is the number negative, and the rest. -/
def sign : List Char → Bool × List Char
  | '-' :: rest => (true, rest)
  | '+' :: rest => (false, rest)
  | rest => (false, rest)

/-- Reads the power of ten, if there is one; refuses anything else. -/
def power? : List Char → Option Int
  | [] => some 0
  | c :: rest =>
    if c == 'e' || c == 'E' then
      let (isNegative, digits) := sign rest
      match digitRun digits with
      | (d :: ds, []) =>
        let n : Nat := (d :: ds).foldl (fun n d => n * 10 + d) 0
        some (if isNegative then -n else n)
      | _ => none
    else none

/-- Reads an unsigned decimal; there is a digit before or after the point. -/
def realText? (s : List Char) : Option RealText :=
  let (whole, rest) := digitRun s
  let (fraction, rest) := match rest with
    | '.' :: more => digitRun more
    | _ => ([], rest)
  if whole.isEmpty && fraction.isEmpty then none
  else (power? rest).map fun p => ⟨whole, fraction, p⟩

/-- Beyond this power of ten every binary64 number is infinite, and below its negative zero. -/
def extremePower : Int := 400

/-- The nearest binary64 number. -/
def RealText.toFloat (t : RealText) : Float :=
  let digits := (t.whole ++ t.fraction).dropWhile (· == 0)
  let coefficient := digits.foldl (fun n d => n * 10 + d) 0
  let exponent := t.power - t.fraction.length
  let first : Int := exponent + digits.length
  if digits.isEmpty || first < -extremePower then 0.0
  else if extremePower < first then 1.0 / 0.0
  else if exponent < 0 then Float.ofScientific coefficient true exponent.natAbs
  else Float.ofScientific coefficient false exponent.natAbs

/-- The words for the two special numbers, in lower case. -/
def specialWord? (s : List Char) : Option Float :=
  match String.ofList (s.map Char.toLower) with
  | "inf" | "infinity" => some (1.0 / 0.0)
  | "nan" => some (0.0 / 0.0)
  | _ => none

/-- Reads a real number. -/
def readReal? (s : String) : Option Float :=
  let (isNegative, magnitude) := sign (Text.trim s.toList)
  let value := (specialWord? magnitude).orElse fun _ => (realText? magnitude).map (·.toFloat)
  value.map fun x => if isNegative then -x else x

end DebugConsole.Numeral
