set_option autoImplicit false

/-!
# The shortest decimal of a binary number

Elapsed times and timeouts are binary64 numbers, shown with the fewest digits that still read back
as the same number and, among those, the nearest.  A finite positive number is a mantissa times a
power of two; the reals that round to it form an interval whose ends are half way to its neighbours
and belong to it iff the mantissa is even.  For each count of digits from one upwards the two
decimals around the number on that grid are tested in exact arithmetic; the first grid with a hit
decides.
-/

namespace DebugConsole.Numeral

/-- A finite positive binary64 number `mantissa · 2 ^ scale`. -/
structure Binary where
  mantissa : Nat
  scale : Int
  /-- The lower neighbour is only half as far as the upper one: a power of two above the least. -/
  lowerIsNear : Bool
  deriving DecidableEq, Repr

/-- A decimal `coefficient · 10 ^ exponent`. -/
structure Decimal where
  coefficient : Nat
  exponent : Int
  deriving DecidableEq, Repr

/-- A power of two. -/
def twoTo (n : Nat) : Nat := Nat.pow 2 n

/-- A power of ten. -/
def tenTo (n : Nat) : Nat := Nat.pow 10 n

namespace Binary

/-- The number in units of a quarter of its last place, with the two ends of its interval. -/
def quarters (b : Binary) : Nat × Nat × Nat :=
  (4 * b.mantissa - (if b.lowerIsNear then 1 else 2), 4 * b.mantissa, 4 * b.mantissa + 2)

/-- A common scale for the number and the decimals with the given exponent: multiplying the quarters
by the first factor and the coefficients by the second makes them comparable. -/
def factors (b : Binary) (exponent : Int) : Nat × Nat :=
  (twoTo b.scale.toNat * tenTo (-exponent).toNat,
    4 * twoTo (-b.scale).toNat * tenTo exponent.toNat)

/-- Does a decimal with this coefficient and exponent round to the number? -/
def isHit (b : Binary) (exponent : Int) (coefficient : Nat) : Bool :=
  let (low, _, high) := b.quarters
  let (f, g) := b.factors exponent
  if b.mantissa % 2 == 0 then
    decide (low * f ≤ coefficient * g) && decide (coefficient * g ≤ high * f)
  else decide (low * f < coefficient * g) && decide (coefficient * g < high * f)

/-- The nearest decimal with the given exponent that rounds to the number; a tie goes to the even
coefficient. -/
def nearest? (b : Binary) (exponent : Int) : Option Decimal :=
  let (_, value, _) := b.quarters
  let (f, g) := b.factors exponent
  let below := value * f / g
  let above := below + 1
  match b.isHit exponent below, b.isHit exponent above with
  | false, false => none
  | true, false => some ⟨below, exponent⟩
  | false, true => some ⟨above, exponent⟩
  | true, true =>
    let down := value * f - below * g
    let up := above * g - value * f
    if down < up || (down == up && below % 2 == 0) then some ⟨below, exponent⟩
    else some ⟨above, exponent⟩

/-- Every binary64 number is at least `10 ^ -400`. -/
def leastPower : Nat := 400

/-- The number of digits before the decimal point, counted below zero for small numbers: the `k`
with `10 ^ (k - 1) ≤ b < 10 ^ k`. -/
def magnitude (b : Binary) : Int :=
  let whole := b.mantissa * twoTo b.scale.toNat * tenTo leastPower / twoTo (-b.scale).toNat
  (Nat.toDigits 10 whole).length - (leastPower : Int)

/-- The first grid with a hit, from the given count of digits upwards. -/
def shortestFrom (b : Binary) (magnitude : Int) (digits : Nat) : Nat → Decimal
  | 0 => (b.nearest? (magnitude - digits)).getD ⟨b.mantissa, 0⟩
  | more + 1 =>
    match b.nearest? (magnitude - digits) with
    | some d => d
    | none => shortestFrom b magnitude (digits + 1) more

/-- Seventeen digits always suffice to tell a binary64 number from the others. -/
def mostDigits : Nat := 17

/-- The shortest decimal that rounds to the number, the nearest among those. -/
def shortest (b : Binary) : Decimal := b.shortestFrom b.magnitude 1 (mostDigits - 1)

end Binary

/-! ## Layout -/

/-- How a decimal is laid out: from which to which decimal exponent it is written without a power of
ten, and how many digits the power has at least. -/
structure Layout where
  leastPlain : Int
  mostPlain : Int
  powerDigits : Nat

/-- Times are written plainly from a ten-thousandth up to sixteen digits before the point, and with
a power of ten of two digits or more otherwise. -/
def timeLayout : Layout := ⟨-4, 15, 2⟩

/-- The power of ten, with its sign and at least the given count of digits. -/
def powerText (width : Nat) (power : Int) : List Char :=
  let digits := Nat.toDigits 10 power.natAbs
  (if power < 0 then '-' else '+') :: (List.replicate (width - digits.length) '0' ++ digits)

/-- Digits without the zeros at their end; one digit always stays. -/
def dropZeros (digits : List Char) : List Char :=
  match (digits.reverse.dropWhile (· == '0')).reverse with
  | [] => ['0']
  | kept => kept

/-- The text of a positive decimal. -/
def Layout.text (layout : Layout) (d : Decimal) : List Char :=
  let all := Nat.toDigits 10 d.coefficient
  let digits := dropZeros all
  -- the decimal exponent of the first digit
  let first : Int := d.exponent + all.length - 1
  if layout.leastPlain ≤ first && first ≤ layout.mostPlain then
    if first < 0 then
      '0' :: '.' :: (List.replicate (-first - 1).toNat '0' ++ digits)
    else
      let before := first.toNat + 1
      let padded := digits ++ List.replicate (before - digits.length) '0'
      match padded.drop before with
      | [] => padded ++ ['.', '0']
      | fraction => padded.take before ++ '.' :: fraction
  else
    let mantissa := match digits with
      | d :: (e :: more) => d :: '.' :: e :: more
      | short => short
    mantissa ++ 'e' :: powerText layout.powerDigits first

/-! ## Binary64 -/

/-- The bits of the fraction field, which is the lowest. -/
def fractionBits : Nat := 52

/-- The bits of the exponent field; the sign stands above it. -/
def exponentBits : Nat := 11

/-- The magnitude of a finite number other than zero, from its exponent and fraction fields. -/
def Binary.ofFields (exponent fraction : Nat) : Binary :=
  if exponent == 0 then ⟨fraction, -1074, false⟩
  else ⟨fraction + twoTo fractionBits, exponent - 1075, fraction == 0 && exponent != 1⟩

/-- The text of a time: the shortest decimal, `inf` or `nan`, behind a minus sign if it is
negative. -/
def timeText (x : Float) : String :=
  let bits := x.toBits.toNat
  let exponent := bits / twoTo fractionBits % twoTo exponentBits
  let fraction := bits % twoTo fractionBits
  let isNegative := twoTo (fractionBits + exponentBits) ≤ bits
  if exponent == 2047 && fraction != 0 then "nan"
  else
    let magnitude :=
      if exponent == 2047 then ['i', 'n', 'f']
      else if exponent == 0 && fraction == 0 then ['0', '.', '0']
      else timeLayout.text (Binary.ofFields exponent fraction).shortest
    String.ofList (if isNegative then '-' :: magnitude else magnitude)

end DebugConsole.Numeral
