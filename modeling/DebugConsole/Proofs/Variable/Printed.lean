import DebugConsole.Text.Blank
import DebugConsole.Text.Digit
import DebugConsole.Text.Word
import DebugConsole.Variable.Basic

set_option autoImplicit false

/-!
# Values as a debugger prints them

The grammar of printed values.  A `Value` holds everything that is chosen when a value is printed: how its
numbers are written, which of its bytes are escaped and how, and the blanks around commas, equals signs
and inside braces.  `Value.text` is what is printed, and `Value.tree` the variable that it stands for.
-/

namespace DebugConsole.Printed

/-! ## Pieces of text -/

/-- A blank that a debugger prints. -/
inductive Blank where
  | space
  | tab
  deriving DecidableEq, Repr

def Blank.char : Blank → Char
  | space => ' '
  | tab => '\t'

/-- Any number of blanks. -/
structure Gap where
  blanks : List Blank
  deriving DecidableEq, Repr

def Gap.text (g : Gap) : List Char := g.blanks.map Blank.char

theorem isBlank_gap (gap : Gap) : ∀ c ∈ gap.text, Text.isBlank c = true := by
  intro c hc
  obtain ⟨blank, -, rfl⟩ := List.mem_map.1 hc
  cases blank <;> rfl

/-- One or more characters of a class. -/
structure Run (p : Char → Bool) where
  chars : List Char
  nonempty : chars ≠ []
  all : ∀ c ∈ chars, p c = true

abbrev Digits : Type := Run Text.isDecimal

abbrev HexDigits : Type := Run Text.isHex

/-- The name of a member. -/
abbrev Name : Type := Run Text.isName

/-- A minus sign, if there is one. -/
def signText (isNegative : Bool) : List Char := if isNegative then ['-'] else []

/-! ## Integers -/

inductive Magnitude where
  | decimal (digits : Digits)
  | hexadecimal (digits : HexDigits)

def Magnitude.text : Magnitude → List Char
  | decimal digits => digits.chars
  | hexadecimal digits => '0' :: 'x' :: digits.chars

structure Integer where
  isNegative : Bool
  magnitude : Magnitude

def Integer.text (n : Integer) : List Char := signText n.isNegative ++ n.magnitude.text

/-- One character of a character literal, or two: an escape. -/
inductive Stroke where
  | plain (c : Char) (h : c ≠ '\'' ∧ c ≠ '\\')
  | escape (c : Char) (h : c ≠ '\n')

def Stroke.text : Stroke → List Char
  | plain c _ => [c]
  | escape c _ => ['\\', c]

/-- A character literal. -/
structure Glyph where
  strokes : List Stroke

def Glyph.inside (g : Glyph) : List Char := g.strokes.flatMap Stroke.text

/-- A character literal as printed behind the number of the character. -/
def Glyph.text (g : Glyph) : List Char := ' ' :: '\'' :: (g.inside ++ ['\''])

/-! ## Floating-point numbers -/

/-- The sign of an exponent. -/
inductive Sign where
  | absent
  | minus
  | plus
  deriving DecidableEq, Repr

def Sign.text : Sign → List Char
  | absent => []
  | minus => ['-']
  | plus => ['+']

/-- A power of ten. -/
structure Power where
  isUpper : Bool
  sign : Sign
  digits : Digits

def Power.text (p : Power) : List Char :=
  (if p.isUpper then 'E' else 'e') :: (p.sign.text ++ p.digits.chars)

/-- The letters that mark the type of a floating-point number. -/
def typeLetters : List Char := ['u', 'f', 'l', 'd', 'U', 'F', 'L', 'D']

abbrev TypeLetter : Type := { c : Char // c ∈ typeLetters }

/-- The absolute value of a floating-point number. -/
inductive Scale where
  | fractional (whole fraction : Digits) (power : Option Power) (letter : Option TypeLetter)
  | scaled (whole : Digits) (power : Power) (letter : Option TypeLetter)
  | infinite
  | nan (payload : Option HexDigits)

def Scale.text : Scale → List Char
  | fractional whole fraction power letter =>
    whole.chars ++ '.' :: (fraction.chars ++ (power.elim [] Power.text ++ letter.toList.map (·.val)))
  | scaled whole power letter => whole.chars ++ (power.text ++ letter.toList.map (·.val))
  | infinite => ['i', 'n', 'f']
  | nan payload =>
    ['n', 'a', 'n'] ++ payload.elim [] fun digits => '(' :: '0' :: 'x' :: (digits.chars ++ [')'])

structure Real where
  isNegative : Bool
  scale : Scale

def Real.text (x : Real) : List Char := signText x.isNegative ++ x.scale.text

/-! ## Character arrays -/

/-- A string that needs no escapes. -/
structure PlainText where
  chars : List Char
  all : ∀ c ∈ chars, c ≠ '"' ∧ c ≠ '\\'

/-- The bytes that are escaped by a character, and that character. -/
def letterEscapes : List (Char × Nat) :=
  [('a', 7), ('b', 8), ('t', 9), ('n', 10), ('v', 11), ('f', 12), ('r', 13), ('\\', 92), ('\'', 39),
    ('"', 34), ('?', 63)]

/-- A byte as printed in a character array. -/
inductive Byte where
  | plain (c : Char) (h : c ≠ '"' ∧ c ≠ '\\') (isByte : c.toNat < 256)
  | letter (e : Char × Nat) (h : e ∈ letterEscapes)
  | octal (value : Fin 256)

namespace Byte

def value : Byte → Nat
  | plain c _ _ => c.toNat
  | letter e _ => e.2
  | octal value => value

def text : Byte → List Char
  | plain c _ _ => [c]
  | letter e _ => ['\\', e.1]
  | octal value =>
    ['\\', Nat.digitChar (value / 64), Nat.digitChar (value / 8 % 8), Nat.digitChar (value % 8)]

def isEscaped : Byte → Bool
  | plain .. => false
  | letter .. | octal _ => true

end Byte

/-- The bytes of an array, one of which at least is escaped. -/
structure Bytes where
  bytes : List Byte
  escaped : ∃ b ∈ bytes, b.isEscaped = true

def Bytes.inside (b : Bytes) : List Char := b.bytes.flatMap Byte.text

/-! ## Values -/

/-- What stands before the value of a member: nothing in an array, in an object the member's name. -/
inductive Label : Shape → Type where
  | place : Label .array
  | named (name : Name) (before after : Gap) : Label .object

namespace Label

variable {shape : Shape}

/-- The name, and what stands between it and the value. -/
def text : Label shape → List Char
  | place => []
  | named name before after => name.chars ++ (before.text ++ '=' :: after.text)

/-- The name of the member at a place. -/
def name (place : Nat) : Label shape → String
  | .place => toString place
  | named name _ _ => String.ofList name.chars

end Label

mutual

/-- A printed value. -/
inductive Value : Type where
  | integer (number : Integer) (glyph : Option Glyph)
  | real (x : Real)
  | string (s : PlainText)
  | bytes (b : Bytes)
  /-- an object without members -/
  | empty (inside : Gap)
  | aggregate (shape : Shape) (members : Members shape)

/-- The members of an aggregate; there is at least one. -/
inductive Members : Shape → Type where
  | last {shape : Shape} (lead : Gap) (label : Label shape) (value : Value) (trail : Gap) : Members shape
  | more {shape : Shape} (lead : Gap) (label : Label shape) (value : Value) (trail : Gap)
      (rest : Members shape) : Members shape

end

mutual

/-- What is printed. -/
def Value.text : Value → List Char
  | .integer number glyph => number.text ++ glyph.elim [] Glyph.text
  | .real x => x.text
  | .string s => '"' :: (s.chars ++ ['"'])
  | .bytes b => '"' :: (b.inside ++ ['"'])
  | .empty inside => '{' :: (inside.text ++ ['}'])
  | .aggregate _ members => '{' :: ([','].intercalate members.parts ++ ['}'])

/-- What is printed for each member, with the blanks around it. -/
def Members.parts {shape : Shape} : Members shape → List (List Char)
  | .last lead label value trail => [lead.text ++ (label.text ++ value.text ++ trail.text)]
  | .more lead label value trail rest =>
    (lead.text ++ (label.text ++ value.text ++ trail.text)) :: rest.parts

end

mutual

/-- The variable that a value stands for. -/
def Value.tree (name : String) : Value → Variable
  | .integer number _ => .scalar name .integer (String.ofList number.text)
  | .real x => .scalar name .float (String.ofList x.text)
  | .string s => .scalar name .string (String.ofList s.chars)
  | .bytes b => .aggregate name .array
      ((b.bytes.map Byte.value).zipIdx.map fun (v, i) => .scalar (toString i) .integer (toString v))
  | .empty _ => .aggregate name .object []
  | .aggregate shape members => .aggregate name shape (members.trees 0)

/-- The variables that the members from the given place onwards stand for. -/
def Members.trees {shape : Shape} (place : Nat) : Members shape → List Variable
  | .last _ label value _ => [value.tree (label.name place)]
  | .more _ label value _ rest => value.tree (label.name place) :: rest.trees (place + 1)

end

end DebugConsole.Printed
