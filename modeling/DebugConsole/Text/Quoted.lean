import DebugConsole.Text.Printable

set_option autoImplicit false

/-!
# Quoted text

How a message shows a text that may hold anything: between quotes, with the quote in use, the
backslash and the unprintable characters escaped.  Single quotes are used unless the text holds a
single quote and no double quote.
-/

namespace DebugConsole.Text

/-- The lower-case hexadecimal digit of a value below sixteen. -/
def hexDigit (n : Nat) : Char := Nat.digitChar (n % 16)

/-- The lowest `width` hexadecimal digits of `n`, most significant first. -/
def hexPadded : Nat → Nat → List Char
  | 0, _ => []
  | width + 1, n => hexPadded width (n / 16) ++ [hexDigit n]

/-- An escape by code point: two, four or eight digits, whichever is the first to suffice. -/
def codeEscape (c : Char) : List Char :=
  let n := c.toNat
  if n < 0x100 then '\\' :: 'x' :: hexPadded 2 n
  else if n < 0x10000 then '\\' :: 'u' :: hexPadded 4 n
  else '\\' :: 'U' :: hexPadded 8 n

/-- The quote that a text is shown in. -/
def quoteFor (s : List Char) : Char :=
  if s.contains '\'' && !s.contains '"' then '"' else '\''

/-- One character of a text shown between the given quotes. -/
def quotedChar (quote c : Char) : List Char :=
  if c == quote || c == '\\' then ['\\', c]
  else if c == '\n' then ['\\', 'n']
  else if c == '\r' then ['\\', 'r']
  else if c == '\t' then ['\\', 't']
  else if isPrintable c then [c]
  else codeEscape c

/-- The text between quotes. -/
def quotedChars (s : List Char) : List Char :=
  let quote := quoteFor s
  quote :: s.flatMap (quotedChar quote) ++ [quote]

/-- The text between quotes, as messages show it. -/
def quoted (s : String) : String := String.ofList (quotedChars s.toList)

end DebugConsole.Text
