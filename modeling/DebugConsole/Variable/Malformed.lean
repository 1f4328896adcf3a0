import DebugConsole.Numeral.Whole

set_option autoImplicit false

/-!
# Malformed values

Why a printed value cannot be decoded.  A command whose answer holds such a value fails; a frame of
the call stack whose parameters hold one is still a frame, without its parameters.
-/

namespace DebugConsole

/-- Why a printed value cannot be decoded. -/
inductive Malformed where
  /-- a character array that ends in a lone backslash -/
  | danglingEscape (body : String)
  /-- a character array with a backslash before a character that it cannot escape -/
  | unknownEscape (escaped : Char) (body : String)
  /-- an aggregate with a closing brace too many -/
  | unbalanced (body : String)
  /-- an aggregate that ends inside a nested aggregate or a quotation -/
  | unterminated (body : String)
  /-- a number that is not read -/
  | number (fault : Numeral.Fault)
  /-- a memory cell that does not fit into a byte -/
  | wideByte
  deriving DecidableEq, Repr

/-- The wording of a malformed value. -/
def Malformed.message : Malformed → String
  | .danglingEscape body => "Dangling escape in string: " ++ Text.quoted body
  | .unknownEscape escaped body =>
    "Unknown escape '\\" ++ escaped.toString ++ "' in string: " ++ Text.quoted body
  | .unbalanced body => "Unbalanced '\x7d' in aggregate: " ++ Text.quoted body
  | .unterminated body => "Unterminated aggregate: " ++ Text.quoted body
  | .number fault => fault.message
  | .wideByte => "bytes must be in range(0, 256)"

end DebugConsole
