import DebugConsole.Text.Cut

set_option autoImplicit false

/-!
# File names of Windows paths

Targets are built on Windows hosts, so the debugger names sources by Windows paths.  The file name
of a path is what follows its last separator, a drive, a network share or a device not counting as
part of the path.
-/

namespace DebugConsole.Text

/-- Both slashes separate the components of a path. -/
def isSeparator (c : Char) : Bool := c == '\\' || c == '/'

/-- The text from the first separator on; nothing if there is none. -/
def fromSeparator (s : List Char) : List Char := s.dropWhile fun c => !isSeparator c

/-- Does a path behind its two leading separators start with the long form of a network share? -/
def isLongShare : List Char → Bool
  | q :: s :: u :: n :: c :: t :: _ =>
    q == '?' && isSeparator s && [u, n, c].map Char.toUpper == ['U', 'N', 'C'] && isSeparator t
  | _ => false

/-- A path without its drive, share or device. A share is two components, and a path that ends
within them is all share. -/
def dropDrive : List Char → List Char
  | a :: b :: rest =>
    if isSeparator a && isSeparator b then
      let share := if isLongShare rest then rest.drop 6 else rest
      fromSeparator ((fromSeparator share).drop 1)
    else if b == ':' then rest
    else a :: b :: rest
  | short => short

/-- The file name of a path: what follows the last separator. -/
def fileName (path : String) : String :=
  String.ofList
    ((dropDrive path.toList).reverse.takeWhile fun c => !isSeparator c).reverse

end DebugConsole.Text
