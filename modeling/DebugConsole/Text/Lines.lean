set_option autoImplicit false

/-!
# Lines of free text

Output that is merely shown is cut at every kind of line end: carriage return and line feed (alone
or together), vertical tab, form feed, the information separators, next line and the line and
paragraph separators.  A line end at the very end opens no further line.
-/

namespace DebugConsole.Text

/-- Does the character end a line of free text? -/
def isLineEnd (c : Char) : Bool :=
  let n := c.toNat
  (10 ≤ n && n ≤ 13) || (28 ≤ n && n ≤ 30) || n == 0x85 || n == 0x2028 || n == 0x2029

/-- The lines of a text, given the line begun so far (reversed). -/
def linesFrom (line : List Char) : List Char → List (List Char)
  | [] => if line.isEmpty then [] else [line.reverse]
  | '\r' :: '\n' :: rest => line.reverse :: linesFrom [] rest
  | c :: rest =>
    if isLineEnd c then line.reverse :: linesFrom [] rest else linesFrom (c :: line) rest

/-- The lines of a text, without their line ends. -/
def lines (s : String) : List String := (linesFrom [] s.toList).map String.ofList

end DebugConsole.Text
