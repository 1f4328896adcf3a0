import DebugConsole.Response.Grammar

set_option autoImplicit false

/-!
# Decoding an answer

The lines of an answer are read one after another by the grammar of the command's kind.  A line that
reports a failure fails the command; from there on lines are only logged.
-/

namespace DebugConsole

/-- What a line starts with when the debugger could not do as it was told. -/
def refusals : List String :=
  ["Cannot access memory", "No symbol", "The program is not being run",
    "The program has no registers now", "Not available"]

/-- The message of a line that reports a failure. -/
def failureMessage? (line : String) : Option String :=
  let s := line.toList
  match Text.after? "Error:".toList s with
  | some message => some (String.ofList (Text.trim message))
  | none =>
    if refusals.any fun r => Text.startsWith r.toList s then some (Text.trimmed line) else none

namespace Report

/-- Reads one line, without the blanks at its end, into a report. -/
def readLine (grammar : Option Grammar) (r : Report) (line : String) : Except Malformed Report :=
  if !r.isOk then .ok (r.log line)
  else match failureMessage? line with
    | some message => .ok { r with error := some message }
    | none =>
      match grammar with
      | none => .ok (r.log line)
      | some g =>
        (g.read line).map fun
          | none => r.log line
          | some item => r.add item

/-- The lines of an answer that are read: without the blanks at their ends, and without the blank
ones unless the kind keeps them. -/
def readableLines (kind : CommandKind) (lines : List String) : List String :=
  (lines.map Text.trimmedRight).filter fun line => kind.keepsBlankLines || !line.isEmpty

/-- Decodes an answer by the given grammars. -/
def decodeWith (grammarOf : CommandKind → Option Grammar) (kind : CommandKind)
    (lines : List String) : Except Malformed Report :=
  (readableLines kind lines).foldlM (readLine (grammarOf kind)) empty

/-- Decodes the answer to a command of the given kind. -/
def decode (kind : CommandKind) (lines : List String) : Except Malformed Report :=
  decodeWith Grammar.ofKind? kind lines

end Report

end DebugConsole
