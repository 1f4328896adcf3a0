import DebugConsole.Text.Cut

set_option autoImplicit false

/-!
# Framing

The debugger prints lines and then its prompt, without a line end, and waits.  What it prints
between two prompts is a frame.  Output arrives in chunks cut anywhere; `FrameBuffer` keeps what
is not part of a complete frame yet.
-/

namespace DebugConsole

/-- Output that is not part of a complete frame yet. -/
structure FrameBuffer where
  text : List Char
  deriving DecidableEq, Repr

namespace FrameBuffer

/-- Nothing is buffered. -/
def empty : FrameBuffer := ⟨[]⟩

/-- Is nothing buffered? -/
def isEmpty (b : FrameBuffer) : Bool := b.text.isEmpty

/-- Output arrives. -/
def append (b : FrameBuffer) (chunk : String) : FrameBuffer := ⟨b.text ++ chunk.toList⟩

/-- The lines of a text, given the line begun so far (reversed); a carriage return before a line
feed belongs to the line end. -/
def linesFrom (line : List Char) : List Char → List (List Char)
  | [] => [line.reverse]
  | '\n' :: rest => line.reverse :: linesFrom [] rest
  | '\r' :: '\n' :: rest => line.reverse :: linesFrom [] rest
  | c :: rest => linesFrom (c :: line) rest

/-- The lines of a text; there is always at least one. -/
def linesOf (s : List Char) : List (List Char) := linesFrom [] s

/-- A text of lines that line feeds separate. -/
def joinLines : List (List Char) → List Char
  | [] => []
  | [line] => line
  | line :: rest => line ++ '\n' :: joinLines rest

/-- Takes lines apart at the first that starts with the prompt: the lines before it, what follows
the prompt on its line, and the lines after it. -/
def cutAtPrompt? (prompt : List Char) :
    List (List Char) → Option (List (List Char) × List Char × List (List Char))
  | [] => none
  | line :: rest =>
    match Text.after? prompt line with
    | some tail => some ([], tail, rest)
    | none =>
      (cutAtPrompt? prompt rest).map fun (frame, tail, after) => (line :: frame, tail, after)

/-- What stays buffered once a frame is taken: the text behind the prompt opens the next frame. -/
def remainder (tail : List Char) (after : List (List Char)) : List Char :=
  let opening := tail.dropWhile (· == ' ')
  joinLines (if opening.isEmpty then after else opening :: after)

/-- Takes the first complete frame. -/
def take? (b : FrameBuffer) (prompt : List Char) : Option (List (List Char) × FrameBuffer) :=
  (cutAtPrompt? prompt (linesOf b.text)).map fun (frame, tail, after) =>
    (frame, ⟨remainder tail after⟩)

/-- What has been printed since the last line feed. -/
def lastLine (b : FrameBuffer) : List Char :=
  (b.text.reverse.takeWhile (· != '\n')).reverse

/-- Takes complete frames while there are any, at most `bound`. -/
def takeUpTo (prompt : List Char) (b : FrameBuffer) : Nat → List (List (List Char)) × FrameBuffer
  | 0 => ([], b)
  | bound + 1 =>
    match b.take? prompt with
    | none => ([], b)
    | some (frame, b) =>
      let (frames, b) := takeUpTo prompt b bound
      (frame :: frames, b)

/-- Takes every complete frame.  Each frame shortens the buffer by its prompt at least, so there
are no more frames than characters. -/
def takeAll (prompt : List Char) (b : FrameBuffer) : List (List (List Char)) × FrameBuffer :=
  takeUpTo prompt b (b.text.length + 1)

/-- Output arrives, and every frame that it completes is taken. -/
def feed (prompt : List Char) (b : FrameBuffer) (chunk : String) :
    List (List (List Char)) × FrameBuffer :=
  takeAll prompt (b.append chunk)

theorem linesFrom_ne_nil (line s : List Char) : linesFrom line s ≠ [] := by
  fun_induction linesFrom line s <;> simp_all

/-- A text has at least one line. -/
theorem linesOf_ne_nil (s : List Char) : linesOf s ≠ [] := linesFrom_ne_nil [] s

end FrameBuffer

end DebugConsole
