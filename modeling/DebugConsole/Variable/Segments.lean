import DebugConsole.Text.Blank
import DebugConsole.Variable.Malformed

set_option autoImplicit false

/-!
# The segments of an aggregate

The inside of a printed aggregate is a list of segments between commas.  Commas and braces inside a
nested aggregate, a quotation or a character literal do not count.  A `Scanner` reads the text one
character at a time, so its state after a text is the state after the first half and then the
second, and whether a comma cuts depends only on the state before it.
-/

namespace DebugConsole.Segments

/-- Where in a text the scanner stands. -/
inductive Mode where
  /-- outside quotations -/
  | plain
  /-- inside a quotation that the given mark will close -/
  | quoted (mark : Char)
  /-- just behind a backslash inside a quotation -/
  | escaped (mark : Char)
  deriving DecidableEq, Repr

/-- The state of reading an aggregate: how many braces are open and whether a quotation is. -/
structure Scanner where
  depth : Nat
  mode : Mode
  deriving DecidableEq, Repr

namespace Scanner

/-- The state before the first character. -/
def start : Scanner := ⟨0, .plain⟩

/-- Neither a brace nor a quotation is open. -/
def isClosed (s : Scanner) : Bool := s == start

/-- Does the character, read in this state, end a segment? -/
def cutsAt (s : Scanner) (c : Char) : Bool := s.isClosed && c == ','

/-- The state after one more character; a closing brace without its opening one has none. -/
def next? (s : Scanner) (c : Char) : Option Scanner :=
  match s.mode with
  | .escaped mark => some { s with mode := .quoted mark }
  | .quoted mark =>
    if c == '\\' then some { s with mode := .escaped mark }
    else if c == mark then some { s with mode := .plain }
    else some s
  | .plain =>
    if c == '"' || c == '\'' then some { s with mode := .quoted c }
    else if c == '{' then some { s with depth := s.depth + 1 }
    else if c == '}' then
      match s.depth with
      | 0 => none
      | d + 1 => some { s with depth := d }
    else some s

end Scanner

/-- Cuts a text at its top-level commas, given the scanner's state and the segment read so far
(reversed). -/
def cutFrom (body : String) (s : Scanner) (segment : List Char) :
    List Char → Except Malformed (List (List Char))
  | [] => if s.isClosed then .ok [segment.reverse] else .error (.unterminated body)
  | c :: rest =>
    if s.cutsAt c then (cutFrom body s [] rest).map (segment.reverse :: ·)
    else match s.next? c with
      | none => .error (.unbalanced body)
      | some s' => cutFrom body s' (c :: segment) rest

/-- The segments of an aggregate's inside: trimmed, and without those that are blank. -/
def split (body : List Char) : Except Malformed (List (List Char)) :=
  (cutFrom (String.ofList body) .start [] body).map fun parts =>
    (parts.map Text.trim).filter fun part => !part.isEmpty

/-! ## Sizes

Cutting loses the commas and nothing else, so the segments together are no longer than the text. -/

/-- The characters in all the segments together. -/
def size : List (List Char) → Nat
  | [] => 0
  | p :: ps => p.length + size ps

@[simp] theorem size_nil : size [] = 0 := rfl

@[simp] theorem size_cons (p : List Char) (ps : List (List Char)) :
    size (p :: ps) = p.length + size ps := rfl

theorem length_trim_le (s : List Char) : (Text.trim s).length ≤ s.length := by
  obtain ⟨b, h, _⟩ := Text.trimLeft_split s
  obtain ⟨b', h', _⟩ := Text.trimRight_split (Text.trimLeft s)
  have e := congrArg List.length h
  have e' := congrArg List.length h'
  simp only [List.length_append] at e e'
  unfold Text.trim
  omega

theorem size_trim_le (parts : List (List Char)) :
    size ((parts.map Text.trim).filter fun part => !part.isEmpty) ≤ size parts := by
  induction parts with
  | nil => simp
  | cons p ps ih =>
    have hp := length_trim_le p
    simp only [List.map_cons, List.filter_cons]
    split <;> simp only [size_cons] <;> omega

theorem size_cutFrom_le {body : String} {s : Scanner} {segment rest : List Char}
    {parts : List (List Char)} (h : cutFrom body s segment rest = .ok parts) :
    size parts ≤ segment.length + rest.length := by
  induction rest generalizing s segment parts with
  | nil =>
    simp only [cutFrom] at h
    split at h
    · simp only [Except.ok.injEq] at h; subst h; simp
    · simp at h
  | cons c rest ih =>
    simp only [cutFrom] at h
    split at h
    · cases hr : cutFrom body s [] rest with
      | error e => rw [hr] at h; simp [Except.map] at h
      | ok ps =>
        rw [hr] at h
        simp only [Except.map, Except.ok.injEq] at h
        subst h
        have := ih hr
        simp only [size_cons, List.length_reverse, List.length_cons, List.length_nil] at *
        omega
    · split at h
      · simp at h
      · have := ih h
        simp only [List.length_cons] at *
        omega

/-- The segments of a text are together no longer than the text. -/
theorem size_split_le {body : List Char} {parts : List (List Char)}
    (h : split body = .ok parts) : size parts ≤ body.length := by
  unfold split at h
  cases hc : cutFrom (String.ofList body) .start [] body with
  | error e => rw [hc] at h; simp [Except.map] at h
  | ok ps =>
    rw [hc] at h
    simp only [Except.map, Except.ok.injEq] at h
    subst h
    have h1 := size_trim_le ps
    have h2 := size_cutFrom_le hc
    simp only [List.length_nil] at h2
    omega

/-- No segment is empty. -/
theorem ne_nil_of_mem_split {body p : List Char} {parts : List (List Char)}
    (h : split body = .ok parts) (hp : p ∈ parts) : p ≠ [] := by
  unfold split at h
  cases hc : cutFrom (String.ofList body) .start [] body with
  | error e => rw [hc] at h; simp [Except.map] at h
  | ok ps =>
    rw [hc] at h
    simp only [Except.map, Except.ok.injEq] at h
    subst h
    have := (List.mem_filter.1 hp).2
    intro hn
    subst hn
    simp at this

end DebugConsole.Segments
