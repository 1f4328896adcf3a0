import DebugConsole.Response.Decode

set_option autoImplicit false

/-!
# A failure line cuts an answer

A report that has failed reads nothing any more: whatever line comes is logged as it is, malformed or not.
So an answer with a failure line says what the lines before the first one say, and the lines behind it are
in its log (`decode_failure`).  This is so for every kind of command, since the failure line is looked for
before any grammar is asked.
-/

namespace DebugConsole.Report

variable {grammar : Option Grammar} {grammarOf : CommandKind → Option Grammar} {kind : CommandKind}
  {line message : String} {pre post : List String} {r : Report}

/-! ## Lines that are read -/

theorem readableLines_append (kind : CommandKind) (pre post : List String) :
    readableLines kind (pre ++ post) = readableLines kind pre ++ readableLines kind post := by
  simp only [readableLines, List.map_append, List.filter_append]

theorem readableLines_of_ne_empty (kind : CommandKind) (h : Text.trimmedRight line ≠ "") :
    readableLines kind [line] = [Text.trimmedRight line] := by
  simp [readableLines, h]

/-- An answer is decoded line by line. -/
theorem decodeWith_append (hpre : decodeWith grammarOf kind pre = .ok r) (post : List String) :
    decodeWith grammarOf kind (pre ++ post) =
      (readableLines kind post).foldlM (readLine (grammarOf kind)) r := by
  rw [decodeWith] at hpre ⊢
  rw [readableLines_append, List.foldlM_append, hpre]
  rfl

/-! ## Failed reports -/

/-- A failure is reported by a line that holds something. -/
theorem ne_empty_of_failureMessage? (h : failureMessage? line = some message) : line ≠ "" := by
  rintro rfl
  cases h

theorem readLine_of_failureMessage? (hok : r.isOk = true) (h : failureMessage? line = some message) :
    readLine grammar r line = .ok { r with error := some message } := by
  simp [readLine, hok, h]

theorem readLine_of_failed (hfailed : r.isOk = false) : readLine grammar r line = .ok (r.log line) := by
  simp [readLine, hfailed]

/-- A line that is no failure is read by the grammar, and logged if it is none of its items. -/
theorem readLine_of_read {α : Type} {g : Grammar} {x : Except Malformed (Option α)} {item : α → Item}
    (hok : r.isOk = true) (hline : failureMessage? line = none) (hread : g.read line = x.map (·.map item)) :
    readLine (some g) r line = x.map (·.elim (r.log line) fun a => r.add (item a)) := by
  simp only [readLine, hok, hline, hread, Bool.not_true, Bool.false_eq_true, if_false]
  cases x with
  | error m => rfl
  | ok a => cases a <;> rfl

/-- A failed report logs whatever comes. -/
theorem foldlM_readLine_of_failed (hfailed : r.isOk = false) (lines : List String) :
    lines.foldlM (readLine grammar) r = .ok { r with logs := r.logs ++ lines } := by
  induction lines generalizing r with
  | nil =>
    rw [List.append_nil]
    rfl
  | cons line lines ih =>
    have hlog : (r.log line).isOk = false := hfailed
    have hlogs : (r.log line).logs ++ lines = r.logs ++ line :: lines := (List.append_cons ..).symm
    rw [List.foldlM_cons, readLine_of_failed hfailed]
    change lines.foldlM (readLine grammar) (r.log line) = _
    rw [ih hlog, hlogs]
    rfl

/-- The first failure line decides: what was read before it stays, and what follows is logged. -/
theorem decodeWith_failure (hpre : decodeWith grammarOf kind pre = .ok r) (hok : r.isOk = true)
    (hline : failureMessage? (Text.trimmedRight line) = some message) (post : List String) :
    decodeWith grammarOf kind (pre ++ [line] ++ post) =
      .ok { r with error := some message, logs := r.logs ++ readableLines kind post } := by
  have hfailed : ({ r with error := some message } : Report).isOk = false := rfl
  rw [List.append_assoc, decodeWith_append hpre, readableLines_append,
    readableLines_of_ne_empty kind (ne_empty_of_failureMessage? hline), List.singleton_append,
    List.foldlM_cons, readLine_of_failureMessage? hok hline]
  exact foldlM_readLine_of_failed hfailed (readableLines kind post)

/-- An answer that would succeed but for a failure line fails with its message, says what it says without
that line and what follows, and logs what follows. -/
theorem decode_failure (kind : CommandKind) {pre post : List String} {line message : String} {r : Report}
    (hpre : decode kind pre = .ok r) (hok : r.isOk = true)
    (hline : failureMessage? (Text.trimmedRight line) = some message) :
    decode kind (pre ++ [line] ++ post) =
      .ok { r with
        error := some message
        logs := r.logs ++
          (post.map Text.trimmedRight).filter fun line => kind == .custom || !line.isEmpty } :=
  decodeWith_failure hpre hok hline post

/-- Behind the failure line, a value that could be read, one that could not, and a further failure. -/
theorem decode_failure_locals :
    let before : Report := { empty with values := some [.scalar "x" .integer "1"], logs := ["No locals."] }
    decode .localVariables ["x = 1 ", "", "No locals."] = .ok before ∧ before.isOk = true ∧
      failureMessage? (Text.trimmedRight "Error: lost  ") = some "lost" ∧
      decode .localVariables
          (["x = 1 ", "", "No locals."] ++ ["Error: lost  "] ++ ["y = 2", " ", "z = \x7b1", "Error: gone"]) =
        .ok { before with
          error := some "lost"
          logs := ["No locals.", "y = 2", "z = \x7b1", "Error: gone"] } := by
  have hpre : decode .localVariables ["x = 1 ", "", "No locals."] =
      .ok { empty with values := some [.scalar "x" .integer "1"], logs := ["No locals."] } := rfl
  have hline : failureMessage? (Text.trimmedRight "Error: lost  ") = some "lost" := rfl
  exact ⟨hpre, rfl, hline, decode_failure .localVariables hpre rfl hline⟩

end DebugConsole.Report
