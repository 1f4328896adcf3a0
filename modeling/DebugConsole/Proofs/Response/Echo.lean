import DebugConsole.Proofs.Response.Failure
import DebugConsole.Proofs.Text.Blanks
import DebugConsole.Proofs.Variable.Expansion
import DebugConsole.Session.Execution

set_option autoImplicit false

/-!
# The echo of a function that is finished

Before it lets a function run to its end, the debugger repeats which frame it is about to leave, and the
line names the place of that frame in the form of a halt.  The place is read like any other, and it is the
one that counts as long as no later line names a file: so what is reported is where the target has halted
just if the echo names no place or a later line names a file (`finishedAt_echo_iff`).

The report behind the echo is that of the later lines, with the place of the echo in front of theirs
(`stopBehind`), whatever these lines are.
-/

namespace DebugConsole

/-! ## The words of the echo -/

/-- The words with which the debugger begins to repeat which frame it is about to leave. -/
def echoWords : String := "Run till exit from #0"

/-- A line that begins with these words. -/
def echo (rest : String) : String := echoWords ++ rest

open Text (isBlank isDecimal trimmedRight)

/-- The words are still there when the blanks at the end of the line are not. -/
theorem toList_trimmedRight_echo (rest : String) :
    ∃ tail, (trimmedRight (echo rest)).toList = 'R' :: tail := by
  have hzero : echoWords.toList.getLast? = some '0' := by decide
  have hlast : ∀ c ∈ echoWords.toList.getLast?, isBlank c = false := by
    intro c hc
    rw [hzero, Option.mem_some_iff] at hc
    subst hc
    decide
  refine ⟨"un till exit from #0".toList ++ Text.trimRight rest.toList, ?_⟩
  rw [trimmedRight, String.toList_ofList, echo, String.toList_append,
    Text.trimRight_append_of_last hlast]
  rfl

theorem trimmedRight_echo_ne_empty (rest : String) : trimmedRight (echo rest) ≠ "" := by
  obtain ⟨tail, htail⟩ := toList_trimmedRight_echo rest
  intro hempty
  rw [hempty] at htail
  cases htail

/-- The echo reports no failure. -/
theorem failureMessage?_echo (rest : String) : failureMessage? (trimmedRight (echo rest)) = none := by
  obtain ⟨tail, htail⟩ := toList_trimmedRight_echo rest
  unfold failureMessage?
  rw [htail]
  rfl

/-! ## What the echo is read as -/

namespace StopLocation

/-- Does a halt name a file? -/
def namesFile (stop : Option StopLocation) : Bool := stop.any fun location => location.file.isSome

/-- What a halt comes to that follows a named place: one that names no file changes nothing. -/
def behind (left : StopLocation) : Option StopLocation → StopLocation
  | some ⟨some file, line⟩ => ⟨some file, line⟩
  | _ => left

theorem behind_eq_iff {left : StopLocation} (hleft : left.file.isSome = true)
    (stop : Option StopLocation) : some (behind left stop) = stop ↔ namesFile stop = true := by
  rcases stop with _ | ⟨_ | file, line⟩
  · exact iff_of_false nofun nofun
  · refine iff_of_false (fun heq => ?_) nofun
    rw [show left = ⟨none, line⟩ from Option.some.inj heq] at hleft
    cases hleft
  · exact iff_of_true rfl rfl

/-- Merging further halts keeps a place that has been named, until a file is named. -/
theorem mergeStop_behind {left : StopLocation} (hleft : left.file.isSome = true)
    (stop : Option StopLocation) (location : StopLocation) :
    Report.mergeStop (some (behind left stop)) location =
      behind left (some (Report.mergeStop stop location)) := by
  obtain ⟨file, line⟩ := left
  obtain ⟨file, rfl⟩ := Option.isSome_iff_exists.1 hleft
  rcases location with ⟨_ | _, _⟩
  · rcases stop with _ | ⟨_ | _, _⟩ <;> rfl
  · rcases stop with _ | ⟨_ | _, _⟩ <;> rfl

end StopLocation

namespace Grammar

/-- A halt that is read from a place names a file. -/
theorem readStop_of_sourceLine?_eq_none {s : List Char} (hsource : sourceLine? s = none)
    {location : StopLocation} (h : readStop s = .ok (some location)) : location.file.isSome = true := by
  unfold readStop at h
  split at h
  · obtain ⟨n, -, heq⟩ := Malformed.exists_of_map h
    cases heq
    rfl
  · rw [hsource] at h
    cases h

/-- The echo is no source line. -/
theorem sourceLine?_echo (rest : String) : sourceLine? (trimmedRight (echo rest)).toList = none := by
  obtain ⟨tail, htail⟩ := toList_trimmedRight_echo rest
  have hdecimal : ∀ c ∈ ('R' :: tail).head?, isDecimal c = false := by
    rintro c ⟨⟩
    decide
  have hhex : Literal.hexRun? ('R' :: tail) = none := rfl
  rw [htail, sourceLine?, hhex]
  dsimp only
  rw [Text.run?_eq_none hdecimal]

end Grammar

/-- The place that the echo names, if it names one. -/
def echoedPlace (rest : String) : Except Malformed (Option StopLocation) :=
  Grammar.readStop (trimmedRight (echo rest)).toList

theorem echoedPlace_file {rest : String} {left : StopLocation}
    (h : echoedPlace rest = .ok (some left)) : left.file.isSome = true :=
  Grammar.readStop_of_sourceLine?_eq_none (Grammar.sourceLine?_echo rest) h

namespace Report

variable {line : String} {r : Report} {left : StopLocation}

/-! ## Reading on -/

/-- A change of a report that reading a line does not mind is not minded by reading many. -/
theorem foldlM_readLine_comm {grammar : Option Grammar} {f : Report → Report}
    (hline : ∀ r line, readLine grammar (f r) line = (readLine grammar r line).map f)
    (lines : List String) (r : Report) :
    lines.foldlM (readLine grammar) (f r) = (lines.foldlM (readLine grammar) r).map f := by
  induction lines generalizing r with
  | nil => rfl
  | cons line lines ih =>
    rw [List.foldlM_cons, List.foldlM_cons, hline]
    cases readLine grammar r line with
    | error m => rfl
    | ok r => exact ih r

/-- The report with further lines logged before its own. -/
def logBefore (lines : List String) (r : Report) : Report := { r with logs := lines ++ r.logs }

theorem logBefore_log (lines : List String) (r : Report) (line : String) :
    (logBefore lines r).log line = logBefore lines (r.log line) := by
  simp [logBefore, log]

/-- What is logged before has no say in what a line is read as. -/
theorem readLine_logBefore (grammar : Option Grammar) (lines : List String) (r : Report)
    (line : String) :
    readLine grammar (logBefore lines r) line = (readLine grammar r line).map (logBefore lines) := by
  have hok : (logBefore lines r).isOk = r.isOk := rfl
  have hadd : ∀ item, (logBefore lines r).add item = logBefore lines (r.add item) := by
    intro item
    cases item <;> rfl
  unfold readLine
  rw [hok]
  split
  · exact congrArg Except.ok (logBefore_log lines r line)
  · split
    · rfl
    · split
      · exact congrArg Except.ok (logBefore_log lines r line)
      · next g =>
        cases g.read line with
        | error m => rfl
        | ok item =>
          cases item with
          | none => exact congrArg Except.ok (logBefore_log lines r line)
          | some item => exact congrArg Except.ok (hadd item)

/-- The report behind a line that has named a place. -/
def stopBehind (left : StopLocation) (r : Report) : Report :=
  { r with stop := some (left.behind r.stop) }

/-- How a line is read that may say where the target has halted. -/
theorem readLine_stop (hok : r.isOk = true) (hline : failureMessage? line = none) :
    readLine (some .stop) r line =
      (Grammar.readStop line.toList).map (·.elim (r.log line) fun location => r.add (.stop location)) :=
  readLine_of_read hok hline rfl

/-- What a line is read as does not depend on the halts before it, and a place that has been named stays
unless a file is named. -/
theorem readLine_stopBehind (hleft : left.file.isSome = true) (r : Report) (line : String) :
    readLine (some .stop) (stopBehind left r) line =
      (readLine (some .stop) r line).map (stopBehind left) := by
  have hsame : (stopBehind left r).isOk = r.isOk := rfl
  cases hok : r.isOk with
  | false =>
    rw [readLine_of_failed hok, readLine_of_failed (hsame.trans hok)]
    rfl
  | true =>
    cases hline : failureMessage? line with
    | some message =>
      rw [readLine_of_failureMessage? hok hline, readLine_of_failureMessage? (hsame.trans hok) hline]
      rfl
    | none =>
      rw [readLine_stop hok hline, readLine_stop (hsame.trans hok) hline]
      cases Grammar.readStop line.toList with
      | error m => rfl
      | ok stop =>
        cases stop with
        | none => rfl
        | some location =>
          have hmerged := StopLocation.mergeStop_behind hleft r.stop location
          show Except.ok { r with stop := some (mergeStop (some (left.behind r.stop)) location) } = _
          rw [hmerged]
          rfl

/-! ## The answer to a command that finishes a function -/

/-- What an answer with an echo says, given what it says without. -/
theorem decode_echo (rest : String) (lines : List String) :
    decode .stepOut (echo rest :: lines) =
      match echoedPlace rest with
      | .error m => .error m
      | .ok none => (decode .stepOut lines).map (logBefore [trimmedRight (echo rest)])
      | .ok (some left) => (decode .stepOut lines).map (stopBehind left) := by
  have hfirst := readLine_stop (r := empty) rfl (failureMessage?_echo rest)
  have hlines : decode .stepOut (echo rest :: lines) =
      (readLine (some .stop) empty (trimmedRight (echo rest))).bind fun r =>
        (readableLines .stepOut lines).foldlM (readLine (some .stop)) r := by
    unfold decode decodeWith
    rw [← List.singleton_append, readableLines_append,
      readableLines_of_ne_empty .stepOut (trimmedRight_echo_ne_empty rest), List.singleton_append,
      List.foldlM_cons]
    rfl
  rw [hlines, hfirst, ← echoedPlace]
  cases hplace : echoedPlace rest with
  | error m => rfl
  | ok stop =>
    cases stop with
    | none => exact foldlM_readLine_comm (readLine_logBefore _ [trimmedRight (echo rest)]) _ empty
    | some left => exact foldlM_readLine_comm (readLine_stopBehind (echoedPlace_file hplace)) _ empty

end Report

namespace Session

/-- The halt that the answer to a command that finishes a function tells of. -/
def finishedAt (lines : List String) : Option StopLocation := (decodeAnswer .stepOut lines).stop

theorem finishedAt_of_ok {lines : List String} {r : Report}
    (h : Report.decode .stepOut lines = .ok r) : finishedAt lines = r.stop := by
  rw [finishedAt, decodeAnswer, h]

theorem finishedAt_of_error {lines : List String} {m : Malformed}
    (h : Report.decode .stepOut lines = .error m) : finishedAt lines = none := by
  rw [finishedAt, decodeAnswer, h]
  rfl

/-- The halt told of is the one that the lines behind the echo tell of just if the echo names no place, or
a later line names a file; or nothing is told of at all, because a number of a line cannot be read. -/
theorem finishedAt_echo_iff (rest : String) (lines : List String) :
    finishedAt (echo rest :: lines) = finishedAt lines ↔
      match echoedPlace rest with
      | .ok none => True
      | .ok (some _) =>
        StopLocation.namesFile (finishedAt lines) = true ∨ ∃ m, Report.decode .stepOut lines = .error m
      | .error _ => finishedAt lines = none := by
  have hecho := Report.decode_echo rest lines
  cases hplace : echoedPlace rest with
  | error m =>
    rw [hplace] at hecho
    rw [finishedAt_of_error hecho]
    exact eq_comm
  | ok stop =>
    rw [hplace] at hecho
    cases hlater : Report.decode .stepOut lines with
    | error m =>
      have hfails : Report.decode .stepOut (echo rest :: lines) = .error m := by
        rw [hecho, hlater]
        cases stop <;> rfl
      rw [finishedAt_of_error hfails, finishedAt_of_error hlater]
      cases stop <;> simp
    | ok r =>
      rw [hlater] at hecho
      cases stop with
      | none =>
        rw [finishedAt_of_ok hecho, finishedAt_of_ok hlater]
        exact iff_of_true rfl trivial
      | some left =>
        rw [finishedAt_of_ok hecho, finishedAt_of_ok hlater]
        show some (left.behind r.stop) = r.stop ↔ _
        rw [StopLocation.behind_eq_iff (echoedPlace_file hplace)]
        simp

/-- A function is left for code of which the debugger knows no source: what is told of is the place that
was left. -/
theorem finishedAt_place_left :
    finishedAt [echo "  DelayMs (ms=464) at c:\\stm8_demo\\lib\\delay\\stm8s_delay.c:31",
        "0x008719 in .near_func.text_4 ()"] =
      some ⟨some "c:\\stm8_demo\\lib\\delay\\stm8s_delay.c", some 31⟩ ∧
    finishedAt ["0x008719 in .near_func.text_4 ()"] = none := by
  decide +kernel

end Session

end DebugConsole
