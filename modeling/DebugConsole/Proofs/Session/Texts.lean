import DebugConsole.Proofs.Session.Giving
import DebugConsole.Proofs.Session.Provenance
import DebugConsole.Proofs.Text.Blanks

set_option autoImplicit false

/-!
# One line for each command

The debugger reads what is written to it line by line, and prints a prompt after each.  A command is written
with a line end behind it, and the words that the session puts together, with their numbers, hold no other.
So a command is one line just if none of the caller's texts that are put into it holds a line feed
(`isLine_writeText_iff`).

Every command that is written in a run is one of an operation that was asked for (`Operation.Gives`), so it
is enough to look at the texts of operations, one by one.
-/

namespace DebugConsole

/-! ## Line feeds -/

/-- Does a text hold a line feed, where the debugger takes a line to end? -/
def Breaks (text : String) : Prop := '\n' ∈ text.toList

instance : DecidablePred Breaks := fun text => inferInstanceAs (Decidable ('\n' ∈ text.toList))

/-- A text with one end of a line, behind everything else. -/
def IsLine (text : String) : Prop := ∃ body, text = body ++ Channel.lineEnd ∧ ¬Breaks body

@[simp] theorem breaks_append (a b : String) : Breaks (a ++ b) ↔ Breaks a ∨ Breaks b := by
  rw [Breaks, String.toList_append, List.mem_append]
  rfl

theorem isLine_append_lineEnd (command : String) :
    IsLine (command ++ Channel.lineEnd) ↔ ¬Breaks command := by
  refine ⟨?_, fun h => ⟨command, rfl, h⟩⟩
  rintro ⟨body, heq, hbody⟩
  rwa [(String.append_left_inj _).1 heq]

/-- Between other texts a separator without line feeds adds none. -/
theorem breaks_intercalate {separator : String} (h : ¬Breaks separator) (texts : List String) :
    Breaks (separator.intercalate texts) ↔ ∃ text ∈ texts, Breaks text := by
  induction texts with
  | nil => simp [Breaks]
  | cons text texts ih =>
    cases texts with
    | nil => simp
    | cons next texts =>
      rw [String.intercalate_cons_cons, breaks_append, breaks_append, ih]
      simp [h]

/-! ### Numbers -/

/-- The digits of a number are digits. -/
theorem exists_digitChar_of_mem_toDigitsCore {base fuel n : Nat} {digits : List Char} {c : Char}
    (h : c ∈ Nat.toDigitsCore base fuel n digits) : c ∈ digits ∨ ∃ d, c = Nat.digitChar d := by
  induction fuel generalizing n digits with
  | zero => exact Or.inl h
  | succ fuel ih =>
    have hcons : c ∈ Nat.digitChar (n % base) :: digits → c ∈ digits ∨ ∃ d, c = Nat.digitChar d := by
      intro hc
      rcases List.mem_cons.1 hc with rfl | hc
      · exact Or.inr ⟨_, rfl⟩
      · exact Or.inl hc
    rw [Nat.toDigitsCore] at h
    split at h
    · exact hcons h
    · exact (ih h).elim hcons Or.inr

theorem newline_not_mem_toDigits (base n : Nat) : '\n' ∉ Nat.toDigits base n := by
  intro h
  rcases exists_digitChar_of_mem_toDigitsCore h with h | ⟨d, hd⟩
  · cases h
  · exact Nat.digitChar_ne '\n' (by decide) hd.symm

@[simp] theorem not_breaks_decimal (n : Int) : ¬Breaks (Numeral.decimal n) := by
  cases n with
  | ofNat n =>
    show '\n' ∉ (Nat.repr n).toList
    rw [Nat.toList_repr]
    exact newline_not_mem_toDigits 10 n
  | negSucc n =>
    show '\n' ∉ ("-" ++ Nat.repr (n + 1)).toList
    rw [String.toList_append, Nat.toList_repr]
    simp [newline_not_mem_toDigits]

@[simp] theorem not_breaks_hexadecimal (n : Int) : ¬Breaks (Numeral.hexadecimal n) := by
  have hdigits : '\n' ∉ Numeral.hexDigits n.natAbs := newline_not_mem_toDigits 16 n.natAbs
  unfold Breaks Numeral.hexadecimal
  split <;> simp [hdigits]

/-! ## The commands -/

namespace Toolchain

/-- The words of the command that attaches to the probe. -/
def attachWords : String := "target gdi -dll swim\\stm_swim.dll -"

/-- The blanks that are cut off belong to what follows the words. -/
theorem attachCommand_eq (o : ConnectOptions) : attachCommand o = attachWords ++ attachment o := by
  have hdash : attachWords.toList.getLast? = some '-' := by decide
  have hlast : ∀ c ∈ attachWords.toList.getLast?, Text.isBlank c = false := by
    intro c hc
    rw [hdash, Option.mem_some_iff] at hc
    subst hc
    decide
  have hcut : ∀ rest, Text.trimmedRight (attachWords ++ rest) = attachWords ++ Text.trimmedRight rest := by
    intro rest
    apply String.toList_injective
    simp only [Text.trimmedRight, String.toList_append, String.toList_ofList]
    exact Text.trimRight_append_of_last hlast _
  unfold attachCommand attachment
  rw [← hcut, ← String.append_assoc, ← String.append_assoc]
  rfl

theorem not_breaks_printCommands : ∀ text ∈ printCommands, ¬Breaks text := by decide

theorem breaks_connectParts {t : Toolchain} {o : ConnectOptions} {part : String × List String}
    (h : part ∈ t.connectParts o) : Breaks part.1 ↔ ∃ piece ∈ part.2, Breaks piece := by
  have hprint : part ∈ printCommands.map (·, []) → (Breaks part.1 ↔ ∃ piece ∈ part.2, Breaks piece) := by
    intro h
    obtain ⟨text, htext, rfl⟩ := List.mem_map.1 h
    simp [not_breaks_printCommands text htext]
  have hfile : Breaks (fileCommand o.executable) ↔ ∃ piece ∈ [o.executable], Breaks piece := by
    have hopens : ¬Breaks "file \"" := by decide
    have hcloses : ¬Breaks "\"" := by decide
    simp [fileCommand, hopens, hcloses]
  cases t with
  | st7 =>
    rcases List.mem_append.1 h with h | h
    · exact hprint h
    · have hattach : ¬Breaks attachWords := by decide
      have hname : ¬Breaks "mcuname -set " := by decide
      simp only [List.mem_cons, List.not_mem_nil, or_false] at h
      rcases h with rfl | rfl | rfl
      · exact hfile
      · simp [attachCommand_eq, hattach]
      · simp [hname]
  | sdcc =>
    rcases List.mem_append.1 h with h | h
    · exact hprint h
    · have htarget : ¬Breaks "target extended-remote localhost:3333" := by decide
      simp only [List.mem_cons, List.not_mem_nil, or_false] at h
      rcases h with rfl | rfl
      · exact hfile
      · simp [htarget]

theorem not_breaks_disconnectCommands (t : Toolchain) :
    ∀ text ∈ t.disconnectCommands, ¬Breaks text := by
  cases t <;> decide

theorem not_breaks_loadCommands (t : Toolchain) : ∀ text ∈ t.loadCommands, ¬Breaks text := by
  cases t <;> decide

end Toolchain

theorem RunCommand.not_breaks_text (c : RunCommand) : ¬Breaks c.text := by
  cases c with
  | next byInstruction | step byInstruction => cases byInstruction <;> decide
  | _ => decide

/-- A number behind a file and a condition behind a word, where they are given and not empty. -/
theorem BreakpointRequest.breaks_text (r : BreakpointRequest) :
    Breaks r.text ↔ ∃ piece ∈ r.pieces, Breaks piece := by
  have hword : ¬Breaks "break " := by decide
  have hplace : Breaks r.place ↔ ∃ file ∈ r.file, Breaks file := by
    have hcolon : ¬Breaks ":" := by decide
    unfold BreakpointRequest.place
    rcases hfile : r.file with _ | file
    · simp
    · by_cases hempty : file.isEmpty = true
      · have hnone : ¬Breaks file := by rw [String.isEmpty_iff.1 hempty]; decide
        simp [Option.filter, hempty, hnone]
      · simp [Option.filter, hempty, hcolon]
  obtain ⟨tail, htext, htail⟩ : ∃ tail, r.text = "break " ++ r.place ++ tail ∧
      (Breaks tail ↔ ∃ condition ∈ r.condition, Breaks condition) := by
    refine ⟨_, rfl, ?_⟩
    have hif : ¬Breaks " if " := by decide
    have hnothing : ¬Breaks "" := by decide
    rcases r.condition with _ | condition
    · simp [hnothing]
    · by_cases hempty : condition.isEmpty = true
      · have hnone : ¬Breaks condition := by rw [String.isEmpty_iff.1 hempty]; decide
        simp [Option.filter, hempty, hnothing, hnone]
      · simp [Option.filter, hempty, hif]
  rw [htext, breaks_append, breaks_append, hplace, htail]
  simp [hword, BreakpointRequest.pieces, or_and_right, exists_or]

theorem not_breaks_removalText (numbers : List Int) : ¬Breaks (removalText numbers) := by
  have hword : ¬Breaks "delete breakpoints " := by decide
  have hblank : ¬Breaks " " := by decide
  intro h
  rcases (breaks_append _ _).1 h with h | h
  · exact hword h
  · obtain ⟨text, htext, h⟩ := (breaks_intercalate hblank _).1 h
    obtain ⟨n, -, rfl⟩ := List.mem_map.1 htext
    exact not_breaks_decimal n h

theorem Query.breaks_text (q : Query) : Breaks q.text ↔ ∃ piece ∈ q.pieces, Breaks piece := by
  cases q with
  | stack | locals | globals | registers => decide
  | value expression =>
    have hword : ¬Breaks "p " := by decide
    simp [Query.text, Query.pieces, hword]
  | memory address length =>
    have hwords : ¬Breaks "x/" ∧ ¬Breaks "xb " := by decide
    simp [Query.text, Query.pieces, hwords]
  | disassembly origin length =>
    have hwords : ¬Breaks "disassemble " ∧ ¬Breaks ",+" := by decide
    cases origin <;> simp [Query.text, Query.pieces, Origin.text, hwords]

/-- A command holds a line feed just if a text of the caller does that is put into it. -/
theorem Operation.Gives.breaks_iff {probe : Option Probe} {operation : Operation} {text : String}
    {pieces : List String} (h : operation.Gives probe text pieces) :
    Breaks text ↔ ∃ piece ∈ pieces, Breaks piece := by
  cases h with
  | attach installed prepares mem => exact Toolchain.breaks_connectParts mem
  | leave installed mem => simp [Toolchain.not_breaks_disconnectCommands _ _ mem]
  | load installed mem => simp [Toolchain.not_breaks_loadCommands _ _ mem]
  | run c => simp [c.not_breaks_text]
  | add r => exact r.breaks_text
  | remove | clear => simp [not_breaks_removalText]
  | place file mem => exact BreakpointRequest.breaks_text _
  | ask q => exact q.breaks_text
  | other | custom | extra | send => simp

namespace Session

/-- In every run, what is written for a command is the command of an operation that was asked for, with a
line end behind it, and it is one line just if no text of the caller in the command holds a line feed. -/
theorem isLine_writeText_iff (settings : Settings) (probe : Option Probe)
    (events : List (Surroundings × Event)) {k : LaunchId} {ch : Channel} {serial : Nat} {text : String}
    (hchannel : ((create settings probe).afterAll events).channels[k]? = some ch)
    (hwrites : ch.writeText? serial = some text) :
    ∃ e ∈ events, ∃ id operation command pieces, e.2 = .call id operation ∧
      operation.Gives probe command pieces ∧ text = command ++ Channel.lineEnd ∧
      (IsLine text ↔ ∀ piece ∈ pieces, ¬Breaks piece) := by
  obtain ⟨w, hw, rfl⟩ := Option.map_eq_some_iff.1 hwrites
  have hmem : w.command ∈ ((create settings probe).afterAll events).commands :=
    mem_commands.2 ⟨ch, List.mem_of_getElem? hchannel,
      Channel.mem_commands_of_mem_writers (List.mem_of_find?_eq_some hw)⟩
  obtain ⟨e, he, id, operation, pieces, hasked, hgives⟩ :=
    exists_operation_of_mem_commands settings probe events hmem
  refine ⟨e, he, id, operation, w.command.text, pieces, hasked, hgives, rfl, ?_⟩
  rw [isLine_append_lineEnd, hgives.breaks_iff]
  simp

/-- A command of the user's own is given to a debugger that has just been launched. -/
def asking (text : String) : List (Surroundings × Event) :=
  launching 0 0 0 ++ [(calm 2.0, .call 1 (.send text .custom .log))]

theorem isLine_writeText_asking :
    ∃ ch, ((create Settings.default none).afterAll (asking "show version")).channels[0]? = some ch ∧
      ch.writeText? 0 = some "show version\r\n" ∧
      ∃ e ∈ asking "show version", ∃ id operation command pieces, e.2 = .call id operation ∧
        operation.Gives none command pieces ∧ "show version\r\n" = command ++ Channel.lineEnd ∧
        (IsLine "show version\r\n" ↔ ∀ piece ∈ pieces, ¬Breaks piece) := by
  have hwrites : (((create Settings.default none).afterAll (asking "show version")).channels[0]?).bind
      (·.writeText? 0) = some "show version\r\n" := by decide +kernel
  obtain ⟨ch, hch, hwrites⟩ := Option.bind_eq_some_iff.1 hwrites
  exact ⟨ch, hch, hwrites, isLine_writeText_iff _ _ _ hch hwrites⟩

/-- A line feed at the end of what the user enters is written too, and the debugger reads two lines. -/
theorem not_isLine_asking :
    (((create Settings.default none).afterAll (asking "show version\n")).channels[0]?).bind
        (·.writeText? 0) = some "show version\n\r\n" ∧ ¬IsLine "show version\n\r\n" := by
  refine ⟨by decide +kernel, fun h => ?_⟩
  have hbreaks : Breaks "show version\n" := by decide
  exact (isLine_append_lineEnd "show version\n").1 h hbreaks

end Session

end DebugConsole
