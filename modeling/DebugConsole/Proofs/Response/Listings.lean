import DebugConsole.Proofs.Response.Failure
import DebugConsole.Proofs.Variable.Expansion
import Mathlib.Data.List.Forall2

set_option autoImplicit false

/-!
# Every line of an answer

The grammars of calls, values, declarations, registers, instructions and plain lines list what they read:
one item for each line that they accept, in the order of the lines.  A line that they do not accept is
logged.  So the lines of an answer without a failure are the logged ones and the listed ones, put together
in their order (`Interleaves`), and a report holds nothing else.

`Sorts` is the fold over the lines as a relation, with one constructor for each of the two;
`decode_accounts` reads off it what holds of every kind of command.
-/

namespace DebugConsole

/-- A list is put together from two others, each of which keeps its order. -/
inductive Interleaves {α : Type} : List α → List α → List α → Prop
  | nil : Interleaves [] [] []
  | left {a : α} {as bs whole : List α} (rest : Interleaves as bs whole) :
      Interleaves (a :: as) bs (a :: whole)
  | right {b : α} {as bs whole : List α} (rest : Interleaves as bs whole) :
      Interleaves as (b :: bs) (b :: whole)

/-- The kinds of commands whose answers are listed, and the grammars that read them. -/
def CommandKind.listings : List (CommandKind × Grammar) :=
  [(stackTrace, .stack), (localVariables, .expression), (variableValue, .expression),
    (globalVariables, .definition), (registers, .register), (disassemble, .disassembly),
    (custom, .verbatim)]

namespace Grammar

variable {g : Grammar} {line : String} {item : Item}

/-! ## Where items are listed -/

/-- Which items a grammar makes of lines. -/
def makes : Grammar → Item → Bool
  | stop, .stop _ | breakpoint, .breakpoint _ | stack, .frame _ | expression, .value _
  | definition, .definition _ | register, .value _ | memory, .memory _ | disassembly, .instruction _
  | verbatim, .line _ => true
  | _, _ => false

/-- The items that a report lists in the place of a grammar. -/
def listed (r : Report) : Grammar → Option (List Item)
  | stack => r.stack.map (List.map .frame)
  | expression | register => r.values.map (List.map .value)
  | definition => r.definitions.map (List.map .definition)
  | disassembly => r.disassembly.map (List.map .instruction)
  | verbatim => r.lines.map (List.map .line)
  | stop | breakpoint | memory => none

/-- What a report says besides its log and the items in the place of a grammar. -/
def unlisted (r : Report) : Grammar → Report
  | stack => { r with stack := none, logs := [] }
  | expression | register => { r with values := none, logs := [] }
  | definition => { r with definitions := none, logs := [] }
  | disassembly => { r with disassembly := none, logs := [] }
  | verbatim => { r with lines := none, logs := [] }
  | stop | breakpoint | memory => { r with logs := [] }

theorem listed_log (g : Grammar) (r : Report) (line : String) : g.listed (r.log line) = g.listed r := by
  cases g <;> rfl

theorem unlisted_log (g : Grammar) (r : Report) (line : String) :
    g.unlisted (r.log line) = g.unlisted r := by
  cases g <;> rfl

theorem exists_of_map_map {α : Type} {x : Except Malformed (Option α)} {f : α → Item}
    (h : x.map (·.map f) = .ok (some item)) : ∃ a, f a = item := by
  obtain ⟨a, -, ha⟩ := Malformed.exists_of_map h
  obtain ⟨a, -, rfl⟩ := Option.map_eq_some_iff.1 ha
  exact ⟨a, rfl⟩

theorem makes_of_read (h : g.read line = .ok (some item)) : g.makes item = true := by
  cases g with
  | stop | breakpoint | stack | expression | memory =>
    obtain ⟨_, rfl⟩ := exists_of_map_map h
    rfl
  | definition | register =>
    obtain ⟨_, -, rfl⟩ := Option.map_eq_some_iff.1 (Except.ok.inj h)
    rfl
  | disassembly =>
    have hline := Except.ok.inj h
    split at hline
    · cases hline
    · cases hline
      rfl
  | verbatim =>
    cases h
    rfl

theorem map_push {α β : Type} (f : α → β) (items : Option (List α)) (a : α) :
    (Report.push items a).map (List.map f) = Report.push (items.map (List.map f)) (f a) := by
  cases items <;> simp [Report.push]

/-- An item of a grammar that lists is added at the end of its list, and nowhere else. -/
theorem listed_add {kind : CommandKind} (hg : (kind, g) ∈ CommandKind.listings)
    (h : g.makes item = true) (r : Report) :
    g.listed (r.add item) = Report.push (g.listed r) item ∧ g.unlisted (r.add item) = g.unlisted r := by
  have hlists : g ∈ CommandKind.listings.map Prod.snd := List.mem_map_of_mem hg
  cases g with
  | stop | breakpoint | memory => exact absurd hlists (by decide)
  | stack | expression | definition | register | disassembly | verbatim =>
    cases item <;> first | exact ⟨map_push _ _ _, rfl⟩ | cases h

end Grammar

namespace Report

variable {kind : CommandKind} {g : Grammar} {line : String} {lines : List String} {r r' : Report}

theorem foldl_push {α : Type} (known : Option (List α)) (items : List α) :
    items.foldl push known = if items.isEmpty then known else some (known.getD [] ++ items) := by
  induction items generalizing known with
  | nil => rfl
  | cons a items ih =>
    rw [List.foldl_cons, ih]
    cases items <;> simp [push]

/-! ## Sorting lines -/

/-- Lines are sorted into those that a grammar does not accept and those that it reads items from. -/
structure Sorts (g : Grammar) (lines logged accepted : List String) (items : List Item) : Prop where
  interleaved : Interleaves logged accepted lines
  logged : ∀ line ∈ logged, g.read line = .ok none
  read : List.Forall₂ (fun line item => g.read line = .ok (some item)) accepted items

theorem Sorts.nil (g : Grammar) : Sorts g [] [] [] [] := ⟨.nil, nofun, .nil⟩

theorem Sorts.log {logged accepted : List String} {items : List Item}
    (h : Sorts g lines logged accepted items) (hline : g.read line = .ok none) :
    Sorts g (line :: lines) (line :: logged) accepted items :=
  ⟨.left h.interleaved, List.forall_mem_cons.2 ⟨hline, h.logged⟩, h.read⟩

theorem Sorts.accept {logged accepted : List String} {items : List Item} {item : Item}
    (h : Sorts g lines logged accepted items) (hline : g.read line = .ok (some item)) :
    Sorts g (line :: lines) logged (line :: accepted) (item :: items) :=
  ⟨.right h.interleaved, h.logged, .cons hline h.read⟩

/-- A line that reports no failure is accepted or logged. -/
theorem readLine_eq (hok : r.isOk = true) (hline : failureMessage? line = none) :
    readLine (some g) r line = (g.read line).map (·.elim (r.log line) r.add) := by
  have hread : g.read line = (g.read line).map (·.map id) := by
    cases g.read line with
    | error m => rfl
    | ok item => cases item <;> rfl
  exact readLine_of_read hok hline hread

theorem readLine_none (hok : r.isOk = true) (hline : failureMessage? line = none) :
    readLine none r line = .ok (r.log line) := by
  simp [readLine, hok, hline]

/-- A line that is read leaves the report without an error. -/
theorem isOk_of_readLine (hok : r.isOk = true) (hline : failureMessage? line = none)
    (h : readLine (some g) r line = .ok r') : r'.isOk = true := by
  rw [readLine_eq hok hline] at h
  obtain ⟨item, -, rfl⟩ := Malformed.exists_of_map h
  cases item with
  | none => exact hok
  | some item => exact (congrArg Option.isNone (error_add r item)).trans hok

/-- Lines are decoded just if each of them is read, accepted or not. -/
theorem exists_foldlM_iff (hok : r.isOk = true) (hlines : ∀ line ∈ lines, failureMessage? line = none) :
    (∃ r', lines.foldlM (readLine (some g)) r = .ok r') ↔
      ∀ line ∈ lines, ∃ item, g.read line = .ok item := by
  induction lines generalizing r with
  | nil => exact iff_of_true ⟨r, rfl⟩ nofun
  | cons line lines ih =>
    obtain ⟨hline, hlines⟩ := List.forall_mem_cons.1 hlines
    have hfirst := readLine_eq (g := g) hok hline
    rw [List.forall_mem_cons, List.foldlM_cons]
    cases hread : g.read line with
    | error m =>
      have hraised : ¬∃ item, Except.error (α := Option Item) m = .ok item := by
        rintro ⟨item, ⟨⟩⟩
      rw [hread] at hfirst
      rw [hfirst]
      refine iff_of_false ?_ fun h => hraised h.1
      rintro ⟨r', ⟨⟩⟩
    | ok item =>
      rw [hread] at hfirst
      rw [hfirst, and_iff_right ⟨item, rfl⟩]
      exact ih (isOk_of_readLine hok hline hfirst) hlines

/-- What the lines are read as is listed in their order, behind what was listed before; what is not accepted is
logged. -/
theorem sorts_of_foldlM (hg : (kind, g) ∈ CommandKind.listings) (hok : r.isOk = true)
    (hlines : ∀ line ∈ lines, failureMessage? line = none)
    (h : lines.foldlM (readLine (some g)) r = .ok r') :
    ∃ logged accepted items, Sorts g lines logged accepted items ∧ r'.logs = r.logs ++ logged ∧
      g.listed r' = items.foldl push (g.listed r) ∧ g.unlisted r' = g.unlisted r := by
  induction lines generalizing r with
  | nil =>
    cases h
    exact ⟨[], [], [], .nil g, (List.append_nil _).symm, rfl, rfl⟩
  | cons line lines ih =>
    obtain ⟨hline, hlines⟩ := List.forall_mem_cons.1 hlines
    rw [List.foldlM_cons] at h
    obtain ⟨next, hnext, hrest⟩ := Malformed.exists_of_bind h
    obtain ⟨logged, accepted, items, hsorts, hlogs, hlisted, hunlisted⟩ :=
      ih (isOk_of_readLine hok hline hnext) hlines hrest
    rw [readLine_eq hok hline] at hnext
    obtain ⟨item, hread, rfl⟩ := Malformed.exists_of_map hnext
    rw [hlogs, hlisted, hunlisted]
    cases item with
    | none =>
      refine ⟨line :: logged, accepted, items, hsorts.log hread, ?_, ?_, Grammar.unlisted_log ..⟩
      · exact List.append_cons .. |>.symm
      · exact congrArg (items.foldl push) (Grammar.listed_log ..)
    | some item =>
      obtain ⟨hadded, hrest⟩ := Grammar.listed_add hg (Grammar.makes_of_read hread) r
      refine ⟨logged, line :: accepted, item :: items, hsorts.accept hread, ?_, ?_, hrest⟩
      · exact congrArg (· ++ logged) (logs_add r item)
      · exact congrArg (items.foldl push) hadded

/-- Without a grammar everything is logged. -/
theorem foldlM_readLine_none (hok : r.isOk = true) (hlines : ∀ line ∈ lines, failureMessage? line = none) :
    lines.foldlM (readLine none) r = .ok { r with logs := r.logs ++ lines } := by
  induction lines generalizing r with
  | nil =>
    rw [List.append_nil]
    rfl
  | cons line lines ih =>
    obtain ⟨hline, hlines⟩ := List.forall_mem_cons.1 hlines
    have hlogs : (r.log line).logs ++ lines = r.logs ++ line :: lines := (List.append_cons ..).symm
    rw [List.foldlM_cons, readLine_none hok hline]
    change lines.foldlM (readLine none) (r.log line) = _
    rw [ih (r := r.log line) hok hlines, hlogs]
    rfl

/-- Lines without a failure hold none once the blanks at their ends are cut. -/
theorem not_failure_of_mem_readableLines
    (hlines : ∀ line ∈ lines, failureMessage? (Text.trimmedRight line) = none) :
    ∀ line ∈ readableLines kind lines, failureMessage? line = none := by
  intro line hline
  obtain ⟨raw, hraw, rfl⟩ := List.mem_map.1 (List.mem_filter.1 hline).1
  exact hlines raw hraw

theorem ofKind?_of_mem_listings (hg : (kind, g) ∈ CommandKind.listings) :
    Grammar.ofKind? kind = some g := by
  have hall : ∀ e ∈ CommandKind.listings, Grammar.ofKind? e.1 = some e.2 := by decide
  exact hall _ hg

/-- Every line of an answer without a failure line is accounted for.  If the kind of the command lists its
answers, decoding succeeds just if no line holds a malformed value, and then the lines are the logged ones and
those that the grammar accepts, put together in their order, and what the report lists are the items that the
accepted lines are read as, one for each; there is nothing else in the report.  If the kind has no grammar, all
lines are logged. -/
theorem decode_accounts (kind : CommandKind) {lines : List String}
    (hlines : ∀ line ∈ lines, failureMessage? (Text.trimmedRight line) = none) :
    let readable := (lines.map Text.trimmedRight).filter fun line => kind == .custom || !line.isEmpty
    (∀ g, (kind, g) ∈ CommandKind.listings →
      ((∃ r, decode kind lines = .ok r) ↔ ∀ line ∈ readable, ∃ item, g.read line = .ok item) ∧
        ∀ r, decode kind lines = .ok r → ∃ accepted items,
          Sorts g readable r.logs accepted items ∧
            g.listed r = (if items.isEmpty then none else some items) ∧ g.unlisted r = empty) ∧
      (Grammar.ofKind? kind = none → decode kind lines = .ok { empty with logs := readable }) := by
  intro readable
  have hreadable : ∀ line ∈ readable, failureMessage? line = none :=
    not_failure_of_mem_readableLines hlines
  have hdecode : decode kind lines = readable.foldlM (readLine (Grammar.ofKind? kind)) empty := rfl
  rw [hdecode]
  refine ⟨fun g hg => ?_, fun hnone => ?_⟩
  · rw [ofKind?_of_mem_listings hg]
    refine ⟨exists_foldlM_iff isOk_empty hreadable, fun r hr => ?_⟩
    obtain ⟨logged, accepted, items, hsorts, hlogs, hlisted, hunlisted⟩ :=
      sorts_of_foldlM hg isOk_empty hreadable hr
    have hempty : g.listed empty = none ∧ g.unlisted empty = empty := by
      cases g <;> exact ⟨rfl, rfl⟩
    have hlogs : r.logs = logged := hlogs
    rw [foldl_push, hempty.1] at hlisted
    rw [hempty.2] at hunlisted
    rw [hlogs]
    exact ⟨accepted, items, hsorts, hlisted, hunlisted⟩
  · rw [hnone]
    exact foldlM_readLine_none isOk_empty hreadable

/-- A line that is no value between two values, and a blank one. -/
theorem decode_accounts_locals :
    let lines := ["x = 1 ", "  ", "No locals.", "y = \"ab\"\t"]
    let r : Report := { empty with
      values := some [.scalar "x" .integer "1", .scalar "y" .string "ab"]
      logs := ["No locals."] }
    (∀ line ∈ lines, failureMessage? (Text.trimmedRight line) = none) ∧
      decode .localVariables lines = .ok r ∧
      ∃ accepted items, Sorts .expression ["x = 1", "No locals.", "y = \"ab\""] r.logs accepted items ∧
        Grammar.expression.listed r = (if items.isEmpty then none else some items) := by
  intro lines r
  have hlines : ∀ line ∈ lines, failureMessage? (Text.trimmedRight line) = none := by decide
  have hreadable : readableLines .localVariables lines = ["x = 1", "No locals.", "y = \"ab\""] := by decide
  have hdecode : decode .localVariables lines = .ok r := rfl
  obtain ⟨haccounts, -⟩ := decode_accounts .localVariables hlines
  obtain ⟨-, hlisted⟩ := haccounts .expression (by decide)
  obtain ⟨accepted, items, hsorts, hitems, -⟩ := hlisted r hdecode
  exact ⟨hlines, hdecode, accepted, items, hreadable ▸ hsorts, hitems⟩

end Report

end DebugConsole
