import DebugConsole.Proofs.Session.Retention
import DebugConsole.Proofs.Session.Turns

set_option autoImplicit false

/-!
# Replacing the breakpoints of a file

When the breakpoints of a file are set, the numbers that are kept for it are deleted, and then the
breakpoints are set one by one, whatever becomes of each command.  The operation ends with the ones that the
debugger has confirmed, and their numbers are kept for the file from then on (`replaced_of_setBreakpoints`).

The rounds that lie behind the operation say where it is (`Replaced`), and from them what the table holds:
what it held when the operation began, but for the file, until the operation has ended (`Tabled`).
-/

namespace DebugConsole

namespace BreakpointRequest

/-- What is confirmed is the breakpoint of a report that is no failure, unless its number is zero, and with
the condition that was asked for. -/
theorem confirmed?_eq_some_iff {condition : Option String} {r : Report} {b : Breakpoint} :
    confirmed? condition r = some b ↔
      r.isOk = true ∧ ∃ b', r.breakpoint = some b' ∧ b'.number ≠ 0 ∧ { b' with condition } = b := by
  unfold confirmed?
  split
  · rename_i hok
    simp [hok, Option.filter_eq_some_iff, and_assoc]
  · rename_i hfailed
    simp [hfailed]

/-- The condition of a breakpoint, in its command. -/
def conditionText : Option String → String
  | some condition => if condition.isEmpty then "" else " if " ++ condition
  | none => ""

/-- The text of the command that sets a breakpoint of a file. -/
theorem text_of_file {file : String} (hfile : file ≠ "") (r : BreakpointRequest) :
    ({ r with file := some file } : BreakpointRequest).text =
      "break " ++ (file ++ ":" ++ Numeral.decimal r.line) ++ conditionText r.condition := by
  have hplace : ({ r with file := some file } : BreakpointRequest).place =
      file ++ ":" ++ Numeral.decimal r.line := by
    unfold place
    rw [show (some file).filter (!·.isEmpty) = some file by simp [Option.filter_some, hfile]]
  unfold text conditionText
  rw [hplace]
  cases r.condition with
  | none => rfl
  | some condition =>
    dsimp only
    by_cases hempty : condition.isEmpty <;> simp [Option.filter_some, hempty]

end BreakpointRequest

namespace Stage

/-- An operation that sets the breakpoints of a file waits for the answer to a command. -/
theorem awaits_of_file? {stage : Stage} {file : String} (h : stage.file? = some file) :
    ∃ k t i plan, stage = .awaitingReply k t i plan := by
  unfold file? at h
  split at h
  · exact ⟨_, _, _, _, rfl⟩
  · exact ⟨_, _, _, _, rfl⟩
  · cases h

end Stage

namespace Session

variable {s s' : Session} {env : Surroundings} {e : Event} {id : CallId} {k : LaunchId} {ch : Channel}
  {c : Call} {file : String} {previous : List Nat} {requests done rest : List BreakpointRequest}
  {rounds deletes placements : List Round} {next : Next} {table : List (String × List Nat)}
  {answers : List (Except SessionFault Result)} {events : List (Surroundings × Event)}

/-! ## The script -/

/-- The command that deletes the breakpoints with some numbers. -/
def removal (previous : List Nat) : Issue :=
  plainIssue (removalText (previous.map Int.ofNat)) .removeBreakpoints .hidden

/-- The numbers that are kept for a file are deleted, if there are any. -/
def clearance (previous : List Nat) : List Issue := if previous.isEmpty then [] else [removal previous]

/-- The command that sets a breakpoint of a file. -/
def placement (file : String) (r : BreakpointRequest) : Issue :=
  plainIssue ("break " ++ (file ++ ":" ++ Numeral.decimal r.line) ++
    BreakpointRequest.conditionText r.condition) .addBreakpoint .hidden

/-- The breakpoints that are confirmed in the rounds of some requests. -/
def confirmedOf (requests : List BreakpointRequest) (rounds : List Round) : List Breakpoint :=
  (requests.zip rounds).filterMap fun (r, x) => BreakpointRequest.confirmed? r.condition x.report

/-- The next breakpoint that is set, or all that are confirmed. -/
def Next.placing (file : String) (confirmed : List Breakpoint) (requests : List BreakpointRequest) : Next :=
  match requests with
  | r :: rest => .issue (placement file r) (.place file r.condition confirmed rest)
  | [] => .finish (.breakpoints confirmed)

/-- The numbers that are kept are deleted first, if there are any. -/
def Next.replacing (file : String) (previous : List Nat) (requests : List BreakpointRequest) : Next :=
  match clearance previous with
  | i :: _ => .issue i (.clear file requests)
  | [] => .placing file [] requests

/-- The rounds in which the breakpoints of a file are replaced, and what comes next. -/
inductive Replaced (file : String) (previous : List Nat) (requests : List BreakpointRequest) :
    List Round → Next → Prop
  /-- the numbers that are kept are deleted -/
  | clears {i : Issue} (inOrder : clearance previous = [i]) :
      Replaced file previous requests [] (.issue i (.clear file requests))
  /-- the next breakpoint is set -/
  | places {deletes placements : List Round} {done rest : List BreakpointRequest} {r : BreakpointRequest}
      (cleared : deletes.map Round.issue = clearance previous) (inOrder : requests = done ++ r :: rest)
      (placed : placements.map Round.issue = done.map (placement file)) :
      Replaced file previous requests (deletes ++ placements)
        (.issue (placement file r) (.place file r.condition (confirmedOf done placements) rest))
  /-- all breakpoints have been set, and some have been confirmed -/
  | ends {deletes placements : List Round} (cleared : deletes.map Round.issue = clearance previous)
      (placed : placements.map Round.issue = requests.map (placement file)) :
      Replaced file previous requests (deletes ++ placements)
        (.finish (.breakpoints (confirmedOf requests placements)))

theorem snd_nextPlacement (hfile : file ≠ "") (s : Session) (confirmed : List Breakpoint)
    (requests : List BreakpointRequest) :
    (s.nextPlacement file confirmed requests).2 = .placing file confirmed requests := by
  cases requests with
  | nil => rfl
  | cons r rest =>
    unfold nextPlacement
    dsimp only
    rw [BreakpointRequest.text_of_file hfile]
    rfl

theorem confirmedOf_append {r : BreakpointRequest} {x : Round} (h : placements.length = done.length) :
    confirmedOf (done ++ [r]) (placements ++ [x]) =
      confirmedOf done placements ++ (BreakpointRequest.confirmed? r.condition x.report).toList := by
  unfold confirmedOf
  rw [List.zip_append h.symm, List.filterMap_append]
  cases hconfirmed : BreakpointRequest.confirmed? r.condition x.report <;> simp [hconfirmed]

/-- What is confirmed has a number, and the condition of a request. -/
theorem of_mem_confirmedOf {b : Breakpoint} (h : b ∈ confirmedOf requests rounds) :
    b.number ≠ 0 ∧ ∃ r ∈ requests, b.condition = r.condition := by
  obtain ⟨⟨r, x⟩, hmem, hconfirmed⟩ := List.mem_filterMap.1 h
  obtain ⟨-, b', -, hnumber, rfl⟩ := BreakpointRequest.confirmed?_eq_some_iff.1 hconfirmed
  exact ⟨hnumber, r, (List.of_mem_zip hmem).1, rfl⟩

/-- The breakpoints so far are set. -/
theorem Replaced.of_placed (cleared : deletes.map Round.issue = clearance previous)
    (inOrder : requests = done ++ rest) (placed : placements.map Round.issue = done.map (placement file)) :
    Replaced file previous requests (deletes ++ placements)
      (.placing file (confirmedOf done placements) rest) := by
  cases rest with
  | cons r rest => exact .places cleared inOrder placed
  | nil =>
    rw [List.append_nil] at inOrder
    subst inOrder
    exact .ends cleared placed

/-- The breakpoints of a file are replaced as they must be. -/
theorem Next.Leads.replaced (hfile : file ≠ "")
    (h : (Next.replacing file previous requests).Leads rounds next) :
    Replaced file previous requests rounds next := by
  induction h with
  | start =>
    by_cases hnone : previous.isEmpty
    · have hclears : clearance previous = [] := if_pos hnone
      have hplaced : Replaced file previous requests ([] ++ [])
          (.placing file (confirmedOf [] []) requests) := .of_placed hclears.symm rfl rfl
      rw [Next.replacing, hclears]
      exact hplaced
    · have hclears : clearance previous = [removal previous] := if_neg hnone
      rw [Next.replacing, hclears]
      exact .clears hclears
  | @told rounds plan x s before ih =>
    generalize hi : x.issue = i at ih
    cases ih with
    | clears inOrder =>
      have hplaced : Replaced file previous requests ([x] ++ [])
          (.placing file (confirmedOf [] []) requests) := by
        refine .of_placed ?_ rfl rfl
        rw [inOrder, ← hi]
        rfl
      show Replaced _ _ _ _ (s.nextPlacement file [] requests).2
      rw [snd_nextPlacement hfile]
      exact hplaced
    | @places deletes placements done rest r cleared inOrder placed =>
      -- each request so far has had one round, so the new round belongs to the new request
      have hlength : placements.length = done.length := by
        simpa using congrArg List.length placed
      show Replaced _ _ _ _ (s.nextPlacement file (_ ++ Option.toList _) rest).2
      rw [snd_nextPlacement hfile, ← confirmedOf_append hlength, List.append_assoc]
      refine .of_placed cleared ?_ ?_
      · rw [inOrder, List.append_assoc]
        rfl
      · rw [List.map_append, placed, List.map_append, List.map_singleton, hi]
        rfl

/-- What an operation that follows this script ends with. -/
theorem Follows.of_mem_confirmed {given : List Command} {confirmed : List Breakpoint} {b : Breakpoint}
    (h : s.Follows id (Replaced file previous requests) given [.ok (.breakpoints confirmed)])
    (hb : b ∈ confirmed) : b.number ≠ 0 ∧ ∃ r ∈ requests, b.condition = r.condition := by
  cases h with
  | waits _ _ _ _ _ _ _ untold => cases untold
  | ends _ _ comes _ told =>
    cases told
    cases comes with
    | ends => exact of_mem_confirmedOf hb

/-- No command that replaces breakpoints is given by a signal. -/
theorem isPlain_replacing (hfile : file ≠ "") : (Next.replacing file previous requests).IsPlain := by
  intro rounds i plan leads
  cases leads.replaced hfile with
  | clears inOrder =>
    unfold clearance at inOrder
    split at inOrder
    · cases inOrder
    · rw [← (List.cons.inj inOrder).1]
      rfl
  | places => rfl

/-! ## The table -/

/-- While an operation alone replaces the breakpoints of a file, the table is as it was when it began; once it
has ended, the numbers that were confirmed are kept for the file. -/
inductive Tabled (s : Session) (id : CallId) (file : String) (base : List (String × List Nat))
    (answers : List (Except SessionFault Result)) : Prop
  | waits {c : Call} (only : s.calls = [c]) (own : c.id = id) (sets : c.stage.file? = some file)
      (kept : s.breakpoints = base) (untold : answers = [])
  | ends {confirmed : List Breakpoint} (idle : s.calls = [])
      (kept : s.breakpoints = assign base file (confirmed.map (·.number)))
      (told : answers = [.ok (.breakpoints confirmed)])

/-- A command that the debugger takes is waited for. -/
theorem perform_goes {numbers : List CommandId} (h : s.Open k ch numbers) (env : Surroundings) (id : CallId)
    {i : Issue} (plan : Plan) (hplain : i.bySignal = false) :
    ∃ c, Goes id s (s.perform env id i plan) [c] s.breakpoints ∧
      c.stage = .awaitingReply k ch.outcomes.length i plan := by
  obtain ⟨ch', -, hperform⟩ := perform_eq_of_isOpen env id plan h.current h.present h.isOpen hplain
  have hnumbered : Notes s (s.numbered i.text) := { Notes.refl s with }
  obtain ⟨c, hgoes, hstage⟩ := Goes.awaitReply ((s.numbered i.text).changeChannel k fun _ => ch') id k
    ch.outcomes.length i plan
  exact ⟨c, hperform ▸ hgoes.after (hnumbered.trans .changeChannel), hstage⟩

theorem asksFor_of_isCall (h : e.isCall = false) : e.asksFor id = false := by
  cases e with
  | call => cases h
  | _ => rfl

/-- Operations in progress and the table stay when others have their turns. -/
theorem after_of_others (env : Surroundings) (he : e.isCall = false)
    (h : ∀ c ∈ s.calls, e.caller? ≠ some c.id) :
    (s.after env e).calls = s.calls ∧ (s.after env e).breakpoints = s.breakpoints := by
  cases hcaller : e.caller? with
  | none => exact (Upkeep.step_rests (s := { s with outbox := [] }) env hcaller).2.2
  | some id =>
    have hgone : id ∉ s.calls.map Call.id := by
      rintro hmem
      obtain ⟨c, hc, rfl⟩ := List.mem_map.1 hmem
      exact h c hc hcaller
    have hafter : s.after env e = { s with outbox := [] } :=
      step_of_absent (s := { s with outbox := [] }) hgone hcaller (asksFor_of_isCall he)
    rw [hafter]
    exact ⟨rfl, rfl⟩

namespace Tabled

variable {base : List (String × List Nat)} {confirmed : List Breakpoint}

/-- The only operation gives a command. -/
theorem of_perform {numbers : List CommandId} (h : s.Open k ch numbers) (env : Surroundings)
    {i : Issue} {plan : Plan} (hplain : i.bySignal = false)
    (sets : ∀ k t, (Stage.awaitingReply k t i plan).file? = some file) (only : ∀ c ∈ s.calls, c.id = id)
    (unanswered : s.answersIn id = []) :
    (s.perform env id i plan).Tabled id file s.breakpoints ((s.perform env id i plan).answersIn id) := by
  obtain ⟨c, hgoes, hstage⟩ := perform_goes h env id plan hplain
  refine .waits (hgoes.calls_eq only) (hgoes.ids c (List.mem_singleton_self c)) ?_ hgoes.kept
    (h.answersIn_perform env plan hplain unanswered)
  rw [hstage]
  exact sets _ _

/-- The only operation sets the next breakpoint, or ends. -/
theorem of_placing {numbers : List CommandId} (h : s.Open k ch numbers) (env : Surroundings)
    (confirmed : List Breakpoint) (requests : List BreakpointRequest) (only : ∀ c ∈ s.calls, c.id = id)
    (unanswered : s.answersIn id = []) :
    (s.placing env id file confirmed requests).Tabled id file s.breakpoints
      ((s.placing env id file confirmed requests).answersIn id) := by
  cases requests with
  | cons r rest => exact of_perform h env rfl (fun _ _ => rfl) only unanswered
  | nil =>
    let kept : Session := { s with breakpoints := assign s.breakpoints file (confirmed.map (·.number)) }
    have hplacing : s.placing env id file confirmed [] = kept.answer id (.ok (.breakpoints confirmed)) := rfl
    have hanswers : kept.answersIn id = [] := unanswered
    rw [hplacing, answersIn_answer, hanswers]
    have idle : (kept.answer id (.ok (.breakpoints confirmed))).calls = [] := by
      show kept.calls.filter _ = []
      rw [List.filter_eq_nil_iff]
      exact fun c hc => by simp [only c hc]
    exact .ends idle rfl rfl

/-- An operation that replaces breakpoints goes on with the next one. -/
theorem proceed_eq (env : Surroundings) {c : Call} (sets : c.stage.file? = some file)
    (hdone : ∀ k t i plan, c.stage = .awaitingReply k t i plan → (s.outcomeOf k t).isDone = true) :
    ∃ s' confirmed rest, Notes s s' ∧ Inward s s' ∧
      s.proceed env c.id c.stage = s'.placing env c.id file confirmed rest := by
  generalize c.stage = stage at *
  unfold Stage.file? at sets
  split at sets
  · rename_i k t i f requests
    cases sets
    exact ⟨_, [], requests, .settledReport, .settledReport, if_pos (hdone _ _ _ _ rfl)⟩
  · rename_i k t i f condition confirmed rest
    cases sets
    exact ⟨_, _, rest, .settledReport, .settledReport, if_pos (hdone _ _ _ _ rfl)⟩
  · cases sets

/-- A step in which the operation waits. -/
theorem rests {c : Call} (only : (s.after env e).calls = [c]) (sets : c.stage.file? = some file)
    (kept : (s.after env e).breakpoints = base) (untold : (s.after env e).answersIn c.id = []) :
    (s.after env e).Tabled c.id file base ([] ++ (s.after env e).answersIn c.id) := by
  rw [untold]
  exact .waits only rfl sets kept rfl

/-- The table is as it was, or the operation ends, in every step of a session that is open. -/
theorem after (h : s.Tabled id file base answers) (sound : s.Sound) (hrunning : s.isRunning = true)
    (env : Surroundings) (he : e.isCall = false) :
    (s.after env e).Tabled id file base (answers ++ (s.after env e).answersIn id) := by
  have hasks : ∀ id, e.asksFor id = false := fun _ => asksFor_of_isCall he
  cases h with
  | ends idle kept told =>
    have hgone : id ∉ s.calls.map Call.id := by simp [idle]
    obtain ⟨hcalls, hkept⟩ := after_of_others (s := s) env he (by simp [idle])
    rw [(answersIn_of_absent env hgone (hasks id)).2, List.append_nil]
    exact .ends (hcalls.trans idle) (hkept.trans kept) told
  | @waits c only own sets kept untold =>
    subst own untold
    have hc : c ∈ s.calls := only ▸ List.mem_singleton_self c
    by_cases hown : e.caller? = some c.id
    · obtain ⟨k, t, i, plan, hstage⟩ := Stage.awaits_of_file? sets
      rcases after_own_of_awaitingReply env sound.nodup hc hstage hown (hasks c.id) with
        hafter | hafter | ⟨hdone, hafter⟩
      · exact rests (hafter ▸ only) sets (hafter ▸ kept) (by rw [hafter]; rfl)
      · have hspares : Spares c.id { s with outbox := [] } ({ s with outbox := [] }.giveUp k t) := .giveUp
        exact rests (hafter ▸ only) sets (hafter ▸ kept) (by rw [hafter]; exact hspares.answersIn rfl)
      · obtain ⟨s', confirmed, rest, hnotes, hinward, hproceeds⟩ :=
          proceed_eq (s := { s with outbox := [] }) env sets fun k' t' i' plan' hstage' => by
            cases hstage.symm.trans hstage'
            exact hdone
        obtain ⟨j, ch, numbers, hopen⟩ := sound.exists_open hrunning
        have honly : ∀ d ∈ s'.calls, d.id = c.id := by
          intro d hd
          have hsame : d ∈ [c] := only ▸ hinward.calls ▸ hd
          rw [List.mem_singleton.1 hsame]
        have hspares : Spares c.id { s with outbox := [] } s' := .of_inward hinward
        have hkept : s'.breakpoints = base := hnotes.breakpoints.trans kept
        rw [hafter, hproceeds, ← hkept]
        exact of_placing (hopen.clear.of_inward hinward) env confirmed rest honly (hspares.answersIn rfl)
    · have hspares : Spares c.id { s with outbox := [] } (s.after env e) := .step hown
      obtain ⟨hcalls, hkept⟩ := after_of_others (s := s) env he (by simp [only, hown])
      exact rests (hcalls.trans only) sets (hkept.trans kept) (hspares.answersIn rfl)

/-- So it is in every run of a session that stays open. -/
theorem afterAll (h : s.Tabled id file base answers) (sound : s.Sound) (stays : s.StaysOpen events)
    (alone : ∀ e ∈ events, e.2.isCall = false) :
    (s.afterAll events).Tabled id file base (answers ++ s.answersTo id events) := by
  induction events generalizing s answers with
  | nil =>
    rw [answersTo, List.append_nil]
    exact h
  | cons e events ih =>
    obtain ⟨hrunning, hstays⟩ := staysOpen_cons.1 stays
    rw [answersTo, ← List.append_assoc]
    exact ih (h.after sound hrunning e.1 (alone e List.mem_cons_self)) (sound.after e.1 e.2) hstays
      fun e he => alone e (List.mem_cons_of_mem _ he)

/-- The numbers of a file are those of the confirmed breakpoints at the end; those of the others stay. -/
theorem numbers (h : s.Tabled id file (unassign table file) answers) :
    (∀ confirmed, answers = [.ok (.breakpoints confirmed)] →
        s.breakpointNumbers file = confirmed.map (·.number)) ∧
      ∀ other, other ≠ file → s.breakpointNumbers other = numbersIn table other := by
  have hnumbers : ∀ f, s.breakpointNumbers f = numbersIn s.breakpoints f := fun _ => rfl
  cases h with
  | waits only own sets kept untold =>
    refine ⟨fun confirmed htold => ?_, fun other hne => ?_⟩
    · cases untold.symm.trans htold
    · rw [hnumbers, kept, numbersIn_unassign_of_ne hne]
  | ends idle kept told =>
    refine ⟨fun confirmed htold => ?_, fun other hne => ?_⟩
    · cases told.symm.trans htold
      rw [hnumbers, kept, numbersIn_assign]
    · rw [hnumbers, kept, numbersIn_assign_of_ne hne, numbersIn_unassign_of_ne hne]

end Tabled

/-! ## The operation -/

/-- When the breakpoints of a file are set, its numbers are taken off the table and the first command is given.
-/
theorem after_setBreakpoints (hfile : file ≠ "") (s : Session) (env : Surroundings) (id : CallId)
    (requests : List BreakpointRequest) :
    ∃ s', Inward { s with outbox := [] } s' ∧
      s.after env (.call id (.setBreakpoints file requests)) =
        s'.continuePlan env id (.replacing file (s.breakpointNumbers file) requests) := by
  let begun : Session := { s with outbox := [], breakpoints := unassign s.breakpoints file }
  have hbegun : Inward { s with outbox := [] } begun := { Inward.refl { s with outbox := [] } with }
  by_cases hnone : (s.breakpointNumbers file).isEmpty
  · have hfirst : Next.replacing file (s.breakpointNumbers file) requests =
        (begun.nextPlacement file [] requests).2 := by
      rw [snd_nextPlacement hfile, Next.replacing, clearance, if_pos hnone]
    rw [hfirst]
    exact ⟨_, hbegun.trans .nextPlacement, if_pos hnone⟩
  · have hfirst : Next.replacing file (s.breakpointNumbers file) requests =
        .issue (removal (s.breakpointNumbers file)) (.clear file requests) := by
      rw [Next.replacing, clearance, if_neg hnone]
    rw [hfirst]
    exact ⟨begun, hbegun, if_neg hnone⟩

/-- The table is without the numbers of the file from then on. -/
theorem Tabled.of_setBreakpoints (sound : s.Sound) (hrunning : s.isRunning = true) (idle : s.calls = [])
    (env : Surroundings) (id : CallId) (file : String) (requests : List BreakpointRequest) :
    (s.after env (.call id (.setBreakpoints file requests))).Tabled id file (unassign s.breakpoints file)
      ((s.after env (.call id (.setBreakpoints file requests))).answersIn id) := by
  let begun : Session := { s with outbox := [], breakpoints := unassign s.breakpoints file }
  obtain ⟨k, ch, numbers, hopen⟩ := sound.exists_open hrunning
  have hbegun : begun.Open k ch numbers := { hopen with }
  have only : ∀ c ∈ begun.calls, c.id = id := by
    intro c hc
    rw [show begun.calls = [] from idle] at hc
    cases hc
  by_cases hnone : (s.breakpointNumbers file).isEmpty
  · have hafter : s.after env (.call id (.setBreakpoints file requests)) =
        begun.placing env id file [] requests := if_pos hnone
    rw [hafter]
    exact Tabled.of_placing hbegun env [] requests only rfl
  · have hafter : s.after env (.call id (.setBreakpoints file requests)) =
        begun.perform env id (removal (s.breakpointNumbers file)) (.clear file requests) := if_neg hnone
    rw [hafter]
    exact Tabled.of_perform hbegun env rfl (fun _ _ => rfl) only rfl

/-- Setting the breakpoints of a file, alone and in a session that stays open: the numbers that were kept for
the file are deleted in one command, if there were any, then the breakpoints are set in one command each and
in order, and the caller is told of those that the debugger has confirmed.  From then on their numbers are kept
for the file, and those of the other files are as before. -/
theorem replaced_of_setBreakpoints (reached : s.Reached) (idle : s.calls = []) (named : file ≠ "")
    (env : Surroundings) (id : CallId) (requests : List BreakpointRequest)
    (alone : ∀ e ∈ events, e.2.isCall = false)
    (stays : s.StaysOpen ((env, .call id (.setBreakpoints file requests)) :: events)) :
    let run := (env, .call id (.setBreakpoints file requests)) :: events
    (s.afterAll run).Fulfils id (Replaced file (s.breakpointNumbers file) requests) (s.gives id run)
        (s.answersTo id run) ∧
      (∀ confirmed, s.answersTo id run = [.ok (.breakpoints confirmed)] →
        (s.afterAll run).breakpointNumbers file = confirmed.map (·.number) ∧
          ∀ b ∈ confirmed, b.number ≠ 0 ∧ ∃ r ∈ requests, b.condition = r.condition) ∧
      ∀ other, other ≠ file → (s.afterAll run).breakpointNumbers other = s.breakpointNumbers other := by
  intro run
  have sound := reached.sound
  obtain ⟨hrunning, hstays⟩ := staysOpen_cons.1 stays
  have hplain : (Next.replacing file (s.breakpointNumbers file) requests).IsPlain := isPlain_replacing named
  have hlater := sound.after env (.call id (.setBreakpoints file requests))
  obtain ⟨s', hinward, hafter⟩ := after_setBreakpoints named s env id requests
  have hbegins := Stands.of_continuePlan sound hrunning hplain rfl hinward hafter .start
    fun x hx => absurd hx List.not_mem_nil
  have hstands := hbegins.afterAll hlater hstays hplain fun e he => asksFor_of_isCall (alone e he)
  have hfulfils : (s.afterAll run).Fulfils id (Replaced file (s.breakpointNumbers file) requests)
      (s.gives id run) (s.answersTo id run) :=
    hstands.fulfils (hlater.afterAll events) hplain env fun _ _ leads => leads.replaced named
  obtain ⟨hnumbers, hothers⟩ :=
    ((Tabled.of_setBreakpoints sound hrunning idle env id file requests).afterAll hlater hstays alone).numbers
  refine ⟨hfulfils, fun confirmed htold => ⟨hnumbers confirmed htold, fun b hb => ?_⟩, hothers⟩
  have hfollows := hfulfils.follows
  rw [htold] at hfollows
  exact hfollows.of_mem_confirmed hb

/-- A session that has set breakpoint 1 in `a.c`. -/
def guarded : Session :=
  prompted.afterAll (settingFirst 1 0 2 "a.c" 10 "Breakpoint 1 at 0x8080: file a.c, line 10.")

/-- A command is written, the debugger answers it, and the operation goes on. -/
def answering (serial wait : Nat) (answer : String) : List (Surroundings × Event) :=
  [(calm 2.0, .channel 0 (.writeBegins serial)),
    (calm 2.0, .channel 0 (.writeEnds serial none)),
    (calm 2.0, .channel 0 (.prints (answer ++ "\n(gdb) "))),
    (calm 2.0, .proceeds 2 wait)]

/-- The breakpoint is deleted, the first of two others is refused, and the second is set. -/
def replacing : List (Surroundings × Event) :=
  answering 1 3 "" ++ answering 2 4 "No symbol \"x\" in current context." ++
    answering 3 5 "Breakpoint 2 at 0x8090: file a.c, line 30."

/-- The file has the one that was set. -/
theorem replaced_of_setBreakpoints_guarded :
    let requests : List BreakpointRequest := [⟨20, none, some "x > 1"⟩, ⟨30, none, none⟩]
    let run := (calm 2.0, .call 2 (.setBreakpoints "a.c" requests)) :: replacing
    guarded.gives 2 run = [⟨1, "delete breakpoints 1"⟩, ⟨2, "break a.c:20 if x > 1"⟩, ⟨3, "break a.c:30"⟩] ∧
      (guarded.afterAll run).Fulfils 2 (Replaced "a.c" [1] requests) (guarded.gives 2 run)
        (guarded.answersTo 2 run) ∧
      (guarded.afterAll run).breakpointNumbers "a.c" = [2] := by
  intro requests run
  have reached : guarded.Reached := ((Reached.create _ _).afterAll _).afterAll _
  have alone : ∀ e ∈ replacing, e.2.isCall = false := by decide +kernel
  have hrun : guarded.calls = [] ∧ guarded.breakpointNumbers "a.c" = [1] ∧ guarded.StaysOpen run ∧
      guarded.gives 2 run =
        [⟨1, "delete breakpoints 1"⟩, ⟨2, "break a.c:20 if x > 1"⟩, ⟨3, "break a.c:30"⟩] ∧
      (guarded.afterAll run).breakpointNumbers "a.c" = [2] := by
    decide +kernel
  obtain ⟨idle, hprevious, stays, hgives, hnumbers⟩ := hrun
  obtain ⟨hfulfils, -, -⟩ :=
    replaced_of_setBreakpoints reached idle (by decide) (calm 2.0) 2 requests alone stays
  exact ⟨hgives, hprevious ▸ hfulfils, hnumbers⟩

end Session

end DebugConsole
