import DebugConsole.Proofs.Session.Release

set_option autoImplicit false

/-!
# Where the breakpoint numbers come from that are removed

The numbers that debuggers give to breakpoints are kept for each file, and setting the breakpoints of a file
anew first removes the numbers kept for it.  A number means something only to the debugger that has given
it, but the session keeps it when that debugger is gone: only disconnecting forgets all numbers.  So a
removal carries numbers that some debugger of the run has given to the file; the debugger that it goes to
has given them if nothing was kept, and no breakpoint was being set, when that debugger was launched
(`assigned_of_removal`).

`Accounted` is what every step keeps: each number on the table, carried along by an operation or about to be
removed stands in the log of what has been read from debuggers.  The same induction serves both parts of the
result, with and without a debugger that was launched clean.
-/

namespace DebugConsole

/-- A number that a debugger has given to a breakpoint of a file. -/
structure Assignment where
  file : String
  number : Nat
  launch : LaunchId
  deriving DecidableEq, Repr

/-- A command with which a debugger is to remove the breakpoints of a file. -/
structure Removal where
  launch : LaunchId
  file : String
  text : String
  deriving DecidableEq, Repr

/-- What is assigned to a key, or was there before. -/
theorem mem_of_mem_assign {α β : Type} [BEq α] {entries : List (α × β)} {key : α} {value : β}
    {e : α × β} (h : e ∈ assign entries key value) : e = (key, value) ∨ e ∈ entries := by
  unfold assign at h
  split at h
  · obtain ⟨d, hd, rfl⟩ := List.mem_map.1 h
    split
    · exact Or.inl rfl
    · exact Or.inr hd
  · exact (List.mem_append.1 h).symm.imp_left List.mem_singleton.1

/-- Is a stage one of setting the breakpoints of a file? -/
def Stage.isPlacing : Stage → Bool
  | .awaitingReply _ _ _ (.place ..) => true
  | _ => false

namespace Session

variable {caller : Option CallId} {s s' : Session} {env : Surroundings} {e : Event}
  {log log' : List Assignment} {fresh : LaunchId → Prop}

/-! ## Assignments -/

/-- The number that a caller reads when it goes on. -/
def assignment? (s : Session) (e : Event) : Option Assignment :=
  match e.resumes? s with
  | some (.awaitingReply k t i (.place file condition _ _)) =>
    (BreakpointRequest.confirmed? condition (s.settledReport i (s.outcomeOf k t)).1).map
      fun b => ⟨file, b.number, k⟩
  | _ => none

/-- All numbers that are read in a run, in order. -/
def assignments (s : Session) : List (Surroundings × Event) → List Assignment
  | [] => []
  | e :: events => (s.assignment? e.2).toList ++ (s.after e.1 e.2).assignments events

/-- With so many debuggers launched, a number is known for a file if some debugger has given it to the
file, and the last one has if it is `fresh`. -/
def Known (log : List Assignment) (fresh : LaunchId → Prop) (launches : Nat) (file : String)
    (n : Nat) : Prop :=
  ∃ j, ⟨file, n, j⟩ ∈ log ∧ ∀ k, k + 1 = launches → fresh k → j = k

theorem Known.mono {launches : Nat} {file : String} {n : Nat} (h : Known log fresh launches file n)
    (hlog : log ⊆ log') : Known log' fresh launches file n := by
  obtain ⟨j, hj, hown⟩ := h
  exact ⟨j, hlog hj, hown⟩

theorem Known.later {launches launches' : Nat} {file : String} {n : Nat}
    (h : Known log fresh launches file n) (hle : launches ≤ launches')
    (hfresh : ∀ k, fresh k → k < launches) : Known log fresh launches' file n := by
  obtain ⟨j, hj, hown⟩ := h
  refine ⟨j, hj, fun k hk hkfresh => hown k ?_ hkfresh⟩
  exact Nat.le_antisymm (hfresh k hkfresh) (Nat.le_trans hle (Nat.le_of_eq hk.symm))

/-! ## What is kept -/

/-- Every number that is kept, carried along or being removed has been given to its file by a debugger
of the run, and by the one at hand if that is `fresh`. -/
structure Accounted (log : List Assignment) (fresh : LaunchId → Prop) (s : Session) : Prop where
  newest : ∀ k, s.current = some k → k + 1 = s.channels.length
  kept : ∀ e ∈ s.breakpoints, ∀ n ∈ e.2, Known log fresh s.channels.length e.1 n
  placing : ∀ c ∈ s.calls, ∀ k t i file condition confirmed rest,
    c.stage = .awaitingReply k t i (.place file condition confirmed rest) →
      k < s.channels.length ∧ (∀ b ∈ confirmed, Known log fresh s.channels.length file b.number) ∧
        ∀ j, j + 1 = s.channels.length → fresh j → k = j
  removing : ∀ c ∈ s.calls, ∀ k t i file requests,
    c.stage = .awaitingReply k t i (.clear file requests) →
      k < s.channels.length ∧ ∃ numbers : List Nat, i.text = removalText (numbers.map Int.ofNat) ∧
        ∀ n ∈ numbers, ∃ j, ⟨file, n, j⟩ ∈ log ∧ (fresh k → j = k)

namespace Accounted

theorem create (settings : Settings) (probe : Option Probe) (fresh : LaunchId → Prop) :
    (Session.create settings probe).Accounted [] fresh where
  newest := fun _ hk => by cases hk
  kept := fun _ he => absurd he List.not_mem_nil
  placing := fun _ hc => absurd hc List.not_mem_nil
  removing := fun _ hc => absurd hc List.not_mem_nil

theorem mono (h : s.Accounted log fresh) (hlog : log ⊆ log') : s.Accounted log' fresh where
  newest := h.newest
  kept := fun e he n hn => (h.kept e he n hn).mono hlog
  placing := by
    intro c hc k t i file condition confirmed rest hstage
    obtain ⟨hlt, hconfirmed, hown⟩ := h.placing c hc k t i file condition confirmed rest hstage
    exact ⟨hlt, fun b hb => (hconfirmed b hb).mono hlog, hown⟩
  removing := by
    intro c hc k t i file requests hstage
    obtain ⟨hlt, numbers, htext, hnumbers⟩ := h.removing c hc k t i file requests hstage
    refine ⟨hlt, numbers, htext, fun n hn => ?_⟩
    obtain ⟨j, hj, hown⟩ := hnumbers n hn
    exact ⟨j, hlog hj, hown⟩

/-- Fewer operations, fewer numbers. -/
theorem subset (h : s.Accounted log fresh) (hcurrent : ∀ k, s'.current = some k → s.current = some k)
    (hlaunches : s'.channels.length = s.channels.length)
    (hkept : ∀ e ∈ s'.breakpoints, e ∈ s.breakpoints) (hcalls : ∀ c ∈ s'.calls, c ∈ s.calls) :
    s'.Accounted log fresh where
  newest := fun k hk => hlaunches ▸ h.newest k (hcurrent k hk)
  kept := fun e he => hlaunches ▸ h.kept e (hkept e he)
  placing := fun c hc => hlaunches ▸ h.placing c (hcalls c hc)
  removing := fun c hc => hlaunches ▸ h.removing c (hcalls c hc)

theorem clear (h : s.Accounted log fresh) : Accounted log fresh { s with outbox := [] } :=
  h.subset (fun _ hk => hk) rfl (fun _ he => he) fun _ hc => hc

/-- A debugger has been launched.  If it is to be `fresh`, nothing is kept and no breakpoint is being
set. -/
theorem entered (h : s.Accounted log fresh) {fresh' : LaunchId → Prop}
    (hold : ∀ k, k < s.channels.length → fresh' k → fresh k)
    (hnew : fresh' s.channels.length → s.breakpoints = [] ∧ ∀ c ∈ s.calls, ¬c.stage.isPlacing) :
    s.entered.Accounted log fresh' := by
  have hlength : s.entered.channels.length = s.channels.length + 1 := by simp [Session.entered]
  refine ⟨fun k hk => ?_, fun e he n hn => ?_, ?_, ?_⟩
  · rw [hlength, ← Option.some.inj hk]
  · obtain ⟨j, hj, -⟩ := h.kept e he n hn
    refine ⟨j, hj, fun k hk hkfresh => ?_⟩
    obtain rfl : k = s.channels.length := Nat.succ.inj (hk.trans hlength)
    have hempty : e ∈ s.breakpoints := he
    simp [(hnew hkfresh).1] at hempty
  · intro c hc k t i file condition confirmed rest hstage
    have hnone : ¬fresh' s.channels.length := fun hkfresh =>
      (hnew hkfresh).2 c hc (by rw [hstage]; rfl)
    have hnever : ∀ j, j + 1 = s.entered.channels.length → ¬fresh' j := by
      intro j hj
      rwa [Nat.succ.inj (hj.trans hlength)]
    obtain ⟨hlt, hconfirmed, -⟩ := h.placing c hc k t i file condition confirmed rest hstage
    refine ⟨hlength ▸ Nat.lt_succ_of_lt hlt, fun b hb => ?_, fun j hj hjfresh =>
      absurd hjfresh (hnever j hj)⟩
    obtain ⟨j, hj, -⟩ := hconfirmed b hb
    exact ⟨j, hj, fun k hk hkfresh => absurd hkfresh (hnever k hk)⟩
  · intro c hc k t i file requests hstage
    obtain ⟨hlt, numbers, htext, hnumbers⟩ := h.removing c hc k t i file requests hstage
    refine ⟨hlength ▸ Nat.lt_succ_of_lt hlt, numbers, htext, fun n hn => ?_⟩
    obtain ⟨j, hj, hown⟩ := hnumbers n hn
    exact ⟨j, hj, fun hkfresh => hown (hold k hlt hkfresh)⟩

/-- Every small change accounts for its numbers. -/
theorem act {launches : Nat} (h : s.Accounted log fresh) (hle : launches ≤ s.channels.length)
    (hfresh : ∀ k, fresh k → k < launches)
    (hact : Act caller (Known log fresh launches) s s') :
    s'.Accounted log fresh ∧ launches ≤ s'.channels.length := by
  have hknown : ∀ {file n}, Known log fresh launches file n →
      Known log fresh s.channels.length file n := fun hn => hn.later hle hfresh
  cases hact with
  | note hn =>
    refine ⟨h.subset (fun k hk => hn.current ▸ hk) hn.launches (fun e he => hn.breakpoints ▸ he)
      (fun c hc => hn.calls ▸ hc), hn.launches ▸ hle⟩
  | wait limit own permitted =>
    refine ⟨⟨h.newest, h.kept, ?_, ?_⟩, hle⟩
    · intro c hc k t i file condition confirmed rest hstage
      rcases mem_calls_waiting hc with ⟨hc, -⟩ | rfl
      · exact h.placing c hc k t i file condition confirmed rest hstage
      · dsimp only at hstage
        subst hstage
        obtain ⟨hcurrent, hconfirmed⟩ := permitted
        have hk := h.newest k hcurrent
        exact ⟨Nat.le_of_eq hk, fun b hb => hknown (hconfirmed b hb),
          fun j hj _ => Nat.succ.inj (hk.trans hj.symm)⟩
    · intro c hc k t i file requests hstage
      rcases mem_calls_waiting hc with ⟨hc, -⟩ | rfl
      · exact h.removing c hc k t i file requests hstage
      · dsimp only at hstage
        subst hstage
        obtain ⟨hcurrent, numbers, htext, hnumbers⟩ := permitted
        have hk := h.newest k hcurrent
        refine ⟨Nat.le_of_eq hk, numbers, htext, fun n hn => ?_⟩
        obtain ⟨j, hj, hown⟩ := hknown (hnumbers n hn)
        exact ⟨j, hj, hown k hk⟩
  | answer result own =>
    exact ⟨h.subset (fun _ hk => hk) rfl (fun _ he => he) fun c hc => (List.mem_filter.1 hc).1, hle⟩
  | expect | report | forgo =>
    exact ⟨h.subset (fun _ hk => hk) rfl (fun _ he => he) fun _ hc => hc, hle⟩
  | keep hnumbers =>
    refine ⟨⟨h.newest, fun e he n hn => ?_, h.placing, h.removing⟩, hle⟩
    rcases mem_of_mem_assign he with rfl | he
    · exact hknown (hnumbers n hn)
    · exact h.kept e he n hn
  | drop file =>
    exact ⟨h.subset (fun _ hk => hk) rfl (fun _ he => (List.mem_filter.1 he).1) fun _ hc => hc, hle⟩
  | dropAll =>
    exact ⟨h.subset (fun _ hk => hk) rfl (fun _ he => absurd he List.not_mem_nil) fun _ hc => hc,
      hle⟩
  | leave => exact ⟨h.subset (fun _ hk => by cases hk) rfl (fun _ he => he) fun _ hc => hc, hle⟩
  | enter =>
    have hnever : ¬fresh s.channels.length := fun hk => Nat.not_lt_of_le hle (hfresh _ hk)
    refine ⟨h.entered (fun _ _ hk => hk) fun hk => absurd hk hnever, ?_⟩
    simpa [Session.entered] using Nat.le_succ_of_le hle

theorem acts {launches : Nat} (h : s.Accounted log fresh) (hle : launches ≤ s.channels.length)
    (hfresh : ∀ k, fresh k → k < launches)
    (hacts : Acts caller (Known log fresh launches) s s') :
    s'.Accounted log fresh ∧ launches ≤ s'.channels.length := by
  induction hacts with
  | refl => exact ⟨h, hle⟩
  | tail _ hact ih => exact ih.1.act ih.2 hfresh hact

/-- What is kept for a file is known. -/
theorem known_of_kept (h : s.Accounted log fresh) (file : String) :
    ∀ n ∈ s.breakpointNumbers file, Known log fresh s.channels.length file n := by
  intro n hn
  unfold breakpointNumbers at hn
  cases hlookup : s.breakpoints.lookup file with
  | none => simp [hlookup] at hn
  | some numbers =>
    rw [hlookup] at hn
    exact h.kept _ (mem_of_lookup hlookup) n hn

/-- What an operation brings along when it goes on is known, once it has read its answer. -/
theorem brings (h : s.Accounted log fresh) {stage : Stage} (hstage : e.resumes? s = some stage) :
    s.Brings (Known (log ++ (s.assignment? e).toList) fresh s.channels.length) stage := by
  have hread : ∃ c ∈ s.calls, c.stage = stage := by
    cases e with
    | proceeds id wait | timesOut id wait =>
      obtain ⟨c, hc, -, hcstage⟩ := exists_call_of_stageIn? hstage
      exact ⟨c, hc, hcstage⟩
    | _ => cases hstage
  obtain ⟨c, hc, rfl⟩ := hread
  unfold Session.Brings
  split
  · rename_i k t i plan hplan
    cases plan with
    | place file condition confirmed rest =>
      obtain ⟨-, hconfirmed, hown⟩ := h.placing c hc k t i file condition confirmed rest hplan
      intro b hb
      rcases List.mem_append.1 hb with hb | hb
      · exact (hconfirmed b hb).mono (List.subset_append_left _ _)
      · refine ⟨k, List.mem_append_right _ ?_, hown⟩
        rw [assignment?, hstage, hplan]
        dsimp only
        rw [Option.mem_toList.1 hb]
        exact List.mem_singleton_self _
    | _ => trivial
  · trivial

theorem after (h : s.Accounted log fresh) (hfresh : ∀ k, fresh k → k < s.channels.length)
    (env : Surroundings) (e : Event) :
    (s.after env e).Accounted (log ++ (s.assignment? e).toList) fresh ∧
      s.channels.length ≤ (s.after env e).channels.length := by
  have hclear : Accounted (log ++ (s.assignment? e).toList) fresh { s with outbox := [] } :=
    h.clear.mono (List.subset_append_left _ _)
  refine hclear.acts (Nat.le_refl _) hfresh (acts_step (hclear.known_of_kept) fun stage hstage => ?_)
  have hbrings := h.brings (e := e) hstage
  unfold Session.Brings at hbrings ⊢
  split <;> rename_i heq
  · rw [settledReport_clear]
    exact hbrings
  · trivial

/-- In every run all numbers are accounted for. -/
theorem afterAll (h : s.Accounted log fresh) (hfresh : ∀ k, fresh k → k < s.channels.length)
    (events : List (Surroundings × Event)) :
    (s.afterAll events).Accounted (log ++ s.assignments events) fresh := by
  induction events generalizing s log with
  | nil =>
    rw [assignments, List.append_nil]
    exact h
  | cons e events ih =>
    obtain ⟨hafter, hle⟩ := h.after hfresh e.1 e.2
    have hrest := ih hafter fun k hk => Nat.lt_of_lt_of_le (hfresh k hk) hle
    rwa [List.append_assoc] at hrest

end Accounted

/-! ## Debuggers that find nothing -/

/-- Is no breakpoint number kept, and is no breakpoint of a file being set? -/
def isClean (s : Session) : Bool :=
  s.breakpoints.isEmpty && s.calls.all fun c => !c.stage.isPlacing

/-- In a run a debugger is launched while no breakpoint number is kept and no breakpoint of a file is
being set. -/
def LaunchesClean (s : Session) (k : LaunchId) (events : List (Surroundings × Event)) : Prop :=
  ∃ before env id later, events = before ++ (env, .launched id true) :: later ∧
    (s.afterAll before).isClean ∧ (s.afterAll before).stage? id = some .launching ∧
      (s.afterAll before).channels.length = k

theorem assignments_append (s : Session) (before later : List (Surroundings × Event)) :
    s.assignments (before ++ later) =
      s.assignments before ++ (s.afterAll before).assignments later := by
  induction before generalizing s with
  | nil => rfl
  | cons e before ih =>
    rw [List.cons_append, assignments, ih, ← List.append_assoc]
    rfl

/-- Once a debugger has been launched that finds nothing, it has given all numbers itself. -/
theorem Accounted.launched (env : Surroundings) {id : CallId} (h : s.Accounted log fun _ => False)
    (hclean : s.isClean) (hstage : s.stage? id = some .launching) :
    (s.after env (.launched id true)).Accounted log (· = s.channels.length) ∧
      s.channels.length < (s.after env (.launched id true)).channels.length := by
  obtain ⟨hempty, hnone⟩ := Bool.and_eq_true_iff.1 hclean
  have hentered : (Session.entered { s with outbox := [] }).Accounted log (· = s.channels.length) := by
    refine h.clear.entered (fun k hk heq => absurd heq (Nat.ne_of_lt hk)) fun _ => ?_
    exact ⟨List.isEmpty_iff.1 hempty, fun c hc => by simpa using List.all_eq_true.1 hnone c hc⟩
  have hlength : s.channels.length + 1 ≤ (Session.entered { s with outbox := [] }).channels.length := by
    simp [Session.entered]
  have hafter : s.after env (.launched id true) = Session.launched { s with outbox := [] } id true := by
    have hstage' : { s with outbox := [] }.stage? id = some .launching := hstage
    rw [Session.after, step, hstage']
  rw [hafter]
  exact hentered.acts hlength (fun k hk => hk ▸ Nat.lt_succ_self _) .launched_true

/-- The removals that `setBreakpoints` waits for. -/
def removals (s : Session) : List Removal :=
  s.calls.filterMap fun c =>
    match c.stage with
    | .awaitingReply k _ i (.clear file _) => some ⟨k, file, i.text⟩
    | _ => none

theorem Accounted.removal (h : s.Accounted log fresh) {r : Removal} (hr : r ∈ s.removals) :
    ∃ numbers : List Nat, r.text = removalText (numbers.map Int.ofNat) ∧
      ∀ n ∈ numbers, ∃ j, ⟨r.file, n, j⟩ ∈ log ∧ (fresh r.launch → j = r.launch) := by
  obtain ⟨c, hc, hstage⟩ := List.mem_filterMap.1 hr
  split at hstage
  · rename_i k t i file requests hclear
    cases hstage
    exact (h.removing c hc k t i file requests hclear).2
  · cases hstage

/-- In every run, each number that `setBreakpoints` has removed was given to that file by a debugger of
the run: the one that the removal goes to, if that was launched while no number was kept and no
breakpoint of a file was being set. -/
theorem assigned_of_removal (settings : Settings) (probe : Option Probe)
    (events : List (Surroundings × Event)) {r : Removal}
    (removes : r ∈ ((create settings probe).afterAll events).removals) :
    ∃ numbers : List Nat, r.text = removalText (numbers.map Int.ofNat) ∧
      ∀ n ∈ numbers, ∃ j, ⟨r.file, n, j⟩ ∈ (create settings probe).assignments events ∧
        ((create settings probe).LaunchesClean r.launch events → j = r.launch) := by
  have hcreate := Accounted.create settings probe fun _ => False
  by_cases hclean : (create settings probe).LaunchesClean r.launch events
  · obtain ⟨before, env, id, later, rfl, hfinds, hstage, hlaunch⟩ := hclean
    have hbefore := hcreate.afterAll (fun _ hk => hk.elim) before
    obtain ⟨hlaunched, hlt⟩ := hbefore.launched env hfinds hstage
    have hlater := hlaunched.afterAll (fun k hk => hk ▸ hlt) later
    rw [afterAll_append] at removes
    obtain ⟨numbers, htext, hnumbers⟩ := hlater.removal removes
    refine ⟨numbers, htext, fun n hn => ?_⟩
    obtain ⟨j, hj, hown⟩ := hnumbers n hn
    rw [assignments_append]
    refine ⟨j, ?_, fun _ => (hown hlaunch.symm)⟩
    simpa [assignments, assignment?, Event.resumes?] using hj
  · have hrun := hcreate.afterAll (fun _ hk => hk.elim) events
    obtain ⟨numbers, htext, hnumbers⟩ := hrun.removal removes
    refine ⟨numbers, htext, fun n hn => ?_⟩
    obtain ⟨j, hj, -⟩ := hnumbers n hn
    exact ⟨j, by simpa using hj, fun h => absurd h hclean⟩

/-! ## A number that has outlived its debugger -/

/-- A debugger is launched and prints its prompt; the waits so far are counted from `wait`. -/
def launching (id : CallId) (k : LaunchId) (wait : Nat) : List (Surroundings × Event) :=
  [(calm 0.0, .call id (.start (some "gdb") [] none)),
    (calm 0.0, .launched id true),
    (calm 0.0, .channel k (.prints "(gdb) ")),
    (calm 0.0, .proceeds id (wait + 1))]

/-- A breakpoint of a file is set, and the debugger confirms it as its first one. -/
def settingFirst (id : CallId) (k : LaunchId) (wait : Nat) (file : String) (line : Int)
    (confirmation : String) : List (Surroundings × Event) :=
  [(calm 1.0, .call id (.setBreakpoints file [⟨line, none, none⟩])),
    (calm 1.0, .channel k (.writeBegins 0)),
    (calm 1.0, .channel k (.writeEnds 0 none)),
    (calm 1.0, .channel k (.prints (confirmation ++ "\n(gdb) "))),
    (calm 1.0, .proceeds id wait)]

/-- The session is closed. -/
def killing (id : CallId) (wait : Nat) : List (Surroundings × Event) :=
  [(calm 2.0, .call id .kill),
    (calm 2.0, .proceeds id wait),
    (calm 2.0, .processEnded id),
    (calm 2.0, .proceeds id (wait + 2))]

/-- A breakpoint is set in `a.c`, and its file is cleared. -/
def clearing : List (Surroundings × Event) :=
  launching 0 0 0 ++
    settingFirst 1 0 2 "a.c" 10 "Breakpoint 1 at 0x8080: file a.c, line 10." ++
    [(calm 1.0, .call 2 (.setBreakpoints "a.c" []))]

/-- A breakpoint is set in `a.c`; the session is closed and started again; a breakpoint is set in
`b.c`, and `a.c` is cleared. -/
def clearingLater : List (Surroundings × Event) :=
  launching 0 0 0 ++
    settingFirst 1 0 2 "a.c" 10 "Breakpoint 1 at 0x8080: file a.c, line 10." ++
    killing 2 3 ++
    launching 3 1 6 ++
    settingFirst 4 1 8 "b.c" 20 "Breakpoint 1 at 0x8090: file b.c, line 20." ++
    [(calm 3.0, .call 5 (.setBreakpoints "a.c" []))]

/-- The second debugger is to remove its breakpoint 1, which it has set in `b.c`: it was the first
debugger that gave that number to `a.c`. -/
theorem number_outlives_debugger :
    ((create Settings.default none).afterAll clearingLater).removals =
        [⟨1, "a.c", removalText [1]⟩] ∧
      ⟨"a.c", 1, 1⟩ ∉ (create Settings.default none).assignments clearingLater ∧
      ⟨"b.c", 1, 1⟩ ∈ (create Settings.default none).assignments clearingLater := by
  decide +kernel

/-- The first debugger has set the breakpoint that it is to remove. -/
theorem assigned_of_removal_clearing :
    (⟨0, "a.c", removalText [1]⟩ : Removal) ∈
        ((create Settings.default none).afterAll clearing).removals ∧
      ∃ numbers : List Nat, removalText [1] = removalText (numbers.map Int.ofNat) ∧
        ∀ n ∈ numbers, ⟨"a.c", n, 0⟩ ∈ (create Settings.default none).assignments clearing := by
  have removes : (⟨0, "a.c", removalText [1]⟩ : Removal) ∈
      ((create Settings.default none).afterAll clearing).removals := by decide +kernel
  have launchesClean : (create Settings.default none).LaunchesClean 0 clearing :=
    ⟨[(calm 0.0, .call 0 (.start (some "gdb") [] none))], calm 0.0, 0, _, rfl, by decide, rfl, rfl⟩
  obtain ⟨numbers, htext, hnumbers⟩ := assigned_of_removal Settings.default none clearing removes
  refine ⟨removes, numbers, htext, fun n hn => ?_⟩
  obtain ⟨j, hj, hown⟩ := hnumbers n hn
  obtain rfl : j = 0 := hown launchesClean
  exact hj

end Session

end DebugConsole
