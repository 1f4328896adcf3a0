import DebugConsole.Proofs.Session.Whereabouts

set_option autoImplicit false

/-!
# Which breakpoint numbers are retained

When operations that set breakpoints or disconnect do not overlap, a number is listed from its confirmation
on until a delete command for it has ended (`listed_iff_not_covered`).  What the debugger has answered to
the delete command plays no part in it.

One operation at most is in progress, and the numbers of the file that it deals with are off the table
(`Alone`).  So from its confirmation on a number is in one place, carried along or on the table, until it is
deleted or an operation that deletes it is under way (`Keeps`), and each step is one of those that
`Session.Change` lists.
-/

namespace DebugConsole

namespace Stage

/-- Has disconnecting deleted every breakpoint, and does it go on? -/
def isSwept : Stage → Bool
  | .awaitingReply _ _ i (.sequence .disconnect ..) => i.text != deleteAll
  | _ => false

/-- Setting breakpoints is no disconnecting. -/
theorem isSwept_of_file? {stage : Stage} (h : stage.file?.isSome) : stage.isSwept = false := by
  unfold isSwept
  split
  · cases h
  · rfl

end Stage

namespace Session

variable {s s' : Session} {env : Surroundings} {e : Event} {id : CallId} {k : LaunchId}
  {own : List Call} {table table' : List (String × List Nat)} {file f : String}
  {confirmed : List Breakpoint} {n : Nat}

/-! ## Operations that do not overlap -/

/-- Does an operation begin only when none is in progress? -/
def isSequential (s : Session) (e : Event) : Bool :=
  s.isUpkeep e &&
    match e with
    | .call .. => s.calls.isEmpty
    | _ => true

/-- One operation at most is in progress, and the numbers of the file whose breakpoints it sets are off
the table. -/
structure Alone (s : Session) (file : String) : Prop where
  few : s.calls.length ≤ 1
  cleared : ∀ c ∈ s.calls, c.stage.file? = some file → s.breakpointNumbers file = []

/-- A number is retained and not deleted by an operation that has not ended yet. -/
structure Keeps (s : Session) (file : String) (n : Nat) : Prop where
  retains : s.Retains file n
  unswept : ∀ c ∈ s.calls, c.stage.isSwept = false

namespace Alone

theorem of_idle (h : s.calls = []) : s.Alone file where
  few := by simp [h]
  cleared := fun c hc => by simp [h] at hc

theorem eq_of_mem (h : s.Alone file) {c d : Call} (hc : c ∈ s.calls) (hd : d ∈ s.calls) : c = d := by
  obtain ⟨c', hcalls⟩ | hcalls := Nat.le_one_iff_eq_zero_or_eq_one.1 h.few |>.symm.imp
    List.length_eq_one_iff.1 List.length_eq_zero_iff.1
  · rw [hcalls] at hc hd
    rw [List.mem_singleton.1 hc, List.mem_singleton.1 hd]
  · rw [hcalls] at hc
    cases hc

theorem sole (h : s.Alone file) : s.Sole file n where
  apart := by
    rintro hlisted id ⟨c, hc, -, hcarries⟩
    rw [h.cleared c hc hcarries.file?_eq] at hlisted
    cases hlisted
  one := by
    rintro i j ⟨c, hc, rfl, -⟩ ⟨d, hd, rfl, -⟩
    rw [h.eq_of_mem hc hd]

theorem not_overwrites (h : s.Alone file) : ¬Overwrites s s' file n := by
  rintro ⟨hlisted, c, hc, hfile, -⟩
  rw [h.cleared c hc hfile] at hlisted
  cases hlisted

end Alone

/-- The operation that goes on is the only one. -/
theorem Goes.calls_eq (h : Goes id s s' own table) (halone : ∀ c ∈ s.calls, c.id = id) :
    s'.calls = own := by
  have hnone : s.calls.filter (·.id != id) = [] := by
    rw [List.filter_eq_nil_iff]
    exact fun c hc => by simp [halone c hc]
  rw [h.calls, hnone, List.nil_append]

theorem Placed.alone (h : Placed k table f confirmed s'.calls s'.breakpoints)
    (hempty : f = file → numbersIn table file = []) : s'.Alone file := by
  generalize hcalls : s'.calls = own at h
  generalize hkept : s'.breakpoints = kept at h
  cases h with
  | waits stage =>
    refine ⟨by simp [hcalls], fun c hc hfile => ?_⟩
    rw [hcalls] at hc
    rw [List.mem_singleton.1 hc, stage] at hfile
    rw [breakpointNumbers, hkept]
    exact hempty (Option.some.inj hfile)
  | ends => exact .of_idle hcalls

theorem Placed.unswept (h : Placed k table f confirmed own table') :
    ∀ c ∈ own, c.stage.isSwept = false := by
  cases h with
  | waits stage =>
    intro c hc
    rw [List.mem_singleton.1 hc, stage]
    rfl
  | ends => exact fun _ hc => absurd hc List.not_mem_nil

/-- Once no operation is in progress, what is kept is on the table. -/
theorem keeps_iff_of_idle (h : s.calls = []) : s.Keeps file n ↔ n ∈ s.breakpointNumbers file := by
  constructor
  · rintro ⟨hlisted | ⟨id, c, hc, -⟩, -⟩
    · exact hlisted
    · rw [h] at hc
      cases hc
  · exact fun hlisted => ⟨Or.inl hlisted, by simp [h]⟩

theorem not_keeps_of_empty (hcalls : s.calls = []) (hkept : s.breakpoints = []) :
    ¬s.Keeps file n := by
  rw [keeps_iff_of_idle hcalls, breakpointNumbers, hkept]
  exact List.not_mem_nil

namespace Upkeep

/-- An operation begins when none is in progress, and goes on alone. -/
theorem unaccompanied (halone : s.Alone file) (he : s.isSequential e = true) :
    (∀ id operation, e = .call id operation → s.calls = []) ∧
      ∀ c ∈ s.calls, ∀ d ∈ s.calls, d.id = c.id := by
  refine ⟨?_, fun c hc d hd => by rw [halone.eq_of_mem hd hc]⟩
  rintro id operation rfl
  exact List.isEmpty_iff.1 (Bool.and_eq_true_iff.1 he).2

theorem alone (halone : s.Alone file) (hchange : Change k s s' e) (he : s.isSequential e = true) :
    s'.Alone file := by
  obtain ⟨hidle, hsame⟩ := unaccompanied halone he
  have hnew : ∀ {id own table}, s.calls = [] → Goes id s s' own table → s'.calls = own :=
    fun hnone goes => goes.calls_eq (by simp [hnone])
  cases hchange with
  | rests current launches calls kept =>
    refine ⟨calls ▸ halone.few, fun c hc hfile => ?_⟩
    rw [breakpointNumbers, kept]
    exact halone.cleared c (calls ▸ hc) hfile
  | @clears id f requests c t i goes stage =>
    have hcalls := hnew (hidle _ _ rfl) goes
    refine ⟨by simp [hcalls], fun c' hc' hfile => ?_⟩
    rw [hcalls] at hc'
    rw [List.mem_singleton.1 hc', stage] at hfile
    rw [breakpointNumbers, goes.kept, ← Option.some.inj hfile]
    exact numbersIn_unassign
  | sets goes placed =>
    obtain rfl := hnew (hidle _ _ rfl) goes
    obtain rfl := goes.kept
    refine placed.alone ?_
    rintro rfl
    exact numbersIn_unassign
  | cleared mem stage goes placed | placed mem stage goes _ placed =>
    obtain rfl := goes.calls_eq (hsame _ mem)
    obtain rfl := goes.kept
    refine placed.alone ?_
    rintro rfl
    exact halone.cleared _ mem (by rw [stage]; rfl)
  | leaves goes stage =>
    have hcalls := hnew (hidle _ _ rfl) goes
    refine ⟨by simp [hcalls], fun c hc hfile => ?_⟩
    rw [hcalls] at hc
    rw [List.mem_singleton.1 hc, stage] at hfile
    cases hfile
  | leaving mem _ goes stage' =>
    have hcalls := goes.calls_eq (hsame _ mem)
    refine ⟨by simp [hcalls], fun c hc hfile => ?_⟩
    rw [hcalls] at hc
    rw [List.mem_singleton.1 hc, stage'] at hfile
    cases hfile
  | left mem _ goes => exact .of_idle (goes.calls_eq (hsame _ mem))
  | gone goes => exact .of_idle (hnew (hidle _ _ rfl) goes)

/-- A delete command without a file covers every number. -/
theorem not_undeleted (h : ∃ d, s.deletion? e = some d ∧ d.file = none) : ¬s.Undeleted e file n := by
  obtain ⟨d, hd, hall⟩ := h
  exact fun hundeleted => hundeleted d hd (Or.inl hall)

/-- Setting breakpoints alone keeps a number until a delete command for it has ended. -/
theorem keeps_iff_of_setting (h : Upkeep k s) (halone : s.Alone file) (hchange : Change k s s' e)
    (he : s.isUpkeep e = true) (hassigns : s.assignment? e ≠ some ⟨file, n, k⟩)
    (hstays : ∀ id, e ≠ .call id .disconnect) (hsets : ∀ c ∈ s.calls, c.stage.file?.isSome)
    (hunswept : ∀ c ∈ s'.calls, c.stage.isSwept = false) :
    s'.Keeps file n ↔ s.Keeps file n ∧ s.Undeleted e file n := by
  obtain ⟨id, hothers, hpassage⟩ := h.passage hchange he hstays hsets hassigns
  have hretains := hpassage.retains_iff halone.sole hothers
  rw [and_iff_left halone.not_overwrites] at hretains
  constructor
  · intro hkeeps
    obtain ⟨hretained, hundeleted⟩ := hretains.1 hkeeps.retains
    exact ⟨⟨hretained, fun c hc => Stage.isSwept_of_file? (hsets c hc)⟩, hundeleted⟩
  · exact fun ⟨hkeeps, hundeleted⟩ => ⟨hretains.2 ⟨hkeeps.retains, hundeleted⟩, hunswept⟩

/-- Nothing is kept of a number whose delete command has ended. -/
theorem not_keeps_of_leaving {c : Call} {t : Ticket} {i : Issue} {required : List Issue}
    (hc : c ∈ s.calls) (hstage : c.stage = .leaving k t i required)
    (hdeletes : i.text = deleteAll → ∃ d, s.deletion? e = some d ∧ d.file = none) :
    ¬(s.Keeps file n ∧ s.Undeleted e file n) := by
  rintro ⟨hkeeps, hundeleted⟩
  have hunswept := hkeeps.unswept c hc
  rw [hstage] at hunswept
  exact not_undeleted (hdeletes (by simpa [Stage.isSwept] using hunswept)) hundeleted

/-- An operation that goes on alone keeps a number until a delete command for it has ended. -/
theorem keeps_iff (h : Upkeep k s) (halone : s.Alone file) (hchange : Change k s s' e)
    (he : s.isSequential e = true) (hassigns : s.assignment? e ≠ some ⟨file, n, k⟩) :
    s'.Keeps file n ↔ s.Keeps file n ∧ s.Undeleted e file n := by
  obtain ⟨hidle, hsame⟩ := unaccompanied halone he
  have hsets := h.keeps_iff_of_setting halone hchange (Bool.and_eq_true_iff.1 he).1 hassigns
  have hnew : ∀ {id own table}, s.calls = [] → Goes id s s' own table → s'.calls = own :=
    fun hnone goes => goes.calls_eq (by simp [hnone])
  cases hchange with
  | rests current launches calls kept assigns deletes =>
    have hretains : s'.Retains file n ↔ s.Retains file n := by
      simp only [Retains, Carrying, breakpointNumbers, kept, calls]
    rw [and_iff_left (undeleted_of_none deletes)]
    exact ⟨fun hkeeps => ⟨hretains.1 hkeeps.retains, calls ▸ hkeeps.unswept⟩,
      fun hkeeps => ⟨hretains.2 hkeeps.retains, calls ▸ hkeeps.unswept⟩⟩
  | clears goes stage =>
    have hnone := hidle _ _ rfl
    refine hsets (fun _ heq => by cases heq) (by simp [hnone]) fun c hc => ?_
    rw [hnew hnone goes] at hc
    rw [List.mem_singleton.1 hc, stage]
    rfl
  | sets goes placed =>
    have hnone := hidle _ _ rfl
    exact hsets (fun _ heq => by cases heq) (by simp [hnone])
      (hnew hnone goes ▸ placed.unswept)
  | cleared mem stage goes placed | placed mem stage goes _ placed =>
    refine hsets ?_ (fun c hc => ?_) (goes.calls_eq (hsame _ mem) ▸ placed.unswept)
    · rintro id rfl
      rw [hidle _ _ rfl] at mem
      cases mem
    · rw [halone.eq_of_mem hc mem, stage]
      rfl
  | leaves goes stage updates first deletes =>
    have hnone := hidle _ _ rfl
    have hcalls := hnew hnone goes
    have hretains : s'.Retains file n ↔ s.Retains file n := by
      have hlisted : s'.breakpointNumbers file = s.breakpointNumbers file := by
        rw [breakpointNumbers, goes.kept, breakpointNumbers]
      simp [Retains, Carrying, hlisted, hnone, hcalls, stage, Stage.Carries]
    rw [and_iff_left (undeleted_of_none deletes)]
    refine ⟨fun hkeeps => ⟨hretains.1 hkeeps.retains, by simp [hnone]⟩,
      fun hkeeps => ⟨hretains.2 hkeeps.retains, fun c hc => ?_⟩⟩
    rw [hcalls] at hc
    rw [List.mem_singleton.1 hc, stage]
    simp [Stage.isSwept, first]
  | leaving mem stage goes stage' updates later assigns deletes =>
    refine iff_of_false (fun hkeeps => ?_) (not_keeps_of_leaving mem stage deletes)
    have hunswept := hkeeps.unswept _ (goes.calls_eq (hsame _ mem) ▸ List.mem_singleton_self _)
    rw [stage'] at hunswept
    simp [Stage.isSwept, later] at hunswept
  | left mem stage goes assigns deletes =>
    exact iff_of_false (not_keeps_of_empty (goes.calls_eq (hsame _ mem)) goes.kept)
      (not_keeps_of_leaving mem stage deletes)
  | gone goes deletes =>
    exact iff_of_false (not_keeps_of_empty (hnew (hidle _ _ rfl) goes) goes.kept) fun hboth =>
      not_undeleted deletes hboth.2

end Upkeep

/-! ## Runs -/

namespace Upkeep

theorem afterAll (h : Upkeep k s) (halone : s.Alone file) {events : List (Surroundings × Event)}
    (hrun : throughout isSequential s events = true) :
    Upkeep k (s.afterAll events) ∧ (s.afterAll events).Alone file := by
  induction events generalizing s with
  | nil => exact ⟨h, halone⟩
  | cons e events ih =>
    obtain ⟨he, hrest⟩ := Bool.and_eq_true_iff.1 hrun
    obtain ⟨hupkeep, hchange⟩ := h.after e.1 (Bool.and_eq_true_iff.1 he).1
    exact ih hupkeep (alone halone hchange he) hrest

/-- What is kept is kept until a delete command for it has ended. -/
theorem keeps_afterAll_iff (h : Upkeep k s) (halone : s.Alone file)
    {events : List (Surroundings × Event)} (hrun : throughout isSequential s events = true)
    (hassigns : ⟨file, n, k⟩ ∉ s.assignments events) :
    (s.afterAll events).Keeps file n ↔
      s.Keeps file n ∧ ∀ d ∈ s.deletions events, ¬d.Covers file n := by
  induction events generalizing s with
  | nil => exact (and_iff_left fun d hd => absurd hd List.not_mem_nil).symm
  | cons e events ih =>
    obtain ⟨he, hrest⟩ := Bool.and_eq_true_iff.1 hrun
    obtain ⟨hupkeep, hchange⟩ := h.after e.1 (Bool.and_eq_true_iff.1 he).1
    rw [assignments, List.mem_append, not_or, Option.mem_toList] at hassigns
    have hstep := h.keeps_iff halone hchange he hassigns.1
    have hrun := ih hupkeep (alone halone hchange he) hrest hassigns.2
    have hdeletions : (∀ d ∈ s.deletions (e :: events), ¬d.Covers file n) ↔
        s.Undeleted e.2 file n ∧ ∀ d ∈ (s.after e.1 e.2).deletions events, ¬d.Covers file n := by
      simp only [deletions, List.mem_append, or_imp, forall_and, Option.mem_toList, Undeleted]
    rw [hdeletions, ← and_assoc, ← hstep]
    exact hrun

end Upkeep

/-- In every run of operations that set breakpoints or disconnect and do not overlap, on a debugger that
may answer, fail or end in any way: a number that it has confirmed for a file, and has not confirmed
again, is listed for the file at the end exactly if no delete command for it has ended since. -/
theorem listed_iff_not_covered {before later : List (Surroundings × Event)}
    {e : Surroundings × Event} (holds : s.Holds k) (idle : s.calls = [])
    (sequential : throughout isSequential s (before ++ e :: later))
    (ends : (s.afterAll (before ++ e :: later)).calls = [])
    (confirms : (s.afterAll before).assignment? e.2 = some ⟨file, n, k⟩)
    (last : ⟨file, n, k⟩ ∉ (s.afterAll (before ++ [e])).assignments later) :
    n ∈ (s.afterAll (before ++ e :: later)).breakpointNumbers file ↔
      ∀ d ∈ (s.afterAll (before ++ [e])).deletions later, ¬d.Covers file n := by
  have hstart : Upkeep k s := ⟨holds, by simp [idle], by simp [idle]⟩
  obtain ⟨hbefore, hrest⟩ := throughout_append.1 sequential
  obtain ⟨he, hlater⟩ := Bool.and_eq_true_iff.1 hrest
  have halone : s.Alone file := .of_idle idle
  obtain ⟨hupkeep, halone⟩ := hstart.afterAll halone hbefore
  obtain ⟨hupkeep', hchange⟩ := hupkeep.after e.1 (Bool.and_eq_true_iff.1 he).1
  have hconfirmed : (s.afterAll (before ++ [e])).Keeps file n := by
    obtain ⟨c, hc, own, table, confirmed, hgoes, hplaced, -⟩ := hchange.confirms confirms
    have hcalls := hgoes.calls_eq ((Upkeep.unaccompanied halone he).2 c hc)
    rw [afterAll_append]
    exact ⟨(hchange.retains confirms).1, hcalls ▸ hplaced.unswept⟩
  have hafter : s.afterAll (before ++ [e]) = (s.afterAll before).after e.1 e.2 := afterAll_append ..
  have hrun : ((s.afterAll (before ++ [e])).afterAll later).Keeps file n ↔ _ :=
    Upkeep.keeps_afterAll_iff (hafter ▸ hupkeep') (hafter ▸ Upkeep.alone halone hchange he)
      (hafter ▸ hlater) last
  rw [afterAll_append_cons] at ends ⊢
  rw [← keeps_iff_of_idle ends, hrun, and_iff_right hconfirmed]

/-! ## A delete command that fails -/

/-- A session whose debugger has printed its prompt. -/
def prompted : Session := (create Settings.default none).afterAll (launching 0 0 0)

/-- The breakpoints of a file are deleted, and the debugger answers that. -/
def emptying (id : CallId) (wait : Nat) (file answer : String) : List (Surroundings × Event) :=
  [(calm 2.0, .call id (.setBreakpoints file [])),
    (calm 2.0, .channel 0 (.writeBegins 1)),
    (calm 2.0, .channel 0 (.writeEnds 1 none)),
    (calm 2.0, .channel 0 (.prints (answer ++ "\n(gdb) "))),
    (calm 2.0, .proceeds id wait)]

/-- A breakpoint is set in `a.c`; then it is to be deleted, and the debugger fails to. -/
def failingDelete : List (Surroundings × Event) :=
  settingFirst 1 0 2 "a.c" 10 "Breakpoint 1 at 0x8080: file a.c, line 10." ++
    emptying 2 3 "a.c" "Error: cannot delete breakpoint 1"

/-- Breakpoint 1 of `a.c` is not listed any more, although no delete command has succeeded. -/
theorem failed_delete_forgets :
    throughout isSequential prompted failingDelete ∧ (prompted.afterAll failingDelete).calls = [] ∧
      ⟨"a.c", 1, 0⟩ ∈ prompted.assignments failingDelete ∧
      1 ∉ (prompted.afterAll failingDelete).breakpointNumbers "a.c" ∧
      ∀ d ∈ prompted.deletions failingDelete, d.ok = true → ¬d.Covers "a.c" 1 := by
  have hrun : throughout isSequential prompted failingDelete ∧
      (prompted.afterAll failingDelete).calls = [] ∧
      ⟨"a.c", 1, 0⟩ ∈ prompted.assignments failingDelete ∧
      1 ∉ (prompted.afterAll failingDelete).breakpointNumbers "a.c" ∧
      prompted.deletions failingDelete = [⟨some "a.c", "delete breakpoints 1", false⟩] := by
    decide +kernel
  obtain ⟨hsequential, hends, hassigned, hunlisted, hdeletions⟩ := hrun
  refine ⟨hsequential, hends, hassigned, hunlisted, ?_⟩
  rw [hdeletions]
  intro d hd hok
  rw [List.mem_singleton.1 hd] at hok
  cases hok

/-- Since it is not listed any more, a delete command for it has ended. -/
theorem listed_iff_not_covered_failingDelete :
    ∃ d ∈ (prompted.afterAll (failingDelete.take 5)).deletions (failingDelete.drop 5),
      d.Covers "a.c" 1 := by
  obtain ⟨hcurrent, hlaunched, hidle⟩ :
      prompted.current = some 0 ∧ 0 < prompted.channels.length ∧ prompted.calls = [] := by
    decide +kernel
  have holds : prompted.Holds 0 := ⟨hcurrent, _, List.getElem?_eq_getElem hlaunched⟩
  have hrun : throughout isSequential prompted
        (failingDelete.take 4 ++ (calm 1.0, .proceeds 1 2) :: failingDelete.drop 5) ∧
      (prompted.afterAll
        (failingDelete.take 4 ++ (calm 1.0, .proceeds 1 2) :: failingDelete.drop 5)).calls = [] ∧
      (prompted.afterAll (failingDelete.take 4)).assignment? (.proceeds 1 2) =
        some ⟨"a.c", 1, 0⟩ ∧
      ⟨"a.c", 1, 0⟩ ∉ (prompted.afterAll (failingDelete.take 4 ++
        [(calm 1.0, .proceeds 1 2)])).assignments (failingDelete.drop 5) ∧
      1 ∉ (prompted.afterAll (failingDelete.take 4 ++
        (calm 1.0, .proceeds 1 2) :: failingDelete.drop 5)).breakpointNumbers "a.c" := by
    decide +kernel
  obtain ⟨hsequential, hends, confirms, last, hunlisted⟩ := hrun
  rw [listed_iff_not_covered holds hidle hsequential hends confirms last] at hunlisted
  push Not at hunlisted
  exact hunlisted

end Session

end DebugConsole
