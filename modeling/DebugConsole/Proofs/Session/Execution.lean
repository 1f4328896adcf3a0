import DebugConsole.Session.Step

set_option autoImplicit false

/-!
# What executing commands leaves alone

Most of what a session does between two commands is its own affair: it logs, takes notes, reports
halts, and lets those go on who wait.  `Session.Inward` says what such a change leaves alone: the
channels, the numbers of commands and the operations in progress; and nobody is answered.  What else
a session does, it does by submitting commands, by waiting and by ending operations.
-/

namespace DebugConsole

/-- Does a request tell a caller what an operation has ended with? -/
def Request.isAnswer : Request → Bool
  | .answer .. => true
  | _ => false

namespace Session

variable {s s' s'' : Session} {env : Surroundings} {call : CallId}

/-! ## Operations in progress -/

/-- An operation that is found by its number is in progress. -/
theorem exists_call_of_stage? {stage : Stage} (h : s.stage? call = some stage) :
    ∃ c ∈ s.calls, c.id = call ∧ c.stage = stage := by
  obtain ⟨c, hc, rfl⟩ := Option.map_eq_some_iff.1 h
  exact ⟨c, List.mem_of_find?_eq_some hc, by simpa using List.find?_some hc, rfl⟩

theorem exists_call_of_stageIn? {wait : Nat} {stage : Stage}
    (h : s.stageIn? call wait = some stage) : ∃ c ∈ s.calls, c.id = call ∧ c.stage = stage := by
  obtain ⟨c, hc, rfl⟩ := Option.map_eq_some_iff.1 h
  exact exists_call_of_stage? (by rw [stage?, (Option.filter_eq_some_iff.1 hc).1, Option.map_some])

/-- The session in which an operation waits, before anyone is asked to wake it. -/
def waiting (s : Session) (call : CallId) (stage : Stage) (limit : Option Float) : Session :=
  { s with
    calls := s.calls.filter (·.id != call) ++ [⟨call, stage, s.waits, limit⟩]
    waits := s.waits + 1 }

/-- The other operations wait as before. -/
theorem mem_calls_waiting {stage : Stage} {limit : Option Float} {c : Call}
    (hc : c ∈ (s.waiting call stage limit).calls) :
    c ∈ s.calls ∧ c.id ≠ call ∨ c = ⟨call, stage, s.waits, limit⟩ := by
  refine (List.mem_append.1 hc).imp (fun hc => ?_) List.mem_singleton.1
  exact ⟨(List.mem_filter.1 hc).1, by simpa using (List.mem_filter.1 hc).2⟩

/-! ## Changes within a session -/

/-- A change within a session: nothing reaches a channel, and no operation begins, waits or ends. -/
structure Inward (s s' : Session) : Prop where
  current : s'.current = s.current
  channels : s'.channels = s.channels
  nextId : s'.nextId = s.nextId
  calls : s'.calls = s.calls
  asks : ∃ rs : List Request, s'.outbox = s.outbox ++ rs ∧ ∀ r ∈ rs, r.isAnswer = false

namespace Inward

theorem trans (h : Inward s s') (h' : Inward s' s'') : Inward s s'' where
  current := h'.current.trans h.current
  channels := h'.channels.trans h.channels
  nextId := h'.nextId.trans h.nextId
  calls := h'.calls.trans h.calls
  asks := by
    obtain ⟨rs, hrs, hno⟩ := h.asks
    obtain ⟨rs', hrs', hno'⟩ := h'.asks
    refine ⟨rs ++ rs', by rw [hrs', hrs, List.append_assoc], fun r hr => ?_⟩
    exact (List.mem_append.1 hr).elim (hno r) (hno' r)

theorem of_eq (hcurrent : s'.current = s.current) (hchannels : s'.channels = s.channels)
    (hnextId : s'.nextId = s.nextId) (hcalls : s'.calls = s.calls)
    (houtbox : s'.outbox = s.outbox) : Inward s s' :=
  ⟨hcurrent, hchannels, hnextId, hcalls, [], by rw [houtbox, List.append_nil],
    fun _ hr => absurd hr List.not_mem_nil⟩

theorem refl (s : Session) : Inward s s := .of_eq rfl rfl rfl rfl rfl

theorem requestAll {rs : List Request} (h : ∀ r ∈ rs, r.isAnswer = false) :
    Inward s (s.requestAll rs) := ⟨rfl, rfl, rfl, rfl, rs, rfl, h⟩

theorem request {r : Request} (h : r.isAnswer = false) : Inward s (s.request r) :=
  requestAll fun r hr => by rwa [List.mem_singleton.1 hr]

/-- Operations that go on are not answered yet. -/
theorem goOn (calls : List Call) : Inward s (s.requestAll (calls.map Call.goOn)) := by
  apply requestAll
  intro r hr
  obtain ⟨c, -, rfl⟩ := List.mem_map.1 hr
  rfl

theorem foldl {α : Type} {f : Session → α → Session} (h : ∀ s a, Inward s (f s a)) (as : List α)
    (s : Session) : Inward s (as.foldl f s) := by
  induction as generalizing s with
  | nil => exact .refl s
  | cons a as ih => exact (h s a).trans (ih _)

theorem suspend {stage : Stage} {limit : Option Float} :
    Inward (s.waiting call stage limit) (s.suspend call stage limit) := by
  unfold Session.suspend
  split
  · split
    · exact request rfl
    · exact .refl _
  · exact .refl _

theorem letGoOn : Inward s (s.letGoOn call) := goOn _

theorem publish {e : SessionEvent} : Inward s (s.publish e) := .of_eq rfl rfl rfl rfl rfl

theorem log {level : LogLevel} {message : String} : Inward s (s.log level message) := by
  unfold Session.log
  split
  · split
    · exact publish
    · exact .refl s
  · exact publish

theorem newStopTicket : Inward s s.newStopTicket := .of_eq rfl rfl rfl rfl rfl

theorem expectStop : Inward s s.expectStop := by
  unfold Session.expectStop
  split
  · split
    · exact .refl s
    · exact newStopTicket
  · exact newStopTicket

theorem withStopTicket : Inward s s.withStopTicket := by
  unfold Session.withStopTicket
  split
  · exact .refl s
  · exact newStopTicket

/-- Whoever waits for a halt goes on, and is not answered yet. -/
theorem reportStop {location : Option StopLocation} : Inward s (s.reportStop location) := by
  unfold Session.reportStop
  refine withStopTicket.trans ?_
  dsimp only
  split
  · rename_i t _
    split
    · have hreported : Inward s.withStopTicket
          { s.withStopTicket with stops := s.withStopTicket.stops.set t (some location) } :=
        .of_eq rfl rfl rfl rfl rfl
      exact hreported.trans (goOn _)
    · exact .refl _
  · exact .refl _

/-! ## Reports and plans -/

theorem failedReport {message : String} : Inward s (s.failedReport message).2 := by
  unfold Session.failedReport
  dsimp only
  exact log

theorem answeredReport {i : Issue} {frame : Frame} : Inward s (s.answeredReport i frame).2 := by
  have htimed : Inward s { s with lastElapsed := frame.elapsed } := .of_eq rfl rfl rfl rfl rfl
  have hlogged : Inward s
      ({ s with lastElapsed := frame.elapsed }.log i.level ("[SEND]: " ++ i.text)) :=
    htimed.trans log
  unfold Session.answeredReport
  dsimp only
  split <;> split
  · exact (hlogged.trans log).trans log
  · exact ((hlogged.trans log).trans log).trans log
  · exact hlogged.trans log
  · exact (hlogged.trans log).trans log

theorem settledReport {i : Issue} {o : Outcome} : Inward s (s.settledReport i o).2 := by
  unfold Session.settledReport
  split
  · exact answeredReport
  · exact failedReport
  · exact failedReport
  · exact failedReport

theorem finishGoal {goal : Goal} {ok : Bool} : Inward s (s.finishGoal goal ok).1 := by
  cases goal <;> exact .of_eq rfl rfl rfl rfl rfl

theorem nextOfSequence {goal : Goal} {required optional : List Issue} :
    Inward s (s.nextOfSequence goal required optional).1 := by
  unfold Session.nextOfSequence
  split
  · exact .refl s
  · exact .refl s
  · exact finishGoal

theorem nextPlacement {file : String} {confirmed : List Breakpoint}
    {requests : List BreakpointRequest} :
    Inward s (s.nextPlacement file confirmed requests).1 := by
  cases requests <;> exact .of_eq rfl rfl rfl rfl rfl

theorem finishRun {kind : CommandKind} {previous : RunState} {r : Report} :
    Inward s (s.finishRun kind previous r).1 := by
  have hcounted : Inward s
      (if kind.blocksUntilStop then { s with blockingRuns := s.blockingRuns - 1 } else s) := by
    split
    · exact .of_eq rfl rfl rfl rfl rfl
    · exact .refl s
  have hstopped : ∀ s : Session, Inward s { s with runState := .stopped } := fun _ =>
    .of_eq rfl rfl rfl rfl rfl
  unfold Session.finishRun
  refine hcounted.trans ?_
  generalize (if kind.blocksUntilStop then { s with blockingRuns := s.blockingRuns - 1 } else s) = s
  dsimp only
  split
  · exact .of_eq rfl rfl rfl rfl rfl
  · split
    · exact .refl _
    · exact (publish.trans (hstopped _)).trans reportStop
    · exact (hstopped _).trans reportStop

theorem advancePlan {kind : CommandKind} {plan : Plan} {r : Report} :
    Inward s (s.advancePlan kind plan r).1 := by
  unfold Session.advancePlan
  split
  · exact .refl s
  · exact .refl s
  · exact .refl s
  · exact .refl s
  · exact finishRun
  · exact nextPlacement
  · exact nextPlacement
  · split
    · exact finishGoal
    · exact nextOfSequence

theorem abandonPlan {kind : CommandKind} {plan : Plan} : Inward s (s.abandonPlan kind plan) := by
  unfold Session.abandonPlan
  split
  · split
    · exact .of_eq rfl rfl rfl rfl rfl
    · exact .refl s
  · exact .refl s

/-- A frame of the target's own is told to everybody, and answers nobody. -/
theorem noticeFrame {frame : Frame} : Inward s (s.noticeFrame frame) := by
  unfold Session.noticeFrame
  split
  · exact log
  · split
    · split
      · exact .refl s
      · exact log
    · have hstopped : Inward s { s with runState := .stopped } := .of_eq rfl rfl rfl rfl rfl
      dsimp only
      exact ((hstopped.trans log).trans publish).trans reportStop

end Inward

/-! ## Commands given one after another -/

/-- An operation goes on with a report: it ends, or it gives the next command; at most `bound` more. -/
def goOnWith (s : Session) (env : Surroundings) (call : CallId) (bound : Nat) (i : Issue)
    (plan : Plan) (r : Report) : Session :=
  match s.advancePlan i.kind plan r with
  | (s, .finish result) => s.answer call (.ok result)
  | (s, .issue i plan) =>
    match bound with
    | 0 => s
    | bound + 1 => carryOut env call bound s i plan

/-- A command is submitted; the operation waits, or goes on at once with what has become of it. -/
theorem carryOut_eq (env : Surroundings) (call : CallId) (bound : Nat) (s : Session) (i : Issue)
    (plan : Plan) :
    carryOut env call bound s i plan =
      match s.submit env i with
      | (.fault f, s) => (s.abandonPlan i.kind plan).answer call (.error f)
      | (.refused f, s) =>
        (s.failedReport (channelFailure f)).2.goOnWith env call bound i plan
          (s.failedReport (channelFailure f)).1
      | (.waiting k t, s) =>
        if (s.outcomeOf k t).isDone && !isTimed (s.timeoutFor i.kind) then
          (s.settledReport i (s.outcomeOf k t)).2.goOnWith env call bound i plan
            (s.settledReport i (s.outcomeOf k t)).1
        else s.awaitReply call k t i plan := by
  rw [carryOut]
  generalize s.submit env i = submitted
  obtain ⟨status, s'⟩ := submitted
  cases bound <;> cases status <;> rfl

/-- An operation whose plan is finished by a report ends. -/
theorem goOnWith_of_finish {bound : Nat} {i : Issue} {plan : Plan} {r : Report} {result : Result}
    (h : s.advancePlan i.kind plan r = (s', .finish result)) :
    s.goOnWith env call bound i plan r = s'.answer call (.ok result) := by
  rw [goOnWith, h]

theorem resumeReply_of_finish {i : Issue} {plan : Plan} {r : Report} {result : Result}
    (h : s.advancePlan i.kind plan r = (s', .finish result)) :
    s.resumeReply env call i plan r = s'.answer call (.ok result) := by
  rw [resumeReply, h]
  rfl

/-- A run operation ends with the answer to its command, and if that is without a halt, the run state
is restored. -/
theorem advancePlan_run (s : Session) (kind : CommandKind) (previous : RunState) (r : Report) :
    ∃ s' location, s.advancePlan kind (.run previous) r = (s', .finish (.stop location)) ∧
      (location = none → s'.runState = previous) := by
  unfold advancePlan finishRun
  dsimp only
  split
  · exact ⟨_, none, rfl, fun _ => rfl⟩
  · split
    · exact ⟨_, some .unknown, rfl, nofun⟩
    · exact ⟨_, some _, rfl, nofun⟩
    · exact ⟨_, some _, rfl, nofun⟩

end Session

end DebugConsole
