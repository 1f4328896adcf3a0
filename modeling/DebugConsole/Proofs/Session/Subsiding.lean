import DebugConsole.Proofs.Session.Lifecycle

set_option autoImplicit false

/-!
# What goes on when nobody asks for anything

An operation that is under way may still report a halt, or have the target taken for running: whoever has
given a run command does when told what has become of it, and the watcher does when it notices a frame of
the debugger's own.  Whatever else goes on subsides (`Session.Subsides`): no halt is reported, the target
is taken for what it was or for halted, and it is taken for halted when the debugger is let go.
-/

namespace DebugConsole

/-- Does an operation set the target running? -/
def Plan.isRun : Plan → Bool
  | .run _ => true
  | _ => false

namespace Session

variable {s s' s'' : Session} {env : Surroundings} {call : CallId} {k : LaunchId}

/-- What is known of halts stays, and so does the debugger that is held. -/
structure Neutral (s s' : Session) : Prop where
  runState : s'.runState = s.runState
  stopTicket : s'.stopTicket = s.stopTicket
  stops : s'.stops = s.stops
  current : s'.current = s.current

namespace Neutral

theorem refl (s : Session) : Neutral s s := ⟨rfl, rfl, rfl, rfl⟩

theorem trans (h : Neutral s s') (h' : Neutral s' s'') : Neutral s s'' :=
  ⟨h'.runState.trans h.runState, h'.stopTicket.trans h.stopTicket, h'.stops.trans h.stops,
    h'.current.trans h.current⟩

theorem foldl {α : Type} {f : Session → α → Session} (h : ∀ s a, Neutral s (f s a)) (as : List α)
    (s : Session) : Neutral s (as.foldl f s) := by
  induction as generalizing s with
  | nil => exact .refl s
  | cons a as ih => exact (h s a).trans (ih _)

/-! ### Small changes -/

theorem request {r : Request} : Neutral s (s.request r) := ⟨rfl, rfl, rfl, rfl⟩

theorem requestAll {rs : List Request} : Neutral s (s.requestAll rs) := ⟨rfl, rfl, rfl, rfl⟩

theorem answer {result : Except SessionFault Result} : Neutral s (s.answer call result) :=
  ⟨rfl, rfl, rfl, rfl⟩

theorem changeChannel {f : Channel → Channel} : Neutral s (s.changeChannel k f) := ⟨rfl, rfl, rfl, rfl⟩

theorem suspend {stage : Stage} {limit : Option Float} : Neutral s (s.suspend call stage limit) := by
  obtain ⟨rs, hsuspend⟩ := s.suspend_eq call stage limit
  rw [hsuspend]
  exact ⟨rfl, rfl, rfl, rfl⟩

theorem letGoOn : Neutral s (s.letGoOn call) := requestAll

theorem log {level : LogLevel} {message : String} : Neutral s (s.log level message) := by
  unfold Session.log
  split
  · split
    · exact ⟨rfl, rfl, rfl, rfl⟩
    · exact refl s
  · exact ⟨rfl, rfl, rfl, rfl⟩

/-! ### Commands -/

theorem failedReport {message : String} : Neutral s (s.failedReport message).2 := by
  unfold Session.failedReport
  dsimp only
  exact log

theorem settledReport {i : Issue} {o : Outcome} : Neutral s (s.settledReport i o).2 := by
  unfold Session.settledReport
  split
  · rename_i frame
    have htimed : Neutral s { s with lastElapsed := frame.elapsed } := ⟨rfl, rfl, rfl, rfl⟩
    have hlogged : Neutral s
        ({ s with lastElapsed := frame.elapsed }.log i.level ("[SEND]: " ++ i.text)) :=
      htimed.trans log
    unfold answeredReport
    dsimp only
    split <;> split
    · exact (hlogged.trans log).trans log
    · exact ((hlogged.trans log).trans log).trans log
    · exact hlogged.trans log
    · exact (hlogged.trans log).trans log
  all_goals exact failedReport

theorem submit {i : Issue} : Neutral s (s.submit env i).2 := by
  have hnumbered : ∀ n text, Neutral s { s with nextId := n, lastCommand := some text } :=
    fun _ _ => ⟨rfl, rfl, rfl, rfl⟩
  unfold Session.submit
  split
  · exact refl s
  · split
    · exact refl s
    · dsimp only
      split
      · split
        · exact hnumbered _ _
        · exact ((hnumbered _ _).trans changeChannel).trans request
        · exact ((hnumbered _ _).trans changeChannel).trans request
      · split
        · exact hnumbered _ _
        · exact (hnumbered _ _).trans changeChannel

theorem giveUp {t : Ticket} : Neutral s (s.giveUp k t) := changeChannel

theorem awaitReply {t : Ticket} {i : Issue} {plan : Plan} :
    Neutral s (s.awaitReply call k t i plan) := by
  unfold Session.awaitReply
  dsimp only
  split
  · exact suspend.trans letGoOn
  · split
    · exact suspend.trans giveUp
    · exact suspend

theorem finishGoal {goal : Goal} {ok : Bool} : Neutral s (s.finishGoal goal ok).1 := by
  cases goal <;> exact ⟨rfl, rfl, rfl, rfl⟩

theorem nextOfSequence {goal : Goal} {required optional : List Issue} :
    Neutral s (s.nextOfSequence goal required optional).1 := by
  unfold Session.nextOfSequence
  split
  · exact refl s
  · exact refl s
  · exact finishGoal

theorem nextPlacement {file : String} {confirmed : List Breakpoint}
    {requests : List BreakpointRequest} :
    Neutral s (s.nextPlacement file confirmed requests).1 := by
  cases requests <;> exact ⟨rfl, rfl, rfl, rfl⟩

theorem advancePlan {kind : CommandKind} {plan : Plan} {r : Report} (h : plan.isRun = false) :
    Neutral s (s.advancePlan kind plan r).1 := by
  cases plan with
  | run => cases h
  | clear file requests => exact nextPlacement
  | place file condition confirmed rest => exact nextPlacement
  | sequence goal mustSucceed required optional =>
    unfold Session.advancePlan
    dsimp only
    split
    · exact finishGoal
    · exact nextOfSequence
  | _ => exact refl s

end Neutral

/-! ## Plans that set nothing running -/

/-- Does nothing set the target running that an operation does next? -/
def Next.isTame : Next → Bool
  | .finish _ => true
  | .issue _ plan => !plan.isRun

theorem isTame_finishGoal (s : Session) (goal : Goal) (ok : Bool) :
    (s.finishGoal goal ok).2.isTame = true := by
  cases goal <;> rfl

theorem isTame_nextOfSequence (s : Session) (goal : Goal) (required optional : List Issue) :
    (s.nextOfSequence goal required optional).2.isTame = true := by
  unfold nextOfSequence
  split
  · rfl
  · rfl
  · exact isTame_finishGoal ..

theorem isTame_nextPlacement (s : Session) (file : String) (confirmed : List Breakpoint)
    (requests : List BreakpointRequest) :
    (s.nextPlacement file confirmed requests).2.isTame = true := by
  cases requests <;> rfl

theorem isTame_advancePlan (s : Session) (kind : CommandKind) {plan : Plan} (r : Report)
    (h : plan.isRun = false) : (s.advancePlan kind plan r).2.isTame = true := by
  cases plan with
  | run => cases h
  | clear file requests => exact isTame_nextPlacement ..
  | place file condition confirmed rest => exact isTame_nextPlacement ..
  | sequence goal mustSucceed required optional =>
    unfold advancePlan
    dsimp only
    split
    · exact isTame_finishGoal ..
    · exact isTame_nextOfSequence ..
  | _ => rfl

theorem abandonPlan_of_tame {kind : CommandKind} {plan : Plan} (h : plan.isRun = false) :
    s.abandonPlan kind plan = s := by
  cases plan with
  | run => cases h
  | _ => rfl

namespace Neutral

theorem goOnWith {bound : Nat} {i : Issue} {plan : Plan} {r : Report} (h : plan.isRun = false)
    (hnext : ∀ b, bound = b + 1 → ∀ (s : Session) (i : Issue) (plan : Plan), plan.isRun = false →
      Neutral s (Session.carryOut env call b s i plan)) :
    Neutral s (s.goOnWith env call bound i plan r) := by
  have hadvance : Neutral s (s.advancePlan i.kind plan r).1 := advancePlan h
  have htame := s.isTame_advancePlan i.kind r h
  unfold Session.goOnWith
  split
  · rename_i heq
    rw [heq] at hadvance
    exact hadvance.trans answer
  · rename_i heq
    rw [heq] at hadvance htame
    split
    · exact hadvance
    · exact hadvance.trans (hnext _ rfl _ _ _ (by simpa [Next.isTame] using htame))

theorem carryOut {bound : Nat} {i : Issue} {plan : Plan} (h : plan.isRun = false) :
    Neutral s (Session.carryOut env call bound s i plan) := by
  induction bound using Nat.strongRecOn generalizing s i plan with
  | _ bound ih =>
    have hgoOn : ∀ (s : Session) (r : Report), Neutral s (s.goOnWith env call bound i plan r) :=
      fun s r => goOnWith h fun b hb _ _ _ hnext => ih b (by omega) hnext
    have hsubmit : Neutral s (s.submit env i).2 := submit
    rw [carryOut_eq]
    split <;> rename_i heq <;> rw [heq] at hsubmit
    · rw [abandonPlan_of_tame h]
      exact hsubmit.trans answer
    · exact (hsubmit.trans failedReport).trans (hgoOn _ _)
    · refine hsubmit.trans ?_
      split
      · exact settledReport.trans (hgoOn _ _)
      · exact awaitReply

theorem continuePlan {next : Next} (h : next.isTame = true) :
    Neutral s (s.continuePlan env call next) := by
  cases next with
  | finish result => exact answer
  | issue i plan => exact carryOut (by simpa [Next.isTame] using h)

theorem resumeReply {i : Issue} {plan : Plan} {r : Report} (h : plan.isRun = false) :
    Neutral s (s.resumeReply env call i plan r) :=
  (advancePlan h).trans (continuePlan (s.isTame_advancePlan i.kind r h))

/-! ### Connecting, and the bridge -/

theorem connectTarget {t : Toolchain} {options : ConnectOptions} {others : List String} :
    Neutral s (s.connectTarget env call t options others) :=
  nextOfSequence.trans (continuePlan (s.isTame_nextOfSequence ..))

theorem launchBridge {options : ConnectOptions} {others : List String} :
    Neutral s (s.launchBridge call options others) := by
  unfold Session.launchBridge
  split
  · exact answer
  · exact (request.trans suspend).trans request

theorem bridgeEnded {next : BridgeEnded} : Neutral s (s.bridgeEnded call next) := by
  cases next with
  | connect options others => exact launchBridge
  | kill => exact answer

theorem relayEnded {next : BridgeEnded} : Neutral s (s.relayEnded call next) := by
  have hrelayed : Neutral s { s with relay := none } := ⟨rfl, rfl, rfl, rfl⟩
  exact hrelayed.trans bridgeEnded

theorem endRelay {next : BridgeEnded} : Neutral s (s.endRelay call next) := by
  unfold Session.endRelay
  split
  · exact bridgeEnded
  · rename_i b _
    have hrelayed : Neutral s { s with relayed := s.relayed.filter (· != b) } := ⟨rfl, rfl, rfl, rfl⟩
    split
    · exact (hrelayed.trans suspend).trans letGoOn
    · exact relayEnded

theorem finishKill : Neutral s (s.finishKill call) := by
  unfold Session.finishKill
  split
  · exact answer
  · split
    · dsimp only
      split
      · exact answer
      · exact log.trans answer
    · split
      · unfold Session.endBridge
        split
        · exact endRelay
        · exact suspend.trans request
      · exact answer

theorem bridgeLaunched {options : ConnectOptions} {others : List String} {ok : Bool} :
    Neutral s (s.bridgeLaunched env call options others ok) := by
  unfold Session.bridgeLaunched
  split
  · exact log.trans answer
  · split
    · exact answer
    · have hread : Neutral s ({ s with
          bridges := s.bridges + 1
          bridge := some s.bridges
          relay := some s.bridges
          relayed := s.relayed ++ [s.bridges] }.request (.readBridge s.bridges)) :=
        ⟨rfl, rfl, rfl, rfl⟩
      exact hread.trans connectTarget

/-- A watcher looks that has been told to stop, or finds nothing. -/
theorem watch_of_untold (h : s.watched.contains k = false ∨ s.hasGreeted k = false) :
    Neutral s (s.watch k) := by
  unfold Session.watch
  split
  · exact refl s
  · rename_i hwatched
    split
    · exact refl s
    · rename_i ch hch
      have hungreeted : s.hasGreeted k = false := h.resolve_left (by simpa using hwatched)
      have hnone : ch.unsolicited = [] := by simpa [hasGreeted, hch] using hungreeted
      rw [hnone]
      exact ⟨rfl, rfl, rfl, rfl⟩

theorem channel {event : Channel.Event} : Neutral s (s.step env (.channel k event)) := by
  cases event with
  | prints chunk =>
    have htaken : Neutral s (s.modifyChannel k fun ch => (ch.takeFrames chunk).2) := ⟨rfl, rfl, rfl, rfl⟩
    exact htaken.trans (foldl (fun _ _ => changeChannel) _ _)
  | _ => exact changeChannel

end Neutral

/-! ## What subsides -/

/-- No halt is reported, the target is taken for what it was or for halted, and it is taken for halted when
the debugger is let go. -/
structure Subsides (s s' : Session) : Prop where
  runState : s'.runState = s.runState ∨ s'.runState = .stopped
  ticket : s.stopTicket = none → s'.stopTicket = none
  halts : ∀ t place, s'.stopReport? t = some (some place) → s.stopReport? t = some (some place)
  ended : s'.current = none →
    s.current = none ∨ (s'.runState = .stopped ∧ s'.stopTicket = none)

namespace Subsides

theorem of_neutral (h : Neutral s s') : Subsides s s' where
  runState := Or.inl h.runState
  ticket := fun hnone => h.stopTicket.trans hnone
  halts := fun t place hreport => by rwa [stopReport?, h.stops] at hreport
  ended := fun hnone => Or.inl (h.current.symm.trans hnone)

theorem refl (s : Session) : Subsides s s := .of_neutral (.refl s)

theorem after (h : Subsides s' s'') (h' : Neutral s s') : Subsides s s'' where
  runState := h'.runState ▸ h.runState
  ticket := fun hnone => h.ticket (h'.stopTicket.trans hnone)
  halts := fun t place hreport => by
    have hbefore := h.halts t place hreport
    rwa [stopReport?, h'.stops] at hbefore
  ended := fun hnone => (h.ended hnone).imp_left h'.current.symm.trans

theorem finishStop {t : Ticket} {location : Option StopLocation} :
    Subsides s (s.finishStop call t location) := by
  unfold Session.finishStop
  dsimp only
  split
  · exact ⟨Or.inl rfl, fun _ => rfl, fun _ _ h => h, Or.inl⟩
  · exact .of_neutral .answer

theorem halts_reportStop {t : Ticket} {place : StopLocation}
    (h : (s.reportStop none).stopReport? t = some (some place)) :
    s.stopReport? t = some (some place) := by
  have hticket : ∀ {u : Ticket}, s.withStopTicket.stopReport? u = some (some place) →
      s.stopReport? u = some (some place) := by
    intro u hu
    unfold withStopTicket at hu
    split at hu
    · exact hu
    · by_cases hlt : u < s.stops.length
      · rwa [stopReport?, newStopTicket, List.getElem?_append_left hlt] at hu
      · rw [stopReport?, newStopTicket, List.getElem?_append_right (Nat.le_of_not_lt hlt)] at hu
        cases hindex : u - s.stops.length <;> rw [hindex] at hu <;> cases hu
  refine hticket ?_
  unfold reportStop at h
  dsimp only at h
  split at h
  · rename_i u _
    split at h
    · by_cases htu : u = t
      · subst htu
        rw [stopReport?, requestAll] at h
        dsimp only at h
        rw [List.getElem?_set_self'] at h
        cases hstop : s.withStopTicket.stops[u]? <;> rw [hstop] at h <;> cases h
      · rw [stopReport?, requestAll] at h
        dsimp only at h
        rwa [List.getElem?_set_ne htu] at h
    · exact h
  · exact h

/-- The session is closed after a kill: there will be no halt, and the target is taken for halted. -/
theorem finishClosing_ended (s : Session) (call : CallId) :
    (s.finishClosing call .kill).runState = .stopped ∧
      (s.finishClosing call .kill).stopTicket = none := by
  have hfinished : Neutral { s.reportStop none with stopTicket := none, runState := .stopped }
      (s.finishClosing call .kill) := .finishKill
  exact ⟨hfinished.runState, hfinished.stopTicket⟩

theorem halts_finishClosing {t : Ticket} {place : StopLocation}
    (h : (s.finishClosing call .kill).stopReport? t = some (some place)) :
    s.stopReport? t = some (some place) := by
  have hfinished : Neutral { s.reportStop none with stopTicket := none, runState := .stopped }
      (s.finishClosing call .kill) := .finishKill
  rw [stopReport?, hfinished.stops] at h
  exact halts_reportStop h

/-- So is a session whose debugger has been let go just now. -/
theorem of_finishClosing {s₀ : Session} (hstops : s₀.stops = s.stops) :
    Subsides s (s₀.finishClosing call .kill) where
  runState := Or.inr (finishClosing_ended s₀ call).1
  ticket := fun _ => (finishClosing_ended s₀ call).2
  halts := fun t place h => by
    have hbefore := halts_finishClosing h
    rwa [stopReport?, hstops] at hbefore
  ended := fun _ => Or.inr (finishClosing_ended s₀ call)

theorem closeChannel : Subsides s (s.closeChannel call .kill) := by
  cases hcurrent : s.current with
  | none =>
    rw [closeChannel_of_none hcurrent]
    exact of_finishClosing rfl
  | some k =>
    rw [closeChannel_of_current hcurrent]
    exact .of_neutral ((Neutral.changeChannel.trans .suspend).trans .request)

theorem close : Subsides s (s.close call .kill) := by
  cases hwatcher : s.watcher with
  | none =>
    rw [close_of_none hwatcher]
    exact closeChannel
  | some k =>
    rw [close_of_watcher hwatcher]
    have hunwatched : Neutral s { s with watched := s.watched.filter (· != k) } := ⟨rfl, rfl, rfl, rfl⟩
    exact .of_neutral ((hunwatched.trans .suspend).trans .letGoOn)

theorem processEnded : Subsides s (s.processEnded call k .kill) := by
  unfold Session.processEnded
  dsimp only
  have hstopped : Neutral s (s.modifyChannel k Channel.stopReader) := ⟨rfl, rfl, rfl, rfl⟩
  split
  · exact .of_neutral ((hstopped.trans .suspend).trans .letGoOn)
  · exact of_finishClosing rfl

end Subsides

end Session

/-- Is an operation on the way to a debugger that comes up, or to a start that fails? -/
def Stage.isStarting : Stage → Bool
  | .launching | .awaitingBanner _ | .closing _ (.restart ..) | .closing _ .noPrompt => true
  | _ => false

/-- Did an operation set a target running that was running? -/
def Stage.isRerun : Stage → Bool
  | .awaitingReply _ _ _ (.run .running) => true
  | _ => false

namespace Session

variable {s s' : Session} {env : Surroundings} {call : CallId} {stage : Stage} {e : Event}

/-- Has a run command been answered for which an operation waits? -/
def readsRun (s : Session) : Stage → Bool
  | .awaitingReply k t _ (.run _) =>
    match s.outcomeOf k t with
    | .answered _ => true
    | _ => false
  | _ => false

/-- Does somebody ask for something, or may somebody be told that the target has halted? -/
def tellsHalt (s : Session) (e : Event) : Bool :=
  match e with
  | .call .. => true
  | .watches k => s.watched.contains k && s.hasGreeted k
  | e => (e.resumes? s).any s.readsRun

/-- Does somebody ask for something, or may somebody be told that the target has halted, or that it runs
as before? -/
def stirs (s : Session) (e : Event) : Bool := s.tellsHalt e || (e.resumes? s).any Stage.isRerun

theorem readsRun_of_resumes {stage : Stage} (h : s.tellsHalt e = false)
    (hresumes : e.resumes? s = some stage) : s.readsRun stage = false := by
  have hany : (e.resumes? s).any s.readsRun = false := by
    cases e with
    | call | watches => cases hresumes
    | _ => exact h
  rwa [hresumes] at hany

theorem closing_of_unstarting {step : Closing} {next : Closed}
    (h : (Stage.closing step next).isStarting = false) : next = .kill := by
  cases next with
  | restart | noPrompt => cases h
  | kill => rfl

/-- A run command that has failed: the target is taken for what it was before. -/
theorem resumeReply_run_of_failed (s : Session) (env : Surroundings) (call : CallId) (i : Issue)
    (previous : RunState) {r : Report} (h : r.isOk = false) :
    ∃ s', Neutral s s' ∧ s.resumeReply env call i (.run previous) r =
      { s' with runState := previous }.answer call (.ok (.stop none)) := by
  refine ⟨if i.kind.blocksUntilStop then { s with blockingRuns := s.blockingRuns - 1 } else s, ?_, ?_⟩
  · split
    · exact ⟨rfl, rfl, rfl, rfl⟩
    · exact .refl s
  · refine resumeReply_of_finish ?_
    show s.finishRun i.kind previous r = _
    unfold finishRun
    dsimp only
    rw [h]
    rfl

/-- An operation whose run command has failed goes on, or nothing has become of the command yet. -/
theorem proceed_run_of_failed (env : Surroundings) (call : CallId) {k : LaunchId} {t : Ticket} {i : Issue}
    {previous : RunState} (h : s.readsRun (.awaitingReply k t i (.run previous)) = false) :
    s.proceed env call (.awaitingReply k t i (.run previous)) = s ∨
      ∃ s', Neutral s s' ∧ s.proceed env call (.awaitingReply k t i (.run previous)) =
        { s' with runState := previous }.answer call (.ok (.stop none)) := by
  have hunanswered : ∀ frame, s.outcomeOf k t ≠ .answered frame := by
    intro frame hframe
    simp [readsRun, hframe] at h
  dsimp only [proceed]
  split
  · have hreported : Neutral s (s.settledReport i (s.outcomeOf k t)).2 := .settledReport
    obtain ⟨s', hneutral, heq⟩ := resumeReply_run_of_failed (s.settledReport i (s.outcomeOf k t)).2 env
      call i previous (isOk_settledReport hunanswered)
    exact Or.inr ⟨s', hreported.trans hneutral, heq⟩
  · exact Or.inl rfl

namespace Subsides

/-- An operation goes on that is told of no answer to a run command and that the target runs as
before. -/
theorem proceed (hstarting : stage.isStarting = false) (hread : s.readsRun stage = false)
    (hrerun : stage.isRerun = false) : Subsides s (s.proceed env call stage) := by
  cases stage with
  | awaitingReply k t i plan =>
    cases hrun : plan.isRun with
    | false =>
      dsimp only [Session.proceed]
      split
      · exact .of_neutral (Neutral.settledReport.trans (.resumeReply hrun))
      · exact .refl s
    | true =>
      obtain ⟨previous, rfl⟩ : ∃ previous, plan = .run previous := by
        cases plan with
        | run previous => exact ⟨previous, rfl⟩
        | _ => cases hrun
      cases previous with
      | running => cases hrerun
      | stopped =>
        rcases proceed_run_of_failed env call hread with heq | ⟨s', hneutral, heq⟩
        · rw [heq]
          exact .refl s
        · rw [heq]
          have hhalted : Subsides s' ({ s' with runState := .stopped }.answer call (.ok (.stop none))) :=
            ⟨Or.inr rfl, id, fun _ _ h => h, Or.inl⟩
          exact hhalted.after hneutral
  | awaitingStop t =>
    dsimp only [Session.proceed]
    split
    · exact finishStop
    · exact .refl s
  | closing step next =>
    obtain rfl := closing_of_unstarting hstarting
    cases step with
    | watcher => exact closeChannel.after ⟨rfl, rfl, rfl, rfl⟩
    | process => exact .refl s
    | reader => exact of_finishClosing rfl
  | endingRelay next => exact .of_neutral .relayEnded
  | awaitingBanner => cases hstarting
  | launching | endingBridge | launchingBridge => exact .refl s

theorem timeOut (hstarting : stage.isStarting = false) (hread : s.readsRun stage = false)
    (hrerun : stage.isRerun = false) : Subsides s (s.timeOut env call stage) := by
  cases stage with
  | awaitingReply k t i plan =>
    dsimp only [Session.timeOut]
    split
    · exact proceed hstarting hread hrerun
    · exact .of_neutral .giveUp
  | awaitingStop t =>
    dsimp only [Session.timeOut]
    split
    · exact proceed hstarting hread hrerun
    · exact .of_neutral .answer
  | awaitingBanner => cases hstarting
  | closing | launching | endingBridge | endingRelay | launchingBridge => exact .refl s

/-- As long as no start is under way and nothing stirs, everything subsides. -/
theorem step (hstarting : ∀ c ∈ s.calls, c.stage.isStarting = false) (h : s.stirs e = false) :
    Subsides s (s.step env e) := by
  obtain ⟨htells, hreruns⟩ := Bool.or_eq_false_iff.1 h
  have hrerun : ∀ {stage}, e.resumes? s = some stage → stage.isRerun = false := by
    intro stage hresumes
    rwa [hresumes] at hreruns
  have hwaits : ∀ {id wait stage}, s.stageIn? id wait = some stage → stage.isStarting = false := by
    intro id wait stage hstage
    obtain ⟨c, hc, -, rfl⟩ := exists_call_of_stageIn? hstage
    exact hstarting c hc
  have hfound : ∀ {id stage}, s.stage? id = some stage → stage.isStarting = false := by
    intro id stage hstage
    obtain ⟨c, hc, -, rfl⟩ := exists_call_of_stage? hstage
    exact hstarting c hc
  unfold Session.step
  cases e with
  | call => cases htells
  | proceeds id wait =>
    dsimp only
    split
    · rename_i stage hstage
      exact proceed (hwaits hstage) (readsRun_of_resumes htells hstage) (hrerun hstage)
    · exact .refl s
  | timesOut id wait =>
    dsimp only
    split
    · rename_i stage hstage
      exact timeOut (hwaits hstage) (readsRun_of_resumes htells hstage) (hrerun hstage)
    · exact .refl s
  | launched id ok =>
    dsimp only
    split
    · cases hfound ‹_›
    · exact .refl s
  | processEnded id =>
    dsimp only
    split
    · rename_i hstage
      obtain rfl := closing_of_unstarting (hfound hstage)
      exact processEnded
    · exact .refl s
  | bridgeLaunched id ok =>
    dsimp only
    split
    · exact .of_neutral .bridgeLaunched
    · exact .refl s
  | bridgeEnded id =>
    dsimp only
    split
    · have hended : Neutral s { s with bridge := none } := ⟨rfl, rfl, rfl, rfl⟩
      exact .of_neutral (hended.trans .endRelay)
    · exact .refl s
  | channel k event => exact .of_neutral .channel
  | watches k => exact .of_neutral (.watch_of_untold (Bool.and_eq_false_iff.1 htells))
  | bridgePrints b chunk =>
    dsimp only
    split
    · exact .of_neutral (.foldl (fun _ _ => .request) _ _)
    · exact .refl s
  | bridgeExits b code =>
    dsimp only
    split
    · exact .of_neutral ⟨rfl, rfl, rfl, rfl⟩
    · exact .refl s

end Subsides

/-! ## Reports of halts -/

end Session

end DebugConsole
