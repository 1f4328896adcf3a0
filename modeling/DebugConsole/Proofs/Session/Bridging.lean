import DebugConsole.Proofs.Session.Succession

set_option autoImplicit false

/-!
# Steps that end or launch a bridge

Connecting ends the bridge that is held and launches another one; a kill ends it when the debugger has been
let go.  Whatever else a session does shuns the bridge (`Session.Shuns`): it holds the bridge that it has
held, and no operation comes to wait for one to end or to come up.  An operation that does come to wait so
has asked for the end of the bridge that is held, or there is none (`Session.Tends`).  So the bridge that is
held changes in two ways (`Session.Crossing`): it has ended, or another one has come up.
-/

namespace DebugConsole

namespace Stage

/-- Does an operation end the bridge or launch one? -/
def isAtBridge : Stage → Bool
  | .endingBridge _ | .endingRelay _ | .launchingBridge .. => true
  | _ => false

/-- May an operation come to wait like this in a session that holds the given bridge and has asked for
something? -/
def Meets (bridge : Option LaunchId) (asked : List Request) : Stage → Prop
  | .endingBridge _ => ∀ b, bridge = some b → ∃ id, .endBridge id b ∈ asked
  | .endingRelay _ | .launchingBridge .. => bridge = none
  | _ => True

theorem meets_of_away {stage : Stage} (h : stage.isAtBridge = false) (bridge : Option LaunchId)
    (asked : List Request) : stage.Meets bridge asked := by
  cases stage with
  | endingBridge | endingRelay | launchingBridge => cases h
  | _ => trivial

theorem Meets.mono {stage : Stage} {bridge : Option LaunchId} {asked asked' : List Request}
    (h : stage.Meets bridge asked) (hasked : ∀ r ∈ asked, r ∈ asked') : stage.Meets bridge asked' := by
  cases stage with
  | endingBridge next =>
    intro b hb
    obtain ⟨id, hr⟩ := h b hb
    exact ⟨id, hasked _ hr⟩
  | endingRelay | launchingBridge => exact h
  | _ => trivial

end Stage

namespace Session

variable {s s' s'' : Session} {env : Surroundings} {e : Event} {call : CallId} {k : LaunchId} {c : Call}

/-- The toolchain, the bridge that is held, and the number of bridges that have been launched. -/
def dock (s : Session) : Option Probe × Option LaunchId × Nat := (s.probe, s.bridge, s.bridges)

/-! ## What shuns the bridge -/

/-- The session goes on to hold the bridge that it holds, and no operation comes to the bridge. -/
structure Shuns (s s' : Session) : Prop where
  dock : s'.dock = s.dock
  calls : ∀ c ∈ s'.calls, c ∈ s.calls ∨ c.stage.isAtBridge = false

namespace Shuns

theorem trans (h : Shuns s s') (h' : Shuns s' s'') : Shuns s s'' where
  dock := h'.dock.trans h.dock
  calls := fun c hc => (h'.calls c hc).elim (h.calls c) Or.inr

theorem of_eq (hdock : s'.dock = s.dock) (hcalls : s'.calls = s.calls) : Shuns s s' :=
  ⟨hdock, fun _ hc => Or.inl (hcalls ▸ hc)⟩

theorem refl (s : Session) : Shuns s s := .of_eq rfl rfl

theorem after (h : Shuns s' s'') (hdock : s'.dock = s.dock) (hcalls : s'.calls = s.calls) :
    Shuns s s'' := (of_eq hdock hcalls).trans h

theorem foldl {α : Type} {f : Session → α → Session} (h : ∀ s a, Shuns s (f s a)) (as : List α)
    (s : Session) : Shuns s (as.foldl f s) := by
  induction as generalizing s with
  | nil => exact .refl s
  | cons a as ih => exact (h s a).trans (ih _)

/-! ### Small changes -/

theorem request {r : Request} : Shuns s (s.request r) := .of_eq rfl rfl

theorem requestAll {rs : List Request} : Shuns s (s.requestAll rs) := .of_eq rfl rfl

theorem publish {e : SessionEvent} : Shuns s (s.publish e) := .of_eq rfl rfl

theorem log {level : LogLevel} {message : String} : Shuns s (s.log level message) := by
  unfold Session.log
  split
  · split
    · exact publish
    · exact refl s
  · exact publish

theorem answer {result : Except SessionFault Result} : Shuns s (s.answer call result) :=
  ⟨rfl, fun _ hc => Or.inl (List.mem_filter.1 hc).1⟩

theorem suspend {stage : Stage} {limit : Option Float} (h : stage.isAtBridge = false) :
    Shuns s (s.suspend call stage limit) := by
  obtain ⟨rs, hsuspend⟩ := s.suspend_eq call stage limit
  rw [hsuspend]
  exact ⟨rfl, fun c hc => (mem_calls_waiting hc).imp And.left fun heq => by rw [heq]; exact h⟩

theorem letGoOn : Shuns s (s.letGoOn call) := requestAll

theorem modifyChannel {f : Channel → Channel} : Shuns s (s.modifyChannel k f) := .of_eq rfl rfl

theorem changeChannel {f : Channel → Channel} : Shuns s (s.changeChannel k f) := .of_eq rfl rfl

/-! ### Halts -/

theorem newStopTicket : Shuns s s.newStopTicket := .of_eq rfl rfl

theorem expectStop : Shuns s s.expectStop := by
  unfold Session.expectStop
  split
  · split
    · exact refl s
    · exact newStopTicket
  · exact newStopTicket

theorem withStopTicket : Shuns s s.withStopTicket := by
  unfold Session.withStopTicket
  split
  · exact refl s
  · exact newStopTicket

theorem reportStop {location : Option StopLocation} : Shuns s (s.reportStop location) := by
  unfold Session.reportStop
  refine withStopTicket.trans ?_
  dsimp only
  split
  · split
    · exact .of_eq rfl rfl
    · exact refl _
  · exact refl _

/-! ### Executing commands -/

theorem failedReport {message : String} : Shuns s (s.failedReport message).2 := by
  unfold Session.failedReport
  dsimp only
  exact log

theorem settledReport {i : Issue} {o : Outcome} : Shuns s (s.settledReport i o).2 := by
  unfold Session.settledReport
  split
  · rename_i frame
    have hlogged : Shuns s
        ({ s with lastElapsed := frame.elapsed }.log i.level ("[SEND]: " ++ i.text)) :=
      log.after rfl rfl
    unfold answeredReport
    dsimp only
    split <;> split
    · exact (hlogged.trans log).trans log
    · exact ((hlogged.trans log).trans log).trans log
    · exact hlogged.trans log
    · exact (hlogged.trans log).trans log
  all_goals exact failedReport

theorem finishGoal {goal : Goal} {ok : Bool} : Shuns s (s.finishGoal goal ok).1 := by
  cases goal <;> exact .of_eq rfl rfl

theorem nextOfSequence {goal : Goal} {required optional : List Issue} :
    Shuns s (s.nextOfSequence goal required optional).1 := by
  unfold Session.nextOfSequence
  split
  · exact refl s
  · exact refl s
  · exact finishGoal

theorem nextPlacement {file : String} {confirmed : List Breakpoint}
    {requests : List BreakpointRequest} :
    Shuns s (s.nextPlacement file confirmed requests).1 := by
  cases requests <;> exact .of_eq rfl rfl

theorem finishRun {kind : CommandKind} {previous : RunState} {r : Report} :
    Shuns s (s.finishRun kind previous r).1 := by
  have hcounted : Shuns s
      (if kind.blocksUntilStop then { s with blockingRuns := s.blockingRuns - 1 } else s) := by
    split
    · exact .of_eq rfl rfl
    · exact refl s
  have hstopped : ∀ s : Session, Shuns s { s with runState := .stopped } := fun _ => .of_eq rfl rfl
  unfold Session.finishRun
  refine hcounted.trans ?_
  generalize (if kind.blocksUntilStop then { s with blockingRuns := s.blockingRuns - 1 } else s) = s
  dsimp only
  split
  · exact .of_eq rfl rfl
  · split
    · exact refl _
    · exact (publish.trans (hstopped _)).trans reportStop
    · exact (hstopped _).trans reportStop

theorem advancePlan {kind : CommandKind} {plan : Plan} {r : Report} :
    Shuns s (s.advancePlan kind plan r).1 := by
  cases plan with
  | run previous => exact finishRun
  | clear file requests => exact nextPlacement
  | place file condition confirmed rest => exact nextPlacement
  | sequence goal mustSucceed required optional =>
    unfold Session.advancePlan
    dsimp only
    split
    · exact finishGoal
    · exact nextOfSequence
  | _ => exact refl s

theorem abandonPlan {kind : CommandKind} {plan : Plan} : Shuns s (s.abandonPlan kind plan) := by
  unfold Session.abandonPlan
  split
  · split
    · exact .of_eq rfl rfl
    · exact refl s
  · exact refl s

theorem submit {i : Issue} : Shuns s (s.submit env i).2 := by
  have hnumbered : ∀ n text, Shuns s { s with nextId := n, lastCommand := some text } :=
    fun _ _ => .of_eq rfl rfl
  unfold Session.submit
  split
  · exact refl s
  · split
    · exact refl s
    · dsimp only
      split
      · split
        · exact hnumbered _ _
        · exact ((hnumbered _ _).trans changeChannel).trans request
        · exact ((hnumbered _ _).trans changeChannel).trans request
      · split
        · exact hnumbered _ _
        · exact (hnumbered _ _).trans changeChannel

theorem giveUp {t : Ticket} : Shuns s (s.giveUp k t) := changeChannel

theorem awaitReply {t : Ticket} {i : Issue} {plan : Plan} :
    Shuns s (s.awaitReply call k t i plan) := by
  unfold Session.awaitReply
  dsimp only
  split
  · exact (suspend rfl).trans letGoOn
  · split
    · exact (suspend rfl).trans giveUp
    · exact suspend rfl

theorem goOnWith {bound : Nat} {i : Issue} {plan : Plan} {r : Report}
    (hnext : ∀ b, bound = b + 1 → ∀ (s : Session) (i : Issue) (plan : Plan),
      Shuns s (Session.carryOut env call b s i plan)) :
    Shuns s (s.goOnWith env call bound i plan r) := by
  have hadvance : Shuns s (s.advancePlan i.kind plan r).1 := advancePlan
  unfold Session.goOnWith
  split
  · rename_i heq
    rw [heq] at hadvance
    exact hadvance.trans answer
  · rename_i heq
    rw [heq] at hadvance
    split
    · exact hadvance
    · exact hadvance.trans (hnext _ rfl _ _ _)

theorem carryOut {bound : Nat} {i : Issue} {plan : Plan} :
    Shuns s (Session.carryOut env call bound s i plan) := by
  induction bound using Nat.strongRecOn generalizing s i plan with
  | _ bound ih =>
    have hgoOn : ∀ (s : Session) (r : Report), Shuns s (s.goOnWith env call bound i plan r) :=
      fun s r => goOnWith fun b hb _ _ _ => ih b (by omega)
    have hsubmit : Shuns s (s.submit env i).2 := submit
    rw [carryOut_eq]
    split <;> rename_i heq <;> rw [heq] at hsubmit
    · exact (hsubmit.trans abandonPlan).trans answer
    · exact (hsubmit.trans failedReport).trans (hgoOn _ _)
    · refine hsubmit.trans ?_
      split
      · exact settledReport.trans (hgoOn _ _)
      · exact awaitReply

theorem perform {i : Issue} {plan : Plan} : Shuns s (s.perform env call i plan) := carryOut

theorem continuePlan {next : Next} : Shuns s (s.continuePlan env call next) := by
  cases next with
  | finish result => exact answer
  | issue i plan => exact perform

theorem resumeReply {i : Issue} {plan : Plan} {r : Report} :
    Shuns s (s.resumeReply env call i plan r) := advancePlan.trans continuePlan

theorem connectTarget {t : Toolchain} {options : ConnectOptions} {others : List String} :
    Shuns s (s.connectTarget env call t options others) := nextOfSequence.trans continuePlan

theorem failConnect {options : ConnectOptions} {message : String} :
    Shuns s (s.failConnect call options message) := log.trans answer

theorem pursue {goal : Goal} {commands : Toolchain → List String} {optional : List Issue} :
    Shuns s (s.pursue env call goal commands optional) := by
  unfold Session.pursue
  split
  · exact answer
  · exact nextOfSequence.trans continuePlan

/-! ### Running and halting -/

theorem runTarget {i : Issue} : Shuns s (s.runTarget env call i) := by
  unfold Session.runTarget
  have hexpects : Shuns s { s with runState := .running }.expectStop := expectStop.after rfl rfl
  dsimp only
  split
  · exact answer
  · split
    · exact hexpects.trans (perform.after rfl rfl)
    · exact hexpects.trans perform

theorem finishStop {t : Ticket} {location : Option StopLocation} :
    Shuns s (s.finishStop call t location) := by
  unfold Session.finishStop
  dsimp only
  split
  · exact answer.after rfl rfl
  · exact answer

theorem waitForStop {limit : Option Float} : Shuns s (s.waitForStop call limit) := by
  unfold Session.waitForStop
  refine withStopTicket.trans ?_
  dsimp only
  split
  · split
    · exact (suspend rfl).trans letGoOn
    · exact finishStop
  · split
    · exact answer
    · exact suspend rfl

theorem interrupt : Shuns s (s.interrupt env call) := by
  unfold Session.interrupt
  split
  · exact runTarget
  · split
    · exact answer
    · dsimp only
      split
      · exact request.trans waitForStop
      · split
        · exact (request.trans log).trans answer
        · exact request.trans answer

theorem noticeFrame {frame : Frame} : Shuns s (s.noticeFrame frame) := by
  unfold Session.noticeFrame
  split
  · exact log
  · split
    · split
      · exact refl s
      · exact log
    · have hstopped : Shuns s { s with runState := .stopped } := .of_eq rfl rfl
      dsimp only
      exact ((hstopped.trans log).trans publish).trans reportStop

theorem watch : Shuns s (s.watch k) := by
  unfold Session.watch
  split
  · exact refl s
  · split
    · exact refl s
    · exact modifyChannel.trans (foldl (fun _ _ => noticeFrame) _ _)

/-! ### Starting -/

theorem launchDebugger {path folder : Option String} {args : List String} :
    Shuns s (s.launchDebugger call path args folder) := by
  unfold Session.launchDebugger
  split
  · exact answer
  · exact (suspend rfl).trans request

theorem welcome {banner : Frame} : Shuns s (s.welcome call k banner) := by
  have hready : ∀ s : Session, Shuns s ({ s with
      runState := .stopped
      watcher := some k
      watched := s.watched ++ [k] }.request (.watch k)) := fun _ => .of_eq rfl rfl
  unfold Session.welcome
  dsimp only
  refine .trans ?_ answer
  split
  · exact hready _
  · exact log.trans (hready _)

theorem channel {event : Channel.Event} : Shuns s (s.step env (.channel k event)) := by
  cases event with
  | prints chunk => exact modifyChannel.trans (foldl (fun _ _ => changeChannel) _ _)
  | _ => exact changeChannel

end Shuns

/-! ## What tends the bridge -/

/-- The session goes on to hold the bridge that it holds; whoever comes to the bridge has asked for its end,
or there is none. -/
structure Tends (s s' : Session) : Prop where
  dock : s'.dock = s.dock
  calls : ∀ c ∈ s'.calls, c ∈ s.calls ∨ c.stage.Meets s'.bridge s'.outbox

theorem bridge_of_dock (h : s'.dock = s.dock) : s'.bridge = s.bridge :=
  (Prod.mk.inj (Prod.mk.inj h).2).1

namespace Tends

theorem of_shuns (h : Shuns s s') : Tends s s' :=
  ⟨h.dock, fun c hc => (h.calls c hc).imp_right fun haway => Stage.meets_of_away haway _ _⟩

theorem refl (s : Session) : Tends s s := .of_shuns (.refl s)

theorem after (h : Tends s' s'') (h' : Shuns s s') : Tends s s'' where
  dock := h.dock.trans h'.dock
  calls := fun c hc => (h.calls c hc).elim
    (fun hold => (h'.calls c hold).imp_right fun haway => Stage.meets_of_away haway _ _) Or.inr

theorem requestAll {rs : List Request} (h : Tends s s') : Tends s (s'.requestAll rs) where
  dock := h.dock
  calls := fun c hc => (h.calls c hc).imp_right fun hmeets =>
    hmeets.mono fun _ hr => List.mem_append_left rs hr

theorem suspend {stage : Stage} {r : Request} (h : stage.Meets s.bridge [r]) :
    Tends s ((s.suspend call stage none).request r) := by
  obtain ⟨rs, hsuspend⟩ := s.suspend_eq call stage none
  rw [hsuspend]
  refine ⟨rfl, fun c hc => (mem_calls_waiting hc).imp And.left fun heq => ?_⟩
  rw [heq]
  exact h.mono fun _ hr => List.mem_append_right _ hr

theorem launchBridge {options : ConnectOptions} {others : List String} (h : s.bridge = none) :
    Tends s (s.launchBridge call options others) := by
  unfold Session.launchBridge
  split
  · exact of_shuns .answer
  · exact (suspend (by exact h)).after .request

theorem bridgeEnded {next : BridgeEnded} (h : s.bridge = none) : Tends s (s.bridgeEnded call next) := by
  cases next with
  | connect options others => exact launchBridge h
  | kill => exact of_shuns .answer

theorem relayEnded {next : BridgeEnded} (h : s.bridge = none) : Tends s (s.relayEnded call next) := by
  have hended : Tends { s with relay := none } (s.relayEnded call next) := bridgeEnded h
  exact hended.after (.of_eq rfl rfl)

theorem endRelay {next : BridgeEnded} (h : s.bridge = none) : Tends s (s.endRelay call next) := by
  unfold Session.endRelay
  split
  · exact bridgeEnded h
  · rename_i b _
    split
    · let relayed : Session := { s with relayed := s.relayed.filter (· != b) }
      have hends : Tends relayed ((relayed.suspend call (.endingRelay next) none).letGoOn call) := by
        obtain ⟨rs, hsuspend⟩ := relayed.suspend_eq call (.endingRelay next) none
        rw [hsuspend]
        refine requestAll (requestAll ⟨rfl, fun c hc => (mem_calls_waiting hc).imp And.left ?_⟩)
        rintro rfl
        exact h
      exact hends.after (.of_eq rfl rfl)
    · exact relayEnded h

theorem endBridge {next : BridgeEnded} : Tends s (s.endBridge call next) := by
  unfold Session.endBridge
  split
  · exact endRelay ‹_›
  · rename_i b hbridge
    refine suspend fun b' hb' => ⟨call, ?_⟩
    rw [Option.some.inj (hb'.symm.trans hbridge)]
    exact List.mem_singleton_self _

theorem finishKill : Tends s (s.finishKill call) := by
  unfold Session.finishKill
  split
  · exact of_shuns .answer
  · split
    · dsimp only
      split
      · exact of_shuns .answer
      · exact of_shuns (Shuns.log.trans .answer)
    · split
      · exact endBridge
      · exact of_shuns .answer

theorem finishClosing {next : Closed} : Tends s (s.finishClosing call next) := by
  have hforgone : Shuns s { s.reportStop none with stopTicket := none, runState := .stopped } :=
    Shuns.reportStop.trans (.of_eq rfl rfl)
  unfold Session.finishClosing
  dsimp only
  split
  · exact (of_shuns .launchDebugger).after hforgone
  · exact (of_shuns .answer).after hforgone
  · exact finishKill.after hforgone

theorem closeChannel {next : Closed} : Tends s (s.closeChannel call next) := by
  cases hcurrent : s.current with
  | none =>
    rw [closeChannel_of_none hcurrent]
    exact finishClosing
  | some k =>
    rw [closeChannel_of_current hcurrent]
    exact of_shuns ((Shuns.changeChannel.trans (.suspend rfl)).trans .request)

theorem close {next : Closed} : Tends s (s.close call next) := by
  cases hwatcher : s.watcher with
  | none =>
    rw [close_of_none hwatcher]
    exact closeChannel
  | some k =>
    rw [close_of_watcher hwatcher]
    have hunwatched : Shuns s { s with watched := s.watched.filter (· != k) } := .of_eq rfl rfl
    exact of_shuns ((hunwatched.trans (.suspend rfl)).trans .letGoOn)

theorem readerEnded {next : Closed} : Tends s (s.readerEnded call next) := by
  have hended : Tends { s with current := none } (s.readerEnded call next) := finishClosing
  exact hended.after (.of_eq rfl rfl)

theorem processEnded {next : Closed} : Tends s (s.processEnded call k next) := by
  unfold Session.processEnded
  dsimp only
  split
  · exact of_shuns ((Shuns.modifyChannel.trans (.suspend rfl)).trans .letGoOn)
  · exact readerEnded.after .modifyChannel

theorem launched {ok : Bool} : Tends s (s.launched call ok) := by
  unfold Session.launched
  split
  · exact of_shuns .answer
  · have hentered : Shuns s ({ s with
        channels := s.channels ++ [(Channel.create s.settings.prompt).startReader]
        current := some s.channels.length }.request (.read s.channels.length)) := .of_eq rfl rfl
    dsimp only
    split
    · exact close.after hentered
    · exact of_shuns (hentered.trans (.suspend rfl))

theorem start {path folder : Option String} {args : List String} :
    Tends s (s.start call path args folder) := by
  unfold Session.start
  split
  · exact of_shuns .answer
  · split
    · exact close
    · exact of_shuns .launchDebugger

theorem connect {options : ConnectOptions} {others : List String} :
    Tends s (s.connect env call options others) := by
  unfold Session.connect
  split
  · exact of_shuns .answer
  · split
    · split
      · exact of_shuns .connectTarget
      · exact of_shuns .failConnect
    · split
      · exact of_shuns .connectTarget
      · split
        · exact of_shuns .failConnect
        · exact endBridge

/-! ### Steps -/

theorem begin {operation : Operation} : Tends s (s.begin env call operation) := by
  cases operation with
  | start => exact start
  | kill => exact close
  | connect => exact connect
  | disconnect | load => exact of_shuns .pursue
  | run => exact of_shuns .runTarget
  | interrupt => exact of_shuns .interrupt
  | waitForStop => exact of_shuns .waitForStop
  | removeBreakpoints numbers =>
    dsimp only [Session.begin]
    split
    · exact of_shuns .answer
    · exact of_shuns .perform
  | setBreakpoints file requests =>
    dsimp only [Session.begin]
    have hforgotten : Shuns s { s with breakpoints := unassign s.breakpoints file } := .of_eq rfl rfl
    split
    · exact of_shuns ((hforgotten.trans .nextPlacement).trans .continuePlan)
    · exact of_shuns (hforgotten.trans .perform)
  | addBreakpoint | ask | send => exact of_shuns .perform

/-- An operation goes on; if it has ended the relay, no bridge is held. -/
theorem proceed {stage : Stage} (h : ∀ next, stage = .endingRelay next → s.bridge = none) :
    Tends s (s.proceed env call stage) := by
  cases stage with
  | awaitingReply k t i plan =>
    dsimp only [Session.proceed]
    split
    · exact of_shuns (Shuns.settledReport.trans .resumeReply)
    · exact refl s
  | awaitingStop t =>
    dsimp only [Session.proceed]
    split
    · exact of_shuns .finishStop
    · exact refl s
  | awaitingBanner k =>
    dsimp only [Session.proceed]
    split
    · exact of_shuns (Shuns.modifyChannel.trans .welcome)
    · exact refl s
  | closing step next =>
    cases step with
    | watcher =>
      have hclosed : Tends { s with watcher := none } (s.proceed env call (.closing .watcher next)) :=
        closeChannel
      exact hclosed.after (.of_eq rfl rfl)
    | process => exact refl s
    | reader => exact readerEnded
  | endingRelay next => exact relayEnded (h next rfl)
  | launching | endingBridge | launchingBridge => exact refl s

theorem timeOut {stage : Stage} : Tends s (s.timeOut env call stage) := by
  cases stage with
  | awaitingReply k t i plan =>
    dsimp only [Session.timeOut]
    split
    · exact proceed nofun
    · exact of_shuns .giveUp
  | awaitingStop t =>
    dsimp only [Session.timeOut]
    split
    · exact proceed nofun
    · exact of_shuns .answer
  | awaitingBanner k =>
    dsimp only [Session.timeOut]
    split
    · exact proceed nofun
    · exact close
  | _ => exact refl s

end Tends

/-! ## Connecting through a bridge that has come up -/

/-- How many commands an operation may still give. -/
def Next.remaining : Next → Nat
  | .finish _ => 0
  | .issue _ plan => plan.remaining + 1

theorem remaining_finishGoal (s : Session) (goal : Goal) (ok : Bool) :
    (s.finishGoal goal ok).2.remaining = 0 := by
  cases goal <;> rfl

theorem remaining_nextOfSequence (s : Session) (goal : Goal) (required optional : List Issue) :
    (s.nextOfSequence goal required optional).2.remaining = required.length + optional.length := by
  unfold nextOfSequence
  split
  · simp [Next.remaining, Plan.remaining, Nat.add_right_comm]
  · simp [Next.remaining, Plan.remaining]
  · exact remaining_finishGoal ..

theorem remaining_nextPlacement (s : Session) (file : String) (confirmed : List Breakpoint)
    (requests : List BreakpointRequest) :
    (s.nextPlacement file confirmed requests).2.remaining = requests.length := by
  cases requests <;> rfl

theorem remaining_finishRun (s : Session) (kind : CommandKind) (previous : RunState) (r : Report) :
    (s.finishRun kind previous r).2.remaining = 0 := by
  unfold finishRun
  dsimp only
  split
  · rfl
  · split <;> rfl

/-- Every command uses up a part of its plan. -/
theorem remaining_advancePlan (s : Session) (kind : CommandKind) (plan : Plan) (r : Report) :
    (s.advancePlan kind plan r).2.remaining ≤ plan.remaining := by
  cases plan with
  | run previous => exact Nat.le_of_eq (remaining_finishRun ..)
  | clear file requests => exact Nat.le_of_eq (remaining_nextPlacement ..)
  | place file condition confirmed rest => exact Nat.le_of_eq (remaining_nextPlacement ..)
  | sequence goal mustSucceed required optional =>
    unfold advancePlan
    dsimp only
    split
    · exact Nat.le_trans (Nat.le_of_eq (remaining_finishGoal ..)) (Nat.zero_le _)
    · exact Nat.le_of_eq (remaining_nextOfSequence ..)
  | _ => exact Nat.le_refl _

namespace Onward

variable {P : Stage → Prop}

theorem notes (h : Onward call P s' s'') (hnotes : Notes s s') : Onward call P s s'' :=
  h.after hnotes.current hnotes.launches

theorem awaitReply {t : Ticket} {i : Issue} {plan : Plan} (h : P (.awaitingReply k t i plan)) :
    Onward call P s (s.awaitReply call k t i plan) := by
  unfold Session.awaitReply
  dsimp only
  split
  · exact (suspend h).noting .letGoOn rfl
  · split
    · exact (suspend h).noting .changeChannel rfl
    · exact suspend h

/-- Whoever gives commands is answered, or comes to wait for the answer to one, if as many commands may be
given as are left. -/
theorem carryOut (hreply : ∀ k t i plan, P (.awaitingReply k t i plan)) {bound : Nat} {i : Issue}
    {plan : Plan} (h : plan.remaining ≤ bound) :
    Onward call P s (Session.carryOut env call bound s i plan) := by
  induction bound using Nat.strongRecOn generalizing s i plan with
  | _ bound ih =>
    have hgoOn : ∀ (s : Session) (r : Report),
        Onward call P s (s.goOnWith env call bound i plan r) := by
      intro s r
      have hadvance : Inward s (s.advancePlan i.kind plan r).1 := .advancePlan
      have hremaining := s.remaining_advancePlan i.kind plan r
      unfold goOnWith
      split
      · rename_i heq
        rw [heq] at hadvance
        exact answer.after hadvance.current (congrArg List.length hadvance.channels)
      · rename_i heq
        rw [heq] at hadvance hremaining
        have hleft := Nat.le_trans hremaining h
        split
        · exact absurd hleft (Nat.not_succ_le_zero _)
        · exact (ih _ (Nat.lt_succ_self _) (Nat.le_of_succ_le_succ hleft)).after hadvance.current
            (congrArg List.length hadvance.channels)
    have hsubmit : Notes s (s.submit env i).2 := .submit
    rw [carryOut_eq]
    split <;> rename_i heq <;> rw [heq] at hsubmit
    · exact answer.notes (hsubmit.trans .abandonPlan)
    · exact (hgoOn _ _).notes (hsubmit.trans .failedReport)
    · split
      · exact (hgoOn _ _).notes (hsubmit.trans .settledReport)
      · exact (awaitReply (hreply ..)).notes hsubmit

theorem continuePlan (hreply : ∀ k t i plan, P (.awaitingReply k t i plan)) {next : Next} :
    Onward call P s (s.continuePlan env call next) := by
  cases next with
  | finish result => exact answer
  | issue i plan => exact carryOut hreply (Nat.le_refl _)

theorem connectTarget (hreply : ∀ k t i plan, P (.awaitingReply k t i plan)) {t : Toolchain}
    {options : ConnectOptions} {others : List String} :
    Onward call P s (s.connectTarget env call t options others) := by
  have hgoesOn : ∀ begun : Session × Next, Inward s begun.1 →
      Onward call P s (begun.1.continuePlan env call begun.2) := fun _ hinward =>
    (continuePlan hreply).after hinward.current (congrArg List.length hinward.channels)
  exact hgoesOn _ .nextOfSequence

end Onward

/-! ## Steps -/

theorem dock_suspend (s : Session) (call : CallId) (stage : Stage) (limit : Option Float) :
    (s.suspend call stage limit).dock = s.dock := by
  obtain ⟨rs, hsuspend⟩ := s.suspend_eq call stage limit
  rw [hsuspend]
  rfl

/-- An operation that has ended the relay does not change the bridge that is held, whichever it is. -/
theorem dock_relayEnded (s : Session) (call : CallId) (next : BridgeEnded) :
    (s.relayEnded call next).dock = s.dock := by
  cases next with
  | kill => rfl
  | connect options others =>
    show ({ s with relay := none }.launchBridge call options others).dock = s.dock
    unfold launchBridge
    split
    · rfl
    · rename_i p _
      let logged : Session := { s with relay := none }.request
        (.bridgeLog (bridgeLine p.bridgeProgram (Toolchain.bridgeArguments options.bridgeConfigs)))
      exact dock_suspend logged call (.launchingBridge options others) none

/-- What a step does to the bridge that a session holds, and where it leaves operations. -/
inductive Crossing (s s' : Session) (e : Event) : Prop
  | tends (h : Tends s s')
  | ends {c : Call} {next : BridgeEnded} (hc : c ∈ s.calls) (asked : e = .bridgeEnded c.id)
      (stage : c.stage = .endingBridge next) (h : Tends { s with bridge := none } s')
  | comesUp {c : Call} {options : ConnectOptions} {others : List String} (hc : c ∈ s.calls)
      (asked : e = .bridgeLaunched c.id true) (stage : c.stage = .launchingBridge options others)
      (dock : s'.dock = (s.probe, some s.bridges, s.bridges + 1))
      (calls : ∀ d ∈ s'.calls, (d ∈ s.calls ∧ d.id ≠ c.id) ∨ d.stage.isAtBridge = false)

/-- A bridge has come up; its output will be relayed. -/
def bridgedOver (s : Session) : Session :=
  { s with
    bridges := s.bridges + 1
    bridge := some s.bridges
    relay := some s.bridges
    relayed := s.relayed ++ [s.bridges] }.request (.readBridge s.bridges)

/-- Whoever has launched a bridge connects through it. -/
theorem bridgeLaunched_eq {p : Probe} (hprobe : s.probe = some p) (env : Surroundings) (call : CallId)
    (options : ConnectOptions) (others : List String) :
    s.bridgeLaunched env call options others true =
      s.bridgedOver.connectTarget env call p.toolchain options others := by
  unfold Session.bridgeLaunched
  simp [hprobe, bridgedOver]

theorem Crossing.bridgeLaunched {options : ConnectOptions} {others : List String} {ok : Bool}
    (hc : c ∈ s.calls) (asked : e = .bridgeLaunched c.id ok)
    (stage : c.stage = .launchingBridge options others)
    (hstep : s.step env e = s.bridgeLaunched env c.id options others ok) :
    Crossing s (s.step env e) e := by
  rw [hstep]
  cases ok with
  | false => exact .tends (.of_shuns .failConnect)
  | true =>
    cases hprobe : s.probe with
    | none =>
      have hanswers : s.bridgeLaunched env c.id options others true =
          s.answer c.id (.error .noToolchain) := by
        unfold Session.bridgeLaunched
        simp [hprobe]
      rw [hanswers]
      exact .tends (.of_shuns .answer)
    | some p =>
      -- The operation connects through the new bridge, and is not at it any more.
      have hshuns : Shuns s.bridgedOver
          (s.bridgedOver.connectTarget env c.id p.toolchain options others) := .connectTarget
      have honward : Onward c.id (·.isAtBridge = false) s.bridgedOver
          (s.bridgedOver.connectTarget env c.id p.toolchain options others) :=
        .connectTarget fun _ _ _ _ => rfl
      rw [bridgeLaunched_eq hprobe]
      refine .comesUp hc asked stage hshuns.dock fun d hd => ?_
      by_cases hid : d.id = c.id
      · exact Or.inr (honward.own d hd hid)
      · exact (hshuns.calls d hd).imp_left fun hold => ⟨hold, hid⟩

/-- Does an operation go on that has ended the relay of a bridge's output? -/
def leavesRelay (s : Session) : Event → Bool
  | .proceeds id wait =>
    match s.stageIn? id wait with
    | some (.endingRelay _) => true
    | _ => false
  | _ => false

theorem exists_call_of_leavesRelay (h : s.leavesRelay e = true) :
    ∃ c ∈ s.calls, ∃ next, c.stage = .endingRelay next := by
  unfold leavesRelay at h
  split at h
  · split at h
    · obtain ⟨c, hc, -, hstage⟩ := exists_call_of_stageIn? ‹_›
      exact ⟨c, hc, _, hstage⟩
    · cases h
  · cases h

/-- Every step is of one of these kinds, if no bridge is held when an operation goes on that has ended the
relay. -/
theorem crossing (env : Surroundings) (s : Session) (e : Event)
    (hrelay : s.leavesRelay e = true → s.bridge = none) : Crossing s (s.step env e) e := by
  have idles : s.step env e = s → Crossing s (s.step env e) e := fun h => by
    rw [h]
    exact .tends (.refl s)
  cases e with
  | call id operation => exact .tends .begin
  | proceeds id wait =>
    cases hstage : s.stageIn? id wait with
    | none => exact idles (by simp only [step, hstage])
    | some stage =>
      simp only [step, hstage]
      refine .tends (.proceed fun next hrelays => hrelay ?_)
      rw [hrelays] at hstage
      simp only [leavesRelay, hstage]
  | timesOut id wait =>
    cases hstage : s.stageIn? id wait with
    | none => exact idles (by simp only [step, hstage])
    | some stage =>
      simp only [step, hstage]
      exact .tends .timeOut
  | launched id ok =>
    dsimp only [step]
    split
    · exact .tends .launched
    · exact .tends (.refl s)
  | processEnded id =>
    dsimp only [step]
    split
    · exact .tends .processEnded
    · exact .tends (.refl s)
  | bridgeLaunched id ok =>
    by_cases hlaunching : ∃ options others, s.stage? id = some (.launchingBridge options others)
    · obtain ⟨options, others, hlaunching⟩ := hlaunching
      obtain ⟨c, hc, rfl, hstage⟩ := exists_call_of_stage? hlaunching
      exact .bridgeLaunched hc rfl hstage (by simp only [step, hlaunching])
    · refine idles ?_
      dsimp only [step]
      split
      · exact absurd ⟨_, _, ‹_›⟩ hlaunching
      · rfl
  | bridgeEnded id =>
    by_cases hending : ∃ next, s.stage? id = some (.endingBridge next)
    · obtain ⟨next, hending⟩ := hending
      obtain ⟨c, hc, rfl, hstage⟩ := exists_call_of_stage? hending
      have hstep : s.step env (.bridgeEnded c.id) = { s with bridge := none }.endRelay c.id next := by
        simp only [step, hending]
      rw [hstep]
      exact .ends hc rfl hstage (.endRelay rfl)
    · refine idles ?_
      dsimp only [step]
      split
      · exact absurd ⟨_, ‹_›⟩ hending
      · rfl
  | channel k event => exact .tends (.of_shuns .channel)
  | watches k => exact .tends (.of_shuns .watch)
  | bridgePrints b chunk =>
    dsimp only [step]
    split
    · exact .tends (.of_shuns (.foldl (fun _ _ => .request) _ _))
    · exact .tends (.refl s)
  | bridgeExits b code =>
    dsimp only [step]
    split
    · exact .tends (.of_shuns (.of_eq rfl rfl))
    · exact .tends (.refl s)

end Session

end DebugConsole
