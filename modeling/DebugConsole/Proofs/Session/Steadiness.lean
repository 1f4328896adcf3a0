import DebugConsole.Proofs.Session.Coverage
import DebugConsole.Proofs.Session.Hearing

set_option autoImplicit false

/-!
# What leaves the debuggers alone

Starting, closing and being welcomed change which debugger a session holds.  Everything else that a
session does is steady (`Session.Steady`): the session holds and watches the debuggers it has held and
watched, no operation comes to wait for a debugger to be launched, to print its prompt or to end, and a
debugger's channel is only handled: commands are given, and given up.  What that makes of a channel is
for whoever looks at it to say (`Session.Handling`).
-/

namespace DebugConsole

/-- Does an operation wait for something else than a debugger to be launched, to print its prompt or to
end? -/
def Stage.isOrdinary : Stage → Bool
  | .closing .. | .launching | .awaitingBanner _ => false
  | _ => true

/-- Does an operation neither start nor close a session? -/
def Operation.isOrdinary : Operation → Bool
  | .start .. | .kill => false
  | _ => true

namespace Session

/-- What becomes of a debugger's channel, and of the number for the next command, when a session gives
commands and gives them up. -/
structure Handling (env : Surroundings) (j : LaunchId) where
  rel : CommandId × Channel → CommandId × Channel → Prop
  refl : ∀ x, rel x x
  trans : ∀ {x y z}, rel x y → rel y z → rel x z
  number : ∀ n ch, rel (n, ch) (n + 1, ch)
  submit : ∀ {n ch text t ch'}, ch.submit ⟨n, text⟩ = .ok (t, ch') → rel (n, ch) (n + 1, ch')
  signal : ∀ n ch name, rel (n, ch) (n + 1, (ch.signal n name env.now (env.signalFault j name)).2)
  cancel : ∀ n ch t, rel (n, ch) (n, ch.cancel t)

/-- Frames that answer nothing may be taken as well, the oldest ones first. -/
def Handling.Reads {env : Surroundings} {j : LaunchId} (H : Handling env j) : Prop :=
  ∀ n ch rest, rest <:+ ch.unsolicited → H.rel (n, ch) (n, { ch with unsolicited := rest })

variable {s s' s'' : Session} {env : Surroundings} {call : CallId} {j : LaunchId} {H : Handling env j}

/-- The debugger that commands go to, the one whose watcher is held, and those that are watched. -/
def hold (s : Session) : Option LaunchId × Option LaunchId × List LaunchId :=
  (s.current, s.watcher, s.watched)

/-- The number for the next command, and all channels. -/
def traffic (s : Session) : CommandId × List Channel := (s.nextId, s.channels)

/-- Whoever waits may ask to be woken. -/
theorem suspend_eq (s : Session) (call : CallId) (stage : Stage) (limit : Option Float) :
    ∃ rs, s.suspend call stage limit = (s.waiting call stage limit).requestAll rs := by
  unfold Session.suspend
  split
  · split
    · exact ⟨_, rfl⟩
    · exact ⟨[], by simp [requestAll, waiting]⟩
  · exact ⟨[], by simp [requestAll, waiting]⟩

/-- The session goes on to hold what it holds, a debugger is only handled, and no operation comes to wait
for a debugger to begin or to end. -/
structure Steady (H : Handling env j) (s s' : Session) : Prop where
  hold : s'.hold = s.hold
  channel : ∀ ch, s.channels[j]? = some ch →
    ∃ ch', s'.channels[j]? = some ch' ∧ H.rel (s.nextId, ch) (s'.nextId, ch')
  numbers : s.nextId ≤ s'.nextId
  launches : s'.channels.length = s.channels.length
  calls : ∀ c ∈ s'.calls, c ∈ s.calls ∨ c.stage.isOrdinary

namespace Steady

theorem trans (h : Steady H s s') (h' : Steady H s' s'') : Steady H s s'' where
  hold := h'.hold.trans h.hold
  channel := by
    intro ch hch
    obtain ⟨ch', hch', hrel⟩ := h.channel ch hch
    obtain ⟨ch'', hch'', hrel'⟩ := h'.channel ch' hch'
    exact ⟨ch'', hch'', H.trans hrel hrel'⟩
  numbers := Int.le_trans h.numbers h'.numbers
  launches := h'.launches.trans h.launches
  calls := fun c hc => (h'.calls c hc).elim (h.calls c) Or.inr

theorem of_eq (hhold : s'.hold = s.hold) (htraffic : s'.traffic = s.traffic)
    (hcalls : s'.calls = s.calls) : Steady H s s' := by
  obtain ⟨hnumber, hchannels⟩ := Prod.mk.inj htraffic
  refine ⟨hhold, fun ch hch => ⟨ch, hchannels ▸ hch, ?_⟩, Int.le_of_eq hnumber.symm, ?_, ?_⟩
  · rw [hnumber]
    exact H.refl _
  · rw [hchannels]
  · exact fun _ hc => Or.inl (hcalls ▸ hc)

theorem refl (s : Session) : Steady H s s := .of_eq rfl rfl rfl

theorem after (h : Steady H s' s'') (hhold : s'.hold = s.hold) (htraffic : s'.traffic = s.traffic)
    (hcalls : s'.calls = s.calls) : Steady H s s'' :=
  (of_eq hhold htraffic hcalls).trans h

theorem foldl {α : Type} {f : Session → α → Session} (h : ∀ s a, Steady H s (f s a)) (as : List α)
    (s : Session) : Steady H s (as.foldl f s) := by
  induction as generalizing s with
  | nil => exact .refl s
  | cons a as ih => exact (h s a).trans (ih _)

/-! ## Small changes -/

theorem request {r : Request} : Steady H s (s.request r) := .of_eq rfl rfl rfl

theorem requestAll {rs : List Request} : Steady H s (s.requestAll rs) := .of_eq rfl rfl rfl

theorem publish {e : SessionEvent} : Steady H s (s.publish e) := .of_eq rfl rfl rfl

theorem log {level : LogLevel} {message : String} : Steady H s (s.log level message) := by
  unfold Session.log
  split
  · split
    · exact publish
    · exact refl s
  · exact publish

/-- Fewer operations are in progress, or those that come wait for something ordinary. -/
theorem of_calls (hhold : s'.hold = s.hold) (htraffic : s'.traffic = s.traffic)
    (hcalls : ∀ c ∈ s'.calls, c ∈ s.calls ∨ c.stage.isOrdinary) : Steady H s s' := by
  have hsame : Steady H s { s' with calls := s.calls } := of_eq hhold htraffic rfl
  exact { hsame with calls := hcalls }

theorem answer {result : Except SessionFault Result} : Steady H s (s.answer call result) :=
  .of_calls rfl rfl fun _ hc => Or.inl (List.mem_filter.1 hc).1

theorem suspend {stage : Stage} {limit : Option Float} (h : stage.isOrdinary) :
    Steady H s (s.suspend call stage limit) := by
  have hwaiting : Steady H s (s.waiting call stage limit) :=
    .of_calls rfl rfl fun c hc =>
      (mem_calls_waiting hc).imp And.left fun heq => by rw [heq]; exact h
  obtain ⟨rs, hsuspend⟩ := s.suspend_eq call stage limit
  rw [hsuspend]
  exact hwaiting.trans requestAll

theorem letGoOn : Steady H s (s.letGoOn call) := requestAll

/-- A channel changes, and is only handled if it is the debugger's. -/
theorem modifyChannel {k : LaunchId} {f : Channel → Channel}
    (hf : k = j → ∀ ch, s.channels[k]? = some ch → H.rel (s.nextId, ch) (s.nextId, f ch)) :
    Steady H s (s.modifyChannel k f) := by
  refine ⟨rfl, fun ch hch => ?_, Int.le_refl _, by simp [Session.modifyChannel],
    fun _ hc => Or.inl hc⟩
  unfold Session.modifyChannel
  rw [List.getElem?_modify, hch]
  by_cases hk : k = j
  · refine ⟨f ch, by simp [hk], hf hk ch (hk ▸ hch)⟩
  · exact ⟨ch, by simp [hk], H.refl _⟩

theorem changeChannel {k : LaunchId} {f : Channel → Channel}
    (hf : k = j → ∀ ch, s.channels[k]? = some ch → H.rel (s.nextId, ch) (s.nextId, f ch)) :
    Steady H s (s.changeChannel k f) := (modifyChannel hf).trans requestAll

theorem take {k : LaunchId} {banner : Frame} {ch : Channel} (hreads : k = j → H.Reads)
    (h : (s.channels[k]?).bind Channel.takeUnsolicited = some (banner, ch)) :
    Steady H s (s.modifyChannel k fun _ => ch) := by
  obtain ⟨ch₀, hch₀, htaken⟩ := Option.bind_eq_some_iff.1 h
  obtain ⟨rest, hrest, rfl⟩ := Channel.takeUnsolicited_eq_some_iff.1 htaken
  refine modifyChannel fun hk ch hch => ?_
  rw [← Option.some.inj (hch₀.symm.trans hch)]
  exact hreads hk _ _ _ (hrest ▸ List.suffix_cons banner rest)

/-- A command is given a number, and a channel makes something of it. -/
theorem give {k : LaunchId} {ch ch' : Channel} {text : String} (hch : s.channels[k]? = some ch)
    (hrel : k = j → H.rel (s.nextId, ch) (s.nextId + 1, ch')) :
    Steady H s (({ s with nextId := s.nextId + 1, lastCommand := some text } : Session).changeChannel k
      fun _ => ch') := by
  refine ⟨rfl, fun ch₀ hch₀ => ?_, Int.le_of_lt (Int.lt_succ _), ?_, fun _ hc => Or.inl hc⟩
  · rw [channels_changeChannel, List.getElem?_modify, hch₀]
    by_cases hk : k = j
    · subst hk
      obtain rfl : ch = ch₀ := Option.some.inj (hch.symm.trans hch₀)
      exact ⟨ch', by simp, hrel rfl⟩
    · exact ⟨ch₀, by simp [hk], H.number _ _⟩
  · simp [channels_changeChannel]

/-! ## Halts -/

theorem newStopTicket : Steady H s s.newStopTicket := .of_eq rfl rfl rfl

theorem expectStop : Steady H s s.expectStop := by
  unfold Session.expectStop
  split
  · split
    · exact refl s
    · exact newStopTicket
  · exact newStopTicket

theorem withStopTicket : Steady H s s.withStopTicket := by
  unfold Session.withStopTicket
  split
  · exact refl s
  · exact newStopTicket

theorem reportStop {location : Option StopLocation} : Steady H s (s.reportStop location) := by
  unfold Session.reportStop
  refine withStopTicket.trans ?_
  dsimp only
  split
  · split
    · exact .of_eq rfl rfl rfl
    · exact refl _
  · exact refl _

/-! ## Executing commands -/

theorem failedReport {message : String} : Steady H s (s.failedReport message).2 := by
  unfold Session.failedReport
  dsimp only
  exact log

theorem settledReport {i : Issue} {o : Outcome} : Steady H s (s.settledReport i o).2 := by
  unfold Session.settledReport
  split
  · rename_i frame
    have hlogged : Steady H s
        ({ s with lastElapsed := frame.elapsed }.log i.level ("[SEND]: " ++ i.text)) :=
      log.after rfl rfl rfl
    unfold answeredReport
    dsimp only
    split <;> split
    · exact (hlogged.trans log).trans log
    · exact ((hlogged.trans log).trans log).trans log
    · exact hlogged.trans log
    · exact (hlogged.trans log).trans log
  all_goals exact failedReport

theorem finishGoal {goal : Goal} {ok : Bool} : Steady H s (s.finishGoal goal ok).1 := by
  cases goal <;> exact .of_eq rfl rfl rfl

theorem nextOfSequence {goal : Goal} {required optional : List Issue} :
    Steady H s (s.nextOfSequence goal required optional).1 := by
  unfold Session.nextOfSequence
  split
  · exact refl s
  · exact refl s
  · exact finishGoal

theorem nextPlacement {file : String} {confirmed : List Breakpoint}
    {requests : List BreakpointRequest} :
    Steady H s (s.nextPlacement file confirmed requests).1 := by
  cases requests <;> exact .of_eq rfl rfl rfl

theorem finishRun {kind : CommandKind} {previous : RunState} {r : Report} :
    Steady H s (s.finishRun kind previous r).1 := by
  have hcounted : Steady H s
      (if kind.blocksUntilStop then { s with blockingRuns := s.blockingRuns - 1 } else s) := by
    split
    · exact .of_eq rfl rfl rfl
    · exact refl s
  have hstopped : ∀ s : Session, Steady H s { s with runState := .stopped } := fun _ =>
    .of_eq rfl rfl rfl
  unfold Session.finishRun
  refine hcounted.trans ?_
  generalize (if kind.blocksUntilStop then { s with blockingRuns := s.blockingRuns - 1 } else s) = s
  dsimp only
  split
  · exact .of_eq rfl rfl rfl
  · split
    · exact refl _
    · exact (publish.trans (hstopped _)).trans reportStop
    · exact (hstopped _).trans reportStop

theorem advancePlan {kind : CommandKind} {plan : Plan} {r : Report} :
    Steady H s (s.advancePlan kind plan r).1 := by
  cases plan with
  | run previous => exact finishRun
  | clear file requests => exact nextPlacement
  | place file condition confirmed rest => exact nextPlacement
  | sequence goal mustSucceed required optional =>
    unfold Session.advancePlan
    dsimp only
    split
    · exact finishGoal
    · exact nextOfSequence
  | _ => exact refl s

theorem abandonPlan {kind : CommandKind} {plan : Plan} :
    Steady H s (s.abandonPlan kind plan) := by
  unfold Session.abandonPlan
  split
  · split
    · exact .of_eq rfl rfl rfl
    · exact refl s
  · exact refl s

theorem submit {i : Issue} : Steady H s (s.submit env i).2 := by
  unfold Session.submit
  split
  · exact refl s
  · rename_i k hk
    split
    · exact refl s
    · rename_i ch hch
      have hnumbered :
          Steady H s { s with nextId := s.nextId + 1, lastCommand := some i.text } :=
        { refl (H := H) s with
          channel := fun ch hch => ⟨ch, hch, H.number _ _⟩
          numbers := Int.le_of_lt (Int.lt_succ _) }
      dsimp only
      split
      · have hsignal : k = j → H.rel (s.nextId, ch) (s.nextId + 1,
            (ch.signal s.nextId s.settings.interruptSignal env.now
              (env.signalFault k s.settings.interruptSignal)).2) := by
          rintro rfl
          exact H.signal ..
        split <;> rename_i heq <;> rw [heq] at hsignal
        · exact hnumbered
        · exact (give hch hsignal).trans request
        · exact (give hch hsignal).trans request
      · split
        · exact hnumbered
        · exact give hch fun _ => H.submit ‹_›

theorem giveUp {k : LaunchId} {t : Ticket} : Steady H s (s.giveUp k t) :=
  changeChannel fun _ ch _ => H.cancel _ ch t

theorem awaitReply {k : LaunchId} {t : Ticket} {i : Issue} {plan : Plan} :
    Steady H s (s.awaitReply call k t i plan) := by
  unfold Session.awaitReply
  dsimp only
  split
  · exact (suspend rfl).trans letGoOn
  · split
    · exact (suspend rfl).trans giveUp
    · exact suspend rfl

theorem goOnWith {bound : Nat} {i : Issue} {plan : Plan} {r : Report}
    (hnext : ∀ b, bound = b + 1 → ∀ (s : Session) (i : Issue) (plan : Plan),
      Steady H s (Session.carryOut env call b s i plan)) :
    Steady H s (s.goOnWith env call bound i plan r) := by
  have hadvance : Steady H s (s.advancePlan i.kind plan r).1 := advancePlan
  unfold Session.goOnWith
  split
  · rename_i heq
    rw [heq] at hadvance
    exact hadvance.trans answer
  · rename_i heq
    rw [heq] at hadvance
    split
    · exact hadvance
    · exact hadvance.trans (hnext _ rfl _ _ _)

theorem carryOut {bound : Nat} {i : Issue} {plan : Plan} :
    Steady H s (Session.carryOut env call bound s i plan) := by
  induction bound using Nat.strongRecOn generalizing s i plan with
  | _ bound ih =>
    have hgoOn : ∀ (s : Session) (r : Report),
        Steady H s (s.goOnWith env call bound i plan r) := fun s r =>
      goOnWith fun b hb _ _ _ => ih b (by omega)
    have hsubmit : Steady H s (s.submit env i).2 := submit
    rw [carryOut_eq]
    split <;> rename_i heq <;> rw [heq] at hsubmit
    · exact (hsubmit.trans abandonPlan).trans answer
    · exact (hsubmit.trans failedReport).trans (hgoOn _ _)
    · refine hsubmit.trans ?_
      split
      · exact settledReport.trans (hgoOn _ _)
      · exact awaitReply

theorem perform {i : Issue} {plan : Plan} : Steady H s (s.perform env call i plan) := carryOut

theorem continuePlan {next : Next} : Steady H s (s.continuePlan env call next) := by
  cases next with
  | finish result => exact answer
  | issue i plan => exact perform

theorem resumeReply {i : Issue} {plan : Plan} {r : Report} :
    Steady H s (s.resumeReply env call i plan r) := advancePlan.trans continuePlan

/-! ## Running and halting -/

theorem runTarget {i : Issue} : Steady H s (s.runTarget env call i) := by
  unfold Session.runTarget
  have hexpects : Steady H s { s with runState := .running }.expectStop :=
    expectStop.after rfl rfl rfl
  dsimp only
  split
  · exact answer
  · split
    · exact hexpects.trans (perform.after rfl rfl rfl)
    · exact hexpects.trans perform

theorem finishStop {t : Ticket} {location : Option StopLocation} :
    Steady H s (s.finishStop call t location) := by
  unfold Session.finishStop
  dsimp only
  split
  · exact answer.after rfl rfl rfl
  · exact answer

theorem waitForStop {limit : Option Float} : Steady H s (s.waitForStop call limit) := by
  unfold Session.waitForStop
  refine withStopTicket.trans ?_
  dsimp only
  split
  · split
    · exact (suspend rfl).trans letGoOn
    · exact finishStop
  · split
    · exact answer
    · exact suspend rfl

theorem interrupt : Steady H s (s.interrupt env call) := by
  unfold Session.interrupt
  split
  · exact runTarget
  · split
    · exact answer
    · dsimp only
      split
      · exact request.trans waitForStop
      · split
        · exact (request.trans log).trans answer
        · exact request.trans answer

theorem noticeFrame {frame : Frame} : Steady H s (s.noticeFrame frame) := by
  unfold Session.noticeFrame
  split
  · exact log
  · split
    · split
      · exact refl s
      · exact log
    · have hstopped : Steady H s { s with runState := .stopped } := .of_eq rfl rfl rfl
      dsimp only
      exact ((hstopped.trans log).trans publish).trans reportStop

theorem watch {k : LaunchId} (hreads : j ∈ s.watched → H.Reads) : Steady H s (s.watch k) := by
  unfold Session.watch
  split
  · exact refl s
  · rename_i hwatched
    split
    · exact refl s
    · have hread : Steady H s (s.modifyChannel k fun ch => { ch with unsolicited := [] }) := by
        refine modifyChannel fun hk ch _ => hreads ?_ _ ch [] (List.nil_suffix)
        simpa [hk] using hwatched
      exact hread.trans (foldl (fun _ _ => noticeFrame) _ _)

/-! ## Connecting, and the bridge -/

theorem connectTarget {t : Toolchain} {options : ConnectOptions} {others : List String} :
    Steady H s (s.connectTarget env call t options others) := nextOfSequence.trans continuePlan

theorem failConnect {options : ConnectOptions} {message : String} :
    Steady H s (s.failConnect call options message) := log.trans answer

theorem launchBridge {options : ConnectOptions} {others : List String} :
    Steady H s (s.launchBridge call options others) := by
  unfold Session.launchBridge
  split
  · exact answer
  · exact (request.trans (suspend rfl)).trans request

theorem bridgeEnded {next : BridgeEnded} : Steady H s (s.bridgeEnded call next) := by
  cases next with
  | connect options others => exact launchBridge
  | kill => exact answer

theorem relayEnded {next : BridgeEnded} : Steady H s (s.relayEnded call next) :=
  bridgeEnded.after rfl rfl rfl

theorem endRelay {next : BridgeEnded} : Steady H s (s.endRelay call next) := by
  unfold Session.endRelay
  split
  · exact bridgeEnded
  · split
    · exact ((suspend rfl).trans letGoOn).after rfl rfl rfl
    · exact relayEnded

theorem endBridge {next : BridgeEnded} : Steady H s (s.endBridge call next) := by
  unfold Session.endBridge
  split
  · exact endRelay
  · exact (suspend rfl).trans request

theorem finishKill : Steady H s (s.finishKill call) := by
  unfold Session.finishKill
  split
  · exact answer
  · split
    · dsimp only
      split
      · exact answer
      · exact log.trans answer
    · split
      · exact endBridge
      · exact answer

theorem bridgeLaunched {options : ConnectOptions} {others : List String} {ok : Bool} :
    Steady H s (s.bridgeLaunched env call options others ok) := by
  unfold Session.bridgeLaunched
  split
  · exact failConnect
  · split
    · exact answer
    · have hread : Steady H s ({ s with
          bridges := s.bridges + 1
          bridge := some s.bridges
          relay := some s.bridges
          relayed := s.relayed ++ [s.bridges] }.request (.readBridge s.bridges)) :=
        request.after rfl rfl rfl
      exact hread.trans connectTarget

theorem connect {options : ConnectOptions} {others : List String} :
    Steady H s (s.connect env call options others) := by
  unfold Session.connect
  split
  · exact answer
  · split
    · split
      · exact connectTarget
      · exact failConnect
    · split
      · exact connectTarget
      · split
        · exact failConnect
        · exact endBridge

theorem pursue {goal : Goal} {commands : Toolchain → List String} {optional : List Issue} :
    Steady H s (s.pursue env call goal commands optional) := by
  unfold Session.pursue
  split
  · exact answer
  · exact nextOfSequence.trans continuePlan

/-! ## Steps -/

/-- Every operation but to start and to close a session begins steadily. -/
theorem begin {operation : Operation} (h : operation.isOrdinary) :
    Steady H s (s.begin env call operation) := by
  cases operation with
  | start | kill => cases h
  | connect options others => exact connect
  | disconnect | load => exact pursue
  | run c => exact runTarget
  | interrupt => exact interrupt
  | waitForStop limit => exact waitForStop
  | removeBreakpoints numbers =>
    dsimp only [Session.begin]
    split
    · exact answer
    · exact perform
  | setBreakpoints file requests =>
    dsimp only [Session.begin]
    split
    · exact (nextPlacement.trans continuePlan).after rfl rfl rfl
    · exact perform.after rfl rfl rfl
  | addBreakpoint | ask | send => exact perform

theorem proceed {stage : Stage} (h : stage.isOrdinary) : Steady H s (s.proceed env call stage) := by
  cases stage with
  | closing | launching | awaitingBanner => cases h
  | awaitingReply k t i plan =>
    dsimp only [Session.proceed]
    split
    · exact settledReport.trans resumeReply
    · exact refl s
  | awaitingStop t =>
    dsimp only [Session.proceed]
    split
    · exact finishStop
    · exact refl s
  | endingRelay next => exact relayEnded
  | endingBridge | launchingBridge => exact refl s

theorem timeOut {stage : Stage} (h : stage.isOrdinary) : Steady H s (s.timeOut env call stage) := by
  cases stage with
  | closing | launching | awaitingBanner => cases h
  | awaitingReply k t i plan =>
    dsimp only [Session.timeOut]
    split
    · exact proceed h
    · exact giveUp
  | awaitingStop t =>
    dsimp only [Session.timeOut]
    split
    · exact proceed h
    · exact answer
  | endingRelay | endingBridge | launchingBridge => exact refl s

end Steady

/-- Whatever a debugger or its transport does, the session holds what it holds. -/
theorem hold_channel (s : Session) (env : Surroundings) (k : LaunchId) (event : Channel.Event) :
    (s.step env (.channel k event)).hold = s.hold := by
  have hframes : ∀ (frames : List (List String)) (s : Session),
      (frames.foldl (fun s lines => s.changeChannel k fun ch => ch.emit lines env.now) s).hold =
        s.hold := by
    intro frames
    induction frames with
    | nil => exact fun _ => rfl
    | cons lines frames ih => exact fun s => ih _
  cases event with
  | prints chunk => exact hframes _ _
  | _ => rfl

/-- A debugger or its transport does something. -/
theorem Steady.channel_step {event : Channel.Event} {k : LaunchId}
    (hevent : k = j → ∀ ch, H.rel (s.nextId, ch) (s.nextId, ch.react env.now event)) :
    Steady H s (s.step env (.channel k event)) := by
  obtain ⟨hchannels, -, hnumber, hcalls⟩ := s.step_channel env k event
  have hmodified : Steady H s (s.modifyChannel k fun ch => ch.react env.now event) :=
    .modifyChannel fun hk ch _ => hevent hk ch
  exact hmodified.trans
    (.of_eq (s.hold_channel env k event) (Prod.ext hnumber hchannels) hcalls)

end Session

end DebugConsole
