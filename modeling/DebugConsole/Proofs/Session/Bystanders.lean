import DebugConsole.Proofs.Session.Execution

set_option autoImplicit false

/-!
# What a step leaves to the other callers

A session runs operations for many callers at once, and each step belongs to one of them or to the
world outside.  `Session.Spares` says what a step leaves to an operation that it does not belong to:
the operation waits where it waited, if it was in progress, and gets no answer.  Every function of a
session spares all operations but the one for which it works.
-/

namespace DebugConsole

namespace Session

variable {id call : CallId} {s s' s'' : Session} {env : Surroundings}

/-- What becomes of a session spares an operation: where the operation waits now it waited before, and
it gets no answer. -/
structure Spares (id : CallId) (s s' : Session) : Prop where
  calls : ∀ c ∈ s'.calls, c.id = id → c ∈ s.calls
  answers : ∀ result, .answer id result ∈ s'.outbox → .answer id result ∈ s.outbox

namespace Spares

theorem trans (h : Spares id s s') (h' : Spares id s' s'') : Spares id s s'' where
  calls := fun c hc hid => h.calls c (h'.calls c hc hid) hid
  answers := fun result hr => h.answers result (h'.answers result hr)

theorem of_eq (hcalls : s'.calls = s.calls) (houtbox : s'.outbox = s.outbox) : Spares id s s' where
  calls := fun _ hc _ => hcalls ▸ hc
  answers := fun _ hr => houtbox ▸ hr

theorem after (h : Spares id s' s'') (hcalls : s'.calls = s.calls)
    (houtbox : s'.outbox = s.outbox) : Spares id s s'' :=
  (of_eq hcalls houtbox).trans h

theorem refl (s : Session) : Spares id s s := .of_eq rfl rfl

theorem of_inward (h : Inward s s') : Spares id s s' where
  calls := fun _ hc _ => h.calls ▸ hc
  answers := by
    intro result hr
    obtain ⟨rs, houtbox, hno⟩ := h.asks
    rw [houtbox] at hr
    exact (List.mem_append.1 hr).resolve_right fun hr => nomatch hno _ hr

/-! ## Small changes -/

theorem requestAll {rs : List Request} (h : ∀ result, .answer id result ∉ rs) :
    Spares id s (s.requestAll rs) where
  calls := fun _ hc _ => hc
  answers := fun result hr => (List.mem_append.1 hr).resolve_right (h result)

theorem request {r : Request} (h : r.isAnswer = false) : Spares id s (s.request r) :=
  of_inward (.request h)

theorem suspend {stage : Stage} {limit : Option Float} (hne : call ≠ id) :
    Spares id s (s.suspend call stage limit) := by
  have hcalls : ∀ c ∈ (s.waiting call stage limit).calls, c.id = id → c ∈ s.calls := by
    intro c hc hid
    rcases mem_calls_waiting hc with ⟨hc, -⟩ | rfl
    · exact hc
    · exact absurd hid hne
  have hwaiting : Spares id s (s.waiting call stage limit) := ⟨hcalls, fun _ hr => hr⟩
  exact hwaiting.trans (of_inward .suspend)

theorem answer {result : Except SessionFault Result} (hne : call ≠ id) :
    Spares id s (s.answer call result) where
  calls := fun _ hc _ => (List.mem_filter.1 hc).1
  answers := by
    intro r hr
    rcases List.mem_append.1 hr with hr | hr
    · exact hr
    · cases List.mem_singleton.1 hr
      exact absurd rfl hne

theorem modifyChannel {k : LaunchId} {f : Channel → Channel} : Spares id s (s.modifyChannel k f) :=
  .of_eq rfl rfl

theorem changeChannel {k : LaunchId} {f : Channel → Channel} :
    Spares id s (s.changeChannel k f) := by
  refine modifyChannel.trans (requestAll fun result hr => ?_)
  obtain ⟨ch, -, hr⟩ := List.mem_flatMap.1 hr
  unfold consequences at hr
  grind [Call.goOn]

/-! ## Executing commands -/

theorem submit {i : Issue} : Spares id s (s.submit env i).2 := by
  have hnext : ∀ n text, Spares id s { s with nextId := n, lastCommand := some text } :=
    fun _ _ => .of_eq rfl rfl
  unfold Session.submit
  split
  · exact .refl s
  · split
    · exact .refl s
    · dsimp only
      split
      · split
        · exact hnext _ _
        · exact ((hnext _ _).trans changeChannel).trans (request rfl)
        · exact ((hnext _ _).trans changeChannel).trans (request rfl)
      · split
        · exact hnext _ _
        · exact (hnext _ _).trans changeChannel

theorem giveUp {k : LaunchId} {t : Ticket} : Spares id s (s.giveUp k t) := changeChannel

theorem awaitReply {k : LaunchId} {t : Ticket} {i : Issue} {plan : Plan} (hne : call ≠ id) :
    Spares id s (s.awaitReply call k t i plan) := by
  unfold Session.awaitReply
  dsimp only
  split
  · exact (suspend hne).trans (of_inward .letGoOn)
  · split
    · exact (suspend hne).trans giveUp
    · exact suspend hne

theorem goOnWith {bound : Nat} {i : Issue} {plan : Plan} {r : Report} (hne : call ≠ id)
    (hnext : ∀ b, bound = b + 1 → ∀ (s : Session) (i : Issue) (plan : Plan),
      Spares id s (Session.carryOut env call b s i plan)) :
    Spares id s (s.goOnWith env call bound i plan r) := by
  have hadvance : Spares id s (s.advancePlan i.kind plan r).1 := of_inward .advancePlan
  unfold Session.goOnWith
  split
  · rename_i heq
    rw [heq] at hadvance
    exact hadvance.trans (answer hne)
  · rename_i heq
    rw [heq] at hadvance
    split
    · exact hadvance
    · exact hadvance.trans (hnext _ rfl _ _ _)

theorem carryOut {bound : Nat} {i : Issue} {plan : Plan} (hne : call ≠ id) :
    Spares id s (Session.carryOut env call bound s i plan) := by
  induction bound using Nat.strongRecOn generalizing s i plan with
  | _ bound ih =>
    have hgoOn : ∀ (s : Session) (r : Report),
        Spares id s (s.goOnWith env call bound i plan r) := fun s r =>
      goOnWith hne fun b hb _ _ _ => ih b (by omega)
    have hsubmit : Spares id s (s.submit env i).2 := submit
    rw [carryOut_eq]
    split <;> rename_i heq <;> rw [heq] at hsubmit
    · exact (hsubmit.trans (of_inward .abandonPlan)).trans (answer hne)
    · exact (hsubmit.trans (of_inward .failedReport)).trans (hgoOn _ _)
    · refine hsubmit.trans ?_
      split
      · exact (of_inward .settledReport).trans (hgoOn _ _)
      · exact awaitReply hne

theorem perform {i : Issue} {plan : Plan} (hne : call ≠ id) :
    Spares id s (s.perform env call i plan) := carryOut hne

theorem continuePlan {next : Next} (hne : call ≠ id) :
    Spares id s (s.continuePlan env call next) := by
  cases next with
  | finish result => exact answer hne
  | issue i plan => exact perform hne

theorem resumeReply {i : Issue} {plan : Plan} {r : Report} (hne : call ≠ id) :
    Spares id s (s.resumeReply env call i plan r) :=
  (of_inward .advancePlan).trans (continuePlan hne)

/-! ## Running and halting -/

theorem runTarget {i : Issue} (hne : call ≠ id) : Spares id s (s.runTarget env call i) := by
  unfold Session.runTarget
  have hexpects : Spares id s { s with runState := .running }.expectStop :=
    (of_inward .expectStop).after rfl rfl
  dsimp only
  split
  · exact answer hne
  · split
    · exact hexpects.trans ((perform hne).after rfl rfl)
    · exact hexpects.trans (perform hne)

theorem finishStop {t : Ticket} {location : Option StopLocation} (hne : call ≠ id) :
    Spares id s (s.finishStop call t location) := by
  unfold Session.finishStop
  dsimp only
  split
  · exact (answer hne).after rfl rfl
  · exact answer hne

theorem waitForStop {limit : Option Float} (hne : call ≠ id) :
    Spares id s (s.waitForStop call limit) := by
  unfold Session.waitForStop
  refine (of_inward .withStopTicket).trans ?_
  dsimp only
  split
  · split
    · exact (suspend hne).trans (of_inward .letGoOn)
    · exact finishStop hne
  · split
    · exact answer hne
    · exact suspend hne

theorem interrupt (hne : call ≠ id) : Spares id s (s.interrupt env call) := by
  unfold Session.interrupt
  split
  · exact runTarget hne
  · split
    · exact answer hne
    · dsimp only
      split
      · exact (request rfl).trans (waitForStop hne)
      · split
        · exact ((request rfl).trans (of_inward .log)).trans (answer hne)
        · exact (request rfl).trans (answer hne)

theorem watch {k : LaunchId} : Spares id s (s.watch k) := by
  unfold Session.watch
  split
  · exact .refl s
  · split
    · exact .refl s
    · exact modifyChannel.trans (of_inward (.foldl (fun _ _ => .noticeFrame) _ _))

/-! ## Starting and ending -/

theorem failStart {message : String} (hne : call ≠ id) : Spares id s (s.failStart call message) :=
  answer hne

theorem launchDebugger {path folder : Option String} {args : List String} (hne : call ≠ id) :
    Spares id s (s.launchDebugger call path args folder) := by
  unfold Session.launchDebugger
  split
  · exact failStart hne
  · exact (suspend hne).trans (request rfl)

theorem welcome {k : LaunchId} {banner : Frame} (hne : call ≠ id) :
    Spares id s (s.welcome call k banner) := by
  unfold Session.welcome
  dsimp only
  refine trans ?_ (answer hne)
  split
  · exact (request rfl).after rfl rfl
  · exact (of_inward .log).trans ((request rfl).after rfl rfl)

theorem connectTarget {t : Toolchain} {options : ConnectOptions} {others : List String}
    (hne : call ≠ id) : Spares id s (s.connectTarget env call t options others) :=
  (of_inward .nextOfSequence).trans (continuePlan hne)

theorem failConnect {options : ConnectOptions} {message : String} (hne : call ≠ id) :
    Spares id s (s.failConnect call options message) :=
  (of_inward .log).trans (answer hne)

theorem launchBridge {options : ConnectOptions} {others : List String} (hne : call ≠ id) :
    Spares id s (s.launchBridge call options others) := by
  unfold Session.launchBridge
  split
  · exact answer hne
  · exact ((request rfl).trans (suspend hne)).trans (request rfl)

theorem bridgeEnded {next : BridgeEnded} (hne : call ≠ id) :
    Spares id s (s.bridgeEnded call next) := by
  cases next with
  | connect options others => exact launchBridge hne
  | kill => exact answer hne

theorem relayEnded {next : BridgeEnded} (hne : call ≠ id) :
    Spares id s (s.relayEnded call next) :=
  (bridgeEnded hne).after rfl rfl

theorem endRelay {next : BridgeEnded} (hne : call ≠ id) : Spares id s (s.endRelay call next) := by
  unfold Session.endRelay
  split
  · exact bridgeEnded hne
  · split
    · exact ((suspend hne).trans (of_inward .letGoOn)).after rfl rfl
    · exact relayEnded hne

theorem endBridge {next : BridgeEnded} (hne : call ≠ id) : Spares id s (s.endBridge call next) := by
  unfold Session.endBridge
  split
  · exact endRelay hne
  · exact (suspend hne).trans (request rfl)

theorem finishKill (hne : call ≠ id) : Spares id s (s.finishKill call) := by
  unfold Session.finishKill
  split
  · exact answer hne
  · split
    · dsimp only
      split
      · exact answer hne
      · exact (of_inward .log).trans (answer hne)
    · split
      · exact endBridge hne
      · exact answer hne

theorem finishClosing {next : Closed} (hne : call ≠ id) :
    Spares id s (s.finishClosing call next) := by
  unfold Session.finishClosing
  dsimp only
  split
  · exact (of_inward .reportStop).trans ((launchDebugger hne).after rfl rfl)
  · exact (of_inward .reportStop).trans ((failStart hne).after rfl rfl)
  · exact (of_inward .reportStop).trans ((finishKill hne).after rfl rfl)

theorem closeChannel {next : Closed} (hne : call ≠ id) :
    Spares id s (s.closeChannel call next) := by
  unfold Session.closeChannel
  split
  · exact finishClosing hne
  · exact (changeChannel.trans (suspend hne)).trans (request rfl)

theorem close {next : Closed} (hne : call ≠ id) : Spares id s (s.close call next) := by
  unfold Session.close
  split
  · exact closeChannel hne
  · exact ((suspend hne).trans (of_inward .letGoOn)).after rfl rfl

theorem readerEnded {next : Closed} (hne : call ≠ id) : Spares id s (s.readerEnded call next) :=
  (finishClosing hne).after rfl rfl

theorem processEnded {k : LaunchId} {next : Closed} (hne : call ≠ id) :
    Spares id s (s.processEnded call k next) := by
  unfold Session.processEnded
  dsimp only
  split
  · exact modifyChannel.trans ((suspend hne).trans (of_inward .letGoOn))
  · exact modifyChannel.trans (readerEnded hne)

theorem launched {ok : Bool} (hne : call ≠ id) : Spares id s (s.launched call ok) := by
  unfold Session.launched
  dsimp only
  split
  · exact failStart hne
  · have hlaunched : Spares id s ({ s with
        channels := s.channels ++ [(Channel.create s.settings.prompt).startReader]
        current := some s.channels.length }.request (.read s.channels.length)) :=
      (request rfl).after rfl rfl
    split
    · exact hlaunched.trans (close hne)
    · exact hlaunched.trans (suspend hne)

theorem bridgeLaunched {options : ConnectOptions} {others : List String} {ok : Bool}
    (hne : call ≠ id) : Spares id s (s.bridgeLaunched env call options others ok) := by
  unfold Session.bridgeLaunched
  split
  · exact failConnect hne
  · split
    · exact answer hne
    · have hread : Spares id s ({ s with
          bridges := s.bridges + 1
          bridge := some s.bridges
          relay := some s.bridges
          relayed := s.relayed ++ [s.bridges] }.request (.readBridge s.bridges)) :=
        (request rfl).after rfl rfl
      exact hread.trans (connectTarget hne)

theorem start {path folder : Option String} {args : List String} (hne : call ≠ id) :
    Spares id s (s.start call path args folder) := by
  unfold Session.start
  split
  · exact answer hne
  · split
    · exact close hne
    · exact launchDebugger hne

theorem connect {options : ConnectOptions} {others : List String} (hne : call ≠ id) :
    Spares id s (s.connect env call options others) := by
  unfold Session.connect
  split
  · exact answer hne
  · split
    · split
      · exact connectTarget hne
      · exact failConnect hne
    · split
      · exact connectTarget hne
      · split
        · exact failConnect hne
        · exact endBridge hne

theorem pursue {goal : Goal} {commands : Toolchain → List String} {optional : List Issue}
    (hne : call ≠ id) : Spares id s (s.pursue env call goal commands optional) := by
  unfold Session.pursue
  split
  · exact answer hne
  · exact (of_inward .nextOfSequence).trans (continuePlan hne)

/-! ## Steps -/

theorem begin {operation : Operation} (hne : call ≠ id) :
    Spares id s (s.begin env call operation) := by
  cases operation with
  | start path args folder => exact start hne
  | kill => exact close hne
  | connect options others => exact connect hne
  | disconnect => exact pursue hne
  | load extras => exact pursue hne
  | run c => exact runTarget hne
  | interrupt => exact interrupt hne
  | waitForStop limit => exact waitForStop hne
  | addBreakpoint r => exact perform hne
  | removeBreakpoints numbers =>
    dsimp only [Session.begin]
    split
    · exact answer hne
    · exact perform hne
  | setBreakpoints file requests =>
    dsimp only [Session.begin]
    split
    · exact ((of_inward .nextPlacement).trans (continuePlan hne)).after rfl rfl
    · exact (perform hne).after rfl rfl
  | ask q => exact perform hne
  | send text kind level => exact perform hne

theorem proceed {stage : Stage} (hne : call ≠ id) : Spares id s (s.proceed env call stage) := by
  unfold Session.proceed
  split
  · dsimp only
    split
    · exact (of_inward .settledReport).trans (resumeReply hne)
    · exact .refl s
  · split
    · exact finishStop hne
    · exact .refl s
  · split
    · exact modifyChannel.trans (welcome hne)
    · exact .refl s
  · exact (closeChannel hne).after rfl rfl
  · exact readerEnded hne
  · exact relayEnded hne
  all_goals exact .refl s

theorem timeOut {stage : Stage} (hne : call ≠ id) : Spares id s (s.timeOut env call stage) := by
  unfold Session.timeOut
  split
  · split
    · exact proceed hne
    · exact giveUp
  · split
    · exact proceed hne
    · exact answer hne
  · split
    · exact proceed hne
    · exact close hne
  · exact .refl s

theorem feed {k : LaunchId} {now : Float} {chunk : String} : Spares id s (s.feed k now chunk) := by
  have hframes : ∀ (frames : List (List String)) (s : Session), Spares id s
      (frames.foldl (fun s lines => s.changeChannel k fun ch => ch.emit lines now) s) := by
    intro frames
    induction frames with
    | nil => exact fun s => .refl s
    | cons lines frames ih => exact fun s => changeChannel.trans (ih _)
  exact modifyChannel.trans (hframes _ _)

end Spares

/-- Whose operation an event belongs to. -/
def Event.caller? : Event → Option CallId
  | .call id _ | .proceeds id _ | .timesOut id _ | .launched id _ | .processEnded id
  | .bridgeLaunched id _ | .bridgeEnded id => some id
  | .channel .. | .watches _ | .bridgePrints .. | .bridgeExits .. => none

/-- Every step spares the operations that it does not belong to. -/
theorem Spares.step {e : Event} (h : e.caller? ≠ some id) : Spares id s (s.step env e) := by
  have hne : ∀ {call : CallId}, some call ≠ some id → call ≠ id := fun h heq => h (by rw [heq])
  unfold Session.step
  cases e with
  | call call operation => exact begin (hne h)
  | proceeds call wait =>
    dsimp only
    split
    · exact proceed (hne h)
    · exact .refl s
  | timesOut call wait =>
    dsimp only
    split
    · exact timeOut (hne h)
    · exact .refl s
  | launched call ok =>
    dsimp only
    split
    · exact launched (hne h)
    · exact .refl s
  | processEnded call =>
    dsimp only
    split
    · exact processEnded (hne h)
    · exact .refl s
  | bridgeLaunched call ok =>
    dsimp only
    split
    · exact bridgeLaunched (hne h)
    · exact .refl s
  | bridgeEnded call =>
    dsimp only
    split
    · exact (endRelay (hne h)).after rfl rfl
    · exact .refl s
  | channel k event =>
    cases event with
    | prints chunk => exact feed
    | _ => exact changeChannel
  | watches k => exact watch
  | bridgePrints b chunk =>
    dsimp only
    split
    · exact of_inward (.foldl (fun _ _ => .request rfl) _ _)
    · exact .refl s
  | bridgeExits b code =>
    dsimp only
    split
    · exact (request rfl).after rfl rfl
    · exact .refl s

end Session

end DebugConsole
