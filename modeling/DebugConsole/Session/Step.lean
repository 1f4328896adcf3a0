import DebugConsole.Session.Lifecycle
import DebugConsole.Session.RunControl
import DebugConsole.Text.Lines

set_option autoImplicit false

/-!
# The steps of a session

Everything that can happen to a session, one step at a time: a caller asks for an operation or
goes on with one, time runs out, and the processes outside print, exit or take what is written.
The order of events is nobody's choice but the world's.
-/

namespace DebugConsole

namespace Session

/-- What happens to a session. -/
inductive Event where
  | call (id : CallId) (operation : Operation)
  /-- an operation goes on after a wait -/
  | proceeds (id : CallId) (wait : Nat)
  /-- the limit of a wait is reached -/
  | timesOut (id : CallId) (wait : Nat)
  | launched (id : CallId) (ok : Bool)
  | processEnded (id : CallId)
  | bridgeLaunched (id : CallId) (ok : Bool)
  | bridgeEnded (id : CallId)
  /-- a debugger or its transport does something -/
  | channel (launch : LaunchId) (event : Channel.Event)
  /-- the watcher of a debugger has its turn -/
  | watches (launch : LaunchId)
  | bridgePrints (bridge : LaunchId) (chunk : String)
  | bridgeExits (bridge : LaunchId) (code : Int)

/-- An operation is asked for. -/
def begin (s : Session) (env : Surroundings) (id : CallId) : Operation → Session
  | .start path args folder => s.start id path args folder
  | .kill => s.close id .kill
  | .connect options others => s.connect env id options others
  | .disconnect => s.pursue env id .disconnect Toolchain.disconnectCommands []
  | .load extras =>
    s.pursue env id .load Toolchain.loadCommands (extras.map (plainIssue · .startDebug .hidden))
  | .run c => s.runTarget env id (plainIssue c.text c.kind .warning)
  | .interrupt => s.interrupt env id
  | .waitForStop limit => s.waitForStop id limit
  | .addBreakpoint r =>
    s.perform env id (plainIssue r.text .addBreakpoint .hidden) (.confirm r.condition)
  | .removeBreakpoints numbers =>
    if numbers.isEmpty then s.answer id (.ok (.removed true))
    else s.perform env id (plainIssue (removalText numbers) .removeBreakpoints .hidden) .remove
  | .setBreakpoints file requests =>
    let previous := s.breakpointNumbers file
    let s := { s with breakpoints := unassign s.breakpoints file }
    if previous.isEmpty then
      let (s, next) := s.nextPlacement file [] requests
      s.continuePlan env id next
    else
      s.perform env id
        (plainIssue (removalText (previous.map Int.ofNat)) .removeBreakpoints .hidden)
        (.clear file requests)
  | .ask q => s.perform env id (plainIssue q.text q.kind q.level) (.ask q)
  | .send text kind level => s.perform env id (plainIssue text kind level) .deliver

/-- An operation goes on after a wait.  Operations that wait for the world outside are told by an
event of its own. -/
def proceed (s : Session) (env : Surroundings) (id : CallId) (stage : Stage) : Session :=
  match stage with
  | .awaitingReply k t i plan =>
    let o := s.outcomeOf k t
    if o.isDone then
      let (r, s) := s.settledReport i o
      s.resumeReply env id i plan r
    else s
  | .awaitingStop t =>
    match s.stopReport? t with
    | some location => s.finishStop id t location
    | none => s
  | .awaitingBanner k =>
    match (s.channels[k]?).bind Channel.takeUnsolicited with
    | some (banner, ch) => (s.modifyChannel k fun _ => ch).welcome id k banner
    | none => s
  | .closing .watcher next => { s with watcher := none }.closeChannel id next
  | .closing .reader next => s.readerEnded id next
  | .endingRelay next => s.relayEnded id next
  | .closing (.process _) _ | .launching | .endingBridge _ | .launchingBridge .. => s

/-- The limit of a wait is reached.  Who finds that what was waited for is there all the same goes on
with it.  Otherwise a command is given up, and its operation goes on in its turn with what has become
of the command. -/
def timeOut (s : Session) (env : Surroundings) (id : CallId) (stage : Stage) : Session :=
  match stage with
  | .awaitingReply k t _ _ =>
    if (s.outcomeOf k t).isDone then s.proceed env id stage else s.giveUp k t
  | .awaitingStop t =>
    if (s.stopReport? t).isSome then s.proceed env id stage else s.answer id (.ok (.stop none))
  | .awaitingBanner k =>
    if (s.channels[k]?).any fun ch => !ch.unsolicited.isEmpty then s.proceed env id stage
    else s.close id .noPrompt
  | _ => s

/-- Output of a debugger arrives: its frames are dealt with one by one. -/
def feed (s : Session) (k : LaunchId) (now : Float) (chunk : String) : Session :=
  let frames := (s.channels[k]?).toList.flatMap fun ch => (ch.takeFrames chunk).1
  frames.foldl (fun s lines => s.changeChannel k fun ch => ch.emit lines now)
    (s.modifyChannel k fun ch => (ch.takeFrames chunk).2)

/-- Frames that are dealt with one by one change the channel as they would all at once. -/
theorem channels_foldl_emit (now : Float) (k : LaunchId) (frames : List (List String))
    (s : Session) :
    (frames.foldl (fun s lines => s.changeChannel k fun ch => ch.emit lines now) s).channels =
      s.channels.modify k fun ch => frames.foldl (fun ch lines => ch.emit lines now) ch := by
  induction frames generalizing s with
  | nil => exact (List.modify_id ..).symm
  | cons lines frames ih =>
    simp only [List.foldl_cons]
    rw [ih, channels_changeChannel, List.modify_modify_eq]
    rfl

/-- Output that arrives at a session does to the channel what it does to a channel alone. -/
theorem channels_feed (s : Session) (k : LaunchId) (now : Float) (chunk : String) :
    (s.feed k now chunk).channels = s.channels.modify k fun ch => ch.feed chunk now := by
  unfold feed
  rw [channels_foldl_emit]
  show (s.channels.modify k _).modify k _ = _
  rw [List.modify_modify_eq]
  cases h : s.channels[k]? with
  | none =>
    have outside := List.getElem?_eq_none_iff.mp h
    rw [List.modify_eq_self outside, List.modify_eq_self outside]
  | some ch =>
    apply List.ext_getElem?
    intro j
    simp only [List.getElem?_modify]
    by_cases hj : k = j
    · subst hj
      simp [h, Channel.feed]
    · simp [hj]

/-- The stage of an operation that is still in the given wait. -/
def stageIn? (s : Session) (id : CallId) (wait : Nat) : Option Stage :=
  ((s.call? id).filter (·.wait == wait)).map (·.stage)

/-- The stage of an operation. -/
def stage? (s : Session) (id : CallId) : Option Stage := (s.call? id).map (·.stage)

/-- The session after an event. -/
def step (s : Session) (env : Surroundings) : Event → Session
  | .call id operation => s.begin env id operation
  | .proceeds id wait =>
    match s.stageIn? id wait with
    | some stage => s.proceed env id stage
    | none => s
  | .timesOut id wait =>
    match s.stageIn? id wait with
    | some stage => s.timeOut env id stage
    | none => s
  | .launched id ok =>
    match s.stage? id with
    | some .launching => s.launched id ok
    | _ => s
  | .processEnded id =>
    match s.stage? id with
    | some (.closing (.process k) next) => s.processEnded id k next
    | _ => s
  | .bridgeLaunched id ok =>
    match s.stage? id with
    | some (.launchingBridge options others) => s.bridgeLaunched env id options others ok
    | _ => s
  | .bridgeEnded id =>
    match s.stage? id with
    | some (.endingBridge next) => { s with bridge := none }.endRelay id next
    | _ => s
  | .channel k (.prints chunk) => s.feed k env.now chunk
  | .channel k event => s.changeChannel k fun ch => ch.react env.now event
  | .watches k => s.watch k
  | .bridgePrints b chunk =>
    if s.relayed.contains b then
      ((Text.lines chunk).filter fun line => !Text.allBlank line.toList).foldl
        (fun s line => s.request (.bridgeLog line)) s
    else s
  | .bridgeExits b code =>
    if s.relayed.contains b then
      { s with relayed := s.relayed.filter (· != b) }.request
        (.bridgeLog ("[Exited]: exit code " ++ toString code))
    else s

end Session

end DebugConsole
