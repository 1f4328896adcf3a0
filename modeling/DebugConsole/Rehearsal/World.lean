import DebugConsole.Rehearsal.Debugger
import DebugConsole.Rehearsal.Timeline
import DebugConsole.Service.Step

set_option autoImplicit false

/-!
# Rehearsing a session or a service

A service over scripted debuggers and bridges, on a virtual clock.  The world answers what the
service asks for: it launches the next script, delivers signals, ends processes and wakes whoever
waits.  A call may be left pending while the rehearsal goes on; any other call is waited for.
-/

namespace DebugConsole.Rehearsal

/-- What happens in the world. -/
inductive WorldEvent where
  | service (event : Service.Event)
  /-- a session reads what one of its debuggers prints -/
  | reads (launch : LaunchId)
  | beginsWrite (launch : LaunchId) (serial : Nat)
  /-- a debugger takes the text of a write, or refuses it -/
  | takes (launch : LaunchId) (serial : Nat) (text : String) (reply : Reply)
  | prints (launch : LaunchId) (reply : Reply)
  /-- the output of a bridge is read -/
  | bridgeReads (bridge : LaunchId)
  /-- a call fails before it reaches the session -/
  | refuses (call : CallId) (fault : Fault)

/-- How a call ends. -/
inductive Ended where
  | session (result : Except SessionFault Result)
  | tool (result : Except ToolFault ToolAnswer)

/-- A process that was launched. -/
structure Launched where
  path : String
  args : List String
  folder : Option String

/-- A service and all that surrounds it. -/
structure World where
  service : Service
  debuggers : List Debugger
  bridges : List Debugger
  /-- what the next launches give; a launch without a script fails -/
  scripts : List (Option Script)
  bridgeScripts : List (Option Script)
  time : Timeline WorldEvent
  /-- since the last report -/
  launches : List Launched
  bridgeLaunches : List Launched
  bridgeLog : List String
  /-- how calls have ended -/
  ended : List (CallId × Ended)
  /-- calls that are not waited for, by name -/
  tasks : List (String × CallId)
  nextCall : CallId
  /-- what subscribers had received when they left -/
  left : List Subscriber

namespace World

/-- A world where nothing has happened. -/
def create (service : Service) (scripts bridgeScripts : List (Option Script)) : World where
  service
  debuggers := []
  bridges := []
  scripts
  bridgeScripts
  time := .start
  launches := []
  bridgeLaunches := []
  bridgeLog := []
  ended := []
  tasks := []
  nextCall := Service.monitorCall + 1
  left := []

/-- The session of the service. -/
def session (w : World) : Session := w.service.session

/-- What the service finds in the world. -/
def surroundings (w : World) : Surroundings where
  now := w.time.now
  signalFault := fun k name => (w.debuggers[k]?).bind fun d => d.signalFault name

/-- Lets something happen as soon as it can. -/
def enqueue (w : World) (e : WorldEvent) : World := { w with time := w.time.enqueue e }

/-- Lets the session take note of something after some laps of the queue. -/
def tell (w : World) (laps : Nat) (e : Session.Event) : World :=
  { w with time := w.time.enqueueAfter laps (.service (.session e)) }

/-- Lets the session take note of something before all else happens. -/
def tellFirst (w : World) (e : Session.Event) : World :=
  { w with time := w.time.enqueueFirst (.service (.session e)) }

/-- Changes a debugger; what it prints is read as soon as it can be. -/
def modifyDebugger (w : World) (k : LaunchId) (f : Debugger → Debugger) : World :=
  match w.debuggers[k]? with
  | none => w
  | some d =>
    let v := { w with debuggers := w.debuggers.set k (f d) }
    if d.wakesReader (f d) then v.enqueue (.reads k) else v

/-- Changes a bridge; what it prints is read as soon as it can be. -/
def modifyBridge (w : World) (b : LaunchId) (f : Debugger → Debugger) : World :=
  match w.bridges[b]? with
  | none => w
  | some d =>
    let v := { w with bridges := w.bridges.set b (f d) }
    if d.wakesReader (f d) then v.enqueue (.bridgeReads b) else v

/-- A debugger answers a text or a signal, now or later. -/
def reply (w : World) (k : LaunchId) (r : Reply) : World :=
  if !r.responds then w
  else if 0.0 < r.delay then { w with time := w.time.after r.delay (.prints k r) }
  else w.modifyDebugger k (·.answer r)

/-- Takes the next script. -/
def nextScript : List (Option Script) → Option Script × List (Option Script)
  | [] => (none, [])
  | script :: rest => (script, rest)

/-- A killed process exits with this code. -/
def killedCode : Int := -9

/-- Whoever kills a process goes on after so many laps: the last output has been read by then, and
those who waited for an answer have been told. -/
def killLaps : Nat := 2

/-- How many laps a caller makes who can go on.  What is there passes through other hands first:
those of whoever minds the limit of a wait, of whoever shares a halt among all who wait for it or
fetches the first frame, and of whoever is told to stop. -/
def laps (c : Call) : Nat :=
  match c.stage, c.limit with
  | .awaitingReply .., none | .awaitingBanner _, none => 0
  | .awaitingStop _, some _ | .awaitingBanner _, some _ => 2
  | _, _ => 1

/-- Does what the session asks for. -/
def serve (w : World) : Request → World
  | .launch call path args folder =>
    let (script, scripts) := nextScript w.scripts
    let launches := w.launches ++ [Launched.mk path args folder]
    let w := { w with scripts, launches }
    match script with
    | none => w.tellFirst (.launched call false)
    | some script =>
      tellFirst { w with debuggers := w.debuggers ++ [Debugger.start script] } (.launched call true)
  | .endProcess call k =>
    (w.modifyDebugger k (·.exit killedCode)).tell killLaps (.processEnded call)
  | .signal k name =>
    match w.debuggers[k]? with
    | none => w
    | some d =>
      let (r, d) := d.receiveSignal name
      let w := { w with debuggers := w.debuggers.set k d }
      if r.fault.isSome then w else w.reply k r
  | .launchBridge call path args =>
    let (script, bridgeScripts) := nextScript w.bridgeScripts
    let bridgeLaunches := w.bridgeLaunches ++ [Launched.mk path args none]
    let w := { w with bridgeScripts, bridgeLaunches }
    match script with
    | none => w.tellFirst (.bridgeLaunched call false)
    | some script =>
      tellFirst { w with bridges := w.bridges ++ [Debugger.start script] }
        (.bridgeLaunched call true)
  | .endBridge call b => (w.modifyBridge b (·.exit killedCode)).tell killLaps (.bridgeEnded call)
  | .read k => w.enqueue (.reads k)
  | .readBridge b => w.enqueue (.bridgeReads b)
  | .beginWrite k serial => w.enqueue (.beginsWrite k serial)
  | .watch k => w.tell 0 (.watches k)
  | .goOn call wait =>
    match w.session.call? call with
    | some c => w.tell (laps c) (.proceeds call wait)
    | none => w
  | .wake call wait seconds =>
    { w with time := w.time.after seconds (.service (.session (.timesOut call wait))) }
  | .bridgeLog message => { w with bridgeLog := w.bridgeLog ++ [message] }
  | .answer call result => { w with ended := w.ended ++ [(call, .session result)] }

/-- Does what the service asks for. -/
def serveService (w : World) : ServiceRequest → World
  | .session r => w.serve r
  | .alarm seconds => { w with time := w.time.after seconds (.service .alarm) }
  | .answer call result => { w with ended := w.ended ++ [(call, .tool result)] }

/-- Lets the service take a step, and serves it. -/
def stepService (w : World) (e : Service.Event) : World :=
  let v := w.service.step w.surroundings e
  let w := { w with service := { v with outbox := [] } }
  v.outbox.foldl serveService w

/-- Lets the session take a step. -/
def stepSession (w : World) (e : Session.Event) : World := w.stepService (.session e)

/-- A session reads what a debugger has printed, if it reads at all. -/
def read (w : World) (k : LaunchId) : World :=
  match w.debuggers[k]?, w.session.channels[k]? with
  | some d, some ch =>
    if ch.reader != .running then w
    else
      let (chunks, stop, d) := d.readable
      let w := { w with debuggers := w.debuggers.set k d }
      let w := chunks.foldl (fun w chunk => w.stepSession (.channel k (.prints chunk))) w
      match stop with
      | some .ended => w.stepSession (.channel k .outputEnds)
      | some (.fault f) => w.stepSession (.channel k (.outputFails f.message))
      | _ => w
  | _, _ => w

/-- The output of a bridge is read, if somebody relays it. -/
def readBridge (w : World) (b : LaunchId) : World :=
  match w.bridges[b]? with
  | none => w
  | some d =>
    if !w.session.relayed.contains b then w
    else
      let (chunks, stop, d) := d.readable
      let w := { w with bridges := w.bridges.set b d }
      let w := chunks.foldl (fun w chunk => w.stepSession (.bridgePrints b chunk)) w
      match stop with
      | some .ended => w.stepSession (.bridgeExits b (d.exitCode.getD 0))
      | _ => w

/-- A debugger takes a text that has been written, or refuses it. -/
def take (w : World) (k : LaunchId) (serial : Nat) (text : String) (r : Reply) : World :=
  let w := if r.fault.isSome then w
    else { w with debuggers := w.debuggers.modify k (·.take text) }.reply k r
  w.stepSession (.channel k (.writeEnds serial r.fault))

/-- Performs an event. -/
def perform (w : World) : WorldEvent → World
  | .service e => w.stepService e
  | .reads k => w.read k
  | .bridgeReads b => w.readBridge b
  | .beginsWrite k serial =>
    match w.debuggers[k]?, (w.session.channels[k]?).bind fun ch => ch.writeText? serial with
    | some d, some text =>
      let (r, d) := d.receive text
      let w := { w with debuggers := w.debuggers.set k d }
      let w := w.stepSession (.channel k (.writeBegins serial))
      if 0.0 < r.writeDelay then
        { w with time := w.time.after r.writeDelay (.takes k serial text r) }
      else w.take k serial text r
    | _, _ => w
  | .takes k serial text r => w.take k serial text r
  | .prints k r => w.modifyDebugger k (·.answer r)
  | .refuses call fault =>
    { w with ended := w.ended ++ [(call, .session (.error (.raised fault)))] }

/-! ## The clock -/

/-- Performs what can happen now, within a bound. -/
def settleWithin : Nat → World → World
  | 0, w => w
  | bound + 1, w =>
    match w.time.next? with
    | none => w
    | some (none, time) => settleWithin bound { w with time }
    | some (some event, time) => settleWithin bound ({ w with time }.perform event)

/-- Performs what can happen now. -/
def settle (w : World) : World := settleWithin eventBound w

/-- Does an operation still wait for what a timer limits? -/
def isLive (s : Session) : WorldEvent → Bool
  | .service (.session (.timesOut call wait)) => (s.call? call).any (·.wait == wait)
  | _ => true

/-- Moves the clock to the next timer that somebody waits for, if it is due at the given time at the
latest. -/
def jump? (w : World) (latest : Float) : Option World :=
  let live := w.time.timers.filter fun t => isLive w.session t.event
  ({ w.time with timers := live }.jump? latest).map fun time => { w with time }

/-- Moves the clock from timer to timer up to a time, within a bound. -/
def advanceWithin (latest : Float) : Nat → World → World
  | 0, w => w
  | bound + 1, w =>
    match w.jump? latest with
    | none => { w with time := { w.time with now := latest } }
    | some w => advanceWithin latest bound w.settle

/-- Lets some seconds pass. -/
def advance (w : World) (seconds : Float) : World :=
  (advanceWithin (w.time.now + seconds) eventBound w).settle

/-- A call is waited for so long, in seconds. -/
def patience : Float := 3600.0

/-- How a call has ended, if it has. -/
def endedAs? (w : World) (call : CallId) : Option Ended := w.ended.lookup call

/-- Moves the clock from timer to timer until a call has ended, within a bound. -/
def awaitWithin (call : CallId) (latest : Float) : Nat → World → World
  | 0, w => w
  | bound + 1, w =>
    if (w.endedAs? call).isSome then w
    else match w.jump? latest with
      | none => w
      | some w => awaitWithin call latest bound w.settle

/-! ## Steps -/

/-- What is done to a world from outside. -/
inductive Step where
  /-- a call of the session, waited for unless it has a name -/
  | operation (task : Option String) (operation : Operation)
  /-- a call of the service -/
  | tool (task : Option String) (tool : Tool)
  /-- a call with arguments that no operation has -/
  | refused (task : Option String) (fault : Fault)
  /-- a name that is in use goes over to the new subscriber -/
  | subscribe (name : String)
  | unsubscribe (name : String)
  | advance (seconds : Float)
  /-- the latest debugger acts by itself -/
  | debuggerPrints (lines : List String)
  | debuggerPrintsRaw (chunk : String)
  | debuggerExits (code : Int)
  | outputFails (fault : Fault)
  /-- the latest bridge acts by itself -/
  | bridgePrints (chunk : String)
  | bridgeExits (code : Int)

/-- What a step comes to. -/
inductive Shown where
  | nothing
  | ended (ended : Ended)
  | pending (task : String)
  /-- the call does not end; it stays pending under the name -/
  | hangs (task : String)

/-- Names a pending call; calls may share a name. -/
def nameTask (w : World) (task : String) (call : CallId) : World :=
  { w with tasks := w.tasks ++ [(task, call)] }

/-- Begins a call. -/
def call (w : World) (task : Option String) (e : CallId → WorldEvent) : Shown × World :=
  let id := w.nextCall
  let began := w.time.now
  let w := ({ w with nextCall := id + 1 }.enqueue (e id)).settle
  match task with
  | some name => (.pending name, w.nameTask name id)
  | none =>
    let w := awaitWithin id (began + patience) eventBound w
    match w.endedAs? id with
    | some ended => (.ended ended, { w with ended := w.ended.filter (·.1 != id) })
    | none =>
      let name := "hung" ++ toString w.tasks.length
      (.hangs name, w.nameTask name id)

/-- The number of the latest debugger. -/
def latest (w : World) : LaunchId := w.debuggers.length - 1

/-- The number of the latest bridge. -/
def latestBridge (w : World) : LaunchId := w.bridges.length - 1

/-- Changes the session from outside. -/
def modifySession (w : World) (f : Session → Session) : World :=
  { w with service := { w.service with session := f w.session } }

/-- Does a step. -/
def step (w : World) : Step → Shown × World
  | .operation task o => w.call task fun id => .service (.session (.call id o))
  | .tool task t => w.call task fun id => .service (.tool id t)
  | .refused task f => w.call task fun id => .refuses id f
  | .subscribe name => (.nothing, w.modifySession fun s => (s.unsubscribe name).subscribe name)
  | .unsubscribe name =>
    let left := (w.session.subscribers.find? (·.name == name)).toList
    (.nothing, { w with left := w.left ++ left }.modifySession (·.unsubscribe name))
  | .advance seconds => (.nothing, w.advance seconds)
  | .debuggerPrints lines => (.nothing, (w.modifyDebugger w.latest (·.printFrame lines)).settle)
  | .debuggerPrintsRaw chunk =>
    (.nothing, (w.modifyDebugger w.latest (·.print (.chunk chunk))).settle)
  | .debuggerExits code => (.nothing, (w.modifyDebugger w.latest (·.exit code)).settle)
  | .outputFails f => (.nothing, (w.modifyDebugger w.latest (·.print (.fault f))).settle)
  | .bridgePrints chunk =>
    (.nothing, (w.modifyBridge w.latestBridge (·.print (.chunk chunk))).settle)
  | .bridgeExits code => (.nothing, (w.modifyBridge w.latestBridge (·.exit code)).settle)

/-! ## Reports -/

/-- The pending calls that have ended. -/
def finishedTasks (w : World) : List (String × Ended) :=
  w.tasks.filterMap fun (name, call) => (w.endedAs? call).map fun ended => (name, ended)

/-- Has there been a call? -/
def hasBeenCalled (w : World) : Bool := w.nextCall != Service.monitorCall + 1

/-- What debuggers have taken since the last report, oldest debugger first. -/
def written (w : World) : List String := w.debuggers.flatMap (·.written)

/-- The signals that debuggers have received since the last report. -/
def signalled (w : World) : List String := w.debuggers.flatMap (·.signalled)

/-- What subscribers have received since the last report. -/
def received (w : World) : List Subscriber :=
  (w.left ++ w.session.subscribers).filter fun q => !q.inbox.isEmpty

/-- Everything has been reported. -/
def reported (w : World) : World :=
  let hasEnded (call : CallId) := (w.endedAs? call).isSome
  let w := { w with
    debuggers := w.debuggers.map Debugger.reported
    launches := []
    bridgeLaunches := []
    bridgeLog := []
    tasks := w.tasks.filter fun (_, call) => !hasEnded call
    ended := []
    left := [] }
  w.modifySession fun s =>
    { s with subscribers := s.subscribers.map fun q => { q with inbox := [] } }

end World

end DebugConsole.Rehearsal
