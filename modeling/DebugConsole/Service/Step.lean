import DebugConsole.Service.Basic
import DebugConsole.Session.Step

set_option autoImplicit false

/-!
# The steps of the service

The service runs tools on one session, and remembers when a client last did something: a monitor
wakes from time to time and kills a session that has not been used for too long.
-/

namespace DebugConsole

/-- Where the monitor stands. -/
inductive Monitor where
  /-- it has not been needed -/
  | absent
  | sleeping
  /-- it kills the session -/
  | killing
  deriving DecidableEq, Repr

/-- What the service asks of the world outside. -/
inductive ServiceRequest where
  | session (request : Request)
  /-- wake the monitor after some seconds -/
  | alarm (seconds : Float)
  /-- a tool has ended -/
  | answer (call : CallId) (result : Except ToolFault ToolAnswer)

/-- The service. -/
structure Service where
  session : Session
  /-- the tools in progress -/
  tools : List (CallId × Tool)
  lastActivity : Float
  monitor : Monitor
  outbox : List ServiceRequest

namespace Service

/-- The monitor's operations are known under this number; clients' numbers start above it. -/
def monitorCall : CallId := 0

/-- A service that has not been used. -/
def create (settings : Settings) (probe : Option Probe) : Service :=
  ⟨.create settings probe, [], 0.0, .absent, []⟩

/-- The settings of the service. -/
def settings (v : Service) : Settings := v.session.settings

/-- Asks for something outside. -/
def request (v : Service) (r : ServiceRequest) : Service := { v with outbox := v.outbox ++ [r] }

/-! ## The monitor -/

/-- The monitor sleeps at most so long, in seconds. -/
def longestSleep : Float := 5.0

/-- The monitor sleeps at least so long, in seconds. -/
def shortestSleep : Float := 1.0

/-- How long the monitor sleeps: a third of the time after which a session counts as unused. -/
def sleepTime (idleTimeout : Float) : Float :=
  let third := idleTimeout / 3.0
  let bounded := if third < longestSleep then third else longestSleep
  if shortestSleep < bounded then bounded else shortestSleep

/-- The monitor goes to sleep. -/
def sleep (v : Service) : Service :=
  { v with monitor := .sleeping }.request (.alarm (sleepTime v.settings.idleTimeout))

/-- Sees to it that there is a monitor, unless sessions may stay unused. -/
def ensureMonitor (v : Service) : Service :=
  if v.settings.idleTimeout ≤ 0.0 then v
  else if v.monitor == .absent then v.sleep
  else v

/-- A client does something. -/
def touch (v : Service) (now : Float) : Service :=
  let v := { v with lastActivity := now }
  if v.session.isRunning then v.ensureMonitor else v

/-! ## Answers -/

/-- What a client gets for what an operation on a running session ended with. -/
def targetAnswer (s : Session) (t : TargetTool) (r : Result) : ToolAnswer :=
  match t, r with
  | _, .connected ok _ => .connected ok
  | _, .disconnected ok => .disconnected ok
  | _, .loaded ok => .loaded ok
  | _, .stop location => .halt location s.runState s.lastElapsed
  | .setBreakpoints file _ _, .breakpoints confirmed => .breakpoints file confirmed
  | _, .stack frames => .stack frames
  | _, .locals values => .locals values
  | .evaluate expression, .value v => .value expression v
  | _, .globals definitions => .globals definitions
  | _, .registers values => .registers values
  | _, .memory block => .memory block
  | _, .disassembly lines => .disassembly lines
  | _, .report report => .report report s.lastElapsed
  -- no operation of a tool ends otherwise
  | _, _ => .idle

/-- What a client gets for what the session's operation ended with. -/
def answerOf (s : Session) (t : Tool) (r : Result) : Except ToolFault ToolAnswer :=
  match t, r with
  | .startSession .., .started (some message) => .error (.refused message)
  | .startSession .., _ => .ok (.started (s.probe.map fun p => p.toolchain.word))
  | .stopSession, _ => .ok (.stopped true)
  | .status, _ => .ok .idle
  | .target t, r => .ok (targetAnswer s t r)

/-- Does the end of a tool count as activity? -/
def touchesAtEnd : Tool → Result → Bool
  | .startSession .., .started none => true
  | .target (.control _), _ | .target (.waitForStop _), _ => true
  | _, _ => false

/-- A session fault as the client meets it. -/
def faultOf (t : Tool) (f : SessionFault) : ToolFault :=
  match f with
  | .raised _ => .session f
  | _ => if t.rewordsFaults then .refused f.message else .session f

/-- The session's operation behind a tool has ended. -/
def finishTool (v : Service) (now : Float) (id : CallId) (t : Tool)
    (outcome : Except SessionFault Result) : Service :=
  let v := { v with tools := v.tools.filter (·.1 != id) }
  match outcome with
  | .error f => v.request (.answer id (.error (faultOf t f)))
  | .ok r =>
    let v := if touchesAtEnd t r then v.touch now else v
    v.request (.answer id (answerOf v.session t r))

/-- Passes one of the session's requests on; the end of an operation goes to who asked for it. -/
def forward (v : Service) (now : Float) : Request → Service
  | .answer id outcome =>
    match v.tools.lookup id with
    | some t => v.finishTool now id t outcome
    | none =>
      if id == monitorCall && v.monitor == .killing then v.sleep
      else v.request (.session (.answer id outcome))
  | r => v.request (.session r)

/-- Lets the session do a step and passes its requests on. -/
def stepSession (v : Service) (env : Surroundings) (e : Session.Event) : Service :=
  let s := v.session.step env e
  s.outbox.foldl (fun v r => v.forward env.now r) { v with session := { s with outbox := [] } }

/-! ## Tools -/

/-- Ends a tool at once. -/
def answer (v : Service) (id : CallId) (result : Except ToolFault ToolAnswer) : Service :=
  v.request (.answer id result)

/-- What a client is told about the session. -/
def statusOf (s : Session) : ToolAnswer :=
  if s.isRunning then .busy s.runState s.lastCommand s.lastElapsed else .idle

/-- Hands a tool's operation to the session. -/
def delegate (v : Service) (env : Surroundings) (id : CallId) (t : Tool) (o : Operation) :
    Service :=
  { v with tools := v.tools ++ [(id, t)] }.stepSession env (.call id o)

/-- A client asks for a tool. -/
def begin (v : Service) (env : Surroundings) (id : CallId) (t : Tool) : Service :=
  match t with
  | .startSession path args folder => v.delegate env id t (.start path args folder)
  | .stopSession =>
    let v := v.touch env.now
    if v.session.isRunning then v.delegate env id t .kill else v.answer id (.ok (.stopped false))
  | .status =>
    let v := v.touch env.now
    v.answer id (.ok (statusOf v.session))
  | .target tool =>
    let v := v.touch env.now
    let refuse := v.answer id (.error (.refused TargetTool.notRunningMessage))
    match tool.operation with
    | .error f =>
      if tool.checksSessionFirst && !v.session.isRunning then refuse else v.answer id (.error f)
    | .ok o => if v.session.isRunning then v.delegate env id t o else refuse

/-- What happens to the service. -/
inductive Event where
  | tool (id : CallId) (tool : Tool)
  | session (event : Session.Event)
  /-- the monitor's sleep is over -/
  | alarm

/-- The monitor wakes: a session that has not been used for too long is killed. -/
def wakeMonitor (v : Service) (env : Surroundings) : Service :=
  if !v.session.isRunning then v.sleep
  else if v.settings.idleTimeout ≤ env.now - v.lastActivity then
    { v with monitor := .killing }.stepSession env (.call monitorCall .kill)
  else v.sleep

/-- The service after an event. -/
def step (v : Service) (env : Surroundings) : Event → Service
  | .tool id t => v.begin env id t
  | .session e => v.stepSession env e
  | .alarm => if v.monitor == .sleeping then v.wakeMonitor env else v

end Service

end DebugConsole
