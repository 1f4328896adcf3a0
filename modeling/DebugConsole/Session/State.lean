import DebugConsole.Channel.Submission
import DebugConsole.Session.Basic
import DebugConsole.Settings

set_option autoImplicit false

/-!
# The state of a session

A session runs operations for any number of callers at once.  Between two points where it waits,
an operation runs without interruption; `Stage` says where it waits and what it does next.  What a
step asks of the world outside (to launch, signal or end a process, to wake a caller after some
time) is left in the `outbox`, in order.  So is what the step has made possible (a write can begin,
a caller can go on): it becomes a step of its own, and the order of the requests is the order in
which the steps became possible.

Every debugger that was launched keeps its channel, because operations may still wait for an
answer of one that the session has let go.
-/

namespace DebugConsole

/-- Callers are told apart by a number. -/
abbrev CallId := Nat

/-- Launched processes are told apart by the number of earlier ones. -/
abbrev LaunchId := Nat

/-- A toolchain as installed on the host, and what it does besides sending commands. -/
structure Probe where
  toolchain : Toolchain
  folder : Option String
  /-- the program of the bridge -/
  bridgeProgram : String
  /-- is the bridge's program there? -/
  hasBridgeProgram : Bool
  /-- a message given in place of preparing a connection; if it is not empty there is none -/
  connectMessage : Option String
  /-- a message given in place of ending the bridge -/
  killMessage : Option String

/-- The events that a subscriber has not taken. -/
structure Subscriber where
  name : String
  inbox : List SessionEvent

/-! ## Commands and plans -/

/-- A command on behalf of an operation. -/
structure Issue where
  text : String
  kind : CommandKind
  level : LogLevel
  /-- is the command given by signalling the debugger? -/
  bySignal : Bool
  deriving DecidableEq, Repr

/-- What a sequence of commands is for. -/
inductive Goal where
  | connect (executable : String)
  | disconnect
  | load
  deriving DecidableEq, Repr

/-- What an operation does with the answer to its command. -/
inductive Plan where
  /-- hand the report over -/
  | deliver
  | ask (query : Query)
  | confirm (condition : Option String)
  | remove
  /-- the target runs; before that it was in the given state -/
  | run (previous : RunState)
  /-- the old breakpoints of a file are being removed -/
  | clear (file : String) (requests : List BreakpointRequest)
  /-- a breakpoint is being set, others are confirmed or still to be set -/
  | place (file : String) (condition : Option String) (confirmed : List Breakpoint)
      (rest : List BreakpointRequest)
  /-- a command of a sequence; if it `mustSucceed`, its failure ends the sequence -/
  | sequence (goal : Goal) (mustSucceed : Bool) (required optional : List Issue)

namespace Plan

/-- How many commands a plan may still give. -/
def remaining : Plan → Nat
  | clear _ requests => requests.length
  | place _ _ _ rest => rest.length
  | sequence _ _ required optional => required.length + optional.length
  | _ => 0

end Plan

/-! ## Stages -/

/-- How far closing a session has come. -/
inductive Closing where
  /-- the watcher is told to stop -/
  | watcher
  /-- the process is being killed -/
  | process (launch : LaunchId)
  /-- the reader is told to stop -/
  | reader

/-- Why a session is closed. -/
inductive Closed where
  /-- to start the next one -/
  | restart (path : Option String) (args : List String) (folder : Option String)
  /-- because the debugger has printed no prompt -/
  | noPrompt
  | kill

/-- Why a bridge is ended. -/
inductive BridgeEnded where
  /-- to connect anew -/
  | connect (options : ConnectOptions) (others : List String)
  | kill

/-- Where an operation waits. -/
inductive Stage where
  | closing (step : Closing) (next : Closed)
  | launching
  | awaitingBanner (launch : LaunchId)
  /-- the bridge is being killed -/
  | endingBridge (next : BridgeEnded)
  /-- whoever relays the bridge's output is told to stop -/
  | endingRelay (next : BridgeEnded)
  | launchingBridge (options : ConnectOptions) (others : List String)
  | awaitingReply (launch : LaunchId) (ticket : Ticket) (issue : Issue) (plan : Plan)
  | awaitingStop (ticket : Ticket)

/-- An operation in progress. -/
structure Call where
  id : CallId
  stage : Stage
  /-- the number of earlier waits, of this operation or another -/
  wait : Nat
  /-- how many seconds it waits at most -/
  limit : Option Float

/-- Is a wait limited, and long enough for anything to happen? -/
def isTimed (limit : Option Float) : Bool := limit.any fun seconds => decide (0.0 < seconds)

/-- Is a wait over before it has begun? -/
def isSpent (limit : Option Float) : Bool := limit.any fun seconds => decide (seconds ≤ 0.0)

namespace Call

/-- Does a change of a channel bring what an operation waits for? -/
def isServed (c : Call) (k : LaunchId) (before after : Channel) : Bool :=
  match c.stage with
  | .awaitingReply j t _ _ => j == k && !(before.outcome t).isDone && (after.outcome t).isDone
  | .awaitingBanner j => j == k && before.unsolicited.isEmpty && !after.unsolicited.isEmpty
  | _ => false

/-- Does an operation wait for a halt to be reported? -/
def awaitsStop (c : Call) (t : Ticket) : Bool :=
  match c.stage with
  | .awaitingStop u => u == t
  | _ => false

end Call

/-! ## Requests to the world outside -/

/-- What a step asks for. -/
inductive Request where
  | launch (call : CallId) (path : String) (args : List String) (folder : Option String)
  | endProcess (call : CallId) (launch : LaunchId)
  /-- a signal was sent -/
  | signal (launch : LaunchId) (name : String)
  | launchBridge (call : CallId) (path : String) (args : List String)
  | endBridge (call : CallId) (bridge : LaunchId)
  /-- a debugger's output is to be read from now on -/
  | read (launch : LaunchId)
  /-- a bridge's output is to be relayed from now on -/
  | readBridge (bridge : LaunchId)
  /-- a write can begin -/
  | beginWrite (launch : LaunchId) (serial : Nat)
  /-- the watcher of a debugger can look for frames -/
  | watch (launch : LaunchId)
  /-- what a caller waits for is there, or nothing keeps the caller -/
  | goOn (call : CallId) (wait : Nat)
  /-- wakes a caller that still waits for the same thing after some seconds -/
  | wake (call : CallId) (wait : Nat) (seconds : Float)
  /-- tells the log of the bridge -/
  | bridgeLog (message : String)
  | answer (call : CallId) (result : Except SessionFault Result)

/-- The request that lets an operation go on. -/
def Call.goOn (c : Call) : Request := .goOn c.id c.wait

/-! ## Sessions -/

/-- A debugging session. -/
structure Session where
  settings : Settings
  probe : Option Probe
  /-- the channels of all debuggers launched, in order -/
  channels : List Channel
  /-- the debugger that commands go to -/
  current : Option LaunchId
  /-- the debugger whose watcher is held -/
  watcher : Option LaunchId
  /-- the debuggers that are watched for frames of their own -/
  watched : List LaunchId
  runState : RunState
  nextId : CommandId
  lastElapsed : Option Float
  lastCommand : Option String
  /-- callers that wait for the target to halt -/
  blockingRuns : Nat
  /-- the numbers of the breakpoints set in each file -/
  breakpoints : List (String × List Nat)
  /-- where the next halt is reported -/
  stopTicket : Option Ticket
  /-- what each of these tickets reports, once it does -/
  stops : List (Option (Option StopLocation))
  subscribers : List Subscriber
  /-- the number of bridges launched -/
  bridges : Nat
  bridge : Option LaunchId
  /-- the bridge whose relay is held -/
  relay : Option LaunchId
  /-- the bridges whose output is relayed -/
  relayed : List LaunchId
  calls : List Call
  /-- the number of waits so far -/
  waits : Nat
  outbox : List Request

/-- What a step finds outside. -/
structure Surroundings where
  now : Float
  /-- what sending a signal to a debugger would fail with -/
  signalFault : LaunchId → String → Option Fault

namespace Session

/-- A session that has launched nothing. -/
def create (settings : Settings) (probe : Option Probe) : Session where
  settings
  probe
  channels := []
  current := none
  watcher := none
  watched := []
  runState := .stopped
  nextId := 0
  lastElapsed := none
  lastCommand := none
  blockingRuns := 0
  breakpoints := []
  stopTicket := none
  stops := []
  subscribers := []
  bridges := 0
  bridge := none
  relay := none
  relayed := []
  calls := []
  waits := 0
  outbox := []

/-! ## Views -/

/-- The channel that commands go to. -/
def currentChannel? (s : Session) : Option Channel := s.current.bind fun k => s.channels[k]?

/-- Is there a debugger that commands can go to? -/
def isRunning (s : Session) : Bool := s.currentChannel?.any fun ch => !ch.isClosed

/-- Is the target halted? -/
def isStopped (s : Session) : Bool := s.runState == .stopped

/-- The numbers of the breakpoints set in a file. -/
def breakpointNumbers (s : Session) (file : String) : List Nat :=
  (s.breakpoints.lookup file).getD []

/-! ## Small changes -/

/-- Asks for something outside. -/
def request (s : Session) (r : Request) : Session := { s with outbox := s.outbox ++ [r] }

/-- Asks for some things outside, in order. -/
def requestAll (s : Session) (rs : List Request) : Session := { s with outbox := s.outbox ++ rs }

/-- The operation with a number, if it is in progress. -/
def call? (s : Session) (call : CallId) : Option Call := s.calls.find? (·.id == call)

/-- Lets an operation wait, and wakes it when the limit is reached. -/
def suspend (s : Session) (call : CallId) (stage : Stage) (limit : Option Float) : Session :=
  let wait := s.waits
  let s := { s with
    calls := s.calls.filter (·.id != call) ++ [⟨call, stage, wait, limit⟩]
    waits := wait + 1 }
  match limit with
  | some seconds => if 0.0 < seconds then s.request (.wake call wait seconds) else s
  | none => s

/-- Lets an operation that nothing keeps any longer go on in its turn. -/
def letGoOn (s : Session) (call : CallId) : Session :=
  s.requestAll ((s.call? call).toList.map Call.goOn)

/-- Ends an operation. -/
def answer (s : Session) (call : CallId) (result : Except SessionFault Result) : Session :=
  { s with calls := s.calls.filter (·.id != call) }.request (.answer call result)

/-- Changes the channel of a launch, where that makes nothing else possible. -/
def modifyChannel (s : Session) (k : LaunchId) (f : Channel → Channel) : Session :=
  { s with channels := s.channels.modify k f }

/-- What a change of a channel makes possible: callers go on, the watcher looks for frames, and
writes begin. -/
def consequences (s : Session) (k : LaunchId) (before after : Channel) : List Request :=
  (s.calls.filter fun c => c.isServed k before after).map Call.goOn ++
    (if before.unsolicited.isEmpty && !after.unsolicited.isEmpty && s.watched.contains k then
      [.watch k] else []) ++
    (List.range (after.writes - before.writes)).map fun i => .beginWrite k (before.writes + i)

/-- Changes the channel of a launch. -/
def changeChannel (s : Session) (k : LaunchId) (f : Channel → Channel) : Session :=
  (s.modifyChannel k f).requestAll
    ((s.channels[k]?).toList.flatMap fun ch => s.consequences k ch (f ch))

/-- Whatever a change of a channel makes possible, it changes that channel and no other. -/
theorem channels_changeChannel (s : Session) (k : LaunchId) (f : Channel → Channel) :
    (s.changeChannel k f).channels = s.channels.modify k f := rfl

/-! ## Subscribers -/

/-- Tells every subscriber. -/
def publish (s : Session) (e : SessionEvent) : Session :=
  { s with subscribers := s.subscribers.map fun q => { q with inbox := q.inbox ++ [e] } }

/-- Logs a message; a hidden one only if the session is verbose, and then like any other. -/
def log (s : Session) (level : LogLevel) (message : String) : Session :=
  match level with
  | .hidden => if s.settings.verbose then s.publish (.log .log message) else s
  | level => s.publish (.log level message)

/-- The lines of a frame as one message. -/
def joined (lines : List String) : String := "\r\n".intercalate lines

/-- Adds a subscriber. -/
def subscribe (s : Session) (name : String) : Session :=
  { s with subscribers := s.subscribers ++ [⟨name, []⟩] }

/-- Removes a subscriber. -/
def unsubscribe (s : Session) (name : String) : Session :=
  { s with subscribers := s.subscribers.eraseP (·.name == name) }

/-! ## Halts -/

/-- A new ticket for the next halt. -/
def newStopTicket (s : Session) : Session :=
  { s with stopTicket := some s.stops.length, stops := s.stops ++ [none] }

/-- What a ticket reports, if it does. -/
def stopReport? (s : Session) (t : Ticket) : Option (Option StopLocation) := (s.stops[t]?).join

/-- The ticket for the next halt; there is one that reports nothing yet. -/
def expectStop (s : Session) : Session :=
  match s.stopTicket with
  | some t => if (s.stopReport? t).isNone then s else s.newStopTicket
  | none => s.newStopTicket

/-- Sees to it that there is a ticket for the next halt. -/
def withStopTicket (s : Session) : Session :=
  if s.stopTicket.isSome then s else s.newStopTicket

/-- Reports a halt, or that there will be none, to all who wait for it; what has been reported
stays. -/
def reportStop (s : Session) (location : Option StopLocation) : Session :=
  let s := s.withStopTicket
  match s.stopTicket with
  | some t =>
    if (s.stopReport? t).isNone then
      let waiting := s.calls.filter fun c => c.awaitsStop t
      { s with stops := s.stops.set t (some location) }.requestAll
        (waiting.map Call.goOn)
    else s
  | none => s

end Session

end DebugConsole
