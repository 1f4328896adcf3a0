import DebugConsole.Session.Execution

set_option autoImplicit false

/-!
# Starting and ending sessions

Launching the debugger and waiting for its prompt, closing the channel and ending the process, and
the bridge that some toolchains need.  Everything that takes time is a stage of its own, so other
operations may start, finish or close the session in between; the steps below therefore look at
the session as they find it, not as the operation left it.
-/

namespace DebugConsole

namespace Session

/-! ## Launching the debugger -/

/-- The program to launch: the one asked for, the one of the settings, or the toolchain's own. -/
def debuggerPath? (s : Session) (path : Option String) : Option String :=
  (path.filter (!·.isEmpty)).orElse fun _ =>
    s.settings.debugger.orElse fun _ =>
      s.probe.map fun p => p.toolchain.debuggerPath p.folder

/-- Starting has failed. -/
def failStart (s : Session) (call : CallId) (message : String) : Session :=
  s.answer call (.ok (.started (some message)))

/-- Launches the debugger. -/
def launchDebugger (s : Session) (call : CallId) (path : Option String) (args : List String)
    (folder : Option String) : Session :=
  match s.debuggerPath? path with
  | none => s.failStart call "No GDB executable configured !"
  | some program => (s.suspend call .launching none).request (.launch call program args folder)

/-- The debugger has printed its prompt: the session is ready.  What is printed before the first
prompt is shown. -/
def welcome (s : Session) (call : CallId) (k : LaunchId) (banner : Frame) : Session :=
  let s := if banner.lines.isEmpty then s else s.log .warning (joined banner.lines)
  { s with
    runState := .stopped
    watcher := some k
    watched := s.watched ++ [k] }.request (.watch k) |>.answer call (.ok (.started none))

/-! ## Ending the bridge -/

/-- The message of a toolchain's host that the bridge's program is missing. -/
def bridgeMissing : String := "Not found openocd !"

/-- The message that the bridge could not be launched. -/
def bridgeFailed : String := "launch Openocd failed !"

/-- The commands that connect to the target. -/
def connectTarget (s : Session) (env : Surroundings) (call : CallId) (t : Toolchain)
    (options : ConnectOptions) (others : List String) : Session :=
  let goal := Goal.connect options.executable
  let optional := others.map (plainIssue · .connect .hidden) ++
    options.customCommands.map (plainIssue · .custom .log)
  let (s, next) :=
    s.nextOfSequence goal ((t.connectCommands options).map (goalIssue goal)) optional
  s.continuePlan env call next

/-- Connecting is given up before any command. -/
def failConnect (s : Session) (call : CallId) (options : ConnectOptions) (message : String) :
    Session :=
  (s.log .error message).answer call (.ok (.connected false options.executable))

/-- The message with which the bridge is launched. -/
def bridgeLine (program : String) (args : List String) : String :=
  "launch openocd: " ++ program ++ " " ++ " ".intercalate args

/-- Launches the bridge. -/
def launchBridge (s : Session) (call : CallId) (options : ConnectOptions) (others : List String) :
    Session :=
  match s.probe with
  | none => s.answer call (.error .noToolchain)
  | some p =>
    let args := Toolchain.bridgeArguments options.bridgeConfigs
    let s := s.request (.bridgeLog (bridgeLine p.bridgeProgram args))
    (s.suspend call (.launchingBridge options others) none).request
      (.launchBridge call p.bridgeProgram args)

/-- No bridge is left. -/
def bridgeEnded (s : Session) (call : CallId) : BridgeEnded → Session
  | .connect options others => s.launchBridge call options others
  | .kill => s.answer call (.ok .killed)

/-- Nobody relays a bridge's output any more. -/
def relayEnded (s : Session) (call : CallId) (next : BridgeEnded) : Session :=
  { s with relay := none }.bridgeEnded call next

/-- Tells whoever relays the bridge's output to stop. -/
def endRelay (s : Session) (call : CallId) (next : BridgeEnded) : Session :=
  match s.relay with
  | none => s.bridgeEnded call next
  | some b =>
    if s.relayed.contains b then
      let s := { s with relayed := s.relayed.filter (· != b) }
      (s.suspend call (.endingRelay next) none).letGoOn call
    else s.relayEnded call next

/-- Ends the bridge, if there is one. -/
def endBridge (s : Session) (call : CallId) (next : BridgeEnded) : Session :=
  match s.bridge with
  | none => s.endRelay call next
  | some b => (s.suspend call (.endingBridge next) none).request (.endBridge call b)

/-! ## Closing -/

/-- The debugger is gone; the toolchain cleans up. -/
def finishKill (s : Session) (call : CallId) : Session :=
  match s.probe with
  | none => s.answer call (.ok .killed)
  | some p =>
    match p.killMessage with
    | some message =>
      let s := if message.isEmpty then s else s.log .error message
      s.answer call (.ok .killed)
    | none =>
      if p.toolchain.usesBridge then s.endBridge call .kill else s.answer call (.ok .killed)

/-- The session is closed. -/
def finishClosing (s : Session) (call : CallId) (next : Closed) : Session :=
  let s := s.reportStop none
  let s := { s with stopTicket := none, runState := .stopped }
  match next with
  | .restart path args folder => s.launchDebugger call path args folder
  | .noPrompt => s.failStart call "GDB did not print its prompt !"
  | .kill => s.finishKill call

/-- Closes the channel and kills the process, if there is one. -/
def closeChannel (s : Session) (call : CallId) (next : Closed) : Session :=
  match s.current with
  | none => s.finishClosing call next
  | some k =>
    ((s.changeChannel k fun ch => ch.close .killed).suspend call
      (.closing (.process k) next) none).request (.endProcess call k)

/-- Closes the session. -/
def close (s : Session) (call : CallId) (next : Closed) : Session :=
  match s.watcher with
  | none => s.closeChannel call next
  | some k =>
    let s := { s with watched := s.watched.filter (· != k) }
    (s.suspend call (.closing .watcher next) none).letGoOn call

/-- The process has ended, and nobody reads its output any more. -/
def readerEnded (s : Session) (call : CallId) (next : Closed) : Session :=
  { s with current := none }.finishClosing call next

/-- The process has ended: its reader is told to stop, if it has not stopped by itself. -/
def processEnded (s : Session) (call : CallId) (k : LaunchId) (next : Closed) : Session :=
  let isRead := (s.channels[k]?).any fun ch => ch.reader == .running
  let s := s.modifyChannel k Channel.stopReader
  if isRead then (s.suspend call (.closing .reader next) none).letGoOn call
  else s.readerEnded call next

/-! ## The debugger and its prompt -/

/-- The debugger was launched, or not. -/
def launched (s : Session) (call : CallId) (ok : Bool) : Session :=
  if !ok then s.failStart call "GDB launch failed !"
  else
    let k := s.channels.length
    let s := { s with
      channels := s.channels ++ [(Channel.create s.settings.prompt).startReader]
      current := some k }.request (.read k)
    let limit := s.settings.commandTimeout
    if isSpent limit then s.close call .noPrompt else s.suspend call (.awaitingBanner k) limit

/-- The bridge was launched, or not. -/
def bridgeLaunched (s : Session) (env : Surroundings) (call : CallId) (options : ConnectOptions)
    (others : List String) (ok : Bool) : Session :=
  if !ok then s.failConnect call options bridgeFailed
  else match s.probe with
    | none => s.answer call (.error .noToolchain)
    | some p =>
      let b := s.bridges
      let s := { s with
        bridges := b + 1
        bridge := some b
        relay := some b
        relayed := s.relayed ++ [b] }.request (.readBridge b)
      s.connectTarget env call p.toolchain options others

/-! ## Operations -/

/-- Starts a session, unless one is running; one whose debugger has ended is closed first. -/
def start (s : Session) (call : CallId) (path : Option String) (args : List String)
    (folder : Option String) : Session :=
  if s.isRunning then s.answer call (.error .alreadyRunning)
  else if s.current.isSome then s.close call (.restart path args folder)
  else s.launchDebugger call path args folder

/-- Prepares the connection and connects. -/
def connect (s : Session) (env : Surroundings) (call : CallId) (options : ConnectOptions)
    (others : List String) : Session :=
  match s.probe with
  | none => s.answer call (.error .noToolchain)
  | some p =>
    match p.connectMessage with
    | some message =>
      if message.isEmpty then s.connectTarget env call p.toolchain options others
      else s.failConnect call options message
    | none =>
      if !p.toolchain.usesBridge then s.connectTarget env call p.toolchain options others
      else if !p.hasBridgeProgram then s.failConnect call options bridgeMissing
      else s.endBridge call (.connect (Toolchain.forwardSlashes options) others)

/-- Gives the commands of a toolchain for a goal, and then the extra ones. -/
def pursue (s : Session) (env : Surroundings) (call : CallId) (goal : Goal)
    (commands : Toolchain → List String) (optional : List Issue) : Session :=
  match s.probe with
  | none => s.answer call (.error .noToolchain)
  | some p =>
    let (s, next) :=
      s.nextOfSequence goal ((commands p.toolchain).map (goalIssue goal)) optional
    s.continuePlan env call next

end Session

end DebugConsole
