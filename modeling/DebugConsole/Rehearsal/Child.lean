import DebugConsole.Process.Handle
import DebugConsole.Process.Launch

set_option autoImplicit false

/-!
# Rehearsing with a child process

A handle and a launch are rehearsed over a child process that does what a script says.  Time passes
only while somebody waits: for a killed process to exit, and for a launched one to survive.
-/

namespace DebugConsole.Rehearsal

/-! ## Handles -/

/-- What happens to a handle and its process. -/
inductive ChildStep where
  | prints (source : Source) (bytes : List UInt8)
  | endsOutput (source : Source)
  | write (text : String)
  /-- a text is written in an encoding that does not exist -/
  | writeUnencodable (fault : Fault)
  | signal (name : String)
  | exits (code : Int)
  | kill

/-- A child process under its handle. -/
structure Child where
  handle : ProcessHandle
  ignoresKill : Bool
  /-- what flushing written data fails with -/
  flushFault : Option Fault
  kills : Nat
  now : Float

/-- What a step shows. -/
structure ChildAnswer where
  fault : Option Fault
  /-- the bytes that reached the process -/
  written : List UInt8
  signals : List Nat
  chunks : List String
  child : Child

/-- Bytes in portions as large as one read takes. -/
def portions (bound : Nat) (bytes : List UInt8) : List (List UInt8) :=
  match bound with
  | 0 => []
  | more + 1 =>
    if bytes.isEmpty then []
    else bytes.take ProcessHandle.readSize :: portions more (bytes.drop ProcessHandle.readSize)

namespace Child

/-- Kills the process and waits for its exit, as long as is waited. -/
def kill (c : Child) : Option Fault × Child :=
  let waited :=
    if !c.handle.isAlive then c
    else if c.ignoresKill then
      { c with kills := c.kills + 1, now := c.now + ProcessHandle.killWait }
    else
      { c with kills := c.kills + 1, handle := c.handle.exit ProcessHandle.killedCode }
  let (outcome, handle) := waited.handle.cancelReaders
  let fault := match outcome with
    | .ok () => none
    | .error fault => some fault
  (fault, { waited with handle })

/-- Performs a step, without the consumer of the output. -/
def perform (c : Child) : ChildStep → ChildAnswer
  | .prints source bytes =>
    let handle := (portions (bytes.length + 1) bytes).foldl (·.receive source ·) c.handle
    ⟨none, [], [], [], { c with handle }⟩
  | .endsOutput source => ⟨none, [], [], [], { c with handle := c.handle.receiveEnd source }⟩
  | .write text =>
    match c.handle.writeBytes text with
    | .ok bytes => ⟨c.flushFault, bytes, [], [], c⟩
    | .error fault => ⟨some fault, [], [], [], c⟩
  | .writeUnencodable fault =>
    match c.handle.writeBytes "" with
    | .ok _ => ⟨some fault, [], [], [], c⟩
    | .error earlier => ⟨some earlier, [], [], [], c⟩
  | .signal name =>
    match c.handle.signalNumber name with
    | .ok n => ⟨none, [], [n], [], c⟩
    | .error fault => ⟨some fault, [], [], [], c⟩
  | .exits code => ⟨none, [], [], [], { c with handle := c.handle.exit code }⟩
  | .kill =>
    let (fault, c) := c.kill
    ⟨fault, [], [], [], c⟩

/-- Performs a step; then the consumer takes what there is. -/
def step (c : Child) (s : ChildStep) : ChildAnswer :=
  let answer := c.perform s
  let (chunks, handle) := answer.child.handle.takeChunks
  { answer with chunks, child := { answer.child with handle } }

end Child

/-! ## Launches -/

/-- What becomes of a process that is started. -/
structure SpawnScript where
  /-- starting it fails -/
  fault : Option Fault
  /-- it has exited from the start -/
  hasExited : Bool
  /-- when it exits by itself, in seconds after its start -/
  exitsAfter : Option Float

/-- How the launch of a scripted process ends, and the time it takes. -/
def launch (delay : Float) (s : SpawnScript) : LaunchOutcome × Float :=
  match s.fault with
  | some fault => (LaunchOutcome.ofSpawnFault fault, 0.0)
  | none => (LaunchOutcome.ofExit delay s.exitsAfter s.hasExited, LaunchOutcome.duration delay)

end DebugConsole.Rehearsal
