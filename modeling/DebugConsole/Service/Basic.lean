import DebugConsole.Session.State

set_option autoImplicit false

/-!
# Tools

What clients of the service ask for and get.  A tool is an operation of the session with the checks
that a client needs, and its answer says what a client wants to know besides.
-/

namespace DebugConsole

/-- What makes the target run or halt, by the word that a client gives. -/
inductive Action where
  | run (command : RunCommand)
  | interrupt
  | unknown (word : String)
  deriving DecidableEq, Repr

/-- The action that a client's word stands for. -/
def Action.ofWord (word : String) (byInstruction : Bool) : Action :=
  match word with
  | "continue" => .run .continue
  | "continue_background" => .run .continueBackground
  | "next" => .run (.next byInstruction)
  | "step" => .run (.step byInstruction)
  | "step_out" => .run .stepOut
  | "interrupt" => .interrupt
  | _ => .unknown word

/-- What a client can ask of a running session. -/
inductive TargetTool where
  | connect (options : ConnectOptions) (others : List String)
  | disconnect
  | load (extras : List String)
  | control (action : Action)
  | waitForStop (timeout : Option Float)
  | setBreakpoints (file : String) (lines : List Int) (conditions : List (String × String))
  | stack
  | locals
  | evaluate (expression : String)
  | globals
  | registers
  | memory (address length : Int)
  /-- from an address, if it is written with the mark of one, or else a place -/
  | disassemble (start : String) (length : Int)
  | command (text : String)

/-- What a client can ask for. -/
inductive Tool where
  | startSession (path : Option String) (args : List String) (folder : Option String)
  | stopSession
  | status
  | target (tool : TargetTool)

/-- Why a client gets no answer. -/
inductive ToolFault where
  /-- the service refuses, in its own words -/
  | refused (message : String)
  /-- an argument makes no sense -/
  | invalid (message : String)
  | session (fault : SessionFault)
  deriving Repr

/-- What a client gets. -/
inductive ToolAnswer where
  | started (toolchain : Option String)
  | stopped (wasRunning : Bool)
  | idle
  | busy (runState : RunState) (lastCommand : Option String) (elapsed : Option Float)
  | connected (ok : Bool)
  | disconnected (ok : Bool)
  | loaded (ok : Bool)
  | halt (location : Option StopLocation) (runState : RunState) (elapsed : Option Float)
  | breakpoints (file : String) (confirmed : List Breakpoint)
  | stack (frames : List StackFrame)
  | locals (values : Option (List Variable))
  | value (expression : String) (v : Option Variable)
  | globals (definitions : Option (List Definition))
  | registers (values : Option (List Variable))
  | memory (block : Option MemoryBlock)
  | disassembly (lines : Option (List String))
  | report (report : Report) (elapsed : Option Float)

namespace TargetTool

/-- What a client is told who needs a running session and has none. -/
def notRunningMessage : String := "GDB session is not running. Call start_session first."

/-- The breakpoints that a client asks for: the conditions are given by line number. -/
def requests (file : String) (lines : List Int) (conditions : List (String × String)) :
    List BreakpointRequest :=
  lines.map fun line => ⟨line, some file, conditions.lookup (Numeral.decimal line)⟩

/-- The origin of a disassembly. -/
def origin (start : String) : Except ToolFault Origin :=
  if Numeral.hasHexMark start.toList then
    match Numeral.readTypedHex start with
    | .ok n => .ok (.address n)
    | .error f => .error (.invalid f.message)
  else .ok (.place start)

/-- The session's operation behind a tool, or why the arguments do not give one. -/
def operation : TargetTool → Except ToolFault Operation
  | connect options others => .ok (.connect options others)
  | disconnect => .ok .disconnect
  | load extras => .ok (.load extras)
  | control (.run c) => .ok (.run c)
  | control .interrupt => .ok .interrupt
  | control (.unknown word) => .error (.invalid ("Unknown action: " ++ word))
  | waitForStop timeout => .ok (.waitForStop timeout)
  | setBreakpoints file lines conditions =>
    .ok (.setBreakpoints file (requests file lines conditions))
  | stack => .ok (.ask .stack)
  | locals => .ok (.ask .locals)
  | evaluate expression => .ok (.ask (.value expression))
  | globals => .ok (.ask .globals)
  | registers => .ok (.ask .registers)
  | memory address length =>
    if length ≤ 0 then .error (.invalid "length must be positive")
    else .ok (.ask (.memory address length))
  | disassemble start length => (origin start).map fun o => .ask (.disassembly o length)
  | command text => .ok (.send text .custom .log)

/-- Is the session looked for before the arguments are checked? -/
def checksSessionFirst : TargetTool → Bool
  | control _ => true
  | _ => false

end TargetTool

/-- Does a session fault reach the client in the service's words? -/
def Tool.rewordsFaults : Tool → Bool
  | startSession .. | target (.connect ..) | target .disconnect | target (.load _) => true
  | _ => false

end DebugConsole
