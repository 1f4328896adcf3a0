import DebugConsole.Numeral.Whole
import DebugConsole.Response.Command
import DebugConsole.Response.Report
import DebugConsole.Process.Fault
import DebugConsole.Toolchain.Basic

set_option autoImplicit false

/-!
# What a session is asked and answers

The operations of a debugging session, what they end with, and what subscribers are told meanwhile.
-/

namespace DebugConsole

/-- Is the target halted? -/
inductive RunState where
  | stopped
  | running
  deriving DecidableEq, Repr

namespace RunState

/-- The name by which clients know a run state. -/
def word : RunState → String
  | stopped => "stopped"
  | running => "running"

end RunState

/-- How much a message matters. -/
inductive LogLevel where
  | log
  | warning
  | error
  /-- shown only by a verbose session -/
  | hidden
  deriving DecidableEq, Repr

namespace LogLevel

/-- The name by which clients know a level. -/
def word : LogLevel → String
  | log => "log"
  | warning => "warning"
  | error => "error"
  | hidden => "hide"

/-- The level with a name. -/
def ofWord? (w : String) : Option LogLevel :=
  [log, warning, error, hidden].find? fun l => l.word == w

end LogLevel

/-- What subscribers are told. -/
inductive SessionEvent where
  | log (level : LogLevel) (message : String)
  /-- the target halted while no command waited for it -/
  | stop (location : StopLocation) (lines : List String)
  deriving Repr

/-- Why an operation cannot even be tried. -/
inductive SessionFault where
  | alreadyRunning
  | notRunning
  | noToolchain
  /-- a fault that the session does not expect -/
  | raised (fault : Fault)
  deriving DecidableEq, Repr

/-- The wording of a fault. -/
def SessionFault.message : SessionFault → String
  | alreadyRunning => "GDB session is already active"
  | notRunning => "Start the session before sending commands"
  | noToolchain => "No vendor adapter configured"
  | raised fault => fault.message

/-- A breakpoint that is asked for. -/
structure BreakpointRequest where
  line : Int
  file : Option String
  condition : Option String
  deriving DecidableEq, Repr

/-- Where a disassembly starts. -/
inductive Origin where
  | address (address : Int)
  | place (text : String)
  deriving DecidableEq, Repr

/-- What makes the target run. -/
inductive RunCommand where
  | continue
  | continueBackground
  | next (byInstruction : Bool)
  | step (byInstruction : Bool)
  | stepOut
  deriving DecidableEq, Repr

/-- What is asked about the halted target. -/
inductive Query where
  | stack
  | locals
  | globals
  | registers
  | value (expression : String)
  | memory (address length : Int)
  | disassembly (origin : Origin) (length : Int)
  deriving DecidableEq, Repr

/-- What a session can be asked to do. -/
inductive Operation where
  /-- launches the debugger -/
  | start (path : Option String) (args : List String) (folder : Option String)
  | kill
  /-- attaches to the target; the other commands are sent on the way, whatever comes of them -/
  | connect (options : ConnectOptions) (others : List String)
  | disconnect
  /-- brings a program onto the target -/
  | load (extras : List String)
  | run (command : RunCommand)
  | interrupt
  | waitForStop (timeout : Option Float)
  | addBreakpoint (request : BreakpointRequest)
  | removeBreakpoints (numbers : List Int)
  /-- replaces the breakpoints of a file -/
  | setBreakpoints (file : String) (requests : List BreakpointRequest)
  | ask (query : Query)
  | send (text : String) (kind : CommandKind) (level : LogLevel)

/-- What operations end with. -/
inductive Result where
  /-- of starting: what went wrong, if anything did -/
  | started (failure : Option String)
  | killed
  | connected (ok : Bool) (executable : String)
  | disconnected (ok : Bool)
  | loaded (ok : Bool)
  /-- of running, interrupting and waiting: where the target halted -/
  | stop (location : Option StopLocation)
  | breakpoint (confirmed : Option Breakpoint)
  | removed (ok : Bool)
  | breakpoints (confirmed : List Breakpoint)
  | stack (frames : List StackFrame)
  | locals (values : Option (List Variable))
  | globals (definitions : Option (List Definition))
  | registers (values : Option (List Variable))
  | value (v : Option Variable)
  | memory (block : Option MemoryBlock)
  | disassembly (lines : Option (List String))
  | report (report : Report)
  deriving Repr

/-! ## The texts of commands -/

namespace RunCommand

/-- The kind of a run command. -/
def kind : RunCommand → CommandKind
  | .continue => .continue
  | continueBackground => .continueBackground
  | next _ => .next
  | step _ => .step
  | stepOut => .stepOut

/-- The text of a run command. -/
def text : RunCommand → String
  | .continue => "continue"
  | continueBackground => "continue&"
  | next byInstruction => if byInstruction then "nexti" else "next"
  | step byInstruction => if byInstruction then "stepi" else "step"
  | stepOut => "finish"

end RunCommand

namespace Origin

/-- The text of an origin. -/
def text : Origin → String
  | address a => Numeral.hexadecimal a
  | place text => text

end Origin

namespace Query

/-- The kind of a query's command. -/
def kind : Query → CommandKind
  | stack => .stackTrace
  | locals => .localVariables
  | globals => .globalVariables
  | registers => .registers
  | value _ => .variableValue
  | memory .. => .readMemory
  | disassembly .. => .disassemble

/-- The text of a query's command. -/
def text : Query → String
  | stack => "bt"
  | locals => "info locals"
  | globals => "info variables"
  | registers => "info registers"
  | value expression => "p " ++ expression
  | memory address length =>
    "x/" ++ Numeral.decimal length ++ "xb " ++ Numeral.hexadecimal address
  | disassembly origin length => "disassemble " ++ origin.text ++ ",+" ++ Numeral.decimal length

/-- Who is shown a query's command: what a user asks for directly is logged. -/
def level : Query → LogLevel
  | locals | value _ => .log
  | _ => .hidden

/-- What a report answers to a query. -/
def result (q : Query) (r : Report) : Result :=
  let ifOk {α : Type} (a : Option α) : Option α := if r.isOk then a else none
  match q with
  | stack => .stack (r.stack.getD [])
  | locals => .locals (ifOk (some (r.values.getD [])))
  | globals => .globals (ifOk (some (r.definitions.getD [])))
  | registers => .registers (ifOk (some (r.values.getD [])))
  | value expression =>
    .value (ifOk (((r.values.getD []).head?).map (·.rename expression)))
  | memory .. => .memory (ifOk r.memory)
  | disassembly .. => .disassembly (ifOk (some (r.disassembly.getD [])))

end Query

namespace BreakpointRequest

/-- Where a breakpoint is asked for. -/
def place (b : BreakpointRequest) : String :=
  match b.file.filter (!·.isEmpty) with
  | some file => file ++ ":" ++ Numeral.decimal b.line
  | none => Numeral.decimal b.line

/-- The text of the command that sets a breakpoint. -/
def text (b : BreakpointRequest) : String :=
  "break " ++ b.place ++
    match b.condition.filter (!·.isEmpty) with
    | some condition => " if " ++ condition
    | none => ""

/-- The breakpoint that a report confirms for a request with the given condition; one without a
number is none. -/
def confirmed? (condition : Option String) (r : Report) : Option Breakpoint :=
  if r.isOk then (r.breakpoint.filter fun b => b.number != 0).map fun b => { b with condition }
  else none

end BreakpointRequest

/-- The text of the command that removes breakpoints. -/
def removalText (numbers : List Int) : String :=
  "delete breakpoints " ++ " ".intercalate (numbers.map Numeral.decimal)

end DebugConsole
