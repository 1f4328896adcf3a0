set_option autoImplicit false

/-!
# Kinds of commands

The console does not say what its output is about, so whoever sends a command says of which kind it
is: the kind decides how the lines of the answer are read, and how long the answer is waited for.
-/

namespace DebugConsole

/-- What a command asks of the debugger. -/
inductive CommandKind where
  | connect
  | disconnect
  | startDebug
  | interrupt
  | continue
  | continueBackground
  | next
  | step
  | stepOut
  | addBreakpoint
  | removeBreakpoints
  | stackTrace
  | localVariables
  | variableValue
  | globalVariables
  | registers
  | readMemory
  | disassemble
  | custom
  deriving DecidableEq, Repr

namespace CommandKind

/-- Every kind of command. -/
def all : List CommandKind :=
  [connect, disconnect, startDebug, interrupt, .continue, continueBackground, next, step, stepOut,
    addBreakpoint, removeBreakpoints, stackTrace, localVariables, variableValue, globalVariables,
    registers, readMemory, disassemble, custom]

/-- The name by which a client asks for the kind. -/
def word : CommandKind → String
  | connect => "connect"
  | disconnect => "disconnect"
  | startDebug => "start_debug"
  | interrupt => "interrupt"
  | .continue => "continue"
  | continueBackground => "continue_background"
  | next => "next"
  | step => "step"
  | stepOut => "step_out"
  | addBreakpoint => "add_breakpoint"
  | removeBreakpoints => "remove_breakpoints"
  | stackTrace => "stack_trace"
  | localVariables => "local_variables"
  | variableValue => "variable_value"
  | globalVariables => "global_variables"
  | registers => "registers"
  | readMemory => "read_memory"
  | disassemble => "disassemble"
  | custom => "custom"

/-- The kind with a name. -/
def ofWord? (w : String) : Option CommandKind := all.find? fun kind => kind.word == w

/-- Commands whose answer comes only when the target halts. -/
def blocksUntilStop : CommandKind → Bool
  | .continue | next | step | stepOut => true
  | _ => false

/-- Is a blank line of the answer worth keeping?  Only where nothing is known about the lines. -/
def keepsBlankLines (kind : CommandKind) : Bool := kind == custom

end CommandKind

end DebugConsole
