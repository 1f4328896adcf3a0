import DebugConsole.Text.Blank
import DebugConsole.Text.Path

set_option autoImplicit false

/-!
# Toolchains

What differs between the toolchains of a target: where the debugger is found, and the commands that
attach to the probe, prepare the target and leave it.  One of them talks to its probe through a
bridge, a companion process that is started when the session connects and ended with it.
-/

namespace DebugConsole

/-- How to connect to a target. -/
structure ConnectOptions where
  /-- the program with its symbols -/
  executable : String
  cpu : String
  interface : String
  /-- where the probe is attached to the host, if that must be said -/
  connector : Option String
  /-- commands of the user, sent last -/
  customCommands : List String
  /-- configuration files of the bridge -/
  bridgeConfigs : List String
  deriving DecidableEq, Repr

/-- The toolchains that sessions run with. -/
inductive Toolchain where
  | st7
  | sdcc
  deriving DecidableEq, Repr

namespace Toolchain

/-- Every toolchain. -/
def all : List Toolchain := [st7, sdcc]

/-- The name that selects a toolchain. -/
def word : Toolchain → String
  | st7 => "st7"
  | sdcc => "stm8-sdcc"

/-- The toolchain with a name. -/
def ofWord? (w : String) : Option Toolchain := all.find? fun t => t.word == w

/-- Where the debugger lies below the folder of the toolchains. -/
def debuggerComponents : Toolchain → List String
  | st7 => ["st7", "gdb.exe"]
  | sdcc => ["sdcc", "stm8-gdb.exe"]

/-- The debugger's path; without a folder it is relative to the working directory. -/
def debuggerPath (t : Toolchain) (folder : Option String) : String :=
  ((Text.Path.ofString (folder.getD "")).below t.debuggerComponents).toString

/-- Character arrays are printed whole, and lines are never wrapped. -/
def printCommands : List String := ["set print elements 0", "set width 0"]

/-- Loads the symbols of a program. -/
def fileCommand (executable : String) : String := "file \"" ++ executable ++ "\""

/-- Attaches to the probe through its own driver, on the given connector if there is one. -/
def attachCommand (o : ConnectOptions) : String :=
  let interface := if o.interface.isEmpty then "stlink3" else o.interface
  let connector := match o.connector.filter (!·.isEmpty) with
    | some name => "-port " ++ name
    | none => ""
  Text.trimmedRight ("target gdi -dll swim\\stm_swim.dll -" ++ interface ++ " " ++ connector)

/-- The commands that load the symbols and attach to the target. -/
def connectCommands : Toolchain → ConnectOptions → List String
  | st7, o =>
    printCommands ++ [fileCommand o.executable, attachCommand o, "mcuname -set " ++ o.cpu]
  | sdcc, o => printCommands ++ [fileCommand o.executable, "target extended-remote localhost:3333"]

/-- The commands that leave the target. -/
def disconnectCommands : Toolchain → List String
  | st7 => ["delete", "symbol-file", "target gdi -close"]
  | sdcc => ["delete", "symbol-file"]

/-- The commands that bring the program onto the target. -/
def loadCommands : Toolchain → List String
  | st7 => ["load", "reset"]
  | sdcc => ["load"]

/-- Does the toolchain talk to its probe through a bridge? -/
def usesBridge : Toolchain → Bool
  | st7 => false
  | sdcc => true

/-- The arguments of the bridge: its configuration files, and then the target is halted. -/
def bridgeArguments (configs : List String) : List String :=
  (configs.flatMap fun config => ["-f", config]) ++ ["-c", "init", "-c", "reset halt"]

/-- The options with forward slashes in the program's path, which is what a debugger on Windows
reads between quotes. -/
def forwardSlashes (o : ConnectOptions) : ConnectOptions :=
  { o with executable := o.executable.map fun c => if c == '\\' then '/' else c }

/-- What is left of the log that a probe's driver keeps, if there is one, when a session connects.
-/
def clearedLog (log : Option String) : Option String := log.map fun _ => ""

end Toolchain

end DebugConsole
