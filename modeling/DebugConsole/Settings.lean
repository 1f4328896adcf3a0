import DebugConsole.Numeral.Real
import DebugConsole.Numeral.Shortest
import DebugConsole.Text.Quoted
import DebugConsole.Text.Upper

set_option autoImplicit false

/-!
# Settings

How a debugging session is run, read from the environment.  Every environment gives usable settings:
a variable that is missing or blank leaves the default, and a number that cannot be read leaves it
too, with a warning.  A timeout that is not above zero means to wait for ever.
-/

namespace DebugConsole

/-- An environment: variables and their values. -/
abbrev Environment := List (String × String)

/-- How a debugging session is run. -/
structure Settings where
  /-- the debugger to launch, if not the one of the toolchain -/
  debugger : Option String
  prompt : String
  /-- seconds to wait for the answer to a query -/
  commandTimeout : Option Float
  /-- seconds to wait for the target to halt -/
  runTimeout : Option Float
  /-- seconds a process must survive to count as launched -/
  launchDelay : Float
  interruptSignal : String
  /-- are the commands that the session sends on its own shown, too? -/
  verbose : Bool
  /-- the folder that holds the toolchains -/
  toolFolder : Option String
  toolchain : String
  logLevel : String
  /-- seconds after which an unused session is ended -/
  idleTimeout : Float

/-- A number that could not be read, and what is used in its place. -/
structure SettingWarning where
  variableName : String
  raw : String
  used : Option Float

namespace SettingWarning

/-- The wording of a warning. -/
def message (w : SettingWarning) : String :=
  "Ignoring invalid " ++ w.variableName ++ "=" ++ Text.quoted w.raw ++ "; using "
    ++ (w.used.map Numeral.timeText).getD "None"

end SettingWarning

namespace Settings

/-- The settings of an empty environment. -/
def default : Settings where
  debugger := none
  prompt := "(gdb)"
  commandTimeout := some 15.0
  runTimeout := none
  launchDelay := 0.5
  interruptSignal := "SIGINT"
  verbose := false
  toolFolder := none
  toolchain := "st7"
  logLevel := "INFO"
  idleTimeout := 90.0

/-- The variable of a setting. -/
def variableName (setting : String) : String := "MCU_GDB_" ++ setting

/-- The value of a variable as it stands, unless it is empty. -/
def raw? (env : Environment) (setting : String) : Option String :=
  (env.lookup (variableName setting)).filter fun value => !value.isEmpty

/-- The value of a variable without the blanks at its ends, unless nothing is left. -/
def text? (env : Environment) (setting : String) : Option String :=
  ((env.lookup (variableName setting)).map Text.trimmed).filter fun value => !value.isEmpty

/-- Reads a number; the second part warns of one that cannot be read. -/
def number (env : Environment) (setting : String) (fallback : Float) :
    Float × Option SettingWarning :=
  match text? env setting with
  | none => (fallback, none)
  | some raw =>
    match Numeral.readReal? raw with
    | some x => (x, none)
    | none => (fallback, some ⟨variableName setting, raw, some fallback⟩)

/-- A time to wait: nothing, which is for ever, unless it is above zero. -/
def waitingTime (x : Float) : Option Float := if 0.0 < x then some x else none

/-- Reads a timeout; the second part warns of one that cannot be read. -/
def timeout (env : Environment) (setting : String) (fallback : Option Float) :
    Option Float × Option SettingWarning :=
  match text? env setting with
  | none => (fallback, none)
  | some raw =>
    match Numeral.readReal? raw with
    | some x => (waitingTime x, none)
    | none => (fallback, some ⟨variableName setting, raw, fallback⟩)

/-- The words that switch a setting on, in lower case. -/
def affirmations : List String := ["1", "true", "yes", "on"]

/-- Is a setting switched on? -/
def isOn (env : Environment) (setting : String) : Bool :=
  (text? env setting).any fun value => affirmations.contains (value.map Char.toLower)

/-- The settings that an environment gives, and the warnings about its numbers. -/
def ofEnvironment (env : Environment) : Settings × List SettingWarning :=
  let (commandTimeout, w₁) := timeout env "COMMAND_TIMEOUT" default.commandTimeout
  let (runTimeout, w₂) := timeout env "RUN_TIMEOUT" default.runTimeout
  let (launchDelay, w₃) := number env "LAUNCH_DELAY" default.launchDelay
  let (idleTimeout, w₄) := number env "IDLE_TIMEOUT" default.idleTimeout
  ({ debugger := text? env "PATH"
     prompt := (raw? env "PROMPT").getD default.prompt
     commandTimeout
     runTimeout
     launchDelay
     interruptSignal := (text? env "INTERRUPT_SIGNAL").getD default.interruptSignal
     verbose := isOn env "VERBOSE"
     toolFolder := text? env "BIN_DIR"
     toolchain := (text? env "ADAPTER").getD default.toolchain
     logLevel := Text.toUpper ((text? env "LOGLEVEL").getD default.logLevel)
     idleTimeout },
   [w₁, w₂, w₃, w₄].filterMap id)

end Settings

end DebugConsole
