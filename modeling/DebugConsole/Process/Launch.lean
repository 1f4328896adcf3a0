import DebugConsole.Process.Fault
import DebugConsole.Settings

set_option autoImplicit false

/-!
# Launching processes

A process is launched by its path and arguments, directly or through a shell, and counts as launched
only if it is still running after a while.
-/

namespace DebugConsole

/-- How processes are launched. -/
inductive LaunchStrategy where
  | direct
  | shell
  deriving DecidableEq, Repr

namespace LaunchStrategy

/-- The name that selects a strategy. -/
def word : LaunchStrategy → String
  | direct => "exec"
  | shell => "shell"

/-- The strategy with a name. -/
def ofWord? (w : String) : Option LaunchStrategy := [direct, shell].find? fun s => s.word == w

end LaunchStrategy

/-! ## Shell words -/

namespace ShellWord

/-- Characters that a shell takes as they are. -/
def isPlain (c : Char) : Bool :=
  c.isAlphanum || ['_', '@', '%', '+', '=', ':', ',', '.', '/', '-'].contains c

/-- One character between single quotes; a single quote leaves them for double quotes. -/
def quotedChar (c : Char) : List Char :=
  if c == '\'' then ['\'', '"', '\'', '"', '\''] else [c]

/-- A word that the shell reads as the given text. -/
def quote (word : List Char) : List Char :=
  if !word.isEmpty && word.all isPlain then word
  else '\'' :: word.flatMap quotedChar ++ ['\'']

/-- A command line of words. -/
def commandLine (words : List String) : String :=
  " ".intercalate (words.map fun w => String.ofList (quote w.toList))

end ShellWord

/-! ## Launching -/

/-- What the operating system is asked to run. -/
structure SpawnRequest where
  strategy : LaunchStrategy
  /-- the words of the command, or the one command line for the shell -/
  command : List String
  folder : Option String
  /-- the whole environment, unless it is inherited -/
  environment : Option Environment
  deriving DecidableEq, Repr

/-- An environment with some variables set anew. -/
def Environment.merge (base : Environment) (changes : Environment) : Environment :=
  (base.filter fun (name, _) => (changes.lookup name).isNone) ++ changes

namespace SpawnRequest

/-- The request to run a program. -/
def create (strategy : LaunchStrategy) (path : String) (args : List String) (folder : Option String)
    (inherited : Environment) (changes : Option Environment) : SpawnRequest where
  strategy
  command := match strategy with
    | .direct => path :: args
    | .shell => [ShellWord.commandLine (path :: args)]
  folder
  environment := changes.map inherited.merge

end SpawnRequest

/-- How launching ends. -/
inductive LaunchOutcome where
  | launched
  /-- the operating system could not start it, or it exited at once -/
  | notLaunched
  /-- the request itself was refused -/
  | refused (fault : Fault)
  deriving DecidableEq, Repr

namespace LaunchOutcome

/-- How launching ends if starting the process fails. -/
def ofSpawnFault (fault : Fault) : LaunchOutcome :=
  match fault.family with
  | .transport => notLaunched
  | _ => refused fault

/-- How launching ends, given when the process exits by itself (counted from its start). -/
def ofExit (delay : Float) (exitsAt : Option Float) (hasExited : Bool) : LaunchOutcome :=
  if hasExited || (decide (0.0 < delay) && exitsAt.any fun t => decide (t ≤ delay)) then notLaunched
  else launched

/-- The time that launching takes once the process is started. -/
def duration (delay : Float) : Float := if 0.0 < delay then delay else 0.0

end LaunchOutcome

end DebugConsole
