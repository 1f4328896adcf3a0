set_option autoImplicit false

/-!
# Faults of the operating system

What reading from, writing to and signalling a process can end with.  Callers tell faults apart by
their family alone: a transport fault says that the process cannot be reached, a value fault that
what was asked for makes no sense.
-/

namespace DebugConsole

/-- The families that callers tell apart. -/
inductive FaultFamily where
  | transport
  | runtime
  | value
  | other
  deriving DecidableEq, Repr

/-- The kinds of faults. -/
inductive FaultKind where
  /-- the operating system refused, and no more specific kind is known -/
  | system
  | brokenPipe
  | noSuchProcess
  | noSuchFile
  | notPermitted
  | runtime
  | value
  /-- a text that the encoding of the process cannot express -/
  | encoding
  /-- a kind that only its reporter knows, by the reporter's label -/
  | reported (family : FaultFamily) (label : String)
  deriving DecidableEq, Repr

/-- The family of a kind. -/
def FaultKind.family : FaultKind → FaultFamily
  | system | brokenPipe | noSuchProcess | noSuchFile | notPermitted => .transport
  | runtime => .runtime
  | value | encoding => .value
  | reported family _ => family

/-- What went wrong. -/
structure Fault where
  kind : FaultKind
  message : String
  deriving DecidableEq, Repr

/-- The family of a fault. -/
def Fault.family (f : Fault) : FaultFamily := f.kind.family

end DebugConsole
