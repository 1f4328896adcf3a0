import DebugConsole.Variable.Basic

set_option autoImplicit false

/-!
# Reports

What a command's answer says.  A report collects the items that its lines were read as, each kind
of item in its own place, and in `logs` the lines that nothing was read from.  A report with an
error is failed; what was read before the error stays.
-/

namespace DebugConsole

/-- Where the target halted, as far as the answer names it. -/
structure StopLocation where
  file : Option String
  line : Option Nat
  deriving DecidableEq, Repr, Inhabited

/-- A halt at an unnamed place. -/
def StopLocation.unknown : StopLocation := ⟨none, none⟩

/-- A breakpoint as the debugger confirmed it. -/
structure Breakpoint where
  number : Nat
  file : String
  line : Nat
  /-- when to halt there; the confirmation does not repeat it -/
  condition : Option String
  deriving DecidableEq, Repr

/-- One frame of the call stack. -/
structure StackFrame where
  level : Nat
  /-- the function with its parameters as printed -/
  function : String
  address : Option String
  file : Option String
  /-- the file's name without its folders -/
  fileName : Option String
  line : Option Nat
  /-- the parameters decoded, or nothing if they are malformed -/
  params : Option (List Variable)
  deriving Repr

/-- A global variable as it is declared. -/
structure Definition where
  name : String
  declaration : String
  deriving DecidableEq, Repr

/-- Memory cells from an address on. -/
structure MemoryBlock where
  address : Nat
  data : List UInt8
  deriving DecidableEq, Repr

/-- What one line of an answer was read as. -/
inductive Item where
  | stop (location : StopLocation)
  | breakpoint (breakpoint : Breakpoint)
  | frame (frame : StackFrame)
  | value (v : Variable)
  | definition (d : Definition)
  | memory (row : MemoryBlock)
  | instruction (line : String)
  | line (line : String)
  deriving Repr

/-- What an answer says. -/
structure Report where
  error : Option String
  stop : Option StopLocation
  breakpoint : Option Breakpoint
  stack : Option (List StackFrame)
  values : Option (List Variable)
  definitions : Option (List Definition)
  memory : Option MemoryBlock
  disassembly : Option (List String)
  lines : Option (List String)
  logs : List String
  deriving Repr

namespace Report

/-- A report of nothing. -/
def empty : Report := ⟨none, none, none, none, none, none, none, none, none, []⟩

/-- A report of nothing but an error. -/
def failure (error : String) : Report := { empty with error := some error }

/-- Did the command succeed? -/
def isOk (r : Report) : Bool := r.error.isNone

/-- Adds to a list that exists only once it holds something. -/
def push {α : Type} (items : Option (List α)) (a : α) : Option (List α) :=
  some (items.getD [] ++ [a])

/-- The halt that two halts of one answer stand for: one that names a file wins over what was known,
and without any file the last line counts. -/
def mergeStop (known : Option StopLocation) (location : StopLocation) : StopLocation :=
  match known with
  | none => location
  | some k =>
    if location.file.isSome then location
    else if k.file.isNone then { k with line := location.line }
    else k

/-- Memory rows follow each other without a gap. -/
def mergeMemory (known : Option MemoryBlock) (row : MemoryBlock) : MemoryBlock :=
  match known with
  | none => row
  | some k => { k with data := k.data ++ row.data }

/-- The report with one more item. -/
def add (r : Report) : Item → Report
  | .stop location => { r with stop := some (mergeStop r.stop location) }
  | .breakpoint b => { r with breakpoint := some b }
  | .frame f => { r with stack := push r.stack f }
  | .value v => { r with values := push r.values v }
  | .definition d => { r with definitions := push r.definitions d }
  | .memory row => { r with memory := some (mergeMemory r.memory row) }
  | .instruction line => { r with disassembly := push r.disassembly line }
  | .line line => { r with lines := push r.lines line }

/-- The report with one more line that nothing was read from. -/
def log (r : Report) (line : String) : Report := { r with logs := r.logs ++ [line] }

@[simp] theorem isOk_empty : empty.isOk = true := rfl

@[simp] theorem isOk_failure (error : String) : (failure error).isOk = false := rfl

@[simp] theorem error_add (r : Report) (item : Item) : (r.add item).error = r.error := by
  cases item <;> rfl

@[simp] theorem logs_add (r : Report) (item : Item) : (r.add item).logs = r.logs := by
  cases item <;> rfl

end Report

end DebugConsole
