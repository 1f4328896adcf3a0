import DebugConsole.Process.Encoding
import DebugConsole.Process.Signal

set_option autoImplicit false

/-!
# Process handles

A handle merges what a process prints on its two streams into one sequence of chunks, in the order
in which it is read.  Each stream has a reader with a decoder of its own; when a reader ends it
leaves a mark, and the output ends with the last mark.  Nothing that arrives later is read.
-/

namespace DebugConsole

/-- The output streams of a process. -/
inductive Source where
  | stdout
  | stderr
  deriving DecidableEq, Repr

/-- How far a reader has come. -/
inductive ReaderStatus where
  | running
  /-- at the end of its stream, or cancelled -/
  | finished
  /-- ended by a fault of its stream -/
  | failed (fault : Fault)
  deriving DecidableEq, Repr

/-- The reader of a stream. -/
structure Reader where
  source : Source
  decoder : Decoder
  status : ReaderStatus
  deriving DecidableEq, Repr

/-- What readers leave for the consumer of the output. -/
inductive Mark where
  | chunk (text : String)
  | closed
  deriving DecidableEq, Repr

/-- A process as its owner sees it. -/
structure ProcessHandle where
  encoding : Encoding
  hasStdin : Bool
  readers : List Reader
  /-- what the readers left and the consumer has not taken, oldest first -/
  queue : List Mark
  /-- the readers whose mark the consumer has not taken -/
  unclosed : Nat
  /-- how the process exited -/
  exitCode : Option Int
  deriving Repr

namespace ProcessHandle

/-- The handle of a process with the given streams. -/
def create (encoding : Encoding) (hasStdin : Bool) (sources : List Source) (exitCode : Option Int) :
    ProcessHandle where
  encoding
  hasStdin
  readers := sources.map fun source => ⟨source, .ground, .running⟩
  queue := []
  unclosed := sources.length
  exitCode

/-- The handle of a process whose encoding does not exist: its readers end by that fault before they
read anything, and leave no mark. -/
def createUnreadable (hasStdin : Bool) (sources : List Source) (exitCode : Option Int)
    (fault : Fault) : ProcessHandle :=
  { create .utf8 hasStdin sources exitCode with
    readers := sources.map fun source => ⟨source, .ground, .failed fault⟩ }

/-- Has the process not exited? -/
def isAlive (h : ProcessHandle) : Bool := h.exitCode.isNone

/-- The most bytes that are read at once. -/
def readSize : Nat := 4096

/-! ## Reading -/

/-- A decoded text leaves a chunk, unless it is empty. -/
def chunkOf (text : List Char) : List Mark :=
  if text.isEmpty then [] else [.chunk (String.ofList text)]

/-- Updates the running reader of a source with what `f` makes of it, and queues what it leaves. -/
def updateReader (h : ProcessHandle) (source : Source) (f : Reader → Reader × List Mark) :
    ProcessHandle :=
  match h.readers.find? fun r => decide (r.source = source ∧ r.status = .running) with
  | none => h
  | some r =>
    let (r', marks) := f r
    { h with
      readers := h.readers.map fun s => if s.source = source then r' else s
      queue := h.queue ++ marks }

/-- Bytes are read from a stream. -/
def receive (h : ProcessHandle) (source : Source) (bytes : List UInt8) : ProcessHandle :=
  h.updateReader source fun r =>
    let (text, decoder) := r.decoder.run h.encoding bytes
    ({ r with decoder }, chunkOf text)

/-- The end of a stream is read. -/
def receiveEnd (h : ProcessHandle) (source : Source) : ProcessHandle :=
  h.updateReader source fun r =>
    ({ r with status := .finished, decoder := .ground }, chunkOf r.decoder.finish ++ [.closed])

/-- Reading a stream fails. -/
def receiveFault (h : ProcessHandle) (source : Source) (fault : Fault) : ProcessHandle :=
  h.updateReader source fun r => ({ r with status := .failed fault }, [.closed])

/-- The consumer takes everything there is: the chunks, up to the last mark. -/
def takeFrom (queue : List Mark) (unclosed : Nat) : List String × Nat :=
  match unclosed, queue with
  | 0, _ => ([], 0)
  | n, [] => ([], n)
  | n + 1, .closed :: rest => takeFrom rest n
  | n + 1, .chunk text :: rest =>
    let (texts, n) := takeFrom rest (n + 1)
    (text :: texts, n)
termination_by queue.length

/-- The consumer takes the chunks that are there. -/
def takeChunks (h : ProcessHandle) : List String × ProcessHandle :=
  let (texts, unclosed) := takeFrom h.queue h.unclosed
  (texts, { h with queue := [], unclosed })

/-- Has the output ended? -/
def hasEnded (h : ProcessHandle) : Bool := h.unclosed == 0

/-! ## Writing, signalling and killing -/

/-- The bytes that writing a text sends to the process. -/
def writeBytes (h : ProcessHandle) (text : String) : Except Fault (List UInt8) :=
  if h.hasStdin then h.encoding.encode text
  else .error ⟨.brokenPipe, "process stdin is not available"⟩

/-- The number that signalling by name sends to the process. -/
def signalNumber (h : ProcessHandle) (name : String) : Except Fault Nat :=
  if !h.isAlive then .error ⟨.noSuchProcess, "process is not running"⟩
  else match Signal.number? name with
    | some n => .ok n
    | none => .error ⟨.value, "Unsupported signal on this platform: " ++ name⟩

/-- How long a killed process is waited for, in seconds. -/
def killWait : Float := 3.0

/-- The code that a killed process exits with. -/
def killedCode : Int := -9

/-- The process exits. -/
def exit (h : ProcessHandle) (code : Int) : ProcessHandle :=
  if h.isAlive then { h with exitCode := some code } else h

/-- The last part of killing, when the process has exited or is given up: the readers are cancelled
one after another.  A reader that had failed passes its fault on, and the readers behind it stay. -/
def cancelReaders (h : ProcessHandle) : Except Fault Unit × ProcessHandle :=
  let (outcome, readers, marks) := cancel h.readers
  (outcome, { h with readers, queue := h.queue ++ marks })
where
  /-- Cancels readers; returns the fault met, the readers, and the marks that they leave. -/
  cancel : List Reader → Except Fault Unit × List Reader × List Mark
    | [] => (.ok (), [], [])
    | r :: rest =>
      match r.status with
      | .failed fault => (.error fault, r :: rest, [])
      | .finished =>
        let (outcome, rest, marks) := cancel rest
        (outcome, r :: rest, marks)
      | .running =>
        let (outcome, rest, marks) := cancel rest
        (outcome, { r with status := .finished } :: rest, .closed :: marks)

end ProcessHandle

end DebugConsole
