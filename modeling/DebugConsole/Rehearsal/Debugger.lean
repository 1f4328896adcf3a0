import DebugConsole.Process.Fault

set_option autoImplicit false

/-!
# Scripted debuggers

A debugger that answers from a script, to rehearse sessions without one.  It answers each text and
each signal with what the script says, the replies to one text in turn and the last of them from
then on.  It is a process like any other: it may refuse a text, take its time, fall silent or
exit.
-/

namespace DebugConsole.Rehearsal

/-- What a text or a signal is answered with. -/
structure Reply where
  /-- what is printed before the prompt -/
  lines : List String
  /-- seconds until it is printed -/
  delay : Float
  /-- is anything printed at all? -/
  responds : Bool
  /-- what is printed instead, chunk by chunk and without a prompt -/
  chunks : Option (List String)
  /-- the code that the debugger exits with then -/
  exits : Option Int
  /-- the text or the signal is refused -/
  fault : Option Fault
  /-- seconds until the text is taken -/
  writeDelay : Float

/-- A prompt at once. -/
def Reply.plain : Reply := ⟨[], 0.0, true, none, none, none, 0.0⟩

/-- How a debugger behaves. -/
structure Script where
  /-- what is printed before the first prompt; without it there is no first prompt -/
  banner : Option (List String)
  prompt : String
  lineEnd : String
  replies : List (String × List Reply)
  signals : List (String × List Reply)

/-- What waits to be read. -/
inductive Printed where
  | chunk (text : String)
  | fault (fault : Fault)
  | ended

/-- A debugger that follows its script. -/
structure Debugger where
  script : Script
  /-- how often each text and signal has come -/
  textUses : List (String × Nat)
  signalUses : List (String × Nat)
  /-- what is printed and not read -/
  printed : List Printed
  exitCode : Option Int
  /-- the texts taken and the signals received since the last report, oldest first -/
  written : List String
  signalled : List String

namespace Debugger

/-- Has the debugger not exited? -/
def isAlive (d : Debugger) : Bool := d.exitCode.isNone

/-- Prints, unless the debugger has exited. -/
def print (d : Debugger) (p : Printed) : Debugger :=
  if d.isAlive then { d with printed := d.printed ++ [p] } else d

/-- Exits, the first time. -/
def exit (d : Debugger) (code : Int) : Debugger :=
  if d.isAlive then { d with printed := d.printed ++ [.ended], exitCode := some code } else d

/-- Is there something to read again, where all had been read before? -/
def wakesReader (before after : Debugger) : Bool :=
  before.printed.isEmpty && !after.printed.isEmpty

/-- Lines and the prompt, as they are printed. -/
def frameText (d : Debugger) (lines : List String) : String :=
  String.join (lines.map fun line => line ++ d.script.lineEnd) ++ d.script.prompt ++ " "

/-- Prints lines and the prompt. -/
def printFrame (d : Debugger) (lines : List String) : Debugger :=
  d.print (.chunk (d.frameText lines))

/-- Prints a reply, and exits if it says so. -/
def answer (d : Debugger) (r : Reply) : Debugger :=
  let d := match r.chunks with
    | some chunks => chunks.foldl (fun d c => d.print (.chunk c)) d
    | none => d.printFrame r.lines
  match r.exits with
  | some code => d.exit code
  | none => d

/-- A debugger at its start. -/
def start (script : Script) : Debugger :=
  let d : Debugger := ⟨script, [], [], [], none, [], []⟩
  match script.banner with
  | some lines => d.printFrame lines
  | none => d

/-- The reply for the given use of a text: the last one stays. -/
def replyAt : List Reply → Nat → Reply
  | [], _ => .plain
  | [r], _ => r
  | r :: _, 0 => r
  | _ :: rest, n + 1 => replyAt rest n

/-- The reply that the script has for a text used so often. -/
def replyTo (replies : List (String × List Reply)) (uses : List (String × Nat)) (key : String) :
    Reply :=
  replyAt ((replies.lookup key).getD []) ((uses.lookup key).getD 0)

/-- Counts one more use. -/
def countUse (uses : List (String × Nat)) (key : String) : List (String × Nat) :=
  (key, (uses.lookup key).getD 0 + 1) :: uses.filter fun u => u.1 != key

/-- The command of a written text: the text without its line end. -/
def commandOf (text : String) : String :=
  if text.endsWith "\r\n" then (text.dropEnd 2).toString else text

/-- A text arrives; the reply says how it is taken and answered. -/
def receive (d : Debugger) (text : String) : Reply × Debugger :=
  let key := commandOf text
  (replyTo d.script.replies d.textUses key, { d with textUses := countUse d.textUses key })

/-- The reply that the next signal of a name will get. -/
def signalReply (d : Debugger) (name : String) : Reply := replyTo d.script.signals d.signalUses name

/-- What signalling by name would fail with. -/
def signalFault (d : Debugger) (name : String) : Option Fault := (d.signalReply name).fault

/-- Records a text as taken. -/
def take (d : Debugger) (text : String) : Debugger := { d with written := d.written ++ [text] }

/-- A signal arrives, and is recorded unless it is refused. -/
def receiveSignal (d : Debugger) (name : String) : Reply × Debugger :=
  let r := d.signalReply name
  let d := { d with signalUses := countUse d.signalUses name }
  (r, if r.fault.isSome then d else { d with signalled := d.signalled ++ [name] })

/-- Takes what is printed up to the next fault or the end, which stay to be dealt with. -/
def readable (d : Debugger) : List String × Option Printed × Debugger :=
  go d.printed
where
  /-- Splits what is printed. -/
  go : List Printed → List String × Option Printed × Debugger
    | [] => ([], none, { d with printed := [] })
    | .chunk text :: rest =>
      let (texts, stop, d) := go rest
      (text :: texts, stop, d)
    | .fault f :: rest => ([], some (.fault f), { d with printed := rest })
    | .ended :: rest => ([], some .ended, { d with printed := .ended :: rest })

/-- Nothing is left to report. -/
def reported (d : Debugger) : Debugger := { d with written := [], signalled := [] }

end Debugger

end DebugConsole.Rehearsal
