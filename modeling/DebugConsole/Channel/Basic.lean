import DebugConsole.Channel.Framing
import DebugConsole.Process.Fault

set_option autoImplicit false

/-!
# Channels

A channel turns the console of one debugger process into request and reply.  Commands are written
one at a time; a command that finds another in flight waits.  Every command and every signal
reserves its place in `pending` when it is submitted, and a frame answers the oldest pending one:
the console says nothing about what a frame answers, so the order is all there is.  A frame that
arrives while nothing is pending was printed by the target on its own.

Whoever submits something gets a `Ticket`, and looks up there what has become of it.
-/

namespace DebugConsole

/-- Commands are told apart by a number that their submitter chooses. -/
abbrev CommandId := Int

/-- A command and its number. -/
structure Command where
  id : CommandId
  text : String
  deriving DecidableEq, Repr

/-- The lines printed between two prompts. -/
structure Frame where
  lines : List String
  /-- the command that it answers -/
  id : CommandId
  /-- the time between writing the command and its prompt -/
  elapsed : Option Float
  deriving Repr

/-- The number of no command, carried by frames that answer none. -/
def Frame.unsolicited : CommandId := -1

/-- Does the frame answer no command? -/
def Frame.isUnsolicited (f : Frame) : Bool := f.id == unsolicited

/-- Why a command gets no answer. -/
inductive ChannelFault where
  /-- the channel was closed before -/
  | closed
  | killed
  /-- the debugger ended on its own -/
  | exited
  | unreadable (cause : String)
  /-- this command alone did not reach the debugger -/
  | unwritten (cause : String)
  deriving DecidableEq, Repr

namespace ChannelFault

/-- The wording of a fault. -/
def message : ChannelFault → String
  | closed => "debugger session is closed"
  | killed => "debugger session killed"
  | exited => "debugger exited"
  | unreadable cause => "output reader failed: " ++ cause
  | unwritten cause => cause

/-- Does the fault concern one command, and not the whole session? -/
def isUnwritten : ChannelFault → Bool
  | unwritten _ => true
  | _ => false

end ChannelFault

/-- A receipt for something that was submitted: the number of earlier ones. -/
abbrev Ticket := Nat

/-- What has become of something that was submitted. -/
inductive Outcome where
  | waiting
  | answered (frame : Frame)
  | failed (fault : ChannelFault)
  /-- the submitter gave up -/
  | cancelled
  deriving Repr

/-- Is it settled? -/
def Outcome.isDone : Outcome → Bool
  | waiting => false
  | _ => true

/-- A write on its way to the debugger. -/
structure Writer where
  /-- the number of earlier writes -/
  serial : Nat
  command : Command
  /-- the text has been handed to the process -/
  hasBegun : Bool
  deriving DecidableEq, Repr

/-- Is the process's output being read? -/
inductive ReaderState where
  | absent
  | running
  | ended
  deriving DecidableEq, Repr

/-- The state of a channel. -/
structure Channel where
  prompt : String
  buffer : FrameBuffer
  /-- what is owed a frame, oldest first -/
  pending : List CommandId
  /-- commands that wait for the one in flight -/
  backlog : List Command
  inFlight : Option CommandId
  /-- whose ticket each pending number is -/
  registered : List (CommandId × Ticket)
  /-- when each pending command was written -/
  startedAt : List (CommandId × Float)
  isClosed : Bool
  /-- frames that answer nothing and have not been taken -/
  unsolicited : List Frame
  /-- what has become of each ticket, in order -/
  outcomes : List Outcome
  /-- writes that have not ended -/
  writers : List Writer
  /-- the number of writes so far -/
  writes : Nat
  reader : ReaderState
  deriving Repr

namespace Channel

/-- A new channel. -/
def create (prompt : String) : Channel where
  prompt
  buffer := .empty
  pending := []
  backlog := []
  inFlight := none
  registered := []
  startedAt := []
  isClosed := false
  unsolicited := []
  outcomes := []
  writers := []
  writes := 0
  reader := .absent

/-- What has become of a ticket. -/
def outcome (ch : Channel) (t : Ticket) : Outcome := ch.outcomes.getD t .cancelled

/-- Settles a ticket that is still waiting; what is settled stays. -/
def settle (ch : Channel) (t : Ticket) (o : Outcome) : Channel :=
  match ch.outcomes[t]? with
  | some .waiting => { ch with outcomes := ch.outcomes.set t o }
  | _ => ch

end Channel

end DebugConsole
