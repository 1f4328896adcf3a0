import DebugConsole.Channel.Submission
import DebugConsole.Rehearsal.Debugger
import DebugConsole.Rehearsal.Timeline

set_option autoImplicit false

/-!
# Rehearsing a channel

One channel over one scripted debugger.  A `Console` holds both, the clock, and what was submitted.
-/

namespace DebugConsole.Rehearsal

/-- What happens between a channel and its debugger. -/
inductive ConsoleEvent where
  /-- the channel reads what is printed -/
  | reads
  | beginsWrite (serial : Nat)
  /-- the debugger takes the text of a write, or refuses it -/
  | takes (serial : Nat) (text : String) (reply : Reply)
  | prints (reply : Reply)

/-- Something that was submitted, until its outcome is reported. -/
structure Submitted where
  id : CommandId
  ticket : Ticket

/-- A channel over a scripted debugger. -/
structure Console where
  channel : Channel
  debugger : Debugger
  time : Timeline ConsoleEvent
  submitted : List Submitted

/-- What is done to a console from outside. -/
inductive ConsoleStep where
  | submit (id : CommandId) (text : String)
  | signal (id : CommandId) (name : String)
  | sendSignal (name : String)
  | cancel (id : CommandId)
  | feed (chunk : String)
  | start
  | kill
  | advance (seconds : Float)
  | debuggerPrints (lines : List String)
  | debuggerPrintsRaw (chunk : String)
  | debuggerExits (code : Int)
  | outputFails (fault : Fault)

/-- What a step fails with. -/
inductive ConsoleFault where
  | channel (fault : ChannelFault)
  | process (fault : Fault)

/-- What a step shows. -/
structure ConsoleAnswer where
  fault : Option ConsoleFault
  finished : List (CommandId × Outcome)
  unsolicited : List Frame
  written : List String
  signalled : List String

namespace Console

/-- A channel over a debugger at its start. -/
def create (prompt : String) (script : Script) : Console :=
  ⟨.create prompt, .start script, .start, []⟩

/-- Changes the channel; the writes that it puts in flight begin as soon as they can. -/
def withChannel (c : Console) (channel : Channel) : Console :=
  let new := (List.range (channel.writes - c.channel.writes)).map (c.channel.writes + ·)
  { c with channel, time := c.time.enqueueAll (new.map .beginsWrite) }

/-- Changes the debugger; what it prints is read as soon as it can be. -/
def withDebugger (c : Console) (debugger : Debugger) : Console :=
  let time := if c.debugger.wakesReader debugger then c.time.enqueue .reads else c.time
  { c with debugger, time }

/-- The channel reads what is printed, if it reads at all. -/
def read (c : Console) : Console :=
  if c.channel.reader != .running then c
  else
    let (chunks, stop, debugger) := c.debugger.readable
    let now := c.time.now
    let channel := chunks.foldl (fun ch chunk => ch.react now (.prints chunk)) c.channel
    let channel := match stop with
      | some .ended => channel.react now .outputEnds
      | some (.fault f) => channel.react now (.outputFails f.message)
      | _ => channel
    { c with debugger }.withChannel channel

/-- The debugger answers a text or a signal, now or later. -/
def answer (c : Console) (r : Reply) : Console :=
  if !r.responds then c
  else if 0.0 < r.delay then { c with time := c.time.after r.delay (.prints r) }
  else c.withDebugger (c.debugger.answer r)

/-- The debugger takes a text that has been written, or refuses it. -/
def take (c : Console) (serial : Nat) (text : String) (r : Reply) : Console :=
  let now := c.time.now
  let channel := c.channel.react now (.writeEnds serial r.fault)
  if r.fault.isSome then c.withChannel channel
  else ({ c with debugger := c.debugger.take text }.answer r).withChannel channel

/-- Performs an event. -/
def perform (c : Console) : ConsoleEvent → Console
  | .reads => c.read
  | .beginsWrite serial =>
    match c.channel.writeText? serial with
    | none => c
    | some text =>
      let (r, debugger) := c.debugger.receive text
      let c := { c with debugger, channel := c.channel.react c.time.now (.writeBegins serial) }
      if 0.0 < r.writeDelay then { c with time := c.time.after r.writeDelay (.takes serial text r) }
      else c.take serial text r
  | .takes serial text r => c.take serial text r
  | .prints r => c.withDebugger (c.debugger.answer r)

/-- Performs what can happen now, within a bound. -/
def settleWithin : Nat → Console → Console
  | 0, c => c
  | bound + 1, c =>
    match c.time.next? with
    | none => c
    | some (none, time) => settleWithin bound { c with time }
    | some (some event, time) => settleWithin bound ({ c with time }.perform event)

/-- Performs what can happen now. -/
def settle (c : Console) : Console := settleWithin eventBound c

/-- Moves the clock from timer to timer up to a time, within a bound. -/
def advanceWithin (latest : Float) : Nat → Console → Console
  | 0, c => c
  | bound + 1, c =>
    match c.time.jump? latest with
    | none => { c with time := { c.time with now := latest } }
    | some time => advanceWithin latest bound { c with time }.settle

/-- Keeps a ticket, so that its outcome is reported. -/
def keep (c : Console) (id : CommandId) (ticket : Ticket) : Console :=
  { c with submitted := c.submitted ++ [⟨id, ticket⟩] }

/-- Signals the debugger; it answers unless it refuses. -/
def deliver (c : Console) (name : String) : Console :=
  let (r, debugger) := c.debugger.receiveSignal name
  let c := { c with debugger }
  if r.fault.isSome then c else c.answer r

/-- Does a step, up to where something else could happen. -/
def begin (c : Console) : ConsoleStep → Option ConsoleFault × Console
  | .submit id text =>
    match c.channel.submit ⟨id, text⟩ with
    | .error f => (some (.channel f), c)
    | .ok (ticket, channel) => (none, (c.withChannel channel).keep id ticket)
  | .signal id name =>
    match c.channel.signal id name c.time.now (c.debugger.signalFault name) with
    | (.refused f, _) => (some (.channel f), c)
    | (.raised f, channel) => (some (.process f), (c.withChannel channel).deliver name)
    | (.submitted ticket, channel) => (none, ((c.withChannel channel).keep id ticket).deliver name)
  | .sendSignal name => ((c.debugger.signalFault name).map .process, c.deliver name)
  | .cancel id =>
    let tickets := (c.submitted.filter (·.id == id)).map (·.ticket)
    (none, c.withChannel (tickets.foldl Channel.cancel c.channel))
  | .feed chunk => (none, c.withChannel (c.channel.feed chunk c.time.now))
  | .start => (none, { c with
      channel := c.channel.startReader
      time := c.time.enqueue .reads })
  | .kill =>
    let c := (c.withChannel (c.channel.close .killed)).withDebugger (c.debugger.exit (-9))
    let c := c.read
    (none, { c with channel := c.channel.stopReader })
  | .advance seconds => (none, advanceWithin (c.time.now + seconds) eventBound c)
  | .debuggerPrints lines => (none, c.withDebugger (c.debugger.printFrame lines))
  | .debuggerPrintsRaw chunk => (none, c.withDebugger (c.debugger.print (.chunk chunk)))
  | .debuggerExits code => (none, c.withDebugger (c.debugger.exit code))
  | .outputFails f => (none, c.withDebugger (c.debugger.print (.fault f)))

/-- A channel over a debugger at its start; what the debugger prints first is read already, if the
channel reads from the start. -/
def opened (prompt : String) (script : Script) (reading : Bool) : Console :=
  let c := create prompt script
  if reading then (c.begin .start).2.settle else c

/-- Does a step and reports what has happened since the last one. -/
def step (c : Console) (s : ConsoleStep) : ConsoleAnswer × Console :=
  let (fault, c) := c.begin s
  let c := c.settle
  let isDone (s : Submitted) := (c.channel.outcome s.ticket).isDone
  ({ fault
     finished := (c.submitted.filter isDone).map fun s => (s.id, c.channel.outcome s.ticket)
     unsolicited := c.channel.unsolicited
     written := c.debugger.written
     signalled := c.debugger.signalled },
   { c with
     submitted := c.submitted.filter fun s => !isDone s
     channel := { c.channel with unsolicited := [] }
     debugger := c.debugger.reported })

end Console

end DebugConsole.Rehearsal
