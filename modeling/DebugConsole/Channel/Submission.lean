import DebugConsole.Channel.Basic

set_option autoImplicit false

/-!
# Submitting, writing and answering

The operations of a channel.  Each is one step: nothing else happens while it lasts.  A write
takes two steps, `beginWrite` and `endWrite`, because the process may be slow to take the text,
and everything may happen in between.
-/

namespace DebugConsole

/-- Sets the value of a key in place, or adds it at the end. -/
def assign {α β : Type} [BEq α] (entries : List (α × β)) (key : α) (value : β) : List (α × β) :=
  if entries.any fun e => e.1 == key then
    entries.map fun e => if e.1 == key then (key, value) else e
  else entries ++ [(key, value)]

/-- Removes a key. -/
def unassign {α β : Type} [BEq α] (entries : List (α × β)) (key : α) : List (α × β) :=
  entries.filter fun e => !(e.1 == key)

namespace Channel

/-! ## Submitting -/

/-- Reserves a place for the frame that will answer a number. -/
def reserve (ch : Channel) (id : CommandId) : Except ChannelFault (Ticket × Channel) :=
  if ch.isClosed then .error .closed
  else
    let t := ch.outcomes.length
    .ok (t, { ch with
      outcomes := ch.outcomes ++ [.waiting]
      registered := assign ch.registered id t
      pending := ch.pending ++ [id] })

/-- Puts a command in flight. -/
def startWrite (ch : Channel) (c : Command) : Channel :=
  { ch with
    inFlight := some c.id
    writers := ch.writers ++ [⟨ch.writes, c, false⟩]
    writes := ch.writes + 1 }

/-- Submits a command. -/
def submit (ch : Channel) (c : Command) : Except ChannelFault (Ticket × Channel) :=
  match ch.reserve c.id with
  | .error fault => .error fault
  | .ok (t, ch) =>
    if ch.inFlight.isSome then .ok (t, { ch with backlog := ch.backlog ++ [c] })
    else .ok (t, ch.startWrite c)

/-- The flight is over; the next command that waits takes it up. -/
def flushNext (ch : Channel) : Channel :=
  let ch := { ch with inFlight := none }
  match ch.backlog with
  | c :: rest => if ch.isClosed then ch else { ch with backlog := rest }.startWrite c
  | [] => ch

/-- Nothing is owed to a number any more. -/
def forget (ch : Channel) (id : CommandId) : Channel :=
  { ch with
    pending := ch.pending.erase id
    startedAt := unassign ch.startedAt id
    registered := unassign ch.registered id }

/-- The submitter gives up.  The place stays reserved, because the frame will come all the same. -/
def cancel (ch : Channel) (t : Ticket) : Channel := ch.settle t .cancelled

/-! ## Writing -/

/-- What ends a command on its way to the debugger. -/
def lineEnd : String := "\r\n"

/-- The text of a write that has not begun. -/
def writeText? (ch : Channel) (serial : Nat) : Option String :=
  (ch.writers.find? fun w => w.serial == serial && !w.hasBegun).map fun w =>
    w.command.text ++ lineEnd

/-- Hands a command to the process. -/
def beginWrite (ch : Channel) (serial : Nat) (now : Float) : Channel :=
  match ch.writers.find? fun w => w.serial == serial && !w.hasBegun with
  | none => ch
  | some w =>
    { ch with
      startedAt := assign ch.startedAt w.command.id now
      writers := ch.writers.map fun v =>
        if v.serial == serial then { v with hasBegun := true } else v }

/-- Which faults of writing fail just the command; any other is left to the submitter's patience. -/
def failsCommand (fault : Fault) : Bool :=
  fault.family == .transport || fault.family == .runtime

/-- Writing a command has failed: no frame will answer it. -/
def failWrite (ch : Channel) (c : Command) (fault : Fault) : Channel :=
  let ticket := ch.registered.lookup c.id
  let ch := ch.forget c.id
  let ch := match ticket with
    | some t => ch.settle t (.failed (.unwritten fault.message))
    | none => ch
  if ch.inFlight == some c.id then ch.flushNext else ch

/-- The process has taken a text, or refused it. -/
def endWrite (ch : Channel) (serial : Nat) (fault : Option Fault) : Channel :=
  match ch.writers.find? fun w => w.serial == serial with
  | none => ch
  | some w =>
    let ch := { ch with writers := ch.writers.filter fun v => !(v.serial == serial) }
    match fault with
    | some f => if failsCommand f then ch.failWrite w.command f else ch
    | none => ch

/-! ## Signalling -/

/-- Which faults of signalling mean that the signal was not delivered; any other is the caller's. -/
def failsSignal (fault : Fault) : Bool :=
  fault.family == .transport || fault.family == .value

/-- The message of a signal that was not delivered. -/
def signalMessage (name : String) (fault : Fault) : String :=
  "signal " ++ name ++ " failed: " ++ fault.message

/-- How submitting a signal ends. -/
inductive Signalled where
  | refused (fault : ChannelFault)
  /-- with a fault that the channel does not expect -/
  | raised (fault : Fault)
  | submitted (ticket : Ticket)

/-- Signals the process by name in place of writing a command; `fault` is what the process
answers. -/
def signal (ch : Channel) (id : CommandId) (name : String) (now : Float) (fault : Option Fault) :
    Signalled × Channel :=
  match ch.reserve id with
  | .error f => (.refused f, ch)
  | .ok (t, ch) =>
    let ch := { ch with startedAt := assign ch.startedAt id now }
    match fault with
    | none => (.submitted t, ch)
    | some f =>
      if failsSignal f then
        (.submitted t, (ch.forget id).settle t (.failed (.unwritten (signalMessage name f))))
      else (.raised f, ch)

/-! ## Answering -/

/-- A frame is complete. -/
def emit (ch : Channel) (lines : List String) (now : Float) : Channel :=
  match ch.pending with
  | [] => { ch with unsolicited := ch.unsolicited ++ [⟨lines, Frame.unsolicited, none⟩] }
  | id :: rest =>
    let elapsed := (ch.startedAt.lookup id).map fun t => now - t
    let ticket := ch.registered.lookup id
    let ch := { ch with
      pending := rest
      startedAt := unassign ch.startedAt id
      registered := unassign ch.registered id }
    let ch := match ticket with
      | some t => ch.settle t (.answered ⟨lines, id, elapsed⟩)
      | none => ch
    if ch.inFlight == some id then ch.flushNext else ch

/-- Output arrives: the frames that it completes, still to be dealt with. -/
def takeFrames (ch : Channel) (chunk : String) : List (List String) × Channel :=
  let (frames, buffer) := ch.buffer.feed ch.prompt.toList chunk
  (frames.map fun frame => frame.map String.ofList, { ch with buffer })

/-- Output arrives: every frame that it completes is dealt with. -/
def feed (ch : Channel) (chunk : String) (now : Float) : Channel :=
  let (frames, ch) := ch.takeFrames chunk
  frames.foldl (fun ch lines => ch.emit lines now) ch

/-- Takes the oldest frame that answers nothing. -/
def takeUnsolicited (ch : Channel) : Option (Frame × Channel) :=
  match ch.unsolicited with
  | [] => none
  | f :: rest => some (f, { ch with unsolicited := rest })

/-! ## Closing -/

/-- Closes the channel: everything that waits fails. -/
def close (ch : Channel) (fault : ChannelFault) : Channel :=
  let ch := ch.registered.foldl (fun ch e => ch.settle e.2 (.failed fault)) ch
  { ch with
    isClosed := true
    registered := []
    pending := []
    backlog := []
    startedAt := []
    inFlight := none }

/-- The debugger's output has ended. -/
def endOutput (ch : Channel) : Channel :=
  { ({ ch with buffer := .empty }.close .exited) with reader := .ended }

/-- The debugger's output cannot be read any more. -/
def failOutput (ch : Channel) (cause : String) : Channel :=
  { (ch.close (.unreadable cause)) with reader := .ended }

/-- Starts reading the debugger's output, unless that was done before. -/
def startReader (ch : Channel) : Channel :=
  if ch.reader == .absent then { ch with reader := .running } else ch

/-- Stops reading the debugger's output. -/
def stopReader (ch : Channel) : Channel := { ch with reader := .absent }

/-! ## What the process does -/

/-- What a process and its transport do to a channel. -/
inductive Event where
  | writeBegins (serial : Nat)
  /-- the process has taken the text, or the write ends with a fault -/
  | writeEnds (serial : Nat) (fault : Option Fault)
  | prints (chunk : String)
  | outputEnds
  | outputFails (cause : String)

/-- The channel after an event. -/
def react (ch : Channel) (now : Float) : Event → Channel
  | .writeBegins serial => ch.beginWrite serial now
  | .writeEnds serial fault => ch.endWrite serial fault
  | .prints chunk => ch.feed chunk now
  | .outputEnds => ch.endOutput
  | .outputFails cause => ch.failOutput cause

end Channel

end DebugConsole
