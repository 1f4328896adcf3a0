import DebugConsole.Numeral.Shortest
import DebugConsole.Response.Decode
import DebugConsole.Session.State

set_option autoImplicit false

/-!
# Executing commands

A command is submitted to the current channel and waited for, as long as its kind allows.  Whatever
becomes of it is a report: the answer decoded, or the failure.  The operation's plan then ends the
operation or gives the next command.
-/

namespace DebugConsole

namespace Session

/-! ## Reports -/

/-- The report of a command that failed. -/
def failedReport (s : Session) (message : String) : Report × Session :=
  (.failure message, s.log .error ("[failed]: " ++ message))

/-- The wording of a command that the channel could not answer. -/
def channelFailure (fault : ChannelFault) : String :=
  (if fault.isUnwritten then "write failed: " else "session terminated: ") ++ fault.message

/-- The wording of a command that was not answered in time. -/
def timeoutFailure (seconds : Float) : String :=
  "timeout: no prompt from debugger after " ++ Numeral.timeText seconds ++ "s"

/-- Decodes an answer; a malformed one fails the command. -/
def decodeAnswer (kind : CommandKind) (lines : List String) : Report :=
  match Report.decode kind lines with
  | .ok r => r
  | .error m => .failure ("parse error: " ++ m.message)

/-- The report of a command that was answered. -/
def answeredReport (s : Session) (i : Issue) (frame : Frame) : Report × Session :=
  let s := { s with lastElapsed := frame.elapsed }
  let s := s.log i.level ("[SEND]: " ++ i.text)
  let s := if frame.lines.isEmpty then s
    else s.log i.level (joined (frame.lines.map fun line => "\t" ++ line))
  let s := s.log i.level "[END]"
  let r := decodeAnswer i.kind frame.lines
  (r, match r.error with
    | some message => s.log .error ("[failed]: " ++ message)
    | none => s)

/-! ## Plans -/

/-- What a plan comes to. -/
inductive Next where
  | finish (result : Result)
  | issue (issue : Issue) (plan : Plan)

/-- A command of the session's own. -/
def plainIssue (text : String) (kind : CommandKind) (level : LogLevel) : Issue :=
  ⟨text, kind, level, false⟩

/-- The kind and level of the commands of a sequence. -/
def goalIssue : Goal → String → Issue
  | .connect _, text => plainIssue text .connect .log
  | .disconnect, text => plainIssue text .disconnect .warning
  | .load, text => plainIssue text .startDebug .log

/-- A sequence has ended. -/
def finishGoal (s : Session) (goal : Goal) (ok : Bool) : Session × Next :=
  match goal with
  | .connect executable => (s, .finish (.connected ok executable))
  | .disconnect => ({ s with breakpoints := [] }, .finish (.disconnected ok))
  | .load => (s, .finish (.loaded ok))

/-- The next command of a sequence: what must succeed comes first. -/
def nextOfSequence (s : Session) (goal : Goal) (required optional : List Issue) : Session × Next :=
  match required, optional with
  | i :: required, optional => (s, .issue i (.sequence goal true required optional))
  | [], i :: optional => (s, .issue i (.sequence goal false [] optional))
  | [], [] => s.finishGoal goal true

/-- Sets the next breakpoint of a file; after the last one the confirmed ones are remembered. -/
def nextPlacement (s : Session) (file : String) (confirmed : List Breakpoint)
    (requests : List BreakpointRequest) : Session × Next :=
  match requests with
  | r :: rest =>
    let asked : BreakpointRequest := { r with file := some file }
    (s, .issue (plainIssue asked.text .addBreakpoint .hidden)
      (.place file r.condition confirmed rest))
  | [] =>
    ({ s with breakpoints := assign s.breakpoints file (confirmed.map (·.number)) },
      .finish (.breakpoints confirmed))

/-- A run command has been answered. -/
def finishRun (s : Session) (kind : CommandKind) (previous : RunState) (r : Report) :
    Session × Next :=
  let s := if kind.blocksUntilStop then { s with blockingRuns := s.blockingRuns - 1 } else s
  if !r.isOk then ({ s with runState := previous }, .finish (.stop none))
  else
    let halted (s : Session) : Session × Next :=
      let location := r.stop.getD .unknown
      ({ s with runState := .stopped }.reportStop (some location), .finish (.stop (some location)))
    match kind, r.stop with
    -- the target runs on, and will halt on its own
    | .continueBackground, none => (s, .finish (.stop (some .unknown)))
    | .continueBackground, some location => halted (s.publish (.stop location r.logs))
    | _, _ => halted s

/-- What a plan does with a report. -/
def advancePlan (s : Session) (kind : CommandKind) (plan : Plan) (r : Report) : Session × Next :=
  match plan with
  | .deliver => (s, .finish (.report r))
  | .ask q => (s, .finish (q.result r))
  | .confirm condition => (s, .finish (.breakpoint (BreakpointRequest.confirmed? condition r)))
  | .remove => (s, .finish (.removed r.isOk))
  | .run previous => s.finishRun kind previous r
  | .clear file requests => s.nextPlacement file [] requests
  | .place file condition confirmed rest =>
    s.nextPlacement file (confirmed ++ (BreakpointRequest.confirmed? condition r).toList) rest
  | .sequence goal mustSucceed required optional =>
    if mustSucceed && !r.isOk then s.finishGoal goal false
    else s.nextOfSequence goal required optional

/-- A plan is given up because of a fault. -/
def abandonPlan (s : Session) (kind : CommandKind) (plan : Plan) : Session :=
  match plan with
  | .run _ => if kind.blocksUntilStop then { s with blockingRuns := s.blockingRuns - 1 } else s
  | _ => s

/-! ## Submitting -/

/-- How long the answer to a command is waited for. -/
def timeoutFor (s : Session) (kind : CommandKind) : Option Float :=
  if kind.blocksUntilStop then s.settings.runTimeout else s.settings.commandTimeout

/-- How submitting a command ends. -/
inductive Submitted where
  | waiting (launch : LaunchId) (ticket : Ticket)
  | refused (fault : ChannelFault)
  | fault (fault : SessionFault)

/-- Submits a command to the current channel. -/
def submit (s : Session) (env : Surroundings) (i : Issue) : Submitted × Session :=
  match s.current with
  | none => (.fault .notRunning, s)
  | some k =>
    match s.channels[k]? with
    | none => (.fault .notRunning, s)
    | some ch =>
      let id := s.nextId
      let s := { s with nextId := id + 1, lastCommand := some i.text }
      if i.bySignal then
        let name := s.settings.interruptSignal
        match ch.signal id name env.now (env.signalFault k name) with
        | (.refused f, _) => (.refused f, s)
        | (.raised f, ch) =>
          (.fault (.raised f), (s.changeChannel k fun _ => ch).request (.signal k name))
        | (.submitted t, ch) =>
          (.waiting k t, (s.changeChannel k fun _ => ch).request (.signal k name))
      else
        match ch.submit ⟨id, i.text⟩ with
        | .error f => (.refused f, s)
        | .ok (t, ch) => (.waiting k t, s.changeChannel k fun _ => ch)

/-- The outcome of a ticket on a launched debugger's channel. -/
def outcomeOf (s : Session) (k : LaunchId) (t : Ticket) : Outcome :=
  match s.channels[k]? with
  | some ch => ch.outcome t
  | none => .cancelled

/-- The report of a settled command. -/
def settledReport (s : Session) (i : Issue) : Outcome → Report × Session
  | .answered frame => s.answeredReport i frame
  | .failed fault => s.failedReport (channelFailure fault)
  | .cancelled | .waiting => s.failedReport (timeoutFailure ((s.timeoutFor i.kind).getD 0.0))

/-- The submitter of a command gives up waiting. -/
def giveUp (s : Session) (k : LaunchId) (t : Ticket) : Session :=
  s.changeChannel k fun ch => ch.cancel t

/-- Waits for what becomes of a command.  A wait that is spent from the start is given up as soon
as it has begun. -/
def awaitReply (s : Session) (call : CallId) (k : LaunchId) (t : Ticket) (i : Issue) (plan : Plan) :
    Session :=
  let limit := s.timeoutFor i.kind
  let s := s.suspend call (.awaitingReply k t i plan) limit
  if (s.outcomeOf k t).isDone then s.letGoOn call
  else if isSpent limit then s.giveUp k t
  else s

/-- Gives a command, and further ones as long as they are settled at once; at most `bound` more. -/
def carryOut (env : Surroundings) (call : CallId) : Nat → Session → Issue → Plan → Session
  | bound, s, i, plan =>
    let goOn (r : Report) (s : Session) : Session :=
      match s.advancePlan i.kind plan r with
      | (s, .finish result) => s.answer call (.ok result)
      | (s, .issue i plan) =>
        match bound with
        | 0 => s
        | bound + 1 => carryOut env call bound s i plan
    match s.submit env i with
    | (.fault f, s) => (s.abandonPlan i.kind plan).answer call (.error f)
    | (.refused f, s) =>
      let (r, s) := s.failedReport (channelFailure f)
      goOn r s
    | (.waiting k t, s) =>
      let o := s.outcomeOf k t
      if o.isDone && !isTimed (s.timeoutFor i.kind) then
        let (r, s) := s.settledReport i o
        goOn r s
      else s.awaitReply call k t i plan

/-- Gives a command of a plan. -/
def perform (s : Session) (env : Surroundings) (call : CallId) (i : Issue) (plan : Plan) :
    Session :=
  carryOut env call plan.remaining s i plan

/-- Goes on with a plan. -/
def continuePlan (s : Session) (env : Surroundings) (call : CallId) (next : Next) : Session :=
  match next with
  | .finish result => s.answer call (.ok result)
  | .issue i plan => s.perform env call i plan

/-- A waiting command is settled: the operation goes on. -/
def resumeReply (s : Session) (env : Surroundings) (call : CallId) (i : Issue) (plan : Plan)
    (r : Report) : Session :=
  let (s, next) := s.advancePlan i.kind plan r
  s.continuePlan env call next

end Session

end DebugConsole
