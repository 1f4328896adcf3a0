import DebugConsole.Session.Execution

set_option autoImplicit false

/-!
# Running and halting

A run command sets the target running and is answered when it halts, or at once if it runs in the
background.  While a blocking run command is unanswered, interrupting sends a bare signal: the
answer of the run command will say where the target halted.  Otherwise the signal is a command of
its own.
-/

namespace DebugConsole

namespace Session

/-- The text under which an interrupt is known. -/
def interruptText : String := "interrupt"

/-- Sets the target running. -/
def runTarget (s : Session) (env : Surroundings) (call : CallId) (i : Issue) : Session :=
  if s.current.isNone then s.answer call (.error .notRunning)
  else
    let previous := s.runState
    let s := { s with runState := .running }.expectStop
    let s := if i.kind.blocksUntilStop then { s with blockingRuns := s.blockingRuns + 1 } else s
    s.perform env call i (.run previous)

/-- The wait for a halt is over. -/
def finishStop (s : Session) (call : CallId) (t : Ticket) (location : Option StopLocation) :
    Session :=
  let s := if s.stopTicket == some t then { s with stopTicket := none } else s
  s.answer call (.ok (.stop location))

/-- Waits for the next halt that is reported. -/
def waitForStop (s : Session) (call : CallId) (limit : Option Float) : Session :=
  let s := s.withStopTicket
  let t := s.stopTicket.getD 0
  match s.stopReport? t with
  | some location =>
    if isTimed limit then (s.suspend call (.awaitingStop t) limit).letGoOn call
    else s.finishStop call t location
  | none =>
    if isSpent limit then s.answer call (.ok (.stop none))
    else s.suspend call (.awaitingStop t) limit

/-- Halts the target. -/
def interrupt (s : Session) (env : Surroundings) (call : CallId) : Session :=
  if s.blockingRuns == 0 then
    s.runTarget env call ⟨interruptText, .interrupt, .warning, true⟩
  else match s.current with
    | none => s.answer call (.error .notRunning)
    | some k =>
      let name := s.settings.interruptSignal
      let signalled := s.request (.signal k name)
      match env.signalFault k name with
      | none => signalled.waitForStop call s.settings.commandTimeout
      | some f =>
        if Channel.failsSignal f then
          (signalled.log .error ("interrupt failed: " ++ f.message)).answer call (.ok (.stop none))
        else signalled.answer call (.error (.raised f))

/-! ## Halts of the target's own -/

/-- A frame that answers nothing: if it says that the target halted, everybody is told. -/
def noticeFrame (s : Session) (frame : Frame) : Session :=
  match Report.decode .continueBackground frame.lines with
  | .error m => s.log .error ("[Parser Error]: " ++ m.message)
  | .ok r =>
    match r.stop with
    | none => if frame.lines.isEmpty then s else s.log .log (joined frame.lines)
    | some location =>
      let s := { s with runState := .stopped }.log .warning (joined frame.lines)
      (s.publish (.stop location frame.lines)).reportStop (some location)

/-- Notices every frame of a debugger that answers nothing. -/
def watch (s : Session) (k : LaunchId) : Session :=
  if !s.watched.contains k then s
  else match s.channels[k]? with
    | none => s
    | some ch =>
      ch.unsolicited.foldl noticeFrame (s.modifyChannel k fun ch => { ch with unsolicited := [] })

end Session

end DebugConsole
