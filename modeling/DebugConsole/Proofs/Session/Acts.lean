import DebugConsole.Proofs.Channel.Operations
import DebugConsole.Proofs.Session.Notes
import Mathlib.Logic.Relation

set_option autoImplicit false

/-!
# What a step of a session is made of

A step runs one operation up to the point where it waits, or it is the world's.  Either way it is a
sequence of small changes of a few kinds: notes are taken, the caller waits or is answered, the next
halt gets a ticket, a halt is reported, breakpoint numbers are kept or forgotten, a debugger comes or
goes.  `Session.Act` says what each kind of change does and under which condition it is made,
`acts_step` that every step is a sequence of them.  An invariant of a session is proved for each kind
of change, and so holds of every step.
-/

namespace DebugConsole

namespace Plan

/-- Are the breakpoint numbers that a plan and its command carry numbers known for the file? -/
def Within (known : String → Nat → Prop) (i : Issue) : Plan → Prop
  | clear file _ => ∃ numbers : List Nat, i.text = removalText (numbers.map Int.ofNat) ∧
      ∀ n ∈ numbers, known file n
  | place file _ confirmed _ => ∀ b ∈ confirmed, known file b.number
  | _ => True

/-- Are the numbers known for the file that a plan has confirmed once it has read a report? -/
def Brings (known : String → Nat → Prop) (r : Report) : Plan → Prop
  | place file condition confirmed _ =>
    ∀ b ∈ confirmed ++ (BreakpointRequest.confirmed? condition r).toList, known file b.number
  | _ => True

/-- A failed command confirms nothing. -/
theorem Within.brings {known : String → Nat → Prop} {i : Issue} {r : Report} {plan : Plan}
    (h : plan.Within known i) (hr : r.isOk = false) : plan.Brings known r := by
  cases plan with
  | place file condition confirmed rest =>
    have hconfirmed : ∀ b ∈ confirmed, known file b.number := h
    simpa [Brings, BreakpointRequest.confirmed?, hr] using hconfirmed
  | _ => trivial

end Plan

namespace Session

variable {caller : Option CallId} {known : String → Nat → Prop} {s s' s'' : Session}
  {env : Surroundings} {call : CallId}

/-- What operations may wait for: an answer of the debugger that commands go to, and the next halt. -/
def Permits (s : Session) (known : String → Nat → Prop) : Stage → Prop
  | .awaitingReply k _ i plan => s.current = some k ∧ plan.Within known i
  | .awaitingStop t => s.stopTicket = some t
  | _ => True

/-- Are the numbers known that an operation brings along when it goes on? -/
def Brings (s : Session) (known : String → Nat → Prop) : Stage → Prop
  | .awaitingReply k t i plan => plan.Brings known (s.settledReport i (s.outcomeOf k t)).1
  | _ => True

/-- A debugger has been launched; its output will be read. -/
def entered (s : Session) : Session :=
  { s with
    channels := s.channels ++ [(Channel.create s.settings.prompt).startReader]
    current := some s.channels.length }

/-- What a settled command reports depends on the settings alone. -/
theorem settledReport_clear (s : Session) (i : Issue) (o : Outcome) :
    ({ s with outbox := [] }.settledReport i o).1 = (s.settledReport i o).1 := by
  cases o <;> rfl

/-! ## Small changes -/

/-- One small change of a session on behalf of a caller, if of any. -/
inductive Act (caller : Option CallId) (known : String → Nat → Prop) : Session → Session → Prop
  | note {s s' : Session} (h : Notes s s') : Act caller known s s'
  | wait (s : Session) {call : CallId} {stage : Stage} (limit : Option Float)
      (own : caller = some call) (permitted : s.Permits known stage) :
      Act caller known s (s.waiting call stage limit)
  | answer (s : Session) {call : CallId} (result : Except SessionFault Result)
      (own : caller = some call) : Act caller known s (s.answer call result)
  /-- the next halt gets a ticket, if there is none that reports nothing yet -/
  | expect (s : Session) (spent : ∀ t, s.stopTicket = some t → (s.stopReport? t).isSome) :
      Act caller known s s.newStopTicket
  /-- a halt, or that there will be none, is reported to all who wait for it -/
  | report (s : Session) {t : Ticket} (location : Option StopLocation)
      (ticket : s.stopTicket = some t) (unreported : s.stopReport? t = none) :
      Act caller known s ({ s with stops := s.stops.set t (some location) }.requestAll
        ((s.calls.filter fun c : Call => c.awaitsStop t).map Call.goOn))
  /-- a ticket that has reported is given up -/
  | forgo (s : Session)
      (spent : ∀ t, s.stopTicket = some t → t < s.stops.length → (s.stopReport? t).isSome) :
      Act caller known s { s with stopTicket := none }
  | keep (s : Session) {file : String} {numbers : List Nat} (h : ∀ n ∈ numbers, known file n) :
      Act caller known s { s with breakpoints := assign s.breakpoints file numbers }
  | drop (s : Session) (file : String) :
      Act caller known s { s with breakpoints := unassign s.breakpoints file }
  | dropAll (s : Session) : Act caller known s { s with breakpoints := [] }
  /-- a debugger has been launched -/
  | enter (s : Session) : Act caller known s s.entered
  /-- the debugger is let go; no ticket is left for its halts -/
  | leave (s : Session) (forgone : s.stopTicket = none) :
      Act caller known s { s with current := none }

/-- Small changes, one after another. -/
abbrev Acts (caller : Option CallId) (known : String → Nat → Prop) : Session → Session → Prop :=
  Relation.ReflTransGen (Act caller known)

namespace Acts

open Relation

theorem note (h : Notes s s') : Acts caller known s s' := .single (.note h)

theorem noting (h : Acts caller known s s') (h' : Notes s' s'') : Acts caller known s s'' :=
  h.trans (note h')

theorem after (h : Acts caller known s' s'') (h' : Notes s s') : Acts caller known s s'' :=
  (note h').trans h

theorem answer {result : Except SessionFault Result} :
    Acts (some call) known s (s.answer call result) := .single (.answer s result rfl)

theorem suspend {stage : Stage} {limit : Option Float} (h : s.Permits known stage) :
    Acts (some call) known s (s.suspend call stage limit) :=
  noting (.single (.wait s limit rfl h)) .suspend

/-! ### Halts -/

theorem expectStop : Acts caller known s s.expectStop := by
  unfold Session.expectStop
  split
  · rename_i t ht
    split
    · exact .refl
    · rename_i hreported
      refine .single (.expect s fun u hu => ?_)
      rw [ht] at hu
      cases hu
      simpa [Option.isSome_iff_ne_none] using hreported
  · rename_i hnone
    exact .single (.expect s fun t ht => by simp [hnone] at ht)

theorem withStopTicket : Acts caller known s s.withStopTicket := by
  unfold Session.withStopTicket
  split
  · exact .refl
  · rename_i hnone
    exact .single (.expect s fun t ht => by simp [ht] at hnone)

theorem reportStop {location : Option StopLocation} :
    Acts caller known s (s.reportStop location) := by
  unfold Session.reportStop
  refine withStopTicket.trans ?_
  dsimp only
  split
  · split
    · rename_i hticket hunreported
      exact .single (.report _ location hticket (by simpa using hunreported))
    · exact .refl
  · exact .refl

/-- Once a halt has been reported, the ticket for the next halt has reported. -/
theorem spent_reportStop (s : Session) (location : Option StopLocation) {t : Ticket}
    (ht : (s.reportStop location).stopTicket = some t)
    (hlt : t < (s.reportStop location).stops.length) :
    ((s.reportStop location).stopReport? t).isSome := by
  unfold Session.reportStop at ht hlt ⊢
  revert ht hlt
  generalize s.withStopTicket = s
  dsimp only
  split
  · rename_i u hu
    split
    · intro ht hlt
      obtain rfl : u = t := Option.some.inj (hu.symm.trans ht)
      have hlt' : u < s.stops.length := by simpa [Session.requestAll] using hlt
      simp [stopReport?, Session.requestAll, hlt']
    · rename_i hreported
      intro ht _
      obtain rfl : u = t := Option.some.inj (hu.symm.trans ht)
      simpa [Option.isSome_iff_ne_none] using hreported
  · rename_i hnone
    intro ht
    rw [hnone] at ht
    cases ht

/-- There is no ticket any more, once one that was left has reported that there will be no halt. -/
theorem forgoStop : Acts caller known s { s.reportStop none with stopTicket := none } :=
  reportStop.tail (.forgo _ fun _ ht hlt => spent_reportStop s none ht hlt)

/-! ### Reports and plans -/

theorem finishGoal {goal : Goal} {ok : Bool} : Acts caller known s (s.finishGoal goal ok).1 := by
  cases goal with
  | disconnect => exact .single (.dropAll s)
  | _ => exact .refl

theorem nextOfSequence {goal : Goal} {required optional : List Issue} :
    Acts caller known s (s.nextOfSequence goal required optional).1 := by
  unfold Session.nextOfSequence
  split
  · exact .refl
  · exact .refl
  · exact finishGoal

theorem finishRun {kind : CommandKind} {previous : RunState} {r : Report} :
    Acts caller known s (s.finishRun kind previous r).1 := by
  have hcounted : Notes s
      (if kind.blocksUntilStop then { s with blockingRuns := s.blockingRuns - 1 } else s) := by
    split
    · exact { Notes.refl s with }
    · exact .refl s
  have hset : ∀ (s : Session) (state : RunState), Notes s { s with runState := state } :=
    fun s _ => { Notes.refl s with }
  unfold Session.finishRun
  refine (note hcounted).trans ?_
  generalize (if kind.blocksUntilStop then { s with blockingRuns := s.blockingRuns - 1 } else s) = s
  dsimp only
  split
  · exact note (hset _ _)
  · split
    · exact .refl
    · exact (note (Notes.publish.trans (hset _ _))).trans reportStop
    · exact (note (hset _ _)).trans reportStop

/-- Breakpoints are set one after another; the numbers that have been confirmed are kept at the end. -/
theorem nextPlacement {file : String} {confirmed : List Breakpoint}
    {requests : List BreakpointRequest} (h : ∀ b ∈ confirmed, known file b.number) :
    Acts caller known s (s.nextPlacement file confirmed requests).1 ∧
      ∀ i plan, (s.nextPlacement file confirmed requests).2 = .issue i plan →
        plan.Within known i := by
  unfold Session.nextPlacement
  cases requests with
  | nil =>
    refine ⟨.single (.keep s fun n hn => ?_), fun _ _ hnext => by cases hnext⟩
    obtain ⟨b, hb, rfl⟩ := List.mem_map.1 hn
    exact h b hb
  | cons r rest =>
    refine ⟨.refl, fun _ _ hnext => ?_⟩
    cases hnext
    exact h

theorem finishGoal_ne_issue {goal : Goal} {ok : Bool} {i : Issue} {plan : Plan} :
    (s.finishGoal goal ok).2 ≠ .issue i plan := by
  cases goal <;> nofun

/-- The commands of a sequence carry no numbers. -/
theorem within_nextOfSequence {goal : Goal} {required optional : List Issue} {i : Issue}
    {plan : Plan} (h : (s.nextOfSequence goal required optional).2 = .issue i plan) :
    plan.Within known i := by
  unfold Session.nextOfSequence at h
  split at h
  · cases h
    trivial
  · cases h
    trivial
  · exact absurd h finishGoal_ne_issue

/-- What a plan does with a report: it changes little, and the numbers that its next command carries
are known. -/
theorem advancePlan {kind : CommandKind} {plan : Plan} {r : Report} (h : plan.Brings known r) :
    Acts caller known s (s.advancePlan kind plan r).1 ∧
      ∀ i plan', (s.advancePlan kind plan r).2 = .issue i plan' → plan'.Within known i := by
  cases plan with
  | run previous =>
    obtain ⟨s', location, heq, -⟩ := s.advancePlan_run kind previous r
    constructor
    · unfold Session.advancePlan
      exact finishRun
    · intro i plan hnext
      rw [heq] at hnext
      cases hnext
  | clear file requests =>
    unfold Session.advancePlan
    exact nextPlacement fun b hb => nomatch hb
  | place file condition confirmed rest =>
    unfold Session.advancePlan
    exact nextPlacement h
  | sequence goal mustSucceed required optional =>
    unfold Session.advancePlan
    dsimp only
    split
    · exact ⟨finishGoal, fun _ _ hnext => absurd hnext finishGoal_ne_issue⟩
    · exact ⟨nextOfSequence, fun _ _ => within_nextOfSequence⟩
  | deliver | ask | confirm | remove =>
    unfold Session.advancePlan
    exact ⟨.refl, fun _ _ hnext => by cases hnext⟩

/-! ### Executing commands -/

theorem giveUp {k : LaunchId} {t : Ticket} : Acts caller known s (s.giveUp k t) :=
  note .changeChannel

theorem awaitReply {k : LaunchId} {t : Ticket} {i : Issue} {plan : Plan}
    (hk : s.current = some k) (h : plan.Within known i) :
    Acts (some call) known s (s.awaitReply call k t i plan) := by
  have hwait : s.Permits known (.awaitingReply k t i plan) := ⟨hk, h⟩
  unfold Session.awaitReply
  dsimp only
  split
  · exact (suspend hwait).noting .letGoOn
  · split
    · exact (suspend hwait).trans giveUp
    · exact suspend hwait

end Acts

/-- A command waits for an answer of the debugger that commands go to, which has not answered it
yet. -/
theorem submit_waiting {s s' : Session} {i : Issue} {k : LaunchId} {t : Ticket}
    (h : s.submit env i = (.waiting k t, s')) :
    s'.current = some k ∧ ∀ frame, s'.outcomeOf k t ≠ .answered frame := by
  have hlater : ∀ {ch ch' : Channel}, s.channels[k]? = some ch →
      s'.channels = s.channels.modify k (fun _ => ch') → ch.outcomes.length = t →
      (∀ frame, ch'.outcome t = .answered frame → ch.outcome t = .answered frame) →
      ∀ frame, s'.outcomeOf k t ≠ .answered frame := by
    intro ch ch' hch hchannels ht hanswered frame hframe
    rw [outcomeOf, hchannels, List.getElem?_modify_eq, hch] at hframe
    have hold := Channel.outcome_eq_answered_iff.1 (hanswered frame hframe)
    rw [← ht] at hold
    simp at hold
  unfold submit at h
  split at h
  · cases h
  · rename_i j hcurrent
    split at h
    · cases h
    · rename_i ch hch
      dsimp only at h
      split at h
      · split at h
        · cases h
        · cases h
        · rename_i u ch' hsignal
          cases h
          refine ⟨hcurrent, hlater hch (channels_changeChannel _ _ _) ?_ ?_⟩
          · cases hfault : env.signalFault k s.settings.interruptSignal with
            | none =>
              rw [hfault] at hsignal
              exact (Channel.signal_none_eq_submitted_iff.1 hsignal).2.1.symm
            | some f =>
              rw [hfault] at hsignal
              exact (Channel.signal_some_eq_submitted_iff.1 hsignal).2.2.1.symm
          · cases hfault : env.signalFault k s.settings.interruptSignal with
            | none =>
              rw [hfault] at hsignal
              exact fun frame => Channel.answered_of_signal_none hsignal
            | some f =>
              rw [hfault] at hsignal
              exact fun frame => Channel.answered_of_signal_some hsignal
      · split at h
        · cases h
        · rename_i u ch' hsubmit
          cases h
          refine ⟨hcurrent, hlater hch (channels_changeChannel _ _ _) ?_ ?_⟩
          · exact (Channel.submit_eq_ok_iff.1 hsubmit).2.1.symm
          · exact fun frame => Channel.answered_of_submit hsubmit

theorem isOk_settledReport {s : Session} {i : Issue} {o : Outcome}
    (h : ∀ frame, o ≠ .answered frame) : (s.settledReport i o).1.isOk = false := by
  cases o with
  | answered frame => exact absurd rfl (h frame)
  | _ => rfl

namespace Acts

/-- An operation goes on with a failure: it ends, or it gives the next command. -/
theorem goOnWith {bound : Nat} {i : Issue} {plan : Plan} {r : Report}
    (h : plan.Within known i) (hr : r.isOk = false)
    (hnext : ∀ b, bound = b + 1 → ∀ (s : Session) (i : Issue) (plan : Plan), plan.Within known i →
      Acts (some call) known s (Session.carryOut env call b s i plan)) :
    Acts (some call) known s (s.goOnWith env call bound i plan r) := by
  obtain ⟨hadvance, hwithin⟩ : Acts (some call) known s (s.advancePlan i.kind plan r).1 ∧ _ :=
    advancePlan (h.brings hr)
  unfold Session.goOnWith
  split
  · rename_i heq
    rw [heq] at hadvance
    exact hadvance.trans answer
  · rename_i heq
    rw [heq] at hadvance hwithin
    split
    · exact hadvance
    · exact hadvance.trans (hnext _ rfl _ _ _ (hwithin _ _ rfl))

theorem carryOut {bound : Nat} {i : Issue} {plan : Plan} (h : plan.Within known i) :
    Acts (some call) known s (Session.carryOut env call bound s i plan) := by
  induction bound using Nat.strongRecOn generalizing s i plan with
  | _ bound ih =>
    have hgoOn : ∀ (s : Session) {r : Report}, r.isOk = false →
        Acts (some call) known s (s.goOnWith env call bound i plan r) := fun s _ hr =>
      goOnWith h hr fun b hb _ _ _ hwithin => ih b (by omega) hwithin
    have hsubmit : Notes s (s.submit env i).2 := .submit
    rw [carryOut_eq]
    split <;> rename_i heq <;> rw [heq] at hsubmit
    · exact (note (hsubmit.trans .abandonPlan)).trans answer
    · exact (note (hsubmit.trans .failedReport)).trans (hgoOn _ rfl)
    · obtain ⟨hcurrent, hunanswered⟩ := submit_waiting heq
      refine (note hsubmit).trans ?_
      split
      · exact (note .settledReport).trans (hgoOn _ (isOk_settledReport hunanswered))
      · exact awaitReply hcurrent h

theorem perform {i : Issue} {plan : Plan} (h : plan.Within known i) :
    Acts (some call) known s (s.perform env call i plan) := carryOut h

theorem continuePlan {next : Next} (h : ∀ i plan, next = .issue i plan → plan.Within known i) :
    Acts (some call) known s (s.continuePlan env call next) := by
  cases next with
  | finish result => exact answer
  | issue i plan => exact perform (h i plan rfl)

theorem resumeReply {i : Issue} {plan : Plan} {r : Report} (h : plan.Brings known r) :
    Acts (some call) known s (s.resumeReply env call i plan r) := by
  obtain ⟨hadvance, hwithin⟩ : Acts (some call) known s (s.advancePlan i.kind plan r).1 ∧ _ :=
    advancePlan h
  exact hadvance.trans (continuePlan hwithin)

/-! ### Running and halting -/

theorem runTarget {i : Issue} : Acts (some call) known s (s.runTarget env call i) := by
  have hrunning : Notes s { s with runState := .running } := { Notes.refl s with }
  unfold Session.runTarget
  dsimp only
  split
  · exact answer
  · refine (note hrunning).trans (expectStop.trans ?_)
    generalize { s with runState := .running }.expectStop = s'
    split
    · exact (perform (by trivial)).after { Notes.refl s' with }
    · exact perform (by trivial)

theorem finishStop {t : Ticket} {location : Option StopLocation}
    (hreport : s.stopReport? t = some location) :
    Acts (some call) known s (s.finishStop call t location) := by
  unfold Session.finishStop
  dsimp only
  split
  · rename_i hticket
    refine .trans (.single (.forgo s fun u hu _ => ?_)) answer
    rw [eq_of_beq hticket] at hu
    cases hu
    simp [hreport]
  · exact answer

theorem waitForStop {limit : Option Float} :
    Acts (some call) known s (s.waitForStop call limit) := by
  have hticket : ∀ s : Session, s.withStopTicket.stopTicket =
      some (s.withStopTicket.stopTicket.getD 0) := by
    intro s
    unfold Session.withStopTicket newStopTicket
    split
    · rename_i hsome
      obtain ⟨t, ht⟩ := Option.isSome_iff_exists.1 hsome
      simp [ht]
    · simp
  unfold Session.waitForStop
  refine withStopTicket.trans ?_
  dsimp only
  split
  · rename_i hreport
    split
    · exact (suspend (by exact hticket s)).noting .letGoOn
    · exact finishStop hreport
  · split
    · exact answer
    · exact suspend (by exact hticket s)

theorem interrupt : Acts (some call) known s (s.interrupt env call) := by
  unfold Session.interrupt
  split
  · exact runTarget
  · split
    · exact answer
    · dsimp only
      split
      · exact (note (.request rfl)).trans waitForStop
      · split
        · exact (note ((Notes.request rfl).trans .log)).trans answer
        · exact (note (.request rfl)).trans answer

theorem noticeFrame {frame : Frame} : Acts caller known s (s.noticeFrame frame) := by
  unfold Session.noticeFrame
  split
  · exact note .log
  · split
    · split
      · exact .refl
      · exact note .log
    · have hstopped : Notes s { s with runState := .stopped } := { Notes.refl s with }
      dsimp only
      exact (note ((hstopped.trans .log).trans .publish)).trans reportStop

theorem foldl {α : Type} {f : Session → α → Session} (h : ∀ s a, Acts caller known s (f s a))
    (as : List α) (s : Session) : Acts caller known s (as.foldl f s) := by
  induction as generalizing s with
  | nil => exact .refl
  | cons a as ih => exact (h s a).trans (ih _)

theorem watch {k : LaunchId} : Acts caller known s (s.watch k) := by
  unfold Session.watch
  split
  · exact .refl
  · split
    · exact .refl
    · exact (note .modifyChannel).trans (foldl (fun _ _ => noticeFrame) _ _)

/-! ### Starting and ending -/

theorem launchDebugger {path folder : Option String} {args : List String} :
    Acts (some call) known s (s.launchDebugger call path args folder) := by
  unfold Session.launchDebugger
  split
  · exact answer
  · exact (suspend (by trivial)).noting (.request rfl)

theorem welcome {k : LaunchId} {banner : Frame} :
    Acts (some call) known s (s.welcome call k banner) := by
  have hready : ∀ s : Session, Notes s ({ s with
      runState := .stopped
      watcher := some k
      watched := s.watched ++ [k] }.request (.watch k)) := fun s =>
    { Notes.request (s := s) (r := .watch k) rfl with }
  unfold Session.welcome
  dsimp only
  refine .trans ?_ answer
  split
  · exact note (hready _)
  · exact note (Notes.log.trans (hready _))

theorem connectTarget {t : Toolchain} {options : ConnectOptions} {others : List String} :
    Acts (some call) known s (s.connectTarget env call t options others) :=
  nextOfSequence.trans (continuePlan fun _ _ => within_nextOfSequence)

theorem failConnect {options : ConnectOptions} {message : String} :
    Acts (some call) known s (s.failConnect call options message) :=
  (note .log).trans answer

theorem launchBridge {options : ConnectOptions} {others : List String} :
    Acts (some call) known s (s.launchBridge call options others) := by
  unfold Session.launchBridge
  split
  · exact answer
  · exact ((suspend (by trivial)).noting (.request rfl)).after (.request rfl)

theorem bridgeEnded {next : BridgeEnded} : Acts (some call) known s (s.bridgeEnded call next) := by
  cases next with
  | connect options others => exact launchBridge
  | kill => exact answer

theorem relayEnded {next : BridgeEnded} : Acts (some call) known s (s.relayEnded call next) :=
  bridgeEnded.after { Notes.refl s with }

theorem endRelay {next : BridgeEnded} : Acts (some call) known s (s.endRelay call next) := by
  unfold Session.endRelay
  split
  · exact bridgeEnded
  · split
    · exact ((suspend (by trivial)).noting .letGoOn).after { Notes.refl s with }
    · exact relayEnded

theorem endBridge {next : BridgeEnded} : Acts (some call) known s (s.endBridge call next) := by
  unfold Session.endBridge
  split
  · exact endRelay
  · exact (suspend (by trivial)).noting (.request rfl)

theorem finishKill : Acts (some call) known s (s.finishKill call) := by
  unfold Session.finishKill
  split
  · exact answer
  · split
    · dsimp only
      split
      · exact answer
      · exact (note .log).trans answer
    · split
      · exact endBridge
      · exact answer

/-- What is done once a session is closed. -/
theorem finishClosing_of_forgone {next : Closed}
    (h : Acts (some call) known s { s'.reportStop none with stopTicket := none }) :
    Acts (some call) known s (s'.finishClosing call next) := by
  have hclosed : Notes { s'.reportStop none with stopTicket := none }
      { s'.reportStop none with stopTicket := none, runState := .stopped } := { Notes.refl _ with }
  unfold Session.finishClosing
  refine (h.trans (note hclosed)).trans ?_
  dsimp only
  split
  · exact launchDebugger
  · exact answer
  · exact finishKill

theorem finishClosing {next : Closed} : Acts (some call) known s (s.finishClosing call next) :=
  finishClosing_of_forgone forgoStop

theorem closeChannel {next : Closed} : Acts (some call) known s (s.closeChannel call next) := by
  unfold Session.closeChannel
  split
  · exact finishClosing
  · exact ((suspend (by trivial)).noting (.request rfl)).after .changeChannel

theorem close {next : Closed} : Acts (some call) known s (s.close call next) := by
  unfold Session.close
  split
  · exact closeChannel
  · exact ((suspend (by trivial)).noting .letGoOn).after { Notes.refl s with }

/-- The debugger is let go: its halts have been reported, or that there will be none. -/
theorem readerEnded {next : Closed} : Acts (some call) known s (s.readerEnded call next) := by
  have hcommutes : { s with current := none }.reportStop none =
      { s.reportStop none with current := none } := by
    unfold Session.reportStop Session.withStopTicket
    grind [newStopTicket, stopReport?, Session.requestAll]
  refine finishClosing_of_forgone ?_
  rw [hcommutes]
  exact forgoStop.tail (.leave _ rfl)

theorem processEnded {k : LaunchId} {next : Closed} :
    Acts (some call) known s (s.processEnded call k next) := by
  unfold Session.processEnded
  dsimp only
  split
  · exact (note .modifyChannel).trans ((suspend (by trivial)).noting .letGoOn)
  · exact (note .modifyChannel).trans readerEnded

/-- A debugger that has been launched is awaited. -/
theorem launched_true : Acts (some call) known s.entered (s.launched call true) := by
  unfold Session.launched entered
  dsimp only
  rw [if_neg (by decide)]
  split
  · exact close.after (.request rfl)
  · exact (suspend (by trivial)).after (.request rfl)

theorem launched {ok : Bool} : Acts (some call) known s (s.launched call ok) := by
  cases ok with
  | false => exact answer
  | true => exact .head (.enter s) launched_true

theorem bridgeLaunched {options : ConnectOptions} {others : List String} {ok : Bool} :
    Acts (some call) known s (s.bridgeLaunched env call options others ok) := by
  unfold Session.bridgeLaunched
  split
  · exact failConnect
  · split
    · exact answer
    · have hread : Notes s ({ s with
          bridges := s.bridges + 1
          bridge := some s.bridges
          relay := some s.bridges
          relayed := s.relayed ++ [s.bridges] }.request (.readBridge s.bridges)) :=
        { Notes.request (s := s) (r := .readBridge s.bridges) rfl with }
      exact (note hread).trans connectTarget

theorem start {path folder : Option String} {args : List String} :
    Acts (some call) known s (s.start call path args folder) := by
  unfold Session.start
  split
  · exact answer
  · split
    · exact close
    · exact launchDebugger

theorem connect {options : ConnectOptions} {others : List String} :
    Acts (some call) known s (s.connect env call options others) := by
  unfold Session.connect
  split
  · exact answer
  · split
    · split
      · exact connectTarget
      · exact failConnect
    · split
      · exact connectTarget
      · split
        · exact failConnect
        · exact endBridge

theorem pursue {goal : Goal} {commands : Toolchain → List String} {optional : List Issue} :
    Acts (some call) known s (s.pursue env call goal commands optional) := by
  unfold Session.pursue
  split
  · exact answer
  · exact nextOfSequence.trans (continuePlan fun _ _ => within_nextOfSequence)

/-! ### Steps -/

theorem begin {operation : Operation} (h : ∀ file, ∀ n ∈ s.breakpointNumbers file, known file n) :
    Acts (some call) known s (s.begin env call operation) := by
  cases operation with
  | start path args folder => exact start
  | kill => exact close
  | connect options others => exact connect
  | disconnect => exact pursue
  | load extras => exact pursue
  | run c => exact runTarget
  | interrupt => exact interrupt
  | waitForStop limit => exact waitForStop
  | addBreakpoint r => exact perform (by trivial)
  | removeBreakpoints numbers =>
    dsimp only [Session.begin]
    split
    · exact answer
    · exact perform (by trivial)
  | setBreakpoints file requests =>
    dsimp only [Session.begin]
    refine .trans (.single (.drop s file)) ?_
    split
    · have hplacement : Acts (some call) known { s with breakpoints := unassign s.breakpoints file }
          (Session.nextPlacement _ file [] requests).1 ∧ _ := nextPlacement fun b hb => nomatch hb
      exact hplacement.1.trans (continuePlan hplacement.2)
    · exact perform ⟨s.breakpointNumbers file, rfl, h file⟩
  | ask q => exact perform (by trivial)
  | send text kind level => exact perform (by trivial)

theorem proceed {stage : Stage} (h : s.Brings known stage) :
    Acts (some call) known s (s.proceed env call stage) := by
  unfold Session.proceed
  split
  · dsimp only
    split
    · exact (note .settledReport).trans (resumeReply h)
    · exact .refl
  · split
    · exact finishStop ‹_›
    · exact .refl
  · split
    · exact (note .modifyChannel).trans welcome
    · exact .refl
  · exact closeChannel.after { Notes.refl s with }
  · exact readerEnded
  · exact relayEnded
  all_goals exact .refl

theorem timeOut {stage : Stage} (h : s.Brings known stage) :
    Acts (some call) known s (s.timeOut env call stage) := by
  unfold Session.timeOut
  split
  · split
    · exact proceed h
    · exact giveUp
  · split
    · exact proceed h
    · exact answer
  · split
    · exact proceed h
    · exact close
  · exact .refl

end Acts

/-- The stage of the operation that an event lets go on. -/
def Event.resumes? (s : Session) : Event → Option Stage
  | .proceeds id wait | .timesOut id wait => s.stageIn? id wait
  | _ => none

/-- Every step is a sequence of small changes on behalf of its caller.  The breakpoint numbers that it
handles are those kept for a file and those that its operation brings along. -/
theorem acts_step {e : Event} (kept : ∀ file, ∀ n ∈ s.breakpointNumbers file, known file n)
    (held : ∀ stage, e.resumes? s = some stage → s.Brings known stage) :
    Acts e.caller? known s (s.step env e) := by
  cases e with
  | call call operation => exact .begin kept
  | proceeds call wait =>
    dsimp only [Session.step]
    split
    · exact .proceed (held _ ‹_›)
    · exact .refl
  | timesOut call wait =>
    dsimp only [Session.step]
    split
    · exact .timeOut (held _ ‹_›)
    · exact .refl
  | launched call ok =>
    dsimp only [Session.step]
    split
    · exact .launched
    · exact .refl
  | processEnded call =>
    dsimp only [Session.step]
    split
    · exact .processEnded
    · exact .refl
  | bridgeLaunched call ok =>
    dsimp only [Session.step]
    split
    · exact .bridgeLaunched
    · exact .refl
  | bridgeEnded call =>
    dsimp only [Session.step]
    split
    · exact Acts.endRelay.after { Notes.refl s with }
    · exact .refl
  | channel k event => exact .note .channel
  | watches k => exact .watch
  | bridgePrints b chunk =>
    dsimp only [Session.step]
    split
    · exact .note (.foldl (fun _ _ => .request rfl) _ _)
    · exact .refl
  | bridgeExits b code =>
    dsimp only [Session.step]
    split
    · exact .note
        { Notes.request (s := s) (r := .bridgeLog ("[Exited]: exit code " ++ toString code)) rfl with }
    · exact .refl

/-- Every step is a sequence of small changes, whatever numbers it handles. -/
theorem acts_step_any (s : Session) (env : Surroundings) (e : Event) :
    Acts e.caller? (fun _ _ => True) s (s.step env e) := by
  refine acts_step (fun _ _ _ => trivial) fun stage _ => ?_
  unfold Brings Plan.Brings
  split
  · split
    · exact fun _ _ => trivial
    · trivial
  · trivial

/-- No step changes the settings. -/
theorem settings_step (s : Session) (env : Surroundings) (e : Event) :
    (s.step env e).settings = s.settings := by
  have hact : ∀ {s s' : Session}, Act e.caller? (fun _ _ => True) s s' →
      s'.settings = s.settings := by
    intro s s' hact
    cases hact with
    | note hn => exact hn.settings
    | _ => rfl
  have hacts := acts_step_any s env e
  generalize s.step env e = s' at hacts
  induction hacts with
  | refl => rfl
  | tail _ h ih => exact (hact h).trans ih

end Session

end DebugConsole
