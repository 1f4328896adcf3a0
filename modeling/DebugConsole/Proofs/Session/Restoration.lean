import DebugConsole.Proofs.Session.Bystanders

set_option autoImplicit false

/-!
# What a failed run command restores

Whoever sets the target running remembers the run state before, and restores it when the command fails.
However many callers run, step, interrupt and wait meanwhile, and wherever the target halts, nothing else
touches what is remembered: a failed command leaves the run state as it was when the command was given, and
not as it was when the command failed (`runState_of_endsUnhalted`).  So a halt that was confirmed meanwhile
survives the failure exactly if the target was halted when the command was given.

One operation is followed through the steps of all others (`Leaves`): as long as it is in progress it
remembers that run state or waits for a halt, and when it has just ended without a halt the run state is the
one that it remembered.
-/

namespace DebugConsole

namespace Session

/-! ## Runs -/

/-- The session after an event, with nothing in the outbox but what this step asks for. -/
def after (s : Session) (env : Surroundings) (e : Event) : Session :=
  { s with outbox := [] }.step env e

/-- The session after some events, one after another. -/
def afterAll (s : Session) (events : List (Surroundings × Event)) : Session :=
  events.foldl (fun s e => s.after e.1 e.2) s

/-- Is an event the asking for the operation with a number? -/
def Event.asksFor (id : CallId) : Event → Bool
  | .call asked _ => asked == id
  | _ => false

/-- Has an operation just ended without a halt? -/
def endsUnhalted (s : Session) (id : CallId) : Bool :=
  s.outbox.any fun
    | .answer call (.ok (.stop none)) => call == id
    | _ => false

/-- An operation that has just ended without a halt is told so. -/
theorem endsUnhalted_iff {s : Session} {id : CallId} :
    s.endsUnhalted id = true ↔ .answer id (.ok (.stop none)) ∈ s.outbox := by
  unfold endsUnhalted
  rw [List.any_eq_true]
  constructor
  · rintro ⟨r, hr, hends⟩
    split at hends
    · rwa [beq_iff_eq.1 hends] at hr
    · cases hends
  · exact fun hr => ⟨_, hr, beq_self_eq_true id⟩

end Session

namespace Operation

/-- Does an operation set the target running or halt it? -/
def isRunControl : Operation → Bool
  | run _ | interrupt => true
  | _ => false

/-- Does an operation remember the run state and set the target running?  An interrupt does not, as
long as a caller waits for the answer of a blocking run command. -/
def setsRunning (s : Session) : Operation → Bool
  | run _ => true
  | interrupt => s.blockingRuns == 0
  | _ => false

end Operation

namespace Stage

/-- Does an operation wait for the answer to a command that set the target running, and remember a
run state? -/
def Remembers (p : RunState) : Stage → Prop
  | .awaitingReply _ _ _ (.run previous) => previous = p
  | _ => False

theorem Remembers.eq {stage : Stage} {p : RunState} (h : stage.Remembers p) :
    ∃ k t i, stage = .awaitingReply k t i (.run p) := by
  unfold Remembers at h
  split at h
  · rename_i k t i _
    exact ⟨k, t, i, by rw [h]⟩
  · cases h

/-- Does an operation wait for a halt to be reported? -/
def AwaitsStop : Stage → Prop
  | .awaitingStop _ => True
  | _ => False

theorem AwaitsStop.eq {stage : Stage} (h : stage.AwaitsStop) : ∃ t, stage = .awaitingStop t := by
  unfold AwaitsStop at h
  split at h
  · exact ⟨_, rfl⟩
  · cases h

/-- Does an operation wait for a process to be launched or to end? -/
def awaitsWorld : Stage → Bool
  | .launching | .closing (.process _) _ | .launchingBridge .. | .endingBridge _ => true
  | _ => false

end Stage

namespace Session

variable {id : CallId} {s s' : Session} {env : Surroundings} {P : Stage → Prop} {p : RunState}

/-! ## An operation's own steps -/

/-- No answer to an operation is on its way. -/
def Unanswered (id : CallId) (s : Session) : Prop := ∀ result, .answer id result ∉ s.outbox

/-- A step begins with an empty outbox. -/
theorem unanswered_clear (s : Session) : Unanswered id { s with outbox := [] } :=
  fun _ => List.not_mem_nil

theorem Unanswered.of_eq (h : s.Unanswered id) (heq : s'.outbox = s.outbox) : s'.Unanswered id :=
  fun result hr => h result (heq ▸ hr)

theorem Spares.unanswered (h : Spares id s s') (hs : s.Unanswered id) : s'.Unanswered id :=
  fun result hr => hs result (h.answers result hr)

/-- If an operation is in progress it waits in a certain way, and if it has just ended without a halt
the run state is a certain one. -/
structure Leaves (P : Stage → Prop) (p : RunState) (id : CallId) (s : Session) : Prop where
  waits : ∀ c ∈ s.calls, c.id = id → P c.stage
  restores : .answer id (.ok (.stop none)) ∈ s.outbox → s.runState = p

namespace Leaves

/-- The operation waits as before. -/
theorem of_unanswered (hw : ∀ c ∈ s.calls, c.id = id → P c.stage) (hs : s.Unanswered id) :
    Leaves P p id s where
  waits := hw
  restores := fun hr => absurd hr (hs _)

/-- Steps of the other operations and of the world outside. -/
theorem of_spares (h : Spares id s s') (hw : ∀ c ∈ s.calls, c.id = id → P c.stage)
    (hs : s.Unanswered id) : Leaves P p id s' where
  waits := fun c hc hid => hw c (h.calls c hc hid) hid
  restores := fun hr => absurd hr (h.unanswered hs _)

theorem answer {result : Except SessionFault Result} (hs : s.Unanswered id)
    (h : result = .ok (.stop none) → s.runState = p) : Leaves P p id (s.answer id result) where
  waits := by
    intro c hc hid
    simpa [hid] using (List.mem_filter.1 hc).2
  restores := by
    intro hr
    rcases List.mem_append.1 hr with hr | hr
    · exact absurd hr (hs _)
    · cases List.mem_singleton.1 hr
      exact h rfl

theorem suspend {stage : Stage} {limit : Option Float} (hs : s.Unanswered id) (hP : P stage) :
    Leaves P p id (s.suspend id stage limit) ∧ (s.suspend id stage limit).Unanswered id := by
  have hwaits : ∀ c ∈ (s.waiting id stage limit).calls, c.id = id → P c.stage := by
    intro c hc hid
    rcases mem_calls_waiting hc with ⟨-, hne⟩ | rfl
    · exact absurd hid hne
    · exact hP
  have hsuspend : Spares id (s.waiting id stage limit) (s.suspend id stage limit) :=
    .of_inward .suspend
  exact ⟨of_spares hsuspend hwaits hs, hsuspend.unanswered hs⟩

end Leaves

/-! ## Run commands -/

namespace Leaves

/-- The answer to a run command has been read. -/
theorem finishes {i : Issue} {r : Report} {s'' : Session} {result : Result}
    (hs : s.Unanswered id) (h : s.advancePlan i.kind (.run p) r = (s'', .finish result)) :
    Leaves P p id (s''.answer id (.ok result)) := by
  obtain ⟨s', location, heq, hrestores⟩ := s.advancePlan_run i.kind p r
  have hspares : Spares id s (s.advancePlan i.kind (.run p) r).1 := .of_inward .advancePlan
  rw [h] at heq hspares
  cases heq
  refine answer (hspares.unanswered hs) fun hresult => hrestores ?_
  cases hresult
  rfl

theorem goOnWith {bound : Nat} {i : Issue} {r : Report} (hs : s.Unanswered id) :
    Leaves P p id (s.goOnWith env id bound i (.run p) r) := by
  obtain ⟨s', location, heq, -⟩ := s.advancePlan_run i.kind p r
  rw [goOnWith_of_finish heq]
  exact finishes hs heq

theorem resumeReply {i : Issue} {r : Report} (hs : s.Unanswered id) :
    Leaves P p id (s.resumeReply env id i (.run p) r) := by
  obtain ⟨s', location, heq, -⟩ := s.advancePlan_run i.kind p r
  rw [resumeReply_of_finish heq]
  exact finishes hs heq

theorem awaitReply {k : LaunchId} {t : Ticket} {i : Issue} (hs : s.Unanswered id) :
    Leaves (Stage.Remembers p) p id (s.awaitReply id k t i (.run p)) := by
  have hremembers : Stage.Remembers p (.awaitingReply k t i (.run p)) := rfl
  obtain ⟨hleaves, hunanswered⟩ : Leaves (Stage.Remembers p) p id _ ∧ _ := suspend hs hremembers
  unfold Session.awaitReply
  dsimp only
  split
  · exact of_spares (.of_inward .letGoOn) hleaves.waits hunanswered
  · split
    · exact of_spares .giveUp hleaves.waits hunanswered
    · exact hleaves

theorem perform {i : Issue} (hs : s.Unanswered id) :
    Leaves (Stage.Remembers p) p id (s.perform env id i (.run p)) := by
  have hsubmit : Spares id s (s.submit env i).2 := .submit
  unfold Session.perform
  rw [carryOut_eq]
  split <;> rename_i heq <;> rw [heq] at hsubmit
  · exact answer ((hsubmit.trans (.of_inward .abandonPlan)).unanswered hs) nofun
  · exact goOnWith ((hsubmit.trans (.of_inward .failedReport)).unanswered hs)
  · split
    · exact goOnWith ((hsubmit.trans (.of_inward .settledReport)).unanswered hs)
    · exact awaitReply (hsubmit.unanswered hs)

/-- The target is set running: the run state at that time is remembered. -/
theorem runTarget {i : Issue} (hs : s.Unanswered id) :
    Leaves (Stage.Remembers s.runState) s.runState id (s.runTarget env id i) := by
  have hexpects : Unanswered id { s with runState := .running }.expectStop :=
    Spares.unanswered (.of_inward .expectStop) hs
  unfold Session.runTarget
  dsimp only
  split
  · exact answer hs nofun
  · split
    · exact perform (hexpects.of_eq rfl)
    · exact perform hexpects

/-! ## Bare signals -/

theorem finishStop {t : Ticket} {location : Option StopLocation} (hs : s.Unanswered id)
    (hstate : s.runState = p) : Leaves P p id (s.finishStop id t location) := by
  unfold Session.finishStop
  dsimp only
  split
  · exact answer (hs.of_eq rfl) fun _ => hstate
  · exact answer hs fun _ => hstate

theorem waitForStop {limit : Option Float} (hs : s.Unanswered id) :
    Leaves Stage.AwaitsStop s.runState id (s.waitForStop id limit) := by
  have hticket : s.withStopTicket.Unanswered id := Spares.unanswered (.of_inward .withStopTicket) hs
  have hstate : s.withStopTicket.runState = s.runState := by
    unfold withStopTicket
    split <;> rfl
  have hawaits : Stage.AwaitsStop (.awaitingStop (s.withStopTicket.stopTicket.getD 0)) := trivial
  obtain ⟨hleaves, hunanswered⟩ : Leaves Stage.AwaitsStop s.runState id _ ∧ _ :=
    suspend hticket hawaits
  unfold Session.waitForStop
  dsimp only
  split
  · split
    · exact of_spares (.of_inward .letGoOn) hleaves.waits hunanswered
    · exact finishStop hticket hstate
  · split
    · exact answer hticket fun _ => hstate
    · exact hleaves

/-- While a caller waits for the answer of a blocking run command, an interrupt leaves the run state
alone. -/
theorem interrupt (hs : s.Unanswered id) (hblocking : (s.blockingRuns == 0) = false) :
    Leaves Stage.AwaitsStop s.runState id (s.interrupt env id) := by
  unfold Session.interrupt
  rw [hblocking, if_neg (by decide)]
  split
  · exact answer hs nofun
  · rename_i k _
    have hsignal : (s.request (.signal k s.settings.interruptSignal)).Unanswered id :=
      Spares.unanswered (.request rfl) hs
    dsimp only
    split
    · exact waitForStop hsignal
    · split
      · refine answer (Spares.unanswered (.of_inward .log) hsignal) fun _ => ?_
        rfl
      · exact answer hsignal nofun

/-! ## Steps -/

/-- A wait for something else than the world outside goes on, and ends, as its operation says. -/
theorem step {e : Event} (hs : s.Unanswered id) (hw : ∀ c ∈ s.calls, c.id = id → P c.stage)
    (he : e.asksFor id = false)
    (hproceed : ∀ stage, P stage → Leaves P p id (s.proceed env id stage))
    (htimeOut : ∀ stage, P stage → Leaves P p id (s.timeOut env id stage))
    (hworld : ∀ stage, P stage → stage.awaitsWorld = false) : Leaves P p id (s.step env e) := by
  have hstageIn : ∀ {wait stage}, s.stageIn? id wait = some stage → P stage := by
    intro wait stage hstage
    obtain ⟨c, hc, hid, rfl⟩ := exists_call_of_stageIn? hstage
    exact hw c hc hid
  have hsame : Leaves P p id s := of_unanswered hw hs
  by_cases hcaller : e.caller? = some id
  · have hnever : ∀ {stage}, stage.awaitsWorld = true → s.stage? id ≠ some stage := by
      intro stage hwaits hstage
      obtain ⟨c, hc, hid, rfl⟩ := exists_call_of_stage? hstage
      simp [hworld _ (hw c hc hid)] at hwaits
    cases e with
    | call asked operation =>
      cases hcaller
      simp [Event.asksFor] at he
    | proceeds other wait =>
      cases hcaller
      dsimp only [Session.step]
      split
      · exact hproceed _ (hstageIn ‹_›)
      · exact hsame
    | timesOut other wait =>
      cases hcaller
      dsimp only [Session.step]
      split
      · exact htimeOut _ (hstageIn ‹_›)
      · exact hsame
    | launched | processEnded | bridgeLaunched | bridgeEnded =>
      cases hcaller
      dsimp only [Session.step]
      split
      · exact absurd ‹_› (hnever rfl)
      · exact hsame
    | _ => cases hcaller
  · exact of_spares (.step hcaller) hw hs

/-- A step of a run operation that remembers a run state. -/
theorem step_remembers {e : Event} (hs : s.Unanswered id)
    (hw : ∀ c ∈ s.calls, c.id = id → c.stage.Remembers p) (he : e.asksFor id = false) :
    Leaves (Stage.Remembers p) p id (s.step env e) := by
  have hproceed : ∀ stage : Stage, stage.Remembers p →
      Leaves (Stage.Remembers p) p id (s.proceed env id stage) := by
    intro stage hstage
    obtain ⟨k, t, i, rfl⟩ := hstage.eq
    dsimp only [Session.proceed]
    split
    · exact resumeReply (Spares.unanswered (.of_inward .settledReport) hs)
    · exact of_unanswered hw hs
  refine step hs hw he hproceed ?_ ?_
  · intro stage hstage
    obtain ⟨k, t, i, rfl⟩ := hstage.eq
    dsimp only [Session.timeOut]
    split
    · exact hproceed _ hstage
    · exact of_spares .giveUp hw hs
  · intro stage hstage
    obtain ⟨k, t, i, rfl⟩ := hstage.eq
    rfl

/-- A step of an interrupt that waits for a halt: it leaves the run state alone. -/
theorem step_awaitsStop {e : Event} (hs : s.Unanswered id)
    (hw : ∀ c ∈ s.calls, c.id = id → c.stage.AwaitsStop) (he : e.asksFor id = false) :
    Leaves Stage.AwaitsStop s.runState id (s.step env e) := by
  have hproceed : ∀ stage : Stage, stage.AwaitsStop →
      Leaves Stage.AwaitsStop s.runState id (s.proceed env id stage) := by
    intro stage hstage
    obtain ⟨t, rfl⟩ := hstage.eq
    dsimp only [Session.proceed]
    split
    · exact finishStop hs rfl
    · exact of_unanswered hw hs
  refine step hs hw he hproceed ?_ ?_
  · intro stage hstage
    obtain ⟨t, rfl⟩ := hstage.eq
    dsimp only [Session.timeOut]
    split
    · exact hproceed _ hstage
    · exact answer hs fun _ => rfl
  · intro stage hstage
    obtain ⟨t, rfl⟩ := hstage.eq
    rfl

end Leaves

/-! ## Runs -/

/-- While other things happen, an operation waits as it did. -/
theorem waits_afterAll {events : List (Surroundings × Event)}
    (hstep : ∀ (s : Session) (env : Surroundings) (e : Event), s.Unanswered id →
      (∀ c ∈ s.calls, c.id = id → P c.stage) → e.asksFor id = false →
      ∀ c ∈ (s.step env e).calls, c.id = id → P c.stage)
    (hw : ∀ c ∈ s.calls, c.id = id → P c.stage)
    (others : ∀ e ∈ events, e.2.asksFor id = false) :
    ∀ c ∈ (s.afterAll events).calls, c.id = id → P c.stage := by
  induction events generalizing s with
  | nil => exact hw
  | cons e events ih =>
    have hnext := hstep { s with outbox := [] } e.1 e.2 s.unanswered_clear hw
      (others e List.mem_cons_self)
    exact ih hnext fun e he => others e (List.mem_cons_of_mem _ he)

/-- What a run operation or an interrupt does first: it remembers the run state, or it waits for a
halt. -/
theorem begin_cases {operation : Operation} (s : Session) (env : Surroundings) (id : CallId)
    (isRunControl : operation.isRunControl = true) :
    (operation.setsRunning s = true ∧
        ∀ c ∈ (s.after env (.call id operation)).calls, c.id = id → c.stage.Remembers s.runState) ∨
      (operation.setsRunning s = false ∧
        ∀ c ∈ (s.after env (.call id operation)).calls, c.id = id → c.stage.AwaitsStop) := by
  have hs : Unanswered id { s with outbox := [] } := s.unanswered_clear
  cases operation with
  | run command => exact Or.inl ⟨rfl, (Leaves.runTarget hs).waits⟩
  | interrupt =>
    cases hblocking : s.blockingRuns == 0 with
    | true =>
      refine Or.inl ⟨hblocking, ?_⟩
      have hbegin : s.after env (.call id .interrupt) =
          { s with outbox := [] }.runTarget env id ⟨interruptText, .interrupt, .warning, true⟩ :=
        if_pos hblocking
      rw [hbegin]
      exact (Leaves.runTarget hs).waits
    | false => exact Or.inr ⟨hblocking, (Leaves.interrupt hs hblocking).waits⟩
  | _ => cases isRunControl

/-- A run operation or an interrupt that ends without a halt restores the run state that it found
when it was asked for, whatever else has happened meanwhile; an interrupt that was only a bare signal
leaves the run state alone. -/
theorem runState_of_endsUnhalted (s : Session) {operation : Operation} {id : CallId}
    (env env' : Surroundings) {events : List (Surroundings × Event)} {e : Event}
    (isRunControl : operation.isRunControl = true)
    (others : ∀ e ∈ events, e.2.asksFor id = false) (other : e.asksFor id = false) :
    let pending := (s.after env (.call id operation)).afterAll events
    let ended := pending.after env' e
    ended.endsUnhalted id = true →
      ended.runState = if operation.setsRunning s then s.runState else pending.runState := by
  intro pending ended hends
  rw [endsUnhalted_iff] at hends
  rcases s.begin_cases env id isRunControl with ⟨hsets, hw⟩ | ⟨hsets, hw⟩
  · have hpending := waits_afterAll
      (fun _ _ _ hs hw he => (Leaves.step_remembers hs hw he).waits) hw others
    rw [if_pos hsets]
    exact (Leaves.step_remembers pending.unanswered_clear hpending other).restores hends
  · have hpending := waits_afterAll
      (fun _ _ _ hs hw he => (Leaves.step_awaitsStop hs hw he).waits) hw others
    rw [if_neg (by simp [hsets])]
    exact (Leaves.step_awaitsStop pending.unanswered_clear hpending other).restores hends

/-! ## A halt that is overwritten -/

/-- A time at which every signal can be delivered. -/
def calm (now : Float) : Surroundings := ⟨now, fun _ _ => none⟩

/-- A session that waits for ever, whose debugger has been launched and is continuing the target for
one caller. -/
def continuing : Session :=
  (create { Settings.default with commandTimeout := none } none).afterAll
    [(calm 0.0, .call 0 (.start (some "gdb") [] none)),
      (calm 0.1, .launched 0 true),
      (calm 0.2, .channel 0 (.prints "(gdb) ")),
      (calm 0.2, .proceeds 0 1),
      (calm 1.0, .call 1 (.run .continue)),
      (calm 1.0, .channel 0 (.writeBegins 0)),
      (calm 1.0, .channel 0 (.writeEnds 0 none))]

/-- The target halts, which is confirmed to whoever continued it; then writing the next command
fails. -/
def haltAndFault : List (Surroundings × Event) :=
  [(calm 3.0, .channel 0 (.prints "main () at main.c:12\n(gdb) ")),
    (calm 3.0, .proceeds 1 2),
    (calm 3.0, .channel 0 (.writeBegins 1)),
    (calm 4.0, .channel 0 (.writeEnds 1 (some ⟨.brokenPipe, "broken pipe"⟩)))]

/-- A second caller has asked for a step, which waits behind. -/
def stepping : Session := continuing.after (calm 2.0) (.call 2 (.run (.next false)))

/-- The halt is confirmed while the step waits; then the step fails, and the session takes the target
for running although it has halted. -/
theorem failure_overwrites_halt :
    stepping.runState = .running ∧
      (stepping.afterAll (haltAndFault.take 2)).runState = .stopped ∧
      (stepping.afterAll haltAndFault).runState = .stopped ∧
      ((stepping.afterAll haltAndFault).after (calm 4.0) (.proceeds 2 3)).endsUnhalted 2 = true ∧
      ((stepping.afterAll haltAndFault).after (calm 4.0) (.proceeds 2 3)).runState = .running := by
  decide +kernel

/-- The failed step restores the run state that it found. -/
theorem runState_of_endsUnhalted_step :
    ((stepping.afterAll haltAndFault).after (calm 4.0) (.proceeds 2 3)).endsUnhalted 2 = true ∧
      ((stepping.afterAll haltAndFault).after (calm 4.0) (.proceeds 2 3)).runState =
        continuing.runState := by
  have hends : ((stepping.afterAll haltAndFault).after (calm 4.0) (.proceeds 2 3)).endsUnhalted 2 =
      true := by decide +kernel
  exact ⟨hends, runState_of_endsUnhalted continuing (calm 2.0) (calm 4.0) rfl (by decide) rfl hends⟩

end Session

end DebugConsole
