import DebugConsole.Proofs.Channel.Balance
import DebugConsole.Proofs.Session.Execution

set_option autoImplicit false

/-!
# What a session leaves covered

A session that runs and halts its target and asks about it gives one command for each operation.
Whatever is pending with its debugger stays covered (`Session.Covered`): a command brings its own
text, and a signal that reserves a place brings a frame.  This counts a frame for every signal that
reserves a place; whether the debugger prints one is the debugger's affair.
-/

namespace DebugConsole

/-- Does a plan end with the answer to its command? -/
def Plan.isLast : Plan → Bool
  | .deliver | .ask _ | .confirm _ | .remove | .run _ => true
  | .clear .. | .place .. | .sequence .. => false

/-- Does an operation wait for the last thing that it needs? -/
def Stage.isLast : Stage → Bool
  | .awaitingReply _ _ _ plan => plan.isLast
  | .awaitingStop _ => true
  | _ => false

/-- Does an operation give one command at most? -/
def Operation.isSingle : Operation → Bool
  | .run _ | .interrupt | .waitForStop _ | .addBreakpoint _ | .removeBreakpoints _ | .ask _
  | .send .. => true
  | .start .. | .kill | .connect .. | .disconnect | .load _ | .setBreakpoints .. => false

/-- Does an operation signal the debugger and reserve a place for its frame?  An interrupt does not,
as long as a caller waits for the answer of a blocking run command. -/
def Operation.reservesSignal (s : Session) : Operation → Bool
  | .interrupt => s.blockingRuns == 0
  | _ => false

/-- Every signal to a debugger counts as a frame if it is delivered, and is known to have failed if
it is not. -/
structure Surroundings.Signals (env : Surroundings) (k : LaunchId) (brings : Request → Bool) :
    Prop where
  delivered : ∀ name, env.signalFault k name = none → brings (.signal k name) = true
  failed : ∀ name fault, env.signalFault k name = some fault → Channel.failsSignal fault = true

namespace Session

variable {s s' : Session} {env : Surroundings} {call : CallId} {brings : Request → Bool}
  {k : LaunchId} {frames : Nat} {taken : List CommandId}

/-- A plan that ends with the answer to its command does end there. -/
theorem advancePlan_of_isLast {plan : Plan} (h : plan.isLast = true) (s : Session)
    (kind : CommandKind) (r : Report) :
    ∃ s' result, s.advancePlan kind plan r = (s', .finish result) := by
  cases plan with
  | run previous =>
    obtain ⟨s', location, heq, -⟩ := s.advancePlan_run kind previous r
    exact ⟨s', _, heq⟩
  | clear => cases h
  | place => cases h
  | sequence => cases h
  | _ => exact ⟨_, _, rfl⟩

/-- Whatever is pending with a debugger is covered, and every operation in progress waits for its
last command.  Besides `frames` there is a frame to come for every request that `brings` one. -/
structure Covered (brings : Request → Bool) (k : LaunchId) (frames : Nat)
    (taken : List CommandId) (s : Session) : Prop where
  current : s.current = some k
  last : ∀ c ∈ s.calls, c.stage.isLast = true
  channel : ∃ ch, s.channels[k]? = some ch ∧
    ch.Covered (frames + s.outbox.countP brings) taken s.nextId

namespace Covered

/-- The outbox grows, and what is in progress waits for its last command still. -/
theorem grow (h : s.Covered brings k frames taken) (hcurrent : s'.current = s.current)
    (hchannels : s'.channels = s.channels) (hnextId : s'.nextId = s.nextId)
    (hlast : ∀ c ∈ s'.calls, c.stage.isLast = true) (hasks : s.outbox <+: s'.outbox) :
    s'.Covered brings k frames taken where
  current := hcurrent.trans h.current
  last := hlast
  channel := by
    obtain ⟨ch, hch, hcovered⟩ := h.channel
    have hcount : s.outbox.countP brings ≤ s'.outbox.countP brings := hasks.sublist.countP_le
    rw [hchannels, hnextId]
    exact ⟨ch, hch, hcovered.mono (by omega) (Int.le_refl _)⟩

theorem inward (h : s.Covered brings k frames taken) (hin : Inward s s') :
    s'.Covered brings k frames taken := by
  obtain ⟨rs, houtbox, -⟩ := hin.asks
  refine h.grow hin.current hin.channels hin.nextId ?_ ⟨rs, houtbox.symm⟩
  rw [hin.calls]
  exact h.last

theorem requestAll (h : s.Covered brings k frames taken) (rs : List Request) :
    (s.requestAll rs).Covered brings k frames taken :=
  h.grow rfl rfl rfl h.last ⟨rs, rfl⟩

theorem suspend {stage : Stage} {limit : Option Float} (h : s.Covered brings k frames taken)
    (hstage : stage.isLast = true) : (s.suspend call stage limit).Covered brings k frames taken := by
  have hlast : ∀ c ∈ (s.waiting call stage limit).calls, c.stage.isLast = true := by
    intro c hc
    rcases mem_calls_waiting hc with ⟨hc, -⟩ | rfl
    · exact h.last c hc
    · exact hstage
  have hwaiting : (s.waiting call stage limit).Covered brings k frames taken :=
    h.grow rfl rfl rfl hlast (List.prefix_refl _)
  exact hwaiting.inward .suspend

theorem answer {result : Except SessionFault Result} (h : s.Covered brings k frames taken) :
    (s.answer call result).Covered brings k frames taken :=
  h.grow rfl rfl rfl (fun c hc => h.last c (List.mem_filter.1 hc).1) ⟨_, rfl⟩

/-- A channel changes and leaves what is pending covered, in case it is the debugger's. -/
theorem modifyChannel {j : LaunchId} {f : Channel → Channel} (h : s.Covered brings k frames taken)
    (hf : ∀ frames ch, Channel.Covered ch frames taken s.nextId →
      (f ch).Covered frames taken s.nextId) :
    (s.modifyChannel j f).Covered brings k frames taken where
  current := h.current
  last := h.last
  channel := by
    obtain ⟨ch, hch, hcovered⟩ := h.channel
    have hmodified : (s.modifyChannel j f).channels[k]? = some (if j = k then f ch else ch) := by
      simp [Session.modifyChannel, List.getElem?_modify, hch]
    refine ⟨_, hmodified, ?_⟩
    split
    · exact hf _ ch hcovered
    · exact hcovered

theorem changeChannel {j : LaunchId} {f : Channel → Channel} (h : s.Covered brings k frames taken)
    (hf : ∀ frames ch, Channel.Covered ch frames taken s.nextId →
      (f ch).Covered frames taken s.nextId) :
    (s.changeChannel j f).Covered brings k frames taken :=
  (h.modifyChannel hf).requestAll _

theorem giveUp {j : LaunchId} {t : Ticket} (h : s.Covered brings k frames taken) :
    (s.giveUp j t).Covered brings k frames taken :=
  h.changeChannel fun _ _ hcovered => hcovered.cancel t

/-! ## Commands -/

theorem replace {ch : Channel} (h : s.Covered brings k frames taken)
    (hcurrent : s'.current = s.current) (hcalls : s'.calls = s.calls)
    (hchannels : s'.channels = s.channels.modify k fun _ => ch)
    (hcovered : ch.Covered (frames + s'.outbox.countP brings) taken s'.nextId) :
    s'.Covered brings k frames taken where
  current := hcurrent.trans h.current
  last := by
    rw [hcalls]
    exact h.last
  channel := by
    obtain ⟨old, hold, -⟩ := h.channel
    refine ⟨ch, ?_, hcovered⟩
    simp [hchannels, hold]

/-- A signal reserves a place; if it is delivered it brings a frame. -/
theorem signalled {ch : Channel} {next : CommandId} (h : s.Covered brings k frames taken)
    (hsignals : env.Signals k brings) (name : String)
    (hch : ch.Covered (frames + s.outbox.countP brings) taken next) (hnext : s.nextId = next + 1) :
    ((s.changeChannel k fun _ => (ch.signal next name env.now (env.signalFault k name)).2).request
      (.signal k name)).Covered brings k frames taken := by
  have hcovered := hch.signal name env.now (hsignals.failed name)
  rw [← hnext] at hcovered
  refine h.replace rfl rfl rfl (hcovered.mono ?_ (Int.le_refl _))
  have hgrown : s.outbox.countP brings ≤ (s.changeChannel k fun _ =>
      (ch.signal next name env.now (env.signalFault k name)).2).outbox.countP brings :=
    (List.prefix_append _ _).sublist.countP_le
  rw [Session.request, List.countP_append, List.countP_singleton]
  cases hfault : env.signalFault k name with
  | none =>
    rw [hfault] at hgrown
    rw [if_pos (hsignals.delivered name hfault)]
    simp only [Option.isNone_none, if_true]
    omega
  | some f =>
    rw [hfault] at hgrown
    simp only [Option.isNone_some, Bool.false_eq_true, if_false]
    omega

/-- A command that is submitted brings its own text, or a frame. -/
theorem submit {i : Issue} (h : s.Covered brings k frames taken)
    (hsignals : i.bySignal = true → env.Signals k brings) : (s.submit env i).2.Covered brings k frames taken := by
  obtain ⟨ch, hch, hcovered⟩ := h.channel
  have hnumbered : Covered brings k frames taken
      { s with nextId := s.nextId + 1, lastCommand := some i.text } :=
    ⟨h.current, h.last, ch, hch, hcovered.mono (Nat.le_refl _) (Int.le_of_lt (Int.lt_succ _))⟩
  unfold Session.submit
  split
  · exact h
  · rename_i j hj
    cases h.current.symm.trans hj
    split
    · exact h
    · rename_i ch' hch'
      cases hch.symm.trans hch'
      dsimp only
      split
      · have hsignalled :=
          hnumbered.signalled (hsignals ‹_›) s.settings.interruptSignal hcovered rfl
        split <;> rename_i heq <;> rw [heq] at hsignalled
        · exact hnumbered
        · exact hsignalled
        · exact hsignalled
      · split
        · exact hnumbered
        · rename_i t ch' heq
          refine h.replace rfl rfl rfl ((hcovered.submit heq).mono ?_ (Int.le_refl _))
          exact Nat.add_le_add_left (List.prefix_append _ _).sublist.countP_le frames

theorem goOnWith {bound : Nat} {i : Issue} {plan : Plan} {r : Report}
    (h : s.Covered brings k frames taken) (hplan : plan.isLast = true) :
    (s.goOnWith env call bound i plan r).Covered brings k frames taken := by
  obtain ⟨s', result, heq⟩ := advancePlan_of_isLast hplan s i.kind r
  have hadvance : Inward s (s.advancePlan i.kind plan r).1 := .advancePlan
  have hadvanced := h.inward hadvance
  rw [heq] at hadvanced
  rw [goOnWith_of_finish heq]
  exact hadvanced.answer

theorem resumeReply {i : Issue} {plan : Plan} {r : Report} (h : s.Covered brings k frames taken)
    (hplan : plan.isLast = true) :
    (s.resumeReply env call i plan r).Covered brings k frames taken := by
  obtain ⟨s', result, heq⟩ := advancePlan_of_isLast hplan s i.kind r
  have hadvance : Inward s (s.advancePlan i.kind plan r).1 := .advancePlan
  have hadvanced := h.inward hadvance
  rw [heq] at hadvanced
  rw [resumeReply_of_finish heq]
  exact hadvanced.answer

theorem awaitReply {j : LaunchId} {t : Ticket} {i : Issue} {plan : Plan}
    (h : s.Covered brings k frames taken) (hplan : plan.isLast = true) :
    (s.awaitReply call j t i plan).Covered brings k frames taken := by
  have hsuspended : (s.suspend call (.awaitingReply j t i plan) (s.timeoutFor i.kind)).Covered
      brings k frames taken := h.suspend hplan
  unfold Session.awaitReply
  dsimp only
  split
  · exact hsuspended.inward .letGoOn
  · split
    · exact hsuspended.giveUp
    · exact hsuspended

theorem perform {i : Issue} {plan : Plan} (h : s.Covered brings k frames taken)
    (hsignals : i.bySignal = true → env.Signals k brings) (hplan : plan.isLast = true) :
    (s.perform env call i plan).Covered brings k frames taken := by
  have hsubmit := h.submit hsignals
  unfold Session.perform
  rw [carryOut_eq]
  split <;> rename_i heq <;> rw [heq] at hsubmit
  · exact (hsubmit.inward .abandonPlan).answer
  · exact (hsubmit.inward .failedReport).goOnWith hplan
  · split
    · exact (hsubmit.inward .settledReport).goOnWith hplan
    · exact hsubmit.awaitReply hplan

/-! ## Running and halting -/

theorem runTarget {i : Issue} (h : s.Covered brings k frames taken)
    (hsignals : i.bySignal = true → env.Signals k brings) :
    (s.runTarget env call i).Covered brings k frames taken := by
  have hrunning : Inward s { s with runState := .running } := .of_eq rfl rfl rfl rfl rfl
  have hexpects := h.inward (hrunning.trans .expectStop)
  unfold Session.runTarget
  dsimp only
  split
  · exact h.answer
  · split
    · have hcounted : ∀ s : Session, Inward s { s with blockingRuns := s.blockingRuns + 1 } :=
        fun _ => .of_eq rfl rfl rfl rfl rfl
      exact (hexpects.inward (hcounted _)).perform hsignals rfl
    · exact hexpects.perform hsignals rfl

theorem finishStop {t : Ticket} {location : Option StopLocation}
    (h : s.Covered brings k frames taken) :
    (s.finishStop call t location).Covered brings k frames taken := by
  have hforgotten : Inward s { s with stopTicket := none } := .of_eq rfl rfl rfl rfl rfl
  unfold Session.finishStop
  dsimp only
  split
  · exact (h.inward hforgotten).answer
  · exact h.answer

theorem waitForStop {limit : Option Float} (h : s.Covered brings k frames taken) :
    (s.waitForStop call limit).Covered brings k frames taken := by
  have hticket := h.inward .withStopTicket
  unfold Session.waitForStop
  dsimp only
  split
  · split
    · exact (hticket.suspend rfl).inward .letGoOn
    · exact hticket.finishStop
  · split
    · exact hticket.answer
    · exact hticket.suspend rfl

/-- A bare signal reserves no place, so it need not bring a frame. -/
theorem bareSignal (h : s.Covered brings k frames taken)
    (hblocking : (s.blockingRuns == 0) = false) :
    (s.interrupt env call).Covered brings k frames taken := by
  unfold Session.interrupt
  rw [hblocking, if_neg (by decide)]
  split
  · exact h.answer
  · have hsignalled := h.requestAll [.signal ‹LaunchId› s.settings.interruptSignal]
    dsimp only
    split
    · exact hsignalled.waitForStop
    · split
      · exact (hsignalled.inward .log).answer
      · exact hsignalled.answer

/-! ## Steps -/

theorem begin {operation : Operation} (h : s.Covered brings k frames taken)
    (hsignals : operation.reservesSignal s = true → env.Signals k brings)
    (hsingle : operation.isSingle = true) :
    (s.begin env call operation).Covered brings k frames taken := by
  cases operation with
  | run c => exact h.runTarget (i := plainIssue c.text c.kind .warning) nofun
  | interrupt =>
    cases hblocking : s.blockingRuns == 0 with
    | true =>
      dsimp only [Session.begin, Session.interrupt]
      rw [if_pos hblocking]
      exact h.runTarget fun _ => hsignals hblocking
    | false => exact h.bareSignal hblocking
  | waitForStop limit => exact h.waitForStop
  | addBreakpoint r => exact h.perform (i := plainIssue ..) nofun rfl
  | removeBreakpoints numbers =>
    dsimp only [Session.begin]
    split
    · exact h.answer
    · exact h.perform (i := plainIssue ..) nofun rfl
  | ask q => exact h.perform (i := plainIssue ..) nofun rfl
  | send text kind level => exact h.perform (i := plainIssue ..) nofun rfl
  | _ => cases hsingle

/-- An operation that waits for the last thing that it needs goes on. -/
theorem proceed {stage : Stage} (h : s.Covered brings k frames taken)
    (hstage : stage.isLast = true) : (s.proceed env call stage).Covered brings k frames taken := by
  cases stage with
  | awaitingReply j t i plan =>
    dsimp only [Session.proceed]
    split
    · exact (h.inward .settledReport).resumeReply hstage
    · exact h
  | awaitingStop t =>
    dsimp only [Session.proceed]
    split
    · exact h.finishStop
    · exact h
  | _ => cases hstage

theorem timeOut {stage : Stage} (h : s.Covered brings k frames taken)
    (hstage : stage.isLast = true) : (s.timeOut env call stage).Covered brings k frames taken := by
  cases stage with
  | awaitingReply j t i plan =>
    dsimp only [Session.timeOut]
    split
    · exact h.proceed hstage
    · exact h.giveUp
  | awaitingStop t =>
    dsimp only [Session.timeOut]
    split
    · exact h.proceed hstage
    · exact h.answer
  | _ => cases hstage

theorem watch {j : LaunchId} (h : s.Covered brings k frames taken) :
    (s.watch j).Covered brings k frames taken := by
  unfold Session.watch
  split
  · exact h
  · split
    · exact h
    · refine (h.modifyChannel fun _ _ hcovered => ?_).inward (.foldl (fun _ _ => .noticeFrame) _ _)
      exact hcovered.still (fun _ hc => { hc with }) rfl rfl rfl

end Covered

/-- Does a caller ask for an operation that gives one command at most, or go on with one? -/
def Event.isSingle : Event → Bool
  | .call _ operation => operation.isSingle
  | .proceeds .. | .timesOut .. | .watches _ => true
  | _ => false

/-- Does an event signal the debugger and reserve a place for its frame? -/
def Event.reservesSignal (s : Session) : Event → Bool
  | .call _ operation => operation.reservesSignal s
  | _ => false

/-- A step of a caller whose operations give one command at most. -/
theorem Covered.step {e : Event} (h : s.Covered brings k frames taken)
    (hsignals : e.reservesSignal s = true → env.Signals k brings) (he : e.isSingle = true) :
    (s.step env e).Covered brings k frames taken := by
  have hstage : ∀ {id wait stage}, s.stageIn? id wait = some stage → stage.isLast = true := by
    intro id wait stage hstage
    obtain ⟨c, hc, -, rfl⟩ := exists_call_of_stageIn? hstage
    exact h.last c hc
  unfold Session.step
  cases e with
  | call id operation => exact h.begin hsignals he
  | proceeds id wait =>
    dsimp only
    split
    · exact h.proceed (hstage ‹_›)
    · exact h
  | timesOut id wait =>
    dsimp only
    split
    · exact h.timeOut (hstage ‹_›)
    · exact h
  | watches j => exact h.watch
  | _ => cases he

/-- Frames are counted anew: those that the requests of a step bring are among them. -/
theorem Covered.recount {brings' : Request → Bool} {frames' : Nat}
    (h : s.Covered brings k frames taken)
    (hframes : frames + s.outbox.countP brings ≤ frames' + s.outbox.countP brings') :
    s.Covered brings' k frames' taken where
  current := h.current
  last := h.last
  channel := by
    obtain ⟨ch, hch, hcovered⟩ := h.channel
    exact ⟨ch, hch, hcovered.mono hframes (Int.le_refl _)⟩

/-! ## The debugger's own steps -/

/-- What a debugger or its transport does changes the channel, and nothing else but the outbox. -/
theorem step_channel (s : Session) (env : Surroundings) (k : LaunchId) (e : Channel.Event) :
    (s.step env (.channel k e)).channels = s.channels.modify k (·.react env.now e) ∧
      (s.step env (.channel k e)).current = s.current ∧
      (s.step env (.channel k e)).nextId = s.nextId ∧
      (s.step env (.channel k e)).calls = s.calls := by
  have hframes : ∀ (printed : List (List String)) (s : Session),
      let s' := printed.foldl (fun s lines => s.changeChannel k fun ch => ch.emit lines env.now) s
      s'.current = s.current ∧ s'.nextId = s.nextId ∧ s'.calls = s.calls := by
    intro printed
    induction printed with
    | nil => exact fun _ => ⟨rfl, rfl, rfl⟩
    | cons lines printed ih => exact fun _ => ih _
  cases e with
  | prints chunk => exact ⟨s.channels_feed k env.now chunk, hframes _ _⟩
  | _ => exact ⟨rfl, rfl, rfl, rfl⟩

end Session

end DebugConsole
