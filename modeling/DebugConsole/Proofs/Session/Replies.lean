import DebugConsole.Proofs.Session.Coverage
import DebugConsole.Proofs.Session.HandOver
import DebugConsole.Proofs.Session.Ledgers

set_option autoImplicit false

/-!
# What becomes of a command

Most operations give one command and end with what is told of it.  Whatever the debugger prints or refuses,
when it ends and whoever kills it, such an operation waits on until its ticket is settled, and is then
answered once: with the decoding of the frame that answers the ticket, or with a failure whose cause is
named first (`Outcome.Tells`).  No fault reaches its caller once there is a debugger to give commands to.

The step that gives a command binds the operation to its ticket, the books of the debugger say whose ticket
it is (`Session.Books`), and no other step touches either; `reports_of_send` says what this comes to for a
command of the user's own.
-/

namespace DebugConsole

/-- What is told of a command of the given kind when its ticket has been settled. -/
inductive Outcome.Tells (kind : CommandKind) : Outcome → Report → Prop
  | decoded {frame : Frame} {r : Report} (h : Report.decode kind frame.lines = .ok r) :
      Tells kind (.answered frame) r
  | malformed {frame : Frame} {m : Malformed} (h : Report.decode kind frame.lines = .error m) :
      Tells kind (.answered frame) (.failure ("parse error: " ++ m.message))
  | unwritten (cause : String) :
      Tells kind (.failed (.unwritten cause)) (.failure ("write failed: " ++ cause))
  | ended {fault : ChannelFault} (h : fault.isUnwritten = false) :
      Tells kind (.failed fault) (.failure ("session terminated: " ++ fault.message))
  | late (detail : String) : Tells kind .cancelled (.failure ("timeout: " ++ detail))

namespace Plan

/-- What an operation that gives one command ends with when it is told of it. -/
def conclusion? (r : Report) : Plan → Option Result
  | deliver => some (.report r)
  | ask query => some (query.result r)
  | confirm condition => some (.breakpoint (BreakpointRequest.confirmed? condition r))
  | remove => some (.removed r.isOk)
  | run _ => some (.stop (if r.isOk then some (r.stop.getD .unknown) else none))
  | clear .. | place .. | sequence .. => none

theorem exists_conclusion {plan : Plan} (h : plan.isLast) (r : Report) :
    ∃ result, plan.conclusion? r = some result := by
  cases plan with
  | clear | place | sequence => cases h
  | _ => exact ⟨_, rfl⟩

end Plan

namespace Session

variable {s s' : Session} {env : Surroundings} {e : Event} {id : CallId} {k : LaunchId} {ch : Channel}
  {t : Ticket} {c : Call} {i : Issue} {plan : Plan} {events : List (Surroundings × Event)}

/-! ## Reports -/

theorem channelFailure_eq_of_isUnwritten {fault : ChannelFault} (h : fault.isUnwritten = false) :
    channelFailure fault = "session terminated: " ++ fault.message := by
  rw [channelFailure, h]
  rfl

/-- What is reported of a settled command tells what has become of it. -/
theorem tells_settledReport (s : Session) (i : Issue) {o : Outcome} (h : o.isDone = true) :
    o.Tells i.kind (s.settledReport i o).1 := by
  cases o with
  | waiting => cases h
  | answered frame =>
    show Outcome.Tells _ _ (decodeAnswer i.kind frame.lines)
    unfold decodeAnswer
    split
    · exact .decoded ‹_›
    · exact .malformed ‹_›
  | failed fault =>
    show Outcome.Tells _ _ (.failure (channelFailure fault))
    cases fault with
    | unwritten cause => exact .unwritten cause
    | _ =>
      rw [channelFailure_eq_of_isUnwritten rfl]
      exact .ended rfl
  | cancelled =>
    have hcause : "timeout: no prompt from debugger after " =
        "timeout: " ++ "no prompt from debugger after " := by decide
    have hwording : ∀ seconds, timeoutFailure seconds = "timeout: " ++
        ("no prompt from debugger after " ++ (Numeral.timeText seconds ++ "s")) := by
      intro seconds
      unfold timeoutFailure
      rw [hcause, String.append_assoc, String.append_assoc]
    show Outcome.Tells _ _ (.failure (timeoutFailure _))
    rw [hwording]
    exact .late _

/-- An operation that gives one command ends with what is told of it. -/
theorem advancePlan_of_conclusion (s : Session) (kind : CommandKind) {r : Report} {result : Result}
    (h : plan.conclusion? r = some result) :
    ∃ s', s.advancePlan kind plan r = (s', .finish result) := by
  cases plan with
  | clear | place | sequence => cases h
  | run previous =>
    cases h
    show ∃ s', s.finishRun kind previous r = _
    unfold finishRun
    dsimp only
    split
    · rename_i hfailed
      have hr : r.isOk = false := by simpa using hfailed
      exact ⟨_, by rw [hr]; rfl⟩
    · rename_i hok
      have hr : r.isOk = true := by simpa using hok
      rw [hr]
      split
      · rename_i hstop
        exact ⟨_, by rw [hstop]; rfl⟩
      · rename_i hstop
        exact ⟨_, by rw [hstop]; rfl⟩
      · exact ⟨_, rfl⟩
  | _ =>
    cases h
    exact ⟨s, rfl⟩

/-! ## Waiting for an answer -/

/-- The books of a debugger say that a ticket is the one of a number. -/
def Books (s : Session) (k : LaunchId) (t : Ticket) (n : CommandId) : Prop :=
  ∃ ch numbers, s.channels[k]? = some ch ∧ ch.Booked s.nextId numbers ∧ numbers[t]? = some n

namespace Books

variable {n : CommandId}

/-- The books go on with the channel. -/
theorem of_continues (h : s.Books k t n)
    (hchannel : ∀ ch, s.channels[k]? = some ch → ∃ ch', s'.channels[k]? = some ch' ∧
      Channel.Continues (s.nextId, ch) (s'.nextId, ch')) : s'.Books k t n := by
  obtain ⟨ch, numbers, hch, hbooked, hn⟩ := h
  obtain ⟨ch', hch', hcontinues⟩ := hchannel ch hch
  obtain ⟨more, hmore⟩ := hcontinues.booked numbers hbooked
  refine ⟨ch', numbers ++ more, hch', hmore, ?_⟩
  rwa [List.getElem?_append_left (List.getElem?_eq_some_iff.1 hn).1]

theorem after (h : s.Books k t n) (env : Surroundings) (e : Event) : (s.after env e).Books k t n :=
  of_continues (s := { s with outbox := [] }) h fun _ => continues_step env e

theorem afterAll (h : s.Books k t n) (events : List (Surroundings × Event)) :
    (s.afterAll events).Books k t n := by
  induction events generalizing s with
  | nil => exact h
  | cons e events ih => exact ih (h.after e.1 e.2)

/-- A ticket in the books that does not wait has been settled. -/
theorem settled (h : s.Books k t n) (hdone : (s.outcomeOf k t).isDone = true) :
    s.Settled k t (s.outcomeOf k t) := by
  obtain ⟨ch, numbers, hch, hbooked, hn⟩ := h
  have hlt : t < ch.outcomes.length := by
    rw [hbooked.consistent.tickets]
    exact (List.getElem?_eq_some_iff.1 hn).1
  refine ⟨⟨ch, hch, ?_⟩, hdone⟩
  rw [List.getElem?_eq_getElem hlt, outcomeOf, hch]
  show some _ = some (ch.outcomes.getD t .cancelled)
  rw [List.getD_eq_getElem?_getD, List.getElem?_eq_getElem hlt, Option.getD_some]

/-- A frame that answers a ticket carries its number. -/
theorem own (h : s.Books k t n) {frame : Frame} (hframe : s.outcomeOf k t = .answered frame) :
    frame.id = n := by
  obtain ⟨ch, numbers, hch, hbooked, hn⟩ := h
  rw [outcomeOf, hch] at hframe
  exact Option.some.inj ((hbooked.own t frame hframe).symm.trans hn)

end Books

/-- Whoever goes on once its last command is settled is told what has become of it. -/
theorem proceed_of_isDone (env : Surroundings) (s : Session) (id : CallId) (hplan : plan.isLast)
    (hdone : (s.outcomeOf k t).isDone = true) :
    ∃ s' r result, Spares id s s' ∧ (s.outcomeOf k t).Tells i.kind r ∧
      plan.conclusion? r = some result ∧
      s.proceed env id (.awaitingReply k t i plan) = s'.answer id (.ok result) := by
  have htells := s.tells_settledReport i hdone
  have hreported : Spares id s (s.settledReport i (s.outcomeOf k t)).2 := .of_inward .settledReport
  have hsettles : s.proceed env id (.awaitingReply k t i plan) =
      (s.settledReport i (s.outcomeOf k t)).2.resumeReply env id i plan
        (s.settledReport i (s.outcomeOf k t)).1 := if_pos hdone
  generalize s.settledReport i (s.outcomeOf k t) = report at *
  obtain ⟨result, hresult⟩ := Plan.exists_conclusion hplan report.1
  obtain ⟨s', hadvance⟩ := advancePlan_of_conclusion report.2 i.kind hresult
  have hadvanced : Spares id report.2 (report.2.advancePlan i.kind plan report.1).1 :=
    .of_inward .advancePlan
  rw [hadvance] at hadvanced
  exact ⟨s', report.1, result, hreported.trans hadvanced, htells, hresult,
    hsettles.trans (resumeReply_of_finish hadvance)⟩

/-- When it is its turn, an operation that waits for the answer to its command waits on, gives the command
up, or goes on because its ticket is settled. -/
theorem after_own_of_awaitingReply (env : Surroundings) (hnodup : (s.calls.map Call.id).Nodup)
    (hc : c ∈ s.calls) (hstage : c.stage = .awaitingReply k t i plan) (own : e.caller? = some c.id)
    (he : e.asksFor c.id = false) :
    s.after env e = { s with outbox := [] } ∨
      s.after env e = { s with outbox := [] }.giveUp k t ∨
      ((s.outcomeOf k t).isDone = true ∧
        s.after env e = { s with outbox := [] }.proceed env c.id c.stage) := by
  let cleared : Session := { s with outbox := [] }
  have hworld : c.stage.awaitsWorld = false := by rw [hstage]; rfl
  by_cases hdone : (s.outcomeOf k t).isDone = true
  · rcases step_of_mem (s := cleared) env hnodup hc hworld own he with h | ⟨-, h⟩ | ⟨-, h⟩
    · exact Or.inl h
    · exact Or.inr (Or.inr ⟨hdone, h⟩)
    · refine Or.inr (Or.inr ⟨hdone, h.trans ?_⟩)
      rw [hstage]
      exact if_pos hdone
  · rcases step_of_mem (s := cleared) env hnodup hc hworld own he with h | ⟨-, h⟩ | ⟨-, h⟩
    · exact Or.inl h
    · refine Or.inl (h.trans ?_)
      rw [hstage]
      exact if_neg hdone
    · -- the command is given up, and the operation goes on in its turn
      refine Or.inr (Or.inl (h.trans ?_))
      rw [hstage]
      exact if_neg hdone

/-- An operation that waits for the answer to its command waits on, or is told what has become of it. -/
theorem answersIn_of_awaitingReply (env : Surroundings) (hnodup : (s.calls.map Call.id).Nodup)
    (hc : c ∈ s.calls) (hstage : c.stage = .awaitingReply k t i plan) (hplan : plan.isLast)
    (he : e.asksFor c.id = false) :
    (c ∈ (s.after env e).calls ∧ (s.after env e).answersIn c.id = []) ∨
      (c.id ∉ (s.after env e).calls.map Call.id ∧ (s.outcomeOf k t).isDone = true ∧
        ∃ r result, (s.outcomeOf k t).Tells i.kind r ∧ plan.conclusion? r = some result ∧
          (s.after env e).answersIn c.id = [.ok result]) := by
  let cleared : Session := { s with outbox := [] }
  by_cases hown : e.caller? = some c.id
  · rcases after_own_of_awaitingReply env hnodup hc hstage hown he with h | h | ⟨hdone, h⟩
    · rw [h]
      exact Or.inl ⟨hc, rfl⟩
    · have hspares : Spares c.id cleared (cleared.giveUp k t) := .giveUp
      rw [h]
      exact Or.inl ⟨hc, hspares.answersIn rfl⟩
    · obtain ⟨s', r, result, hspares, htells, hresult, hanswers⟩ :=
        proceed_of_isDone (i := i) env cleared c.id hplan hdone
      have hafter : s.after env e = s'.answer c.id (.ok result) := by
        rw [h, hstage]
        exact hanswers
      refine Or.inr ⟨hafter ▸ notMem_answer _ _ _, hdone, r, result, htells, hresult, ?_⟩
      rw [hafter, answersIn_answer, hspares.answersIn rfl, List.nil_append]
  · have hspares : Spares c.id cleared (s.after env e) := .step hown
    exact Or.inl ⟨(acts_step_any cleared env e).mem_calls hown hc, hspares.answersIn rfl⟩

/-- In every run an operation that waits for the answer to its command waits on, or it has been told once
what has become of it. -/
theorem answersTo_of_awaitingReply {n : CommandId} (hnodup : (s.calls.map Call.id).Nodup)
    (hc : c ∈ s.calls) (hstage : c.stage = .awaitingReply k t i plan) (hplan : plan.isLast)
    (books : s.Books k t n) (others : ∀ e ∈ events, e.2.asksFor c.id = false) :
    (c ∈ (s.afterAll events).calls ∧ s.answersTo c.id events = []) ∨
      (c.id ∉ (s.afterAll events).calls.map Call.id ∧
        ∃ o r result, (s.afterAll events).Settled k t o ∧ o.Tells i.kind r ∧
          plan.conclusion? r = some result ∧ s.answersTo c.id events = [.ok result]) := by
  induction events generalizing s with
  | nil => exact Or.inl ⟨hc, rfl⟩
  | cons e events ih =>
    have hlater := fun e he => others e (List.mem_cons_of_mem _ he)
    rw [answersTo]
    rcases answersIn_of_awaitingReply e.1 hnodup hc hstage hplan
        (others e List.mem_cons_self) with ⟨hwaits, hnone⟩ | ⟨hgone, hdone, r, result, htells,
        hresult, htold⟩
    · rw [hnone]
      exact ih (nodup_after hnodup) hwaits (books.after e.1 e.2) hlater
    · obtain ⟨habsent, hrest⟩ := answersTo_of_absent hgone hlater
      have hsettled := ((books.settled hdone).after e.1 e.2).afterAll events
      rw [htold, hrest]
      exact Or.inr ⟨habsent, _, r, result, hsettled, htells, hresult, rfl⟩

/-! ## Giving a command -/

/-- A debugger that has ended takes no command, and the operation is told so at once. -/
theorem perform_of_isClosed (env : Surroundings) (id : CallId) (hcurrent : s.current = some k)
    (hch : s.channels[k]? = some ch) (hclosed : ch.isClosed = true) (hplain : i.bySignal = false)
    {result : Result}
    (hresult : plan.conclusion? (.failure (channelFailure .closed)) = some result) :
    ∃ s', Spares id s s' ∧ s.perform env id i plan = s'.answer id (.ok result) := by
  have hsubmit := submit_eq env (i := i) hcurrent hch hplain
  rw [Channel.submit_of_isClosed hclosed] at hsubmit
  have hfailed : Spares id s ((s.numbered i.text).failedReport (channelFailure .closed)).2 :=
    (Spares.of_inward .failedReport).after rfl rfl
  obtain ⟨s', hadvance⟩ := advancePlan_of_conclusion
    ((s.numbered i.text).failedReport (channelFailure .closed)).2 i.kind hresult
  have hadvanced : Spares id ((s.numbered i.text).failedReport (channelFailure .closed)).2
      (Session.advancePlan _ i.kind plan (.failure (channelFailure .closed))).1 :=
    .of_inward .advancePlan
  rw [hadvance] at hadvanced
  refine ⟨s', hfailed.trans hadvanced, ?_⟩
  unfold perform
  rw [carryOut_eq, hsubmit]
  exact goOnWith_of_finish hadvance

/-- Whoever waits for an answer may be let go on or give up at once. -/
theorem awaitReply_notes (s : Session) (id : CallId) (k : LaunchId) (t : Ticket) (i : Issue)
    (plan : Plan) :
    Notes (s.waiting id (.awaitingReply k t i plan) (s.timeoutFor i.kind))
      (s.awaitReply id k t i plan) := by
  have hsuspended : Notes (s.waiting id (.awaitingReply k t i plan) (s.timeoutFor i.kind))
      (s.suspend id (.awaitingReply k t i plan) (s.timeoutFor i.kind)) := .suspend
  unfold awaitReply
  dsimp only
  split
  · exact hsuspended.trans .letGoOn
  · split
    · exact hsuspended.trans .changeChannel
    · exact hsuspended

/-- A debugger that has not ended takes the command. -/
theorem perform_eq_of_isOpen (env : Surroundings) (id : CallId) (plan : Plan) (hcurrent : s.current = some k)
    (hch : s.channels[k]? = some ch) (hopen : ch.isClosed = false) (hplain : i.bySignal = false) :
    ∃ ch', ch.submit ⟨s.nextId, i.text⟩ = .ok (ch.outcomes.length, ch') ∧
      s.perform env id i plan = ((s.numbered i.text).changeChannel k fun _ => ch').awaitReply id k
        ch.outcomes.length i plan := by
  obtain ⟨ch', hsubmitted⟩ : ∃ ch', ch.submit ⟨s.nextId, i.text⟩ = .ok (ch.outcomes.length, ch') :=
    ⟨_, Channel.submit_eq_ok_iff.2 ⟨hopen, rfl, rfl⟩⟩
  have houtcomes : ch'.outcomes = ch.outcomes ++ [.waiting] := by
    obtain ⟨-, -, hch'⟩ := Channel.submit_eq_ok_iff.1 hsubmitted
    rw [hch']
    split <;> rfl
  have hwaiting : (((s.numbered i.text).changeChannel k fun _ => ch').outcomeOf k
      ch.outcomes.length).isDone = false := by
    have hch' : ((s.numbered i.text).changeChannel k fun _ => ch').channels[k]? = some ch' := by
      show (s.channels.modify k _)[k]? = _
      rw [List.getElem?_modify_eq, hch]
      rfl
    rw [outcomeOf, hch']
    simp [Channel.outcome, houtcomes, Outcome.isDone]
  refine ⟨ch', hsubmitted, ?_⟩
  have hsubmit := submit_eq env (i := i) hcurrent hch hplain
  rw [hsubmitted] at hsubmit
  unfold perform
  rw [carryOut_eq, hsubmit]
  dsimp only
  rw [hwaiting, Bool.false_and, if_neg (by decide)]

/-- A debugger that has not ended takes the command, and the operation waits for the next ticket. -/
theorem perform_of_isOpen (env : Surroundings) (id : CallId) (plan : Plan) {numbers : List CommandId}
    (hcurrent : s.current = some k) (hch : s.channels[k]? = some ch) (hopen : ch.isClosed = false)
    (hbooked : ch.Booked s.nextId numbers) (hplain : i.bySignal = false) :
    (∃ c ∈ (s.perform env id i plan).calls, c.id = id ∧
        c.stage = .awaitingReply k ch.outcomes.length i plan) ∧
      (s.perform env id i plan).Books k ch.outcomes.length s.nextId ∧
      (∀ result, .answer id result ∈ (s.perform env id i plan).outbox →
        .answer id result ∈ s.outbox) := by
  obtain ⟨ch', hsubmitted, hperform⟩ := perform_eq_of_isOpen env id plan hcurrent hch hopen hplain
  have hspares : Spares id s ((s.numbered i.text).changeChannel k fun _ => ch') :=
    Spares.changeChannel.after rfl rfl
  have hbooks : ((s.numbered i.text).changeChannel k fun _ => ch').Books k ch.outcomes.length
      s.nextId := by
    have hgiven : ch'.Booked (s.nextId + 1) (numbers ++ [s.nextId]) :=
      hbooked.give (hbooked.consistent.submit hbooked.notMem hsubmitted)
        (hbooked.owing.submit hbooked.consistent hbooked.notMem hsubmitted)
        fun _ _ => Channel.answered_of_submit hsubmitted
    refine ⟨ch', _, ?_, hgiven, by simp [hbooked.consistent.tickets]⟩
    show (s.channels.modify k _)[k]? = _
    rw [List.getElem?_modify_eq, hch]
    rfl
  rw [hperform]
  generalize (s.numbered i.text).changeChannel k (fun _ => ch') = s₁ at *
  have hnotes := s₁.awaitReply_notes id k ch.outcomes.length i plan
  have hsteady : Steady (bookkeeping env k).toHandling s₁
      (s₁.awaitReply id k ch.outcomes.length i plan) := .awaitReply
  let c : Call := ⟨id, .awaitingReply k ch.outcomes.length i plan, s₁.waits, s₁.timeoutFor i.kind⟩
  have hc : c ∈ (s₁.awaitReply id k ch.outcomes.length i plan).calls := by
    rw [hnotes.calls]
    exact List.mem_append_right _ (List.mem_singleton_self _)
  refine ⟨⟨c, hc, rfl, rfl⟩, hbooks.of_continues hsteady.channel, fun result hr => ?_⟩
  obtain ⟨rs, hrs, hno⟩ := hnotes.asks
  rw [hrs] at hr
  exact hspares.answers result ((List.mem_append.1 hr).resolve_right fun hr => by cases hno _ hr)

/-! ## The boundary of commands -/

/-- A session holds only debuggers that have been launched. -/
theorem Reached.exists_channel (h : s.Reached) (hcurrent : s.current = some k) :
    ∃ ch, s.channels[k]? = some ch := by
  have hact : ∀ {caller : Option CallId} {s s' : Session}, Act caller (fun _ _ => True) s s' →
      (∀ k, s.current = some k → k < s.channels.length) →
      ∀ k, s'.current = some k → k < s'.channels.length := by
    intro caller s s' hact hlt k hk
    cases hact with
    | note hn => exact hn.launches ▸ hlt k (hn.current ▸ hk)
    | enter =>
      obtain rfl : s.channels.length = k := Option.some.inj hk
      simp [entered]
    | leave => cases hk
    | _ => exact hlt k hk
  have hlt : ∀ k, s.current = some k → k < s.channels.length := by
    clear hcurrent
    induction h with
    | create => exact fun k hk => by cases hk
    | @after s _ env e ih =>
      have hacts := acts_step_any { s with outbox := [] } env e
      rw [Session.after]
      generalize Session.step _ env e = s' at hacts
      induction hacts with
      | refl => exact ih
      | tail _ h ih => exact hact h ih
    | subscribe _ _ ih | unsubscribe _ _ ih => exact ih
  exact ⟨_, List.getElem?_eq_getElem (hlt k hcurrent)⟩

/-- The ticket that a debugger hands out next. -/
def nextTicket (s : Session) (k : LaunchId) : Ticket :=
  ((s.channels[k]?).map fun ch => ch.outcomes.length).getD 0

theorem nextTicket_eq (hch : s.channels[k]? = some ch) : s.nextTicket k = ch.outcomes.length := by
  rw [nextTicket, hch]
  rfl

/-- The words with which the failure of a command begins. -/
def failureCauses : List String :=
  ["timeout: ", "write failed: ", "session terminated: ", "parse error: "]

/-- Is a report a failure whose cause is named first? -/
def IsFailure (r : Report) : Prop :=
  ∃ cause ∈ failureCauses, ∃ detail, r = .failure (cause ++ detail)

/-- What is told of a command is a failure whose cause is named first, or the decoding of the frame that
answers its ticket. -/
theorem isFailure_or_decoded {kind : CommandKind} {o : Outcome} {r : Report} (h : o.Tells kind r) :
    IsFailure r ∨ ∃ frame, o = .answered frame ∧ Report.decode kind frame.lines = .ok r := by
  cases h with
  | decoded h => exact Or.inr ⟨_, rfl, h⟩
  | malformed | unwritten | ended | late => exact Or.inl ⟨_, by decide, _, rfl⟩

/-- A debugger that takes no commands any more refuses a command at once. -/
theorem answersTo_of_send_closed {ch : Channel} (hcurrent : s.current = some k)
    (hch : s.channels[k]? = some ch) (hclosed : ch.isClosed = true) (env : Surroundings) (id : CallId)
    (text : String) (kind : CommandKind) (level : LogLevel)
    (others : ∀ e ∈ events, e.2.asksFor id = false) :
    id ∉ (s.afterAll ((env, .call id (.send text kind level)) :: events)).calls.map Call.id ∧
      s.answersTo id ((env, .call id (.send text kind level)) :: events) =
        [.ok (.report (.failure (channelFailure .closed)))] := by
  let asked := Event.call id (.send text kind level)
  let cleared : Session := { s with outbox := [] }
  obtain ⟨s', hspares, hrefused⟩ : ∃ s', Spares id cleared s' ∧
      cleared.perform env id (plainIssue text kind level) .deliver =
        s'.answer id (.ok (.report (.failure (channelFailure .closed)))) :=
    perform_of_isClosed (s := cleared) env id hcurrent hch hclosed rfl rfl
  have hafter : s.after env asked =
      s'.answer id (.ok (.report (.failure (channelFailure .closed)))) := hrefused
  obtain ⟨habsent, hrest⟩ := answersTo_of_absent (hafter ▸ notMem_answer _ _ _) others
  refine ⟨habsent, ?_⟩
  show (s.after env asked).answersIn id ++ (s.after env asked).answersTo id events = _
  rw [hrest, hafter, answersIn_answer, hspares.answersIn rfl]
  rfl

/-- Whatever command is given to a session that holds a debugger, and whatever happens then: either it
still waits for the ticket that it got, or its caller has been answered once and with a report, a failure
whose cause is named first or else the decoding of the frame that has answered the ticket.  If the
debugger had not ended when the command was given, the report is what has become of the ticket; a frame
that has answered it carries the number of the command. -/
theorem reports_of_send (reached : s.Reached) (hcurrent : s.current = some k)
    (env : Surroundings) (id : CallId) (text : String) (kind : CommandKind) (level : LogLevel)
    (others : ∀ e ∈ events, e.2.asksFor id = false) :
    let run := (env, Event.call id (.send text kind level)) :: events
    ((∃ c ∈ (s.afterAll run).calls, c.id = id ∧
          c.stage = .awaitingReply k (s.nextTicket k) (plainIssue text kind level) .deliver) ∧
        s.answersTo id run = []) ∨
      (id ∉ (s.afterAll run).calls.map Call.id ∧
        ∃ r, s.answersTo id run = [.ok (.report r)] ∧
          (IsFailure r ∨ ∃ frame, (s.afterAll run).outcomeOf k (s.nextTicket k) = .answered frame ∧
            Report.decode kind frame.lines = .ok r) ∧
          (s.isRunning = true → ((s.afterAll run).outcomeOf k (s.nextTicket k)).Tells kind r ∧
            ∀ frame, (s.afterAll run).outcomeOf k (s.nextTicket k) = .answered frame →
              frame.id = s.nextId)) := by
  intro run
  let asked := Event.call id (.send text kind level)
  obtain ⟨ch, hch⟩ := reached.exists_channel hcurrent
  obtain ⟨numbers, hbooked⟩ := reached.booked hch
  rw [nextTicket_eq hch]
  have hrunning : s.isRunning = !ch.isClosed := by
    rw [isRunning, currentChannel?, hcurrent, Option.bind_some, hch, Option.any_some]
  cases hclosed : ch.isClosed with
  | true =>
    obtain ⟨habsent, hrefused⟩ :=
      answersTo_of_send_closed hcurrent hch hclosed env id text kind level others
    refine Or.inr ⟨habsent, .failure (channelFailure .closed), hrefused,
      Or.inl ⟨"session terminated: ", by decide, ChannelFault.closed.message, rfl⟩, fun hopen => ?_⟩
    rw [hrunning, hclosed] at hopen
    cases hopen
  | false =>
    obtain ⟨⟨c, hc, hid, hstage⟩, hbooks, hanswers⟩ := perform_of_isOpen (s := { s with outbox := [] })
      (i := plainIssue text kind level) env id .deliver hcurrent hch hclosed hbooked rfl
    have hnone : (s.after env asked).answersIn id = [] :=
      List.eq_nil_iff_forall_not_mem.2 fun result hr =>
        absurd (hanswers result (mem_answersIn.1 hr)) List.not_mem_nil
    have hlater : s.answersTo id run = (s.after env asked).answersTo id events := by
      show (s.after env asked).answersIn id ++ _ = _
      rw [hnone, List.nil_append]
    rw [hlater]
    subst hid
    rcases answersTo_of_awaitingReply (s := s.after env asked) (nodup_after reached.nodup) hc hstage
        rfl hbooks others with ⟨hwaits, hsilent⟩ | ⟨hgone, o, r, result, hsettled, htells, hresult, htold⟩
    · exact Or.inl ⟨⟨c, hwaits, rfl, hstage⟩, hsilent⟩
    · cases hresult
      have houtcome : (s.afterAll run).outcomeOf k ch.outcomes.length = o := hsettled.outcomeOf
      refine Or.inr ⟨hgone, r, htold, ?_, fun _ => ⟨houtcome ▸ htells, fun frame hframe => ?_⟩⟩
      · rw [houtcome]
        exact isFailure_or_decoded htells
      · exact (hbooks.afterAll events).own hframe

/-- Is an outcome an answer of the debugger? -/
def isAnswer : Outcome → Bool
  | .answered _ => true
  | _ => false

/-- The debugger exits while a command waits behind another one. -/
def exiting : List (Surroundings × Event) :=
  [(calm 2.0, .channel 0 .outputEnds), (calm 2.0, .proceeds 2 3)]

/-- The caller of the command that waits is told of a failure. -/
theorem reports_of_send_exiting :
    ∃ r, continuing.answersTo 2
        ((calm 2.0, .call 2 (.send "print x" .variableValue .log)) :: exiting) =
          [.ok (.report r)] ∧ IsFailure r := by
  have reached : continuing.Reached := (Reached.create _ _).afterAll _
  have hcurrent : continuing.current = some 0 := by decide +kernel
  have others : ∀ e ∈ exiting, e.2.asksFor 2 = false := by decide +kernel
  have hgone : 2 ∉ (continuing.afterAll
      ((calm 2.0, .call 2 (.send "print x" .variableValue .log)) :: exiting)).calls.map Call.id := by
    decide +kernel
  have hexited : isAnswer ((continuing.afterAll
      ((calm 2.0, .call 2 (.send "print x" .variableValue .log)) :: exiting)).outcomeOf 0
        (continuing.nextTicket 0)) = false := by decide +kernel
  rcases reports_of_send reached hcurrent (calm 2.0) 2 "print x" .variableValue .log others with
    ⟨⟨c, hc, hid, _⟩, _⟩ | ⟨_, r, htold, hfailure | ⟨frame, hframe, _⟩, _⟩
  · have hwaits : c.id ∈ _ := List.mem_map_of_mem hc
    rw [hid] at hwaits
    exact absurd hwaits hgone
  · exact ⟨r, htold, hfailure⟩
  · rw [hframe] at hexited
    cases hexited

end Session

end DebugConsole
