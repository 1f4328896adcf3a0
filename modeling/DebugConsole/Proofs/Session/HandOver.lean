import DebugConsole.Proofs.Session.Background

set_option autoImplicit false

/-!
# The hand-over of a halt

The target is let run in the background, and halts at some place.  Whether it says so in the answer to the
command, right behind it or much later, whether its frame is noticed before or after the answer is read, and
whoever waits for the halt meanwhile: there is one step in which the halt is noticed.  All who wait at that
step are told the place, and if nobody does, the first who asks afterwards
(`handsOver_of_runsInBackground`).

Up to that step the ticket for the next halt stays the same (`Divides`), so that all who have come to wait
by then hold it.
-/

namespace DebugConsole

namespace Session

variable {s s' : Session} {env : Surroundings} {e : Event} {b : Background} {p p' : Progress}
  {id : CallId} {k : LaunchId} {t : Ticket} {ch ch' : Channel} {c : Call}
  {events : List (Surroundings × Event)}

/-! ## Quiet runs -/

theorem Turn.of_clear {frames : List (List String)} {halts : List StopLocation}
    {answers : List (Except SessionFault Result)}
    (h : Turn b { s with outbox := [] } s' p p' frames halts answers) :
    Turn b s s' p p' frames halts answers :=
  ⟨h.underway, h.tells, h.runState, h.balance, h.lost, h.read⟩

theorem Heeds.of_clear {halts : List StopLocation} (h : Heeds { s with outbox := [] } s' halts) :
    Heeds s s' halts where
  calls := h.calls
  expected := fun t ht => h.expected t ⟨ht.ticket, ht.issued, ht.unreported⟩
  unclaimed := h.unclaimed

theorem Underway.clear (h : Underway b p s) : Underway b p { s with outbox := [] } :=
  ⟨h.channel, h.watched, h.own, h.others⟩

/-- The frames that are completed do not depend on what is in the outbox. -/
theorem framesIn_clear (s : Session) (k : LaunchId) (e : Event) :
    Session.framesIn { s with outbox := [] } k e = s.framesIn k e := by
  cases e <;> rfl

/-- A step in which nobody asks for anything. -/
theorem Underway.after_idle (h : Underway b p s) (hnodup : (s.calls.map Call.id).Nodup)
    (he : e.isCall = false) (hok : .ok (.stop none) ∉ (s.after env e).answersIn b.id) :
    ∃ p' halts, Turn b s (s.after env e) p p' (s.framesIn b.launch e) halts
        ((s.after env e).answersIn b.id) ∧ Heeds s (s.after env e) halts := by
  obtain ⟨p', halts, hturn, hheeds⟩ := h.clear.step env rfl hnodup he hok
  rw [framesIn_clear] at hturn
  exact ⟨p', halts, hturn.of_clear, hheeds.of_clear⟩

/-- A step in which nothing is asked for but where the target halts: as long as no halt is noticed, the
ticket for the next halt stays as it is. -/
theorem Underway.after_quiet (h : Underway b p s) (hnodup : (s.calls.map Call.id).Nodup)
    (hquiet : e.isQuiet b.id = true) (hok : .ok (.stop none) ∉ (s.after env e).answersIn b.id) :
    ∃ p' halts, Turn b s (s.after env e) p p' (s.framesIn b.launch e) halts
        ((s.after env e).answersIn b.id) ∧
      (halts = [] → ∀ t, s.Expects t → (s.after env e).Expects t) ∧
      (halts ≠ [] → e.isCall = false ∧ Heeds s (s.after env e) halts) := by
  by_cases hcall : e.isCall = true
  · cases e with
    | call asked operation =>
      cases operation with
      | waitForStop limit =>
        have hne : asked ≠ b.id := by simpa [Event.isQuiet] using hquiet
        refine ⟨p, [], (h.clear.waitForStop hne rfl).of_clear, fun _ t ht => ?_, fun hne => ?_⟩
        · exact Expects.waitForStop (s := { s with outbox := [] }) ⟨ht.ticket, ht.issued, ht.unreported⟩
        · exact absurd rfl hne
      | _ => cases hquiet
    | _ => cases hcall
  · obtain ⟨p', halts, hturn, hheeds⟩ := h.after_idle hnodup (by simpa using hcall) hok
    refine ⟨p', halts, hturn, ?_, fun _ => ⟨by simpa using hcall, hheeds⟩⟩
    rintro rfl t ht
    exact ⟨(hheeds.expected t ht).1, (hheeds.expected t ht).2.1, (hheeds.expected t ht).2.2⟩

/-- A step notices the first halts of a run: up to then the ticket for the next halt is the same. -/
structure Divides (b : Background) (s : Session) (pre : List (Surroundings × Event))
    (e : Surroundings × Event) (first : List StopLocation) : Prop where
  some : first ≠ []
  idle : e.2.isCall = false
  expects : ∀ t, s.Expects t → ∀ before rest, pre = before ++ rest → (s.afterAll before).Expects t
  tells : ∃ news, Tells (s.afterAll pre) ((s.afterAll pre).after e.1 e.2) news ∧
    haltsTold news = first
  underway : ∃ p, Underway b p ((s.afterAll pre).after e.1 e.2)
  heeds : Heeds (s.afterAll pre) ((s.afterAll pre).after e.1 e.2) first

/-- A run in which nothing is asked for but where the target halts, and in which the command is no
failure: if halts are noticed at all, there is a first step that does. -/
theorem Underway.run (h : Underway b p s) (hnodup : (s.calls.map Call.id).Nodup)
    (hquiet : ∀ e ∈ events, e.2.isQuiet b.id = true)
    (hok : .ok (.stop none) ∉ s.answersTo b.id events) :
    ∃ p' halts, Turn b s (s.afterAll events) p p' (s.framesFrom b.launch events) halts
        (s.answersTo b.id events) ∧
      (halts = [] ∨ ∃ pre e post first later, events = pre ++ e :: post ∧ halts = first ++ later ∧
        Divides b s pre e first) := by
  induction events generalizing s p with
  | nil => exact ⟨p, [], .refl h, Or.inl rfl⟩
  | cons e events ih =>
    rw [answersTo, List.mem_append, not_or] at hok
    obtain ⟨p₁, halts₁, hturn, hexpects, hheeds⟩ :=
      h.after_quiet hnodup (hquiet e List.mem_cons_self) hok.1
    obtain ⟨p', halts', hrest, hdivides⟩ := ih hturn.underway (nodup_after hnodup)
      (fun e he => hquiet e (List.mem_cons_of_mem _ he)) hok.2
    refine ⟨p', halts₁ ++ halts', hturn.trans hrest, ?_⟩
    by_cases hfirst : halts₁ = []
    · subst hfirst
      refine hdivides.imp id ?_
      rintro ⟨pre, d, post, first, later, rfl, rfl, hd⟩
      refine ⟨e :: pre, d, post, first, later, rfl, rfl, ⟨hd.some, hd.idle, ?_, hd.tells, hd.underway,
        hd.heeds⟩⟩
      intro t ht before rest heq
      cases before with
      | nil => exact ht
      | cons d' before =>
        obtain ⟨rfl, hpre⟩ := List.cons.inj heq
        exact hd.expects t (hexpects rfl t ht) before rest hpre
    · refine Or.inr ⟨[], e, events, halts₁, halts', rfl, rfl, hfirst, (hheeds hfirst).1, ?_,
        hturn.tells, ⟨p₁, hturn.underway⟩, (hheeds hfirst).2⟩
      intro t ht before rest heq
      obtain ⟨rfl, rfl⟩ := List.append_eq_nil_iff.1 heq.symm
      exact ht

/-- A ticket that has reported stays for the next who asks, as long as nobody asks. -/
theorem Underway.unclaimed (h : Underway b p s) (hnodup : (s.calls.map Call.id).Nodup)
    (hidle : ∀ e ∈ events, e.2.isCall = false) (hok : .ok (.stop none) ∉ s.answersTo b.id events)
    (hticket : s.stopTicket = some t) {r : Option StopLocation} (hreport : s.stopReport? t = some r)
    (hnobody : ∀ c ∈ s.calls, c.stage ≠ .awaitingStop t) :
    (s.afterAll events).stopTicket = some t ∧ (s.afterAll events).stopReport? t = some r ∧
      ((s.afterAll events).calls.map Call.id).Nodup := by
  induction events generalizing s p with
  | nil => exact ⟨hticket, hreport, hnodup⟩
  | cons e events ih =>
    rw [answersTo, List.mem_append, not_or] at hok
    obtain ⟨p₁, halts, hturn, hheeds⟩ := h.after_idle hnodup (hidle e List.mem_cons_self) hok.1
    have hkept : (s.after e.1 e.2).stopReport? t = some r :=
      (acts_step_any { s with outbox := [] } e.1 e.2).keeps_report hreport
    exact ih hturn.underway (nodup_after hnodup) (fun e he => hidle e (List.mem_cons_of_mem _ he)) hok.2
      (hheeds.unclaimed t hticket (by rw [hreport]; rfl) hnobody) hkept
      fun c hc => hnobody c (hheeds.calls c hc)

/-- Whoever waits for the next halt waits on as long as its ticket has not reported, unless the limit of
the wait is reached. -/
theorem mem_blocked_afterAll (hagree : s.TicketsAgree) (hnodup : (s.calls.map Call.id).Nodup)
    (hexpects : ∀ before rest, events = before ++ rest → (s.afterAll before).Expects t)
    (hc : c ∈ s.blocked)
    (hwaits : ∀ e ∈ events, e.2.asksFor c.id = false ∧ e.2 ≠ .timesOut c.id c.wait) :
    c ∈ (s.afterAll events).blocked := by
  induction events generalizing s with
  | nil => exact hc
  | cons e events ih =>
    obtain ⟨hasks, hlimit⟩ := hwaits e List.mem_cons_self
    refine ih (hagree.after e.1 e.2) (nodup_after hnodup)
      (fun before rest heq => hexpects (e :: before) rest (by rw [heq]; rfl)) ?_
      fun e he => hwaits e (List.mem_cons_of_mem _ he)
    refine mem_blocked_after hnodup hc hasks hlimit fun u hstage => ?_
    obtain ⟨hmem, v, hstage', hnone⟩ := mem_blocked.1 hc
    obtain rfl : u = v := by
      rw [hstage] at hstage'
      cases hstage'
      rfl
    have hticket := hagree.waiting c hmem u hstage hnone
    obtain rfl : u = t :=
      Option.some.inj (hticket.symm.trans (hexpects [] (e :: events) rfl).ticket)
    exact (hexpects [e] events rfl).unreported

/-! ## Giving the command -/

/-- Once a halt is expected there is a ticket that has not reported; one that has been there before is
kept. -/
theorem expects_expectStop (issued : ∀ t, s.stopTicket = some t → t < s.stops.length) :
    ∃ t, s.expectStop.Expects t ∧ ∀ u, s.Expects u → u = t := by
  have hnew : s.newStopTicket.Expects s.stops.length :=
    ⟨rfl, by simp [newStopTicket], by simp [stopReport?, newStopTicket]⟩
  unfold expectStop
  split
  · rename_i t ht
    split
    · rename_i hunreported
      exact ⟨t, ⟨ht, issued t ht, by simpa using hunreported⟩, fun u hu =>
        Option.some.inj (hu.ticket.symm.trans ht)⟩
    · rename_i hreported
      refine ⟨_, hnew, fun u hu => absurd ?_ hreported⟩
      rw [← Option.some.inj (hu.ticket.symm.trans ht), hu.unreported]
      rfl
  · rename_i hnone
    exact ⟨_, hnew, fun u hu => by cases hu.ticket.symm.trans hnone⟩

theorem Expects.note (h : s.Expects t) (hn : Notes s s') : s'.Expects t where
  ticket := hn.stopTicket.trans h.ticket
  issued := by rw [hn.stops]; exact h.issued
  unreported := by rw [stopReport?, hn.stops]; exact h.unreported

/-- The command has been given, or given up at once; no subscriber has been told of a halt. -/
structure Given (b : Background) (p : Progress) (s s' : Session) : Prop where
  underway : Underway b p s'
  pending : p = .owed ∨ p = .lost
  unread : p = .owed → s'.unread b p = s.unnoticed b.launch
  subscribers : s'.subscribers = s.subscribers
  expects : ∃ t, s'.Expects t ∧ ∀ u, s.Expects u → u = t
  unanswered : s'.answersIn b.id = []

theorem Underway.suspend {limit : Option Float} (hch : s.channels[b.launch]? = some ch)
    (htracks : ch.Tracks b.command b.ticket .owed) (hwatched : s.watched = [b.launch])
    (hcalls : ∀ c ∈ s.calls, c.id ≠ b.id → c.stage.AwaitsStop) :
    Underway b .owed (s.suspend b.id b.stage limit) := by
  have hstill : Still s (s.suspend b.id b.stage limit) := .suspend
  have hmem : ∀ c ∈ (s.suspend b.id b.stage limit).calls,
      c ∈ s.calls ∧ c.id ≠ b.id ∨ c = ⟨b.id, b.stage, s.waits, limit⟩ := by
    intro c hc
    rw [Notes.suspend.calls] at hc
    exact mem_calls_waiting hc
  refine ⟨⟨ch, by rw [hstill.channels, hch], htracks⟩, hstill.watched.trans hwatched, ?_, ?_⟩
  · intro c hc hid
    rcases hmem c hc with ⟨-, hne⟩ | rfl
    · exact absurd hid hne
    · exact ⟨by simp, rfl⟩
  · intro c hc hne
    rcases hmem c hc with ⟨hc, -⟩ | rfl
    · exact hcalls c hc hne
    · exact absurd rfl hne

/-- The command is owed its answer, unless it is given up as soon as it has been given. -/
theorem Given.awaitReply (hch : s.channels[b.launch]? = some ch)
    (htracks : ch.Tracks b.command b.ticket .owed) (hwatched : s.watched = [b.launch])
    (hcalls : ∀ c ∈ s.calls, c.id ≠ b.id → c.stage.AwaitsStop) (hexpects : s.Expects t)
    (hanswers : s.answersIn b.id = []) :
    ∃ p, Given b p s (s.awaitReply b.id b.launch b.ticket backgroundIssue (.run b.previous)) := by
  have hunderway : Underway b .owed
      (s.suspend b.id b.stage (s.timeoutFor backgroundIssue.kind)) :=
    .suspend hch htracks hwatched hcalls
  have hstill : Still s (s.suspend b.id b.stage (s.timeoutFor backgroundIssue.kind)) := .suspend
  have hexpects₁ : (s.suspend b.id b.stage (s.timeoutFor backgroundIssue.kind)).Expects t :=
    Expects.note (s := s.waiting b.id b.stage (s.timeoutFor backgroundIssue.kind))
      ⟨hexpects.ticket, hexpects.issued, hexpects.unreported⟩ .suspend
  have hspares : Spares b.id (s.waiting b.id b.stage (s.timeoutFor backgroundIssue.kind))
      (s.suspend b.id b.stage (s.timeoutFor backgroundIssue.kind)) := .of_inward .suspend
  have hanswers₁ := hspares.answersIn hanswers
  have hsame : ∀ u, s.Expects u → u = t := fun u hu =>
    Option.some.inj (hu.ticket.symm.trans hexpects.ticket)
  unfold Session.awaitReply
  dsimp only
  rw [← Background.stage]
  clear hspares
  generalize s.suspend b.id b.stage (s.timeoutFor backgroundIssue.kind) = s₁ at *
  have hundecided : (s₁.outcomeOf b.launch b.ticket).isDone = false := by
    rw [outcomeOf, hstill.channels, hch]
    simp [Channel.outcome, List.getD_eq_getElem?_getD, htracks.2.2, Outcome.isDone]
  rw [if_neg (by rw [hundecided]; decide)]
  split
  · have hspares : Spares b.id s₁ (s₁.giveUp b.launch b.ticket) := .giveUp
    exact ⟨.lost, (hunderway.givesUp (by simp) hundecided).underway, Or.inr rfl, by simp,
      hstill.subscribers, ⟨t, hexpects₁.note .changeChannel, hsame⟩, hspares.answersIn hanswers₁⟩
  · refine ⟨.owed, hunderway, Or.inl rfl, fun _ => ?_, hstill.subscribers, ⟨t, hexpects₁, hsame⟩,
      hanswers₁⟩
    rw [Session.unread, unnoticed, hstill.channels, ← unnoticed]
    rfl

/-- The session has given a number to a command. -/
def numbered (s : Session) (text : String) : Session :=
  { s with nextId := s.nextId + 1, lastCommand := some text }

/-- A command that is no signal is written to the current channel. -/
theorem submit_eq (env : Surroundings) {i : Issue} (hcurrent : s.current = some k) (hch : s.channels[k]? = some ch)
    (hplain : i.bySignal = false) :
    s.submit env i =
      match ch.submit ⟨s.nextId, i.text⟩ with
      | .error f => (.refused f, s.numbered i.text)
      | .ok (t, ch') => (.waiting k t, (s.numbered i.text).changeChannel k fun _ => ch') := by
  have hwritten : ¬i.bySignal = true := by simp [hplain]
  unfold submit
  split
  · rename_i hnone
    cases hcurrent.symm.trans hnone
  · rename_i j hj
    obtain rfl : k = j := Option.some.inj (hcurrent.symm.trans hj)
    split
    · rename_i hnone
      cases hch.symm.trans hnone
    · rename_i ch' hch'
      obtain rfl : ch = ch' := Option.some.inj (hch.symm.trans hch')
      dsimp only
      rw [if_neg hwritten]
      rfl

/-- What does not tell the subscribers of a halt may happen before the command is given. -/
theorem Given.of_before {s₁ : Session} (h : Given b p s₁ s')
    (hunnoticed : s₁.unnoticed b.launch = s.unnoticed b.launch)
    (hsubscribers : s₁.subscribers = s.subscribers) (hexpects : ∀ u, s.Expects u → s₁.Expects u) :
    Given b p s s' where
  underway := h.underway
  pending := h.pending
  unread := fun hp => (h.unread hp).trans hunnoticed
  subscribers := h.subscribers.trans hsubscribers
  expects := by
    obtain ⟨t, ht, hsame⟩ := h.expects
    exact ⟨t, ht, fun u hu => hsame u (hexpects u hu)⟩
  unanswered := h.unanswered

/-- A command that its channel does not take is answered with its failure. -/
theorem perform_of_refused (env : Surroundings) (previous : RunState) {f : ChannelFault}
    (hcurrent : s.current = some k) (hch : s.channels[k]? = some ch)
    (hrefused : ch.submit ⟨s.nextId, backgroundIssue.text⟩ = .error f) :
    .ok (.stop none) ∈
      (s.perform env id backgroundIssue (.run previous)).answersIn id := by
  have hsubmit := submit_eq env (i := backgroundIssue) hcurrent hch rfl
  rw [hrefused] at hsubmit
  obtain ⟨location, hfailed, hadvance⟩ := advancePlan_background
    ((s.numbered backgroundIssue.text).failedReport (channelFailure f)).2 previous
    (.failure (channelFailure f))
  obtain rfl : location = none :=
    Option.isNone_iff_eq_none.1 (Option.isSome_eq_false_iff.1 hfailed)
  unfold Session.perform
  rw [carryOut_eq, hsubmit]
  show _ ∈ (Session.goOnWith _ env id _ backgroundIssue _ (.failure _)).answersIn id
  rw [goOnWith_of_finish hadvance, answersIn_answer]
  exact List.mem_append_right _ (List.mem_singleton_self _)

theorem Given.perform (env : Surroundings) (previous : RunState) {ticket : Ticket}
    (hcurrent : s.current = some k) (hch : s.channels[k]? = some ch) (hpending : ch.pending = [])
    (hsubmitted : ch.submit ⟨s.nextId, backgroundIssue.text⟩ = .ok (ticket, ch'))
    (hwatched : s.watched = [k]) (hcalls : ∀ c ∈ s.calls, c.id ≠ id → c.stage.AwaitsStop)
    (hexpects : s.Expects t) (hanswers : s.answersIn id = []) :
    ∃ p, Given ⟨id, k, s.nextId, ticket, previous⟩ p s
      (s.perform env id backgroundIssue (.run previous)) := by
  have hsubmit := submit_eq env (i := backgroundIssue) hcurrent hch rfl
  rw [hsubmitted] at hsubmit
  obtain ⟨htracks, hunsolicited⟩ := Channel.Tracks.submit hpending hsubmitted
  unfold Session.perform
  rw [carryOut_eq, hsubmit]
  dsimp only
  have hch' : ((s.numbered backgroundIssue.text).changeChannel k fun _ => ch').channels[k]? =
      some ch' := by
    show (s.channels.modify k _)[k]? = _
    rw [List.getElem?_modify_eq, hch]
    rfl
  have hnumbered : Notes s (s.numbered backgroundIssue.text) := { Notes.refl s with }
  have hnotes : Notes s ((s.numbered backgroundIssue.text).changeChannel k fun _ => ch') :=
    hnumbered.trans .changeChannel
  have hspares : Spares id s ((s.numbered backgroundIssue.text).changeChannel k fun _ => ch') :=
    Spares.changeChannel.after rfl rfl
  have hwatched' : ((s.numbered backgroundIssue.text).changeChannel k fun _ => ch').watched = [k] :=
    hwatched
  have hsubscribers : ((s.numbered backgroundIssue.text).changeChannel k fun _ => ch').subscribers =
      s.subscribers := rfl
  generalize (s.numbered backgroundIssue.text).changeChannel k _ = s₁ at *
  have hunnoticed : s₁.unnoticed k = s.unnoticed k := by
    rw [unnoticed, unnoticed, hch', hch, Option.toList_some, Option.toList_some]
    simp [hunsolicited]
  have hwaiting : (s₁.outcomeOf k ticket).isDone = false := by
    rw [outcomeOf, hch']
    simp [Channel.outcome, List.getD_eq_getElem?_getD, htracks.2.2, Outcome.isDone]
  rw [hwaiting, Bool.false_and, if_neg (by decide)]
  obtain ⟨p, hgiven⟩ := Given.awaitReply (b := ⟨id, k, s.nextId, ticket, previous⟩) hch' htracks
    hwatched' (hnotes.calls ▸ hcalls) (hexpects.note hnotes) (hspares.answersIn hanswers)
  exact ⟨p, hgiven.of_before hunnoticed hsubscribers fun u hu => hu.note hnotes⟩

/-- A command that lets the target run in the background is given, unless it fails at once. -/
theorem given_or_failed (env : Surroundings) (hcurrent : s.current = some k) (hch : s.channels[k]? = some ch)
    (hpending : ch.pending = []) (hwatched : s.watched = [k]) (hclear : s.outbox = [])
    (issued : ∀ t, s.stopTicket = some t → t < s.stops.length)
    (hcalls : ∀ c ∈ s.calls, c.id ≠ id ∧ c.stage.AwaitsStop) :
    (∃ b p, b.id = id ∧ b.launch = k ∧ Given b p s (s.begin env id (.run .continueBackground))) ∨
      .ok (.stop none) ∈ (s.begin env id (.run .continueBackground)).answersIn id := by
  have hbegin : s.begin env id (.run .continueBackground) =
      (Session.expectStop { s with runState := .running }).perform env id backgroundIssue
        (.run s.runState) := by
    have hrunning : ¬s.current.isNone = true := by simp [hcurrent]
    exact if_neg hrunning
  have hinward : Inward { s with runState := .running }
      (Session.expectStop { s with runState := .running }) := .expectStop
  have hstill : Still { s with runState := .running }
      (Session.expectStop { s with runState := .running }) := .expectStop
  have hspares : Spares id { s with runState := .running }
      (Session.expectStop { s with runState := .running }) := .of_inward hinward
  have hanswers := hspares.answersIn (by rw [answersIn, show Session.outbox _ = [] from hclear]; rfl)
  obtain ⟨t, hexpects, hkept⟩ := expects_expectStop (s := { s with runState := .running }) issued
  have hexpects' : ∀ u, s.Expects u →
      (Session.expectStop { s with runState := .running }).Expects u := by
    intro u hu
    obtain rfl := hkept u ⟨hu.ticket, hu.issued, hu.unreported⟩
    exact hexpects
  rw [hbegin]
  generalize Session.expectStop { s with runState := .running } = s₁ at *
  have hcurrent₁ : s₁.current = some k := hinward.current.trans hcurrent
  have hch₁ : s₁.channels[k]? = some ch := by rw [hinward.channels]; exact hch
  have hcalls₁ : ∀ c ∈ s₁.calls, c.id ≠ id → c.stage.AwaitsStop := by
    rw [hinward.calls]
    exact fun c hc _ => (hcalls c hc).2
  cases hsubmitted : ch.submit ⟨s₁.nextId, backgroundIssue.text⟩ with
  | error f => exact Or.inr (perform_of_refused env s.runState hcurrent₁ hch₁ hsubmitted)
  | ok submitted =>
    obtain ⟨p, hgiven⟩ := Given.perform env s.runState hcurrent₁ hch₁ hpending hsubmitted
      (hstill.watched.trans hwatched) hcalls₁ hexpects hanswers
    have hunnoticed : s₁.unnoticed k = s.unnoticed k := by
      rw [unnoticed, unnoticed, hch₁, hch]
    exact Or.inl ⟨_, p, rfl, rfl, hgiven.of_before hunnoticed hstill.subscribers hexpects'⟩

/-! ## The hand-over -/

/-- A run in which the target is let run in the background while the debugger owes no answer, nothing
else is asked for but where the target halts, the command succeeds, and the target halts once, as its
frames tell, and is noticed. -/
structure RunsInBackground (s : Session) (k : LaunchId) (id : CallId)
    (run : List (Surroundings × Event)) (location : StopLocation) : Prop where
  reached : s.Reached
  current : s.current = some k
  watched : s.watched = [k]
  unowed : ∃ ch, s.channels[k]? = some ch ∧ ch.pending = []
  waiting : ∀ c ∈ s.calls, c.id ≠ id ∧ c.stage.AwaitsStop
  quiet : ∃ env events, run = (env, .call id (.run .continueBackground)) :: events ∧
    ∀ e ∈ events, e.2.isQuiet id = true
  succeeds : ∃ place, s.answersTo id run = [.ok (.stop (some place))]
  halts : s.unnoticed k ++ (s.framesFrom k run).filterMap haltOf = [location]
  noticed : (s.afterAll run).unnoticed k = []

/-- A halt is noticed by one step of a run, and handed over. -/
structure HandsOver (s : Session) (pre : List (Surroundings × Event)) (e : Surroundings × Event)
    (post : List (Surroundings × Event)) (location : StopLocation) : Prop where
  /-- in the whole run, every subscriber is told of this halt once, and of no other -/
  told : ∃ news, Tells s (s.afterAll (pre ++ e :: post)) news ∧ haltsTold news = [location]
  noticed : ∃ news, Tells (s.afterAll pre) (s.afterAll (pre ++ [e])) news ∧
    haltsTold news = [location]
  halted : (s.afterAll (pre ++ e :: post)).runState = .stopped
  /-- until then, whoever waits waits on, unless the limit is reached -/
  stays : ∀ before rest, pre = before ++ rest → ∀ c ∈ (s.afterAll before).blocked,
    (∀ e ∈ rest, e.2.asksFor c.id = false ∧ e.2 ≠ .timesOut c.id c.wait) →
      c ∈ (s.afterAll pre).blocked
  /-- all who wait are released and told the place -/
  waiting : ∀ c ∈ (s.afterAll pre).blocked,
    (s.afterAll (pre ++ [e])).Releases c ∧ (s.afterAll (pre ++ [e])).Obtains [] c.id location
  /-- if nobody waits, the first who asks afterwards is told the place, at once or when they go on -/
  first : (s.afterAll pre).blocked = [] → ∀ idle env call limit rest,
    post = idle ++ (env, .call call (.waitForStop limit)) :: rest →
    (∀ e ∈ idle, e.2.isCall = false) →
      (∀ c ∈ (s.afterAll (pre ++ e :: idle ++ [(env, .call call (.waitForStop limit))])).calls,
        c.id = call →
          (s.afterAll (pre ++ e :: idle ++ [(env, .call call (.waitForStop limit))])).Releases c) ∧
      (s.afterAll (pre ++ e :: idle)).Obtains [(env, .call call (.waitForStop limit))] call location

/-- The step that notices the halt, in a run that begins with the command. -/
theorem RunsInBackground.divides {run : List (Surroundings × Event)} {location : StopLocation}
    (h : RunsInBackground s k id run location) :
    ∃ (b : Background) (asked : Surroundings × Event) (p : Progress)
      (pre : List (Surroundings × Event)) (e : Surroundings × Event)
      (post : List (Surroundings × Event)),
      run = asked :: (pre ++ e :: post) ∧ asked.2 = .call id (.run .continueBackground) ∧
      Given b p { s with outbox := [] } (s.after asked.1 asked.2) ∧
      Divides b (s.after asked.1 asked.2) pre e [location] ∧
      (∃ p' frames answers, Turn b (s.after asked.1 asked.2) (s.afterAll run) p p' frames [location]
        answers) ∧
      .ok (.stop none) ∉ (s.after asked.1 asked.2).answersTo b.id (pre ++ e :: post) := by
  obtain ⟨env, events, rfl, hquiet⟩ := h.quiet
  obtain ⟨ch, hch, hpending⟩ := h.unowed
  obtain ⟨place, hanswers⟩ := h.succeeds
  rw [answersTo] at hanswers
  rcases given_or_failed (s := { s with outbox := [] }) env h.current hch hpending h.watched
    rfl h.reached.ticketsAgree.issued h.waiting with ⟨b, p, rfl, rfl, hgiven⟩ | hfails
  swap
  · have hmem : .ok (.stop none) ∈ [(.ok (.stop (some place)) : Except SessionFault Result)] := by
      rw [← hanswers]
      exact List.mem_append_left _ hfails
    cases List.mem_singleton.1 hmem
  have hgiven : Given b p { s with outbox := [] }
      (s.after env (.call b.id (.run .continueBackground))) := hgiven
  rw [hgiven.unanswered, List.nil_append] at hanswers
  have hok : .ok (.stop none) ∉
      (s.after env (.call b.id (.run .continueBackground))).answersTo b.id events := by
    rw [hanswers]
    simp
  obtain ⟨p', halts, hturn, hdivides⟩ :=
    hgiven.underway.run (nodup_after h.reached.nodup) hquiet hok
  have hover : p' = .read := hturn.read.2 (Or.inr (by rw [hanswers]; simp))
  have howed : p = .owed := by
    refine hgiven.pending.resolve_right fun hlost => ?_
    cases hover.symm.trans (hturn.lost hlost)
  have hbalance := hturn.balance (by simp [hover])
  -- no halt is unread at the end, so all that were to be noticed have been
  have hrest : Session.unread ((s.after env (.call b.id (.run .continueBackground))).afterAll events)
      b p' = [] := by
    rw [hover]
    exact h.noticed
  have hhalts : halts = [location] := by
    rw [hrest, List.append_nil, hgiven.unread howed] at hbalance
    refine List.perm_singleton.1 (hbalance.trans ?_)
    rw [← h.halts]
    exact .refl _
  subst hhalts
  obtain ⟨pre, e, post, first, later, rfl, hfirst, hd⟩ := hdivides.resolve_left (by simp)
  have hone : first = [location] := by
    cases first with
    | nil => exact absurd rfl hd.some
    | cons l first =>
      obtain ⟨rfl, hnil⟩ := List.cons.inj hfirst
      rw [(List.append_eq_nil_iff.1 hnil.symm).1]
  exact ⟨b, _, p, pre, e, post, rfl, rfl, hgiven, hone ▸ hd, ⟨p', _, _, hturn⟩, hok⟩

/-- Whoever waits when a halt is noticed is released, and told the place. -/
theorem releases_of_heeds {location : StopLocation} (hagree : s.TicketsAgree)
    (hnodup : (s.calls.map Call.id).Nodup) (hexpects : s.Expects t) (hidle : e.isCall = false)
    (hheeds : Heeds s (s.after env e) [location]) (hc : c ∈ s.blocked) :
    (s.after env e).Releases c ∧ (s.after env e).Obtains [] c.id location := by
  obtain ⟨hmem, u, hstage, hnone⟩ := mem_blocked.1 hc
  obtain rfl : u = t := Option.some.inj
    ((hagree.waiting c hmem u hstage hnone).symm.trans hexpects.ticket)
  have hreport : (s.after env e).stopReport? u = some (some location) :=
    (hheeds.expected u hexpects).2.2
  have hasks : e.asksFor c.id = false := by
    cases e with
    | call => cases hidle
    | _ => rfl
  have hne : e.caller? ≠ some c.id := by
    intro hcaller
    cases hreport.symm.trans (stopReport?_after_own hnodup hmem hstage hnone hcaller hasks)
  have hclear : TicketsAgree { s with outbox := [] } := ⟨hagree.issued, hagree.waiting⟩
  have hreleases : (s.after env e).Releases c := by
    rcases hclear.releases_or_blocked hc hne (acts_step_any _ env e) with hreleases | ⟨hblocked, -⟩
    · exact hreleases
    · obtain ⟨-, v, hstage', hunreported⟩ := mem_blocked.1 hblocked
      rw [hstage] at hstage'
      cases hstage'
      cases hreport.symm.trans hunreported
  exact ⟨hreleases, obtains_of_reported (nodup_after hnodup) hreleases.mem hstage hreport⟩

/-- Whoever waits when the command is given waits on. -/
theorem Given.mem_blocked {asked : Event} (hgiven : Given b p { s with outbox := [] } (s.after env asked))
    (hagree : s.TicketsAgree) (hnodup : (s.calls.map Call.id).Nodup) (hc : c ∈ s.blocked)
    (hcaller : asked.caller? ≠ some c.id) : c ∈ (s.after env asked).blocked := by
  obtain ⟨hmem, u, hstage, hnone⟩ := Session.mem_blocked.1 hc
  obtain ⟨t, hexpects, hkept⟩ := hgiven.expects
  have hticket := hagree.waiting c hmem u hstage hnone
  obtain rfl : u = t := hkept u ⟨hticket, hagree.issued u hticket, hnone⟩
  refine mem_blocked_after hnodup hc ?_ ?_ fun v hstage' => ?_
  · cases asked with
    | call call operation => simpa [Event.asksFor, Event.caller?] using hcaller
    | _ => rfl
  · rintro rfl
    exact hcaller rfl
  · rw [hstage] at hstage'
    cases hstage'
    exact hexpects.unreported

/-- Until the halt is noticed, whoever waits for it waits on. -/
theorem Divides.mem_blocked {pre before rest : List (Surroundings × Event)} {d : Surroundings × Event}
    {first : List StopLocation} (hd : Divides b s pre d first) (hs : s.Reached) (hexpects : s.Expects t)
    (hpre : pre = before ++ rest) (hc : c ∈ (s.afterAll before).blocked)
    (hwaits : ∀ e ∈ rest, e.2.asksFor c.id = false ∧ e.2 ≠ .timesOut c.id c.wait) :
    c ∈ (s.afterAll pre).blocked := by
  subst hpre
  rw [afterAll_append]
  refine mem_blocked_afterAll (t := t) (hs.afterAll before).ticketsAgree (hs.afterAll before).nodup ?_
    hc hwaits
  rintro middle rest' rfl
  rw [← afterAll_append]
  exact hd.expects t hexpects (before ++ middle) rest' (List.append_assoc ..).symm

/-- If nobody waits when the halt is noticed, the first who asks afterwards is told the place. -/
theorem Divides.obtains {pre idle rest : List (Surroundings × Event)} {d : Surroundings × Event}
    {location : StopLocation} (hd : Divides b s pre d [location]) (hs : s.Reached)
    (hexpects : s.Expects t) (hok : .ok (.stop none) ∉ s.answersTo b.id (pre ++ d :: (idle ++ rest)))
    (hnobody : (s.afterAll pre).blocked = []) (hidle : ∀ e ∈ idle, e.2.isCall = false)
    (env : Surroundings) (call : CallId) (limit : Option Float) :
    (∀ c ∈ ((s.afterAll (pre ++ d :: idle)).after env (.call call (.waitForStop limit))).calls,
      c.id = call →
        ((s.afterAll (pre ++ d :: idle)).after env (.call call (.waitForStop limit))).Releases c) ∧
      (s.afterAll (pre ++ d :: idle)).Obtains [(env, .call call (.waitForStop limit))] call
        location := by
  have hexpected : (s.afterAll pre).Expects t := hd.expects t hexpects pre [] (List.append_nil _).symm
  have hunclaimed : ∀ c ∈ ((s.afterAll pre).after d.1 d.2).calls, c.stage ≠ .awaitingStop t := by
    intro c hc hstage
    have hblocked : c ∈ (s.afterAll pre).blocked :=
      Session.mem_blocked.2 ⟨hd.heeds.calls c hc, t, hstage, hexpected.unreported⟩
    rw [hnobody] at hblocked
    cases hblocked
  have hidleOk : .ok (.stop none) ∉ ((s.afterAll pre).after d.1 d.2).answersTo b.id idle := by
    rw [answersTo_append, answersTo, answersTo_append, List.mem_append, List.mem_append,
      List.mem_append] at hok
    exact fun hmem => hok (Or.inr (Or.inr (Or.inl hmem)))
  obtain ⟨q, hunderway⟩ := hd.underway
  obtain ⟨hticket, -, hreport⟩ := hd.heeds.expected t hexpected
  obtain ⟨hticket', hreport', hnodup⟩ := hunderway.unclaimed (nodup_after (hs.afterAll pre).nodup) hidle
    hidleOk hticket hreport hunclaimed
  rw [afterAll_append s pre (d :: idle)]
  exact obtains_of_asking hnodup hticket' hreport' limit

/-- However the answer to the command, the halt and any number of waits for it follow each other, the
halt is handed over. -/
theorem handsOver_of_runsInBackground {run : List (Surroundings × Event)}
    {location : StopLocation} (h : RunsInBackground s k id run location) :
    ∃ pre e post, run = pre ++ e :: post ∧ HandsOver s pre e post location := by
  obtain ⟨b, asked, p, pre, e, post, rfl, hasked, hgiven, hd, ⟨p', frames, answers, hturn⟩, hok⟩ :=
    h.divides
  obtain ⟨t, hexpects, -⟩ := hgiven.expects
  have hgone : (s.after asked.1 asked.2).Reached := h.reached.after asked.1 asked.2
  have hbefore : (s.afterAll (asked :: pre)).Reached := h.reached.afterAll _
  have hexpected : (s.afterAll (asked :: pre)).Expects t := hd.expects t hexpects pre [] (by simp)
  have hnoticed : s.afterAll (asked :: pre ++ [e]) = (s.afterAll (asked :: pre)).after e.1 e.2 :=
    afterAll_append s (asked :: pre) [e]
  refine ⟨asked :: pre, e, post, rfl, ?told, ?noticed, hturn.runState, ?stays, ?waiting, ?first⟩
  case told =>
    obtain ⟨news, htells, hnews⟩ := hturn.tells
    refine ⟨news, ?_, hnews⟩
    rw [Tells, ← show Session.subscribers _ = _ from hgiven.subscribers]
    exact htells
  case noticed =>
    rw [hnoticed]
    exact hd.tells
  case stays =>
    intro before rest hpre c hc hwaits
    cases before with
    | nil =>
      -- whoever waits before the command is given waits on when it is given
      obtain rfl : asked :: pre = rest := hpre
      have hcaller : asked.2.caller? ≠ some c.id := by
        rw [hasked]
        simpa [Event.caller?] using Ne.symm (h.waiting c (mem_blocked.1 hc).1).1
      have hasked' := hgiven.mem_blocked h.reached.ticketsAgree h.reached.nodup hc hcaller
      exact hd.mem_blocked hgone hexpects (List.nil_append pre).symm hasked' fun e he =>
        hwaits e (List.mem_cons_of_mem _ he)
    | cons asked' before =>
      obtain ⟨rfl, hpre'⟩ := List.cons.inj hpre
      exact hd.mem_blocked hgone hexpects hpre' hc hwaits
  case waiting =>
    intro c hc
    rw [hnoticed]
    exact releases_of_heeds hbefore.ticketsAgree hbefore.nodup hexpected hd.idle hd.heeds hc
  case first =>
    intro hnobody idle env call limit rest hpost hidle
    rw [hpost] at hok
    rw [afterAll_append s (asked :: pre ++ e :: idle)]
    exact hd.obtains hgone hexpects hok hnobody hidle env call limit

/-- A session that waits for ever, with a subscriber, whose debugger has been launched; somebody waits
for a halt. -/
def expectant : Session :=
  (((create { Settings.default with commandTimeout := none } none).afterAll
    [(calm 0.0, .call 0 (.start (some "gdb") [] none)),
      (calm 0.1, .launched 0 true),
      (calm 0.2, .channel 0 (.prints "(gdb) ")),
      (calm 0.2, .proceeds 0 1)]).subscribe "log").after (calm 0.9) (.call 2 (.waitForStop none))

/-- The halt comes right behind the answer, and is noticed before the answer is read. -/
def haltBehindAnswer : List (Surroundings × Event) :=
  [(calm 1.0, .call 1 (.run .continueBackground)),
    (calm 1.0, .channel 0 (.writeBegins 0)),
    (calm 1.0, .channel 0 (.writeEnds 0 none)),
    (calm 1.5, .channel 0 (.prints "Continuing.\n(gdb) main () at main.c:12\n(gdb) ")),
    (calm 1.5, .watches 0),
    (calm 1.5, .proceeds 1 3)]

/-- The place that an operation is told, if it is told one and nothing else. -/
def toldPlace? : List (Except SessionFault Result) → Option StopLocation
  | [.ok (.stop location)] => location
  | _ => none

theorem eq_of_toldPlace? {answers : List (Except SessionFault Result)} {location : StopLocation}
    (h : toldPlace? answers = some location) : answers = [.ok (.stop (some location))] := by
  unfold toldPlace? at h
  split at h
  · rw [h]
  · cases h

/-- Whoever has waited before the command was given is told where the target has halted. -/
theorem handsOver_of_runsInBackground_behind_answer :
    ∃ pre e post, haltBehindAnswer = pre ++ e :: post ∧
      HandsOver expectant pre e post ⟨some "main.c", some 12⟩ := by
  have hunowed : (expectant.channels[0]?.any fun ch => ch.pending.isEmpty) = true := by
    decide +kernel
  have hwaiting : (expectant.calls.all fun c => c.id != 1 && c.awaitsStop 0) = true := by
    decide +kernel
  have hsucceeds : toldPlace? (expectant.answersTo 1 haltBehindAnswer) = some .unknown := by
    decide +kernel
  have hruns : RunsInBackground expectant 0 1 haltBehindAnswer ⟨some "main.c", some 12⟩ := by
    refine ⟨?_, ?_, ?_, ?_, ?_, ?_, ?_, ?_, ?_⟩
    · exact (((Reached.create _ _).afterAll _).subscribe _).after _ _
    · decide +kernel
    · decide +kernel
    · cases hch : expectant.channels[0]? with
      | none =>
        rw [hch] at hunowed
        cases hunowed
      | some ch =>
        rw [hch] at hunowed
        exact ⟨ch, rfl, by simpa using hunowed⟩
    · intro c hc
      have hwaits := List.all_eq_true.1 hwaiting c hc
      unfold Call.awaitsStop at hwaits
      cases hstage : c.stage <;> simp_all [Stage.AwaitsStop]
    · exact ⟨calm 1.0, haltBehindAnswer.tail, rfl, by decide +kernel⟩
    · exact ⟨_, eq_of_toldPlace? hsucceeds⟩
    · decide +kernel
    · decide +kernel
  exact handsOver_of_runsInBackground hruns

end Session

end DebugConsole
