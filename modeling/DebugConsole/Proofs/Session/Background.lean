import DebugConsole.Proofs.Channel.Progress
import DebugConsole.Proofs.Session.Coverage
import DebugConsole.Proofs.Session.Hearing
import DebugConsole.Proofs.Session.Notices

set_option autoImplicit false

/-!
# A target that runs in the background

A command lets the target run in the background and is answered at once; the target halts later, and
says so in a frame of its own, or in the answer if it is quick.  While nothing else is asked of the
debugger but where the target halts, the answer to the command and the frames behind it are read one by
one, and every halt that they tell of is noticed once.
-/

namespace DebugConsole

namespace Session

/-- A command that lets the target run in the background, once it has been given. -/
structure Background where
  id : CallId
  launch : LaunchId
  command : CommandId
  ticket : Ticket
  previous : RunState

/-- How the target is told to run in the background. -/
def backgroundIssue : Issue :=
  plainIssue RunCommand.continueBackground.text RunCommand.continueBackground.kind .warning

/-- Where the operation waits. -/
def Background.stage (b : Background) : Stage :=
  .awaitingReply b.launch b.ticket backgroundIssue (.run b.previous)

/-- Is nothing asked for but where the target halts, and not under the given number? -/
def Event.isQuiet (id : CallId) : Event → Bool
  | .call asked (.waitForStop _) => asked != id
  | .call .. => false
  | _ => true

/-- Is an operation asked for? -/
def Event.isCall : Event → Bool
  | .call .. => true
  | _ => false

/-! ## Frames and halts -/

/-- The frames that a debugger completes in a step. -/
def framesIn (s : Session) (k : LaunchId) : Event → List (List String)
  | .channel j e => if j = k then (s.channels[k]?).toList.flatMap fun ch => ch.framesBy e else []
  | _ => []

/-- The frames that a debugger completes in a run. -/
def framesFrom (s : Session) (k : LaunchId) : List (Surroundings × Event) → List (List String)
  | [] => []
  | e :: events => s.framesIn k e.2 ++ (s.after e.1 e.2).framesFrom k events

/-- The halts that a debugger's frames tell of which answer nothing and have not been noticed. -/
def unnoticed (s : Session) (k : LaunchId) : List StopLocation :=
  (s.channels[k]?).toList.flatMap fun ch => (ch.unsolicited.map Frame.lines).filterMap haltOf

/-- The halts that have not been noticed, one in the answer to the command included. -/
def unread (s : Session) (b : Background) (p : Progress) : List StopLocation :=
  p.answer.filterMap haltOf ++ s.unnoticed b.launch

variable {s s' s'' : Session} {env : Surroundings} {e : Event} {b : Background} {p p' p'' : Progress}
  {id call : CallId} {t : Ticket} {ch ch' : Channel}

theorem unread_eq (hch : s.channels[b.launch]? = some ch) :
    s.unread b p = (ch.unread p).filterMap haltOf := by
  rw [unread, unnoticed, hch, Channel.unread, List.filterMap_append]
  simp

/-- The command has come so far, its debugger is the one that is watched, and the other operations wait
for a halt. -/
structure Underway (b : Background) (p : Progress) (s : Session) : Prop where
  channel : ∃ ch, s.channels[b.launch]? = some ch ∧ ch.Tracks b.command b.ticket p
  watched : s.watched = [b.launch]
  own : ∀ c ∈ s.calls, c.id = b.id → p ≠ .read ∧ c.stage = b.stage
  others : ∀ c ∈ s.calls, c.id ≠ b.id → c.stage.AwaitsStop

/-- In a change of the session the command has come further, the halts that have been noticed are told
to all, and no halt is lost on the way, unless the command is. -/
structure Turn (b : Background) (s s' : Session) (p p' : Progress) (frames : List (List String))
    (halts : List StopLocation) (answers : List (Except SessionFault Result)) : Prop where
  underway : Underway b p' s'
  tells : ∃ news, Tells s s' news ∧ haltsTold news = halts
  runState : s'.runState = if halts.isEmpty then s.runState else .stopped
  balance : p' ≠ .lost →
    (halts ++ s'.unread b p').Perm (s.unread b p ++ frames.filterMap haltOf)
  lost : p = .lost → p' = .lost
  read : p' = .read ↔ p = .read ∨ answers ≠ []

namespace Turn

theorem refl (h : Underway b p s) : Turn b s s p p [] [] [] where
  underway := h
  tells := ⟨[], .nothing rfl, rfl⟩
  runState := rfl
  balance := fun _ => by simp
  lost := fun hp => hp
  read := by simp

theorem trans {frames frames' : List (List String)} {halts halts' : List StopLocation}
    {answers answers' : List (Except SessionFault Result)}
    (h : Turn b s s' p p' frames halts answers) (h' : Turn b s' s'' p' p'' frames' halts' answers') :
    Turn b s s'' p p'' (frames ++ frames') (halts ++ halts') (answers ++ answers') where
  underway := h'.underway
  tells := by
    obtain ⟨news, htells, rfl⟩ := h.tells
    obtain ⟨news', htells', rfl⟩ := h'.tells
    exact ⟨news ++ news', htells.trans htells', List.filterMap_append⟩
  runState := by
    rw [h'.runState, h.runState]
    cases halts <;> cases halts' <;> rfl
  balance := by
    intro hp''
    have hlater := h'.balance hp''
    have hearlier := h.balance fun hp' => hp'' (h'.lost hp')
    rw [List.filterMap_append, ← List.append_assoc, List.append_assoc halts]
    exact (hlater.append_left halts).trans (by
      rw [← List.append_assoc]
      exact hearlier.append_right _)
  lost := fun hp => h'.lost (h.lost hp)
  read := by
    rw [h'.read, h.read]
    cases answers <;> simp

/-- What a debugger and its transport do, or the caller who gives up, makes the command come further;
nobody is told anything. -/
theorem silent {frames : List (List String)} (h : Underway b p s)
    (hch : s.channels[b.launch]? = some ch) (hch' : s'.channels[b.launch]? = some ch')
    (hfurthers : Channel.Furthers ch ch' b.command b.ticket p p' frames)
    (hsubscribers : s'.subscribers = s.subscribers) (hrunState : s'.runState = s.runState)
    (hwatched : s'.watched = s.watched)
    (hcalls : ∀ c ∈ s'.calls, c ∈ s.calls ∨ (c.id ≠ b.id ∧ c.stage.AwaitsStop)) :
    Turn b s s' p p' frames [] [] where
  underway := by
    refine ⟨⟨ch', hch', hfurthers.tracks⟩, by rw [hwatched]; exact h.watched, ?_, ?_⟩
    · intro c hc hid
      rcases hcalls c hc with hc | ⟨hne, -⟩
      · exact ⟨fun hp' => (h.own c hc hid).1 (hfurthers.read.1 hp'), (h.own c hc hid).2⟩
      · exact absurd hid hne
    · intro c hc hid
      rcases hcalls c hc with hc | ⟨-, hstop⟩
      · exact h.others c hc hid
      · exact hstop
  tells := ⟨[], .nothing hsubscribers, rfl⟩
  runState := hrunState
  balance := by
    intro hp'
    rw [unread_eq hch, unread_eq hch', List.nil_append, ← List.filterMap_append]
    exact (hfurthers.unread hp').filterMap haltOf
  lost := hfurthers.lost
  read := by
    rw [hfurthers.read]
    simp

end Turn

/-! ## Waiting for a halt -/

/-- Debuggers, subscribers and the state of the target stay as they are. -/
structure Still (s s' : Session) : Prop where
  channels : s'.channels = s.channels
  subscribers : s'.subscribers = s.subscribers
  runState : s'.runState = s.runState
  watched : s'.watched = s.watched

namespace Still

theorem trans (h : Still s s') (h' : Still s' s'') : Still s s'' where
  channels := h'.channels.trans h.channels
  subscribers := h'.subscribers.trans h.subscribers
  runState := h'.runState.trans h.runState
  watched := h'.watched.trans h.watched

theorem suspend {stage : Stage} {limit : Option Float} : Still s (s.suspend call stage limit) := by
  unfold Session.suspend
  dsimp only
  split
  · split <;> exact ⟨rfl, rfl, rfl, rfl⟩
  · exact ⟨rfl, rfl, rfl, rfl⟩

theorem finishStop {r : Option StopLocation} : Still s (s.finishStop call t r) := by
  unfold Session.finishStop
  dsimp only
  split <;> exact ⟨rfl, rfl, rfl, rfl⟩

theorem withStopTicket : Still s s.withStopTicket := by
  unfold Session.withStopTicket
  split <;> exact ⟨rfl, rfl, rfl, rfl⟩

theorem expectStop : Still s s.expectStop := by
  unfold Session.expectStop
  split
  · split <;> exact ⟨rfl, rfl, rfl, rfl⟩
  · exact ⟨rfl, rfl, rfl, rfl⟩

theorem waitForStop {limit : Option Float} : Still s (s.waitForStop call limit) := by
  have hletGoOn : ∀ s : Session, Still s (s.letGoOn call) := fun _ => ⟨rfl, rfl, rfl, rfl⟩
  have hanswer : ∀ (s : Session) result, Still s (s.answer call result) :=
    fun _ _ => ⟨rfl, rfl, rfl, rfl⟩
  unfold Session.waitForStop
  refine withStopTicket.trans ?_
  dsimp only
  split
  · split
    · exact suspend.trans (hletGoOn _)
    · exact finishStop
  · split
    · exact hanswer _ _
    · exact suspend

end Still

theorem Turn.still (h : Underway b p s) (hstill : Still s s')
    (hcalls : ∀ c ∈ s'.calls, c ∈ s.calls ∨ (c.id ≠ b.id ∧ c.stage.AwaitsStop)) :
    Turn b s s' p p [] [] [] := by
  obtain ⟨ch, hch, htracks⟩ := h.channel
  exact silent h hch (by rw [hstill.channels, hch]) (.still htracks rfl) hstill.subscribers
    hstill.runState hstill.watched hcalls

theorem Underway.waitForStop (h : Underway b p s) {limit : Option Float} (hne : call ≠ b.id)
    (hclear : s.outbox = []) :
    Turn b s (s.waitForStop call limit) p p [] [] ((s.waitForStop call limit).answersIn b.id) := by
  have hunanswered : s.Unanswered call := fun result hr => by
    rw [hclear] at hr
    cases hr
  have hleaves : Leaves Stage.AwaitsStop s.runState call (s.waitForStop call limit) :=
    .waitForStop hunanswered
  have hspares : Spares b.id s (s.waitForStop call limit) := .waitForStop hne
  rw [hspares.answersIn (by rw [answersIn, hclear]; rfl)]
  refine .still h .waitForStop fun c hc => ?_
  by_cases hid : c.id = call
  · exact Or.inr ⟨by rw [hid]; exact hne, hleaves.waits c hc hid⟩
  · have hother : Spares c.id s (s.waitForStop call limit) := .waitForStop (Ne.symm hid)
    exact Or.inl (hother.calls c hc rfl)

/-- As long as the ticket for the next halt has not reported, whoever asks for the halt shares it. -/
theorem Expects.waitForStop (h : s.Expects t) {limit : Option Float} :
    (s.waitForStop call limit).Expects t := by
  have hpresent : s.withStopTicket = s := if_pos (by rw [h.ticket]; rfl)
  have hsuspend : ∀ stage, (s.suspend call stage limit).Expects t := by
    intro stage
    unfold suspend
    dsimp only
    split
    · split <;> exact ⟨h.ticket, h.issued, h.unreported⟩
    · exact ⟨h.ticket, h.issued, h.unreported⟩
  unfold Session.waitForStop
  dsimp only
  rw [hpresent, h.ticket, Option.getD_some, h.unreported]
  dsimp only
  split
  · exact ⟨h.ticket, h.issued, h.unreported⟩
  · exact hsuspend _

/-! ## Reading the answer -/

/-- A run command ends with a place exactly if its answer is no failure. -/
theorem finishRun_snd (s : Session) (kind : CommandKind) (previous : RunState) (r : Report) :
    ∃ location, (s.finishRun kind previous r).2 = .finish (.stop location) ∧
      location.isSome = r.isOk := by
  unfold finishRun
  dsimp only
  split
  · rename_i hr
    exact ⟨none, rfl, by simpa using hr⟩
  · rename_i hr
    have hok : true = r.isOk := by simpa using hr
    split
    · exact ⟨some .unknown, rfl, hok⟩
    · exact ⟨some _, rfl, hok⟩
    · exact ⟨some _, rfl, hok⟩

/-- The operation ends with what its command reports. -/
theorem advancePlan_background (s : Session) (previous : RunState) (r : Report) :
    ∃ location : Option StopLocation, location.isSome = r.isOk ∧
      s.advancePlan backgroundIssue.kind (.run previous) r =
        ((s.finishRun .continueBackground previous r).1, .finish (.stop location)) := by
  obtain ⟨location, hfinish, hsome⟩ := s.finishRun_snd .continueBackground previous r
  refine ⟨location, hsome, ?_⟩
  rw [← hfinish]
  rfl

/-- What a command reports that has been answered, if it is no failure. -/
theorem Underway.report (h : Underway b p s) (hp : p ≠ .read)
    (hdone : (s.outcomeOf b.launch b.ticket).isDone = true)
    (hok : (s.settledReport backgroundIssue (s.outcomeOf b.launch b.ticket)).1.isOk = true) :
    ∃ f, p = .answered f ∧
      (s.settledReport backgroundIssue (s.outcomeOf b.launch b.ticket)).1.stop = haltOf f.lines := by
  obtain ⟨ch, hch, htracks⟩ := h.channel
  have houtcome : ∀ {o}, ch.outcomes[b.ticket]? = some o → s.outcomeOf b.launch b.ticket = o := by
    intro o ho
    rw [outcomeOf, hch]
    simp [Channel.outcome, List.getD_eq_getElem?_getD, ho]
  cases p with
  | owed =>
    rw [houtcome htracks.2.2] at hdone
    cases hdone
  | answered f =>
    rw [houtcome htracks.2] at hok ⊢
    exact ⟨f, rfl, stop_decodeAnswer hok⟩
  | lost =>
    obtain ⟨o, ho, -, hunanswered⟩ := htracks
    rw [houtcome ho, isOk_settledReport hunanswered] at hok
    cases hok
  | read => exact absurd rfl hp

/-- Whoever has given the command reads the answer; if it is no failure, the halt that it tells of is
noticed. -/
theorem Underway.reads (h : Underway b p s) (hp : p ≠ .read) (hclear : s.outbox = [])
    (hdone : (s.outcomeOf b.launch b.ticket).isDone = true)
    (hs' : s' = (s.settledReport backgroundIssue (s.outcomeOf b.launch b.ticket)).2.resumeReply env
      b.id backgroundIssue (.run b.previous)
      (s.settledReport backgroundIssue (s.outcomeOf b.launch b.ticket)).1)
    (hok : .ok (.stop none) ∉ s'.answersIn b.id) :
    ∃ halts, Turn b s s' p .read [] halts (s'.answersIn b.id) ∧ Reports s s' halts.head? := by
  have hreport := h.report hp hdone
  have hinward : Inward s (s.settledReport backgroundIssue (s.outcomeOf b.launch b.ticket)).2 :=
    .settledReport
  have hlogged : Notices s (s.settledReport backgroundIssue (s.outcomeOf b.launch b.ticket)).2 [] :=
    .settledReport
  revert hreport hinward hlogged hs'
  generalize (s.settledReport backgroundIssue (s.outcomeOf b.launch b.ticket)).2 = s₁
  generalize (s.settledReport backgroundIssue (s.outcomeOf b.launch b.ticket)).1 = r
  intro hs' hreport hinward hlogged
  obtain ⟨location, hsome, hadvance⟩ := s₁.advancePlan_background b.previous r
  have hresume : s₁.resumeReply env b.id backgroundIssue (.run b.previous) r = _ :=
    resumeReply_of_finish hadvance
  replace hinward : Inward s (s₁.finishRun .continueBackground b.previous r).1 :=
    hinward.trans .finishRun
  have hanswers : s'.answersIn b.id = [.ok (.stop location)] := by
    have hspares : Spares b.id s (s₁.finishRun .continueBackground b.previous r).1 := .of_inward hinward
    rw [hs', hresume, answersIn_answer, hspares.answersIn (by rw [answersIn, hclear]; rfl)]
    rfl
  have hr : r.isOk = true := by
    rw [← hsome]
    cases location with
    | none => exact absurd (by rw [hanswers]; exact List.mem_singleton_self _) hok
    | some location => rfl
  obtain ⟨f, rfl, hstop⟩ := hreport hr
  have hnotices : Notices s (s₁.finishRun .continueBackground b.previous r).1 r.stop.toList :=
    hlogged.trans (.finishRun hr)
  rw [hanswers, hs', hresume]
  generalize (s₁.finishRun .continueBackground b.previous r).1 = s₂ at hinward hnotices
  obtain ⟨ch, hch, htracks⟩ := h.channel
  have hch₂ : (s₂.answer b.id (.ok (.stop location))).channels[b.launch]? = some ch := by
    rw [← hch, ← hinward.channels]
    rfl
  refine ⟨r.stop.toList, ⟨⟨⟨ch, hch₂, htracks.1⟩, ?_, ?_, ?_⟩, hnotices.tells, hnotices.runState, ?_,
    by simp, by simp⟩, hnotices.reports.keeps, hnotices.reports.ticket, hnotices.reports.expected⟩
  · exact hnotices.watched.trans h.watched
  · intro c hc hid
    have hmem := List.mem_map_of_mem (f := Call.id) hc
    rw [hid] at hmem
    exact absurd hmem (notMem_answer s₂ b.id _)
  · intro c hc hid
    have hmem : c ∈ s₂.calls := (List.mem_filter.1 hc).1
    exact h.others c (hinward.calls ▸ hmem) hid
  · intro _
    rw [unread_eq hch, unread_eq hch₂, hstop, Channel.unread, Channel.unread]
    cases hhalt : haltOf f.lines <;> simp [Progress.answer, hhalt]

/-! ## Noticing frames -/

/-- The frames that answer nothing are noticed. -/
theorem Underway.notices (h : Underway b p s) (hclear : s.outbox = []) :
    ∃ halts, Turn b s (s.watch b.launch) p p [] halts ((s.watch b.launch).answersIn b.id) ∧
      Reports s (s.watch b.launch) halts.head? := by
  have hspares : Spares b.id s (s.watch b.launch) := .watch
  rw [hspares.answersIn (by rw [answersIn, hclear]; rfl)]
  obtain ⟨ch, hch, htracks⟩ := h.channel
  have hwatched : ¬(!s.watched.contains b.launch) = true := by rw [h.watched]; simp
  have hwatch : s.watch b.launch = ch.unsolicited.foldl noticeFrame
      (s.modifyChannel b.launch fun ch => { ch with unsolicited := [] }) := by
    rw [watch, if_neg hwatched, hch]
  rw [hwatch]
  have htaken : Notices s (s.modifyChannel b.launch fun ch => { ch with unsolicited := [] }) [] :=
    .of_eq rfl rfl rfl rfl rfl
  have hnotices := htaken.trans (.foldl_noticeFrame ch.unsolicited _)
  have hinward : Inward _ (ch.unsolicited.foldl noticeFrame
      (s.modifyChannel b.launch fun ch => { ch with unsolicited := [] })) :=
    .foldl (fun _ _ => .noticeFrame) _ _
  generalize ch.unsolicited.foldl noticeFrame _ = s' at hnotices hinward
  have hch' : s'.channels[b.launch]? = some { ch with unsolicited := [] } := by
    rw [hinward.channels]
    show (s.channels.modify b.launch _)[b.launch]? = _
    rw [List.getElem?_modify_eq, hch]
    rfl
  refine ⟨_, ⟨⟨⟨_, hch', htracks.congr rfl rfl rfl⟩, hnotices.watched.trans h.watched, ?_, ?_⟩,
    hnotices.tells, hnotices.runState, fun _ => ?_, id, by simp⟩, hnotices.reports⟩
  · exact fun c hc => h.own c (hinward.calls ▸ hc)
  · exact fun c hc => h.others c (hinward.calls ▸ hc)
  · rw [unread_eq hch, unread_eq hch', Channel.unread, Channel.unread]
    simpa using List.perm_append_comm

/-! ## Steps -/

/-- What becomes of the ticket for the next halt when nobody asks for a halt. -/
structure Heeds (s s' : Session) (halts : List StopLocation) : Prop where
  calls : ∀ c ∈ s'.calls, c ∈ s.calls
  expected : ∀ t, s.Expects t →
    s'.stopTicket = some t ∧ t < s'.stops.length ∧ s'.stopReport? t = halts.head?.map some
  /-- a ticket that has reported is given up by whoever waits for it, and by nobody else -/
  unclaimed : ∀ t, s.stopTicket = some t → (s.stopReport? t).isSome →
    (∀ c ∈ s.calls, c.stage ≠ .awaitingStop t) → s'.stopTicket = some t

/-- Nobody begins to wait, and tickets are not given up. -/
theorem Heeds.of_reports {halts : List StopLocation} (h : Reports s s' halts.head?)
    (hcalls : ∀ c ∈ s'.calls, c ∈ s.calls) : Heeds s s' halts where
  calls := hcalls
  expected := fun t ht => ⟨h.ticket t ht.ticket, h.expected t ht⟩
  unclaimed := fun t ht _ _ => h.ticket t ht

theorem Heeds.of_eq (hticket : s'.stopTicket = s.stopTicket) (hstops : s'.stops = s.stops)
    (hcalls : ∀ c ∈ s'.calls, c ∈ s.calls) : Heeds s s' [] :=
  .of_reports (.of_eq hticket hstops) hcalls

/-- Whoever has been told of a halt does not wait any more. -/
theorem mem_of_mem_finishStop {c : Call} {r : Option StopLocation}
    (hc : c ∈ (s.finishStop call t r).calls) : c ∈ s.calls := by
  unfold finishStop at hc
  dsimp only at hc
  split at hc <;> exact (List.mem_filter.1 hc).1

/-- Whoever has waited for a halt that has been reported gives up its ticket, and no other. -/
theorem Heeds.finishStop {c : Call} {r : Option StopLocation} (hc : c ∈ s.calls)
    (hstage : c.stage = .awaitingStop t) (hreport : s.stopReport? t = some r) :
    Heeds s (s.finishStop c.id t r) [] := by
  have hstops : (s.finishStop c.id t r).stops = s.stops := by
    unfold Session.finishStop
    dsimp only
    split <;> rfl
  have hother : ∀ u, s.stopTicket = some u → u ≠ t → (s.finishStop c.id t r).stopTicket = some u := by
    intro u hu hne
    have hnot : ¬(s.stopTicket == some t) = true := by simpa [hu] using hne
    unfold Session.finishStop
    dsimp only
    rw [if_neg hnot]
    exact hu
  refine ⟨fun _ => mem_of_mem_finishStop, fun u hu => ?_, fun u hu _ hnobody => ?_⟩
  · refine ⟨hother u hu.ticket ?_, ?_⟩
    · rintro rfl
      cases hreport.symm.trans hu.unreported
    · rw [stopReport?, hstops]
      exact ⟨hu.issued, hu.unreported⟩
  · refine hother u hu ?_
    rintro rfl
    exact hnobody c hc hstage

/-- Only the transport of a debugger completes frames. -/
theorem framesIn_of_caller (h : e.caller? = some call) (k : LaunchId) : s.framesIn k e = [] := by
  cases e with
  | channel => cases h
  | _ => rfl

/-- The step of an operation that is not the command's. -/
theorem Underway.step_other (h : Underway b p s) (hclear : s.outbox = [])
    (hnodup : (s.calls.map Call.id).Nodup) {c : Call} (hc : c ∈ s.calls) (hne : c.id ≠ b.id)
    (own : e.caller? = some c.id) (he : e.asksFor c.id = false) :
    Turn b s (s.step env e) p p [] [] ((s.step env e).answersIn b.id) ∧
      Heeds s (s.step env e) [] := by
  have hspares : Spares b.id s (s.step env e) := .step (by simpa [own] using hne)
  rw [hspares.answersIn (by rw [answersIn, hclear]; rfl)]
  obtain ⟨t, hstage⟩ := (h.others c hc hne).eq
  rcases step_of_awaitingStop env hnodup hc hstage own he with
    hsame | ⟨r, hreport, htold⟩ | ⟨-, -, hexpired⟩
  · rw [hsame]
    exact ⟨.refl h, .of_eq rfl rfl fun _ hd => hd⟩
  · rw [htold]
    exact ⟨.still h .finishStop fun d hd => Or.inl (mem_of_mem_finishStop hd),
      .finishStop hc hstage hreport⟩
  · rw [hexpired]
    have hcalls : ∀ d ∈ (s.answer c.id (.ok (.stop none))).calls, d ∈ s.calls :=
      fun d hd => (List.mem_filter.1 hd).1
    exact ⟨.still h ⟨rfl, rfl, rfl, rfl⟩ fun d hd => Or.inl (hcalls d hd), .of_eq rfl rfl hcalls⟩

/-- Whoever has given the command gives it up: it gets no answer. -/
theorem Underway.givesUp (h : Underway b p s) (hp : p ≠ .read)
    (hundecided : (s.outcomeOf b.launch b.ticket).isDone = false) :
    Turn b s (s.giveUp b.launch b.ticket) p .lost [] [] [] := by
  obtain ⟨ch, hch, htracks⟩ := h.channel
  have hwaiting : (ch.outcome b.ticket).isDone = false := by rw [← hundecided, outcomeOf, hch]
  refine .silent h hch ?_ (htracks.cancel hp hwaiting) rfl rfl rfl fun _ => Or.inl
  show (s.channels.modify b.launch _)[b.launch]? = _
  rw [List.getElem?_modify_eq, hch]
  rfl

/-- The step of whoever has given the command. -/
theorem Underway.step_own (h : Underway b p s) (hclear : s.outbox = [])
    (hnodup : (s.calls.map Call.id).Nodup) {c : Call} (hc : c ∈ s.calls) (hid : c.id = b.id)
    (own : e.caller? = some c.id) (he : e.asksFor c.id = false)
    (hok : .ok (.stop none) ∉ (s.step env e).answersIn b.id) :
    ∃ p' halts, Turn b s (s.step env e) p p' [] halts ((s.step env e).answersIn b.id) ∧
      Heeds s (s.step env e) halts := by
  obtain ⟨hp, hstage⟩ := h.own c hc hid
  have hnone : s.answersIn b.id = [] := by rw [answersIn, hclear]; rfl
  have hstays : s.step env e = s → ∃ p' halts,
      Turn b s (s.step env e) p p' [] halts ((s.step env e).answersIn b.id) ∧
        Heeds s (s.step env e) halts := by
    intro hsame
    rw [hsame, hnone]
    exact ⟨p, [], .refl h, .of_eq rfl rfl fun _ hd => hd⟩
  have hreads : (s.outcomeOf b.launch b.ticket).isDone = true →
      s.step env e = s.proceed env c.id c.stage → ∃ p' halts,
      Turn b s (s.step env e) p p' [] halts ((s.step env e).answersIn b.id) ∧
        Heeds s (s.step env e) halts := by
    intro hdone hproceed
    rw [hstage, hid] at hproceed
    have hresume : s.step env e = (s.settledReport backgroundIssue
        (s.outcomeOf b.launch b.ticket)).2.resumeReply env b.id backgroundIssue (.run b.previous)
          (s.settledReport backgroundIssue (s.outcomeOf b.launch b.ticket)).1 :=
      hproceed.trans (if_pos hdone)
    obtain ⟨halts, hturn, hreports⟩ := h.reads hp hclear hdone hresume hok
    refine ⟨.read, halts, hturn, .of_reports hreports fun d hd => ?_⟩
    have hne : d.id ≠ b.id := fun hd' => (hturn.underway.own d hd hd').1 rfl
    have hspares : Spares d.id s (s.step env e) :=
      .step (by rw [own, hid]; simpa using Ne.symm hne)
    exact hspares.calls d hd rfl
  rcases step_of_mem env hnodup hc (by rw [hstage]; rfl) own he with
    hsame | ⟨-, hproceed⟩ | ⟨-, hexpired⟩
  · exact hstays hsame
  · cases hdone : (s.outcomeOf b.launch b.ticket).isDone with
    | true => exact hreads hdone hproceed
    | false =>
      refine hstays (hproceed.trans ?_)
      rw [hstage]
      exact if_neg (by simp [hdone])
  · cases hdone : (s.outcomeOf b.launch b.ticket).isDone with
    | true =>
      refine hreads hdone (hexpired.trans ?_)
      rw [hstage]
      exact if_pos hdone
    | false =>
      have hgiveUp : s.step env e = s.giveUp b.launch b.ticket := by
        rw [hexpired, hstage]
        exact if_neg (by simp [hdone])
      have hspares : Spares b.id s (s.giveUp b.launch b.ticket) := .giveUp
      rw [hgiveUp, hspares.answersIn hnone]
      exact ⟨.lost, [], h.givesUp hp hdone, .of_eq rfl rfl fun _ hd => hd⟩

/-- Whatever a debugger and its transport do, nobody is told of it, and no halt is reported. -/
theorem step_channel_tells (s : Session) (env : Surroundings) (k : LaunchId) (e : Channel.Event) :
    (s.step env (.channel k e)).subscribers = s.subscribers ∧
      (s.step env (.channel k e)).runState = s.runState ∧
      (s.step env (.channel k e)).watched = s.watched ∧
      (s.step env (.channel k e)).stopTicket = s.stopTicket ∧
      (s.step env (.channel k e)).stops = s.stops := by
  have hframes : ∀ (printed : List (List String)) (s : Session),
      let s' := printed.foldl (fun s lines => s.changeChannel k fun ch => ch.emit lines env.now) s
      s'.subscribers = s.subscribers ∧ s'.runState = s.runState ∧ s'.watched = s.watched ∧
        s'.stopTicket = s.stopTicket ∧ s'.stops = s.stops := by
    intro printed
    induction printed with
    | nil => exact fun _ => ⟨rfl, rfl, rfl, rfl, rfl⟩
    | cons lines printed ih => exact fun _ => ih _
  cases e with
  | prints chunk => exact hframes _ _
  | _ => exact ⟨rfl, rfl, rfl, rfl, rfl⟩

/-- A debugger or its transport does something. -/
theorem Underway.step_channel (h : Underway b p s) (env : Surroundings) (j : LaunchId) (e : Channel.Event) :
    ∃ p', Turn b s (s.step env (.channel j e)) p p' (s.framesIn b.launch (.channel j e)) [] [] ∧
      Heeds s (s.step env (.channel j e)) [] := by
  obtain ⟨ch, hch, htracks⟩ := h.channel
  obtain ⟨hsubscribers, hrunState, hwatched, hticket, hstops⟩ := s.step_channel_tells env j e
  obtain ⟨hchannels, -, -, hcalls⟩ := Session.step_channel s env j e
  have hheeds : Heeds s (s.step env (.channel j e)) [] :=
    .of_eq hticket hstops fun c hc => hcalls ▸ hc
  by_cases hj : j = b.launch
  · obtain ⟨p', hfurthers⟩ := htracks.react env.now e
    have hframes : s.framesIn b.launch (.channel j e) = ch.framesBy e := by
      rw [framesIn, if_pos hj, hch]
      simp
    have hch' : (s.step env (.channel j e)).channels[b.launch]? = some (ch.react env.now e) := by
      rw [hchannels, hj, List.getElem?_modify_eq, hch]
      rfl
    rw [hframes]
    exact ⟨p', .silent h hch hch' hfurthers hsubscribers hrunState hwatched
      fun c hc => Or.inl (hcalls ▸ hc), hheeds⟩
  · have hch' : (s.step env (.channel j e)).channels[b.launch]? = some ch := by
      rw [hchannels, List.getElem?_modify, hch]
      simp [hj]
    rw [framesIn, if_neg hj]
    exact ⟨p, .silent h hch hch' (.still htracks rfl) hsubscribers hrunState hwatched
      fun c hc => Or.inl (hcalls ▸ hc), hheeds⟩

theorem foldl_request {α : Type} (f : α → Request) (as : List α) (s : Session) :
    as.foldl (fun s a => s.request (f a)) s = s.requestAll (as.map f) := by
  induction as generalizing s with
  | nil => simp [requestAll]
  | cons a as ih =>
    rw [List.foldl_cons, ih]
    simp [request, requestAll]

/-- When nobody asks for anything, the command comes further, and halts are noticed one by one, as long
as the command is no failure. -/
theorem Underway.step (h : Underway b p s) (env : Surroundings) (hclear : s.outbox = [])
    (hnodup : (s.calls.map Call.id).Nodup) (he : e.isCall = false)
    (hok : .ok (.stop none) ∉ (s.step env e).answersIn b.id) :
    ∃ p' halts, Turn b s (s.step env e) p p' (s.framesIn b.launch e) halts
        ((s.step env e).answersIn b.id) ∧ Heeds s (s.step env e) halts := by
  have hnone : s.answersIn b.id = [] := by rw [answersIn, hclear]; rfl
  cases hcaller : e.caller? with
  | some call =>
    have hasks : e.asksFor call = false := by
      cases e with
      | call => cases he
      | _ => rfl
    rw [framesIn_of_caller hcaller]
    by_cases hmem : call ∈ s.calls.map Call.id
    · obtain ⟨c, hc, rfl⟩ := List.mem_map.1 hmem
      by_cases hid : c.id = b.id
      · exact h.step_own hclear hnodup hc hid hcaller hasks hok
      · exact ⟨p, [], h.step_other hclear hnodup hc hid hcaller hasks⟩
    · rw [step_of_absent hmem hcaller hasks, hnone]
      exact ⟨p, [], .refl h, .of_eq rfl rfl fun _ hc => hc⟩
  | none =>
    have hspares : Spares b.id s (s.step env e) := .step (by simp [hcaller])
    have hanswers := hspares.answersIn hnone
    cases e with
    | channel j event =>
      obtain ⟨p', hturn⟩ := h.step_channel env j event
      rw [hanswers]
      exact ⟨p', [], hturn⟩
    | watches j =>
      by_cases hj : j = b.launch
      · obtain ⟨halts, hturn, hreports⟩ := h.notices hclear
        rw [hj]
        refine ⟨p, halts, hturn, .of_reports hreports fun c hc => ?_⟩
        have hother : Spares c.id s (s.watch b.launch) := .watch
        exact hother.calls c hc rfl
      · have hunwatched : (!s.watched.contains j) = true := by rw [h.watched]; simpa using hj
        have hsame : s.step env (.watches j) = s := if_pos hunwatched
        rw [hsame, hnone]
        exact ⟨p, [], .refl h, .of_eq rfl rfl fun _ hc => hc⟩
    | bridgePrints k chunk =>
      rw [hanswers]
      dsimp only [Session.step]
      rw [foldl_request]
      split
      · exact ⟨p, [], .still h ⟨rfl, rfl, rfl, rfl⟩ fun _ => Or.inl, .of_eq rfl rfl fun _ hc => hc⟩
      · exact ⟨p, [], .refl h, .of_eq rfl rfl fun _ hc => hc⟩
    | bridgeExits k code =>
      rw [hanswers]
      dsimp only [Session.step]
      split
      · exact ⟨p, [], .still h ⟨rfl, rfl, rfl, rfl⟩ fun _ => Or.inl, .of_eq rfl rfl fun _ hc => hc⟩
      · exact ⟨p, [], .refl h, .of_eq rfl rfl fun _ hc => hc⟩
    | _ => cases hcaller

end Session

end DebugConsole
