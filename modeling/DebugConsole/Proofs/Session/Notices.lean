import DebugConsole.Proofs.Session.Execution

set_option autoImplicit false

/-!
# What a session does when it notices a halt

A halt of the target reaches a session in one of two ways: in the answer to the command that set the
target running, or in a frame that answers nothing.  Either way every subscriber is told once, the
target counts as halted, and the ticket for the next halt reports the place.  `Session.Notices` says so
for a change within a session that notices some halts, one after another; only the first of them is
reported by the ticket.
-/

namespace DebugConsole

/-- The halt that an event tells of. -/
def SessionEvent.halt? : SessionEvent → Option StopLocation
  | .stop location _ => some location
  | .log .. => none

/-- The halts that some events tell of. -/
def haltsTold (news : List SessionEvent) : List StopLocation := news.filterMap SessionEvent.halt?

/-- A subscriber that has been told some more events. -/
def Subscriber.tell (q : Subscriber) (news : List SessionEvent) : Subscriber :=
  { q with inbox := q.inbox ++ news }

/-- The halt that the lines of a frame tell of. -/
def haltOf (lines : List String) : Option StopLocation :=
  match Report.decode .continueBackground lines with
  | .ok r => r.stop
  | .error _ => none

namespace Session

variable {s s' s'' : Session} {halts halts' : List StopLocation} {env : Surroundings}

/-- Every subscriber is told some more events, the same ones. -/
def Tells (s s' : Session) (news : List SessionEvent) : Prop :=
  s'.subscribers = s.subscribers.map fun q => q.tell news

theorem Tells.nothing (h : s'.subscribers = s.subscribers) : Tells s s' [] := by
  have htell : (fun q : Subscriber => q.tell []) = id := by
    funext q
    simp [Subscriber.tell]
  rw [Tells, h, htell, List.map_id]

theorem Tells.trans {news news' : List SessionEvent} (h : Tells s s' news)
    (h' : Tells s' s'' news') : Tells s s'' (news ++ news') := by
  rw [Tells, h', h, List.map_map]
  congr 1
  funext q
  simp [Subscriber.tell]

theorem Tells.publish (e : SessionEvent) : Tells s (s.publish e) [e] := rfl

theorem Tells.log (level : LogLevel) (message : String) :
    ∃ news, Tells s (s.log level message) news ∧ haltsTold news = [] := by
  unfold Session.log
  split
  · split
    · exact ⟨_, .publish _, rfl⟩
    · exact ⟨[], .nothing rfl, rfl⟩
  · exact ⟨_, .publish _, rfl⟩

/-! ## Tickets -/

/-- The ticket for the next halt has been given out and has not reported. -/
structure Expects (s : Session) (t : Ticket) : Prop where
  ticket : s.stopTicket = some t
  issued : t < s.stops.length
  unreported : s.stopReport? t = none

/-- What has been reported stays, and so does the ticket for the next halt; if that has not reported
yet, it reports the given place or still none. -/
structure Reports (s s' : Session) (first : Option StopLocation) : Prop where
  keeps : ∀ t r, s.stopReport? t = some r → s'.stopReport? t = some r
  ticket : ∀ t, s.stopTicket = some t → s'.stopTicket = some t
  expected : ∀ t, s.Expects t → t < s'.stops.length ∧ s'.stopReport? t = first.map some

namespace Reports

variable {first first' : Option StopLocation}

theorem of_eq (hticket : s'.stopTicket = s.stopTicket) (hstops : s'.stops = s.stops) :
    Reports s s' none where
  keeps := fun t r h => by rwa [stopReport?, hstops]
  ticket := fun t h => by rwa [hticket]
  expected := fun t h => by
    rw [stopReport?, hstops]
    exact ⟨h.issued, h.unreported⟩

theorem trans (h : Reports s s' first) (h' : Reports s' s'' first') :
    Reports s s'' (first.or first') where
  keeps := fun t r hr => h'.keeps t r (h.keeps t r hr)
  ticket := fun t ht => h'.ticket t (h.ticket t ht)
  expected := by
    intro t ht
    obtain ⟨hissued, hreport⟩ := h.expected t ht
    cases first with
    | none => exact h'.expected t ⟨h.ticket t ht.ticket, hissued, hreport⟩
    | some location =>
      have hkept := h'.keeps t _ hreport
      refine ⟨Nat.lt_of_not_le fun hge => ?_, hkept⟩
      rw [stopReport?, List.getElem?_eq_none hge] at hkept
      cases hkept

theorem withStopTicket : Reports s s.withStopTicket none := by
  unfold Session.withStopTicket
  split
  · exact of_eq rfl rfl
  · rename_i hnone
    refine ⟨fun t r h => ?_, fun t ht => by simp [ht] at hnone, fun t h => by simp [h.ticket] at hnone⟩
    have hlt : t < s.stops.length := Nat.lt_of_not_le fun hge => by
      rw [stopReport?, List.getElem?_eq_none hge] at h
      cases h
    rwa [stopReport?, newStopTicket, List.getElem?_append_left hlt]

theorem reportStop (s : Session) (location : StopLocation) :
    Reports s (s.reportStop (some location)) (some location) := by
  refine trans withStopTicket ?_
  unfold Session.reportStop
  generalize s.withStopTicket = s
  dsimp only
  split
  · rename_i t hticket
    split
    · rename_i hunreported
      refine ⟨fun u r h => ?_, fun u hu => hu, fun u h => ?_⟩
      · have hne : t ≠ u := by
          rintro rfl
          simp [h] at hunreported
        simpa [stopReport?, requestAll, hne] using h
      · obtain rfl : t = u := Option.some.inj (hticket.symm.trans h.ticket)
        simp [stopReport?, requestAll, h.issued]
    · rename_i hreported
      refine ⟨fun u r h => h, fun u hu => hu, fun u h => absurd ?_ hreported⟩
      obtain rfl : t = u := Option.some.inj (hticket.symm.trans h.ticket)
      rw [h.unreported]
      rfl
  · rename_i hnone
    exact ⟨fun u r h => h, fun u hu => hu, fun u h => absurd h.ticket (by simp [hnone])⟩

end Reports

/-! ## Halts -/

/-- A change within a session that notices some halts. -/
structure Notices (s s' : Session) (halts : List StopLocation) : Prop where
  tells : ∃ news, Tells s s' news ∧ haltsTold news = halts
  runState : s'.runState = if halts.isEmpty then s.runState else .stopped
  reports : Reports s s' halts.head?
  watched : s'.watched = s.watched

namespace Notices

theorem nothing {news : List SessionEvent} (htells : Tells s s' news) (hnews : haltsTold news = [])
    (hrunState : s'.runState = s.runState) (hticket : s'.stopTicket = s.stopTicket)
    (hstops : s'.stops = s.stops) (hwatched : s'.watched = s.watched) : Notices s s' [] where
  tells := ⟨news, htells, hnews⟩
  runState := hrunState
  reports := .of_eq hticket hstops
  watched := hwatched

/-- Subscribers, tickets and the state of the target stay as they are. -/
theorem of_eq (hsubscribers : s'.subscribers = s.subscribers) (hrunState : s'.runState = s.runState)
    (hticket : s'.stopTicket = s.stopTicket) (hstops : s'.stops = s.stops)
    (hwatched : s'.watched = s.watched) : Notices s s' [] :=
  nothing (.nothing hsubscribers) rfl hrunState hticket hstops hwatched

theorem refl (s : Session) : Notices s s [] := of_eq rfl rfl rfl rfl rfl

theorem trans (h : Notices s s' halts) (h' : Notices s' s'' halts') :
    Notices s s'' (halts ++ halts') where
  tells := by
    obtain ⟨news, htells, rfl⟩ := h.tells
    obtain ⟨news', htells', rfl⟩ := h'.tells
    exact ⟨news ++ news', htells.trans htells', List.filterMap_append⟩
  runState := by
    rw [h'.runState, h.runState]
    cases halts <;> cases halts' <;> rfl
  reports := by
    rw [List.head?_append]
    exact h.reports.trans h'.reports
  watched := h'.watched.trans h.watched

theorem log {level : LogLevel} {message : String} : Notices s (s.log level message) [] := by
  obtain ⟨news, htells, hnews⟩ := Tells.log (s := s) level message
  have hsame : ∀ {s' : Session}, s' = s.log level message → s'.runState = s.runState ∧
      s'.stopTicket = s.stopTicket ∧ s'.stops = s.stops ∧ s'.watched = s.watched := by
    rintro s' rfl
    unfold Session.log
    split
    · split <;> exact ⟨rfl, rfl, rfl, rfl⟩
    · exact ⟨rfl, rfl, rfl, rfl⟩
  obtain ⟨hrunState, hticket, hstops, hwatched⟩ := hsame rfl
  exact nothing htells hnews hrunState hticket hstops hwatched

/-- The target halts: subscribers are told, and those who wait for it hear of it. -/
theorem halt (location : StopLocation) (lines : List String) :
    Notices s (({ s with runState := .stopped }.publish (.stop location lines)).reportStop
      (some location)) [location] := by
  have hsame : ∀ s : Session, (s.reportStop (some location)).subscribers = s.subscribers ∧
      (s.reportStop (some location)).runState = s.runState ∧
      (s.reportStop (some location)).watched = s.watched := by
    intro s
    unfold Session.reportStop Session.withStopTicket
    dsimp only
    split <;> split <;> (try split) <;> exact ⟨rfl, rfl, rfl⟩
  obtain ⟨hsubscribers, hrunState, hwatched⟩ :=
    hsame ({ s with runState := .stopped }.publish (.stop location lines))
  refine ⟨⟨[.stop location lines], ?_, rfl⟩, hrunState, ?_, hwatched⟩
  · rw [Tells, hsubscribers]
    rfl
  · have hsilent : Reports s ({ s with runState := .stopped }.publish (.stop location lines)) none :=
      .of_eq rfl rfl
    exact hsilent.trans (.reportStop _ location)

/-- A frame that answers nothing is noticed, and so is the halt that it tells of. -/
theorem noticeFrame (s : Session) (frame : Frame) :
    Notices s (s.noticeFrame frame) (haltOf frame.lines).toList := by
  unfold Session.noticeFrame haltOf
  cases hdecode : Report.decode .continueBackground frame.lines with
  | error m => exact log
  | ok r =>
    dsimp only
    cases hstop : r.stop with
    | none =>
      dsimp only
      split
      · exact refl s
      · exact log
    | some location =>
      have hlogged : Notices s (s.log .warning (joined frame.lines)) [] := log
      exact hlogged.trans (halt location frame.lines)

/-- Frames that answer nothing are noticed one after another. -/
theorem foldl_noticeFrame (frames : List Frame) (s : Session) :
    Notices s (frames.foldl Session.noticeFrame s)
      ((frames.map Frame.lines).filterMap haltOf) := by
  induction frames generalizing s with
  | nil => exact refl s
  | cons frame frames ih =>
    have hrest := (noticeFrame s frame).trans (ih (s.noticeFrame frame))
    cases hhalt : haltOf frame.lines <;> simpa [hhalt] using hrest

/-! ### Answers -/

theorem settledReport {i : Issue} {o : Outcome} : Notices s (s.settledReport i o).2 [] := by
  have hfailed : ∀ message : String, Notices s (s.failedReport message).2 [] := by
    intro message
    unfold failedReport
    dsimp only
    exact log
  unfold Session.settledReport
  split
  · rename_i frame
    have htimed : Notices s { s with lastElapsed := frame.elapsed } [] := of_eq rfl rfl rfl rfl rfl
    have hsent : Notices s
        ({ s with lastElapsed := frame.elapsed }.log i.level ("[SEND]: " ++ i.text)) [] :=
      htimed.trans log
    unfold answeredReport
    dsimp only
    split <;> split
    · exact (hsent.trans log).trans log
    · exact ((hsent.trans log).trans log).trans log
    · exact hsent.trans log
    · exact (hsent.trans log).trans log
  all_goals exact hfailed _

/-- The answer to a command that sets the target running in the background may tell of a halt. -/
theorem finishRun {previous : RunState} {r : Report} (hr : r.isOk = true) :
    Notices s (s.finishRun .continueBackground previous r).1 r.stop.toList := by
  have hfailed : ¬(!r.isOk) = true := by simp [hr]
  unfold Session.finishRun
  dsimp only
  rw [if_neg hfailed]
  cases r.stop with
  | none => exact refl s
  | some location => exact halt location r.logs

end Notices

/-- An answer that is decoded tells of the same halt as a frame that answers nothing would. -/
theorem stop_decodeAnswer {lines : List String}
    (h : (decodeAnswer .continueBackground lines).isOk = true) :
    (decodeAnswer .continueBackground lines).stop = haltOf lines := by
  unfold decodeAnswer at h ⊢
  unfold haltOf
  cases hdecode : Report.decode .continueBackground lines with
  | ok r => rfl
  | error m =>
    rw [hdecode] at h
    cases h

end Session

end DebugConsole
