import DebugConsole.Proofs.Channel.Books
import DebugConsole.Proofs.Session.Provenance
import DebugConsole.Proofs.Session.Dealings

set_option autoImplicit false

/-!
# Sessions that another start takes over

A start waits for the prompt of the debugger that it has launched.  When it gives up, it closes whatever
session there is then, be it of another debugger; when it is welcomed late, it puts its own watcher in the
place of the other one's.  So a session that nobody closes lasts exactly as long as no start that waits for
the prompt of another debugger comes to its end (`established_afterAll_iff`).

A step leaves the session as it is held, takes its watcher from it, begins to close it, or shuts the
debugger of one that is being closed (`Course`); which of these it is depends only on whether a start that
waits comes to its end in it.
-/

namespace DebugConsole

namespace Stage

/-- Is a session being closed? -/
def isClosing : Stage → Bool
  | .closing .. => true
  | _ => false

/-- May an operation be in progress while a debugger takes commands that was launched later? -/
def isElsewhere (j : LaunchId) : Stage → Bool
  | .launching | .closing (.process _) _ | .closing .reader _ => false
  | .awaitingBanner k => k != j
  | _ => true

theorem isElsewhere_of_isOrdinary {j : LaunchId} {stage : Stage} (h : stage.isOrdinary) :
    stage.isElsewhere j := by
  cases stage with
  | closing | launching | awaitingBanner => cases h
  | _ => rfl

theorem isClosing_of_isOrdinary {stage : Stage} (h : stage.isOrdinary) : stage.isClosing = false := by
  cases stage with
  | closing => cases h
  | _ => rfl

/-- May an operation be in progress that has nothing to do with the closing of a session? -/
def isCalm (j : LaunchId) (stage : Stage) : Bool := stage.isElsewhere j && !stage.isClosing

end Stage

namespace Session

variable {s s' : Session} {env : Surroundings} {e : Event} {j k : LaunchId}
  {events : List (Surroundings × Event)}

/-- Does a debugger take commands? -/
def isOpen (s : Session) (j : LaunchId) : Bool := (s.channels[j]?).any fun ch => !ch.isClosed

/-! ## What may happen -/

/-- Has a debugger printed a prompt that nobody has taken? -/
def hasGreeted (s : Session) (k : LaunchId) : Bool :=
  (s.channels[k]?).any fun ch => !ch.unsolicited.isEmpty

theorem hasGreeted_eq (s : Session) (k : LaunchId) :
    s.hasGreeted k = ((s.channels[k]?).bind Channel.takeUnsolicited).isSome := by
  unfold hasGreeted
  cases s.channels[k]? with
  | none => rfl
  | some ch =>
    rw [Option.any_some, Option.bind_some, Channel.takeUnsolicited]
    cases ch.unsolicited <;> rfl

/-- Is a start given up because its debugger has printed no prompt? -/
def givesUpStart (s : Session) : Event → Bool
  | .timesOut id wait =>
    match s.stageIn? id wait with
    | some (.awaitingBanner k) => !s.hasGreeted k
    | _ => false
  | _ => false

/-- Is a start welcomed by its debugger? -/
def welcomesStart (s : Session) (e : Event) : Bool :=
  match e.resumes? s with
  | some (.awaitingBanner k) => s.hasGreeted k
  | _ => false

/-- Does a start come to its end that waits for a prompt? -/
def endsStart (s : Session) (e : Event) : Bool := s.givesUpStart e || s.welcomesStart e

/-- Does nobody close the session, and does the debugger's output go on?  Operations have numbers of
their own. -/
def isPeaceful (j : LaunchId) (s : Session) (e : Event) : Bool :=
  (s.calls.all fun c => !e.asksFor c.id) &&
    match e with
    | .call _ .kill => false
    | .channel k .outputEnds | .channel k (.outputFails _) => k != j
    | _ => true

/-- The session of a debugger is established: commands go to it, and it is watched. -/
structure Established (s : Session) (j : LaunchId) : Prop where
  current : s.current = some j
  watcher : s.watcher = some j
  watched : j ∈ s.watched
  isOpen : s.isOpen j = true

/-! ## Debuggers that take commands, and debuggers that have ended -/

/-- A debugger takes commands as before. -/
def asOpen (env : Surroundings) (j : LaunchId) : Handling env j where
  rel x y := y.2.isClosed = x.2.isClosed
  refl _ := rfl
  trans h h' := h'.trans h
  number _ _ := rfl
  submit h := Channel.isClosed_submit h
  signal n ch name := ch.isClosed_signal n name env.now (env.signalFault j name)
  cancel _ ch t := ch.isClosed_cancel t

theorem reads_asOpen : (asOpen env j).Reads := fun _ _ _ _ => rfl

theorem Steady.isOpen (h : Steady (asOpen env j) s s') : s'.isOpen j = s.isOpen j := by
  unfold Session.isOpen
  cases hch : s.channels[j]? with
  | none =>
    have hnone : s'.channels[j]? = none :=
      List.getElem?_eq_none (h.launches ▸ List.getElem?_eq_none_iff.1 hch)
    rw [hnone]
  | some ch =>
    obtain ⟨ch', hch', hsame : ch'.isClosed = ch.isClosed⟩ := h.channel ch hch
    simp [hch', hsame]

/-- A debugger that does not take commands will not take any. -/
def asShut (env : Surroundings) (j : LaunchId) : Dealing env j where
  rel x y := x.2.isClosed = true → y.2.isClosed = true
  refl _ h := h
  trans h h' hshut := h' (h hshut)
  number _ _ h := h
  submit h hshut := (Channel.isClosed_submit h).trans hshut
  signal n ch name hshut :=
    (ch.isClosed_signal n name env.now (env.signalFault j name)).trans hshut
  cancel _ ch t hshut := (ch.isClosed_cancel t).trans hshut
  close _ _ _ := rfl
  stopReader _ _ h := h

/-- A channel that is closed stays closed whatever the debugger does. -/
theorem isClosed_react {ch : Channel} {now : Float} {event : Channel.Event}
    (h : ch.isClosed = true) : (ch.react now event).isClosed = true := by
  cases event with
  | writeBegins serial => exact (ch.isClosed_beginWrite _ _).trans h
  | writeEnds serial fault => exact (ch.isClosed_endWrite _ _).trans h
  | prints chunk => exact (ch.isClosed_feed _ _).trans h
  | outputEnds | outputFails => rfl

/-- Whatever happens, a debugger that has ended takes no commands. -/
theorem shut_after (env : Surroundings) (e : Event) (hlt : j < s.channels.length)
    (hshut : s.isOpen j = false) :
    j < (s.after env e).channels.length ∧ (s.after env e).isOpen j = false := by
  have hdeals : Deals (asShut env j) _ { s with outbox := [] } (s.after env e) :=
    .step_of_reacts hlt (fun _ _ _ _ h => h) fun _ _ _ _ h => isClosed_react h
  obtain ⟨ch', hch', hcloses⟩ := hdeals.channel _ (List.getElem?_eq_getElem hlt)
  refine ⟨(List.getElem?_eq_some_iff.1 hch').1, ?_⟩
  have hclosed : s.channels[j].isClosed = true := by
    simpa [isOpen, List.getElem?_eq_getElem hlt] using hshut
  have hclosed' : ch'.isClosed = true := hcloses hclosed
  simp [isOpen, hch', hclosed']

theorem shut_afterAll (hlt : j < s.channels.length) (hshut : s.isOpen j = false) :
    (s.afterAll events).isOpen j = false := by
  induction events generalizing s with
  | nil => exact hshut
  | cons e events ih =>
    obtain ⟨hlt', hshut'⟩ := shut_after e.1 e.2 hlt hshut
    exact ih hlt' hshut'

/-! ## A session that is held -/

/-- A session holds a debugger that takes commands, and no operation is in progress that launches or
ends one without having looked at it. -/
structure Held (j : LaunchId) (s : Session) : Prop where
  current : s.current = some j
  isOpen : s.isOpen j = true
  watcher : s.watcher.isSome
  calls : ∀ c ∈ s.calls, c.stage.isElsewhere j
  nodup : (s.calls.map Call.id).Nodup

/-- Is a session being closed whose watcher is told to stop? -/
def Closes (s : Session) : Prop := ∃ c ∈ s.calls, c.stage.isClosing

/-- The debugger is watched, and the session holds its watcher. -/
def Watches (s : Session) (j : LaunchId) : Prop := s.watcher = some j ∧ j ∈ s.watched

/-- What a step does to a session that holds a debugger which takes commands. -/
inductive Course (j : LaunchId) (s s' : Session) (e : Event) : Prop
  | stays (held : Held j s') (closes : s'.Closes ↔ s.Closes) (watches : s'.Watches j ↔ s.Watches j)
      (ends : s.endsStart e = false)
  | welcomes (held : Held j s') (closes : s'.Closes ↔ s.Closes) (watches : ¬s'.Watches j)
      (welcomes : s.welcomesStart e = true) (givesUp : s.givesUpStart e = false)
  | givesUp (held : Held j s') (closes : s'.Closes) (watches : ¬s'.Watches j)
      (givesUp : s.givesUpStart e = true)
  | shuts (closes : s.Closes) (shut : s'.isOpen j = false) (launches : j < s'.channels.length)

namespace Held

theorem lt (h : Held j s) : j < s.channels.length := by
  have hopen := h.isOpen
  unfold Session.isOpen at hopen
  by_contra hge
  rw [List.getElem?_eq_none (Nat.le_of_not_lt hge)] at hopen
  cases hopen

theorem isRunning (h : Held j s) : s.isRunning = true := by
  rw [Session.isRunning, currentChannel?, h.current, Option.bind_some]
  exact h.isOpen

theorem nodup_step (h : Held j s) (env : Surroundings) (e : Event) :
    ((s.step env e).calls.map Call.id).Nodup := (acts_step_any s env e).nodup h.nodup

/-- What is steady leaves a session as it is held. -/
theorem steady (h : Held j s) (hsteady : Steady (asOpen env j) s s')
    (hnodup : (s'.calls.map Call.id).Nodup) :
    Held j s' ∧ (s'.Watches j ↔ s.Watches j) := by
  obtain ⟨hcurrent, hwatcher, hwatched⟩ : s'.current = s.current ∧ s'.watcher = s.watcher ∧
      s'.watched = s.watched := by simpa [hold] using hsteady.hold
  refine ⟨⟨hcurrent.trans h.current, hsteady.isOpen.trans h.isOpen, hwatcher ▸ h.watcher,
    fun c hc => ?_, hnodup⟩, by rw [Watches, Watches, hwatcher, hwatched]⟩
  exact (hsteady.calls c hc).elim (h.calls c) fun hordinary => Stage.isElsewhere_of_isOrdinary hordinary

/-- A session goes on as it is held if the operation that goes on does not close it. -/
theorem stays (h : Held j s) (env : Surroundings) (hsteady : Steady (asOpen env j) s (s.step env e))
    (hown : ∀ c ∈ s.calls, e.caller? = some c.id → c.stage.isClosing = false)
    (hends : s.endsStart e = false) : Course j s (s.step env e) e := by
  obtain ⟨hheld, hwatches⟩ := h.steady hsteady (h.nodup_step env e)
  refine .stays hheld ⟨?_, ?_⟩ hwatches hends
  · rintro ⟨c, hc, hcloses⟩
    refine ⟨c, (hsteady.calls c hc).resolve_right fun hordinary => ?_, hcloses⟩
    rw [Stage.isClosing_of_isOrdinary hordinary] at hcloses
    cases hcloses
  · rintro ⟨c, hc, hcloses⟩
    refine ⟨c, (acts_step_any s env e).mem_calls (fun own => ?_) hc, hcloses⟩
    rw [hown c hc own] at hcloses
    cases hcloses

theorem idles (h : Held j s) (hends : s.endsStart e = false) : Course j s s e :=
  .stays h Iff.rfl Iff.rfl hends

/-- Nothing happens, or an operation goes on that waits for something ordinary. -/
theorem goesOn (h : Held j s) (env : Surroundings) (id : CallId) (hown : e.caller? = some id)
    (hends : s.endsStart e = false)
    (hstep : s.step env e = s ∨ ∃ stage, s.stage? id = some stage ∧ stage.isOrdinary ∧
      Steady (asOpen env j) s (s.step env e)) : Course j s (s.step env e) e := by
  rcases hstep with hsame | ⟨stage, hstage, hordinary, hsteady⟩
  · rw [hsame]
    exact h.idles hends
  · obtain ⟨c, hc, rfl, rfl⟩ := exists_call_of_stage? hstage
    refine h.stays env hsteady (fun d hd hdown => ?_) hends
    rw [List.inj_on_of_nodup_map h.nodup hd hc (Option.some.inj (hdown.symm.trans hown))]
    exact Stage.isClosing_of_isOrdinary hordinary

/-- A start is welcomed by another debugger, whose watcher is held from now on. -/
theorem welcome (h : Held j s) {c : Call} (hc : c ∈ s.calls) (hne : k ≠ j)
    (hcloses : c.stage.isClosing = false) {banner : Frame}
    (hnodup : ((s.welcome c.id k banner).calls.map Call.id).Nodup) :
    Held j (s.welcome c.id k banner) ∧ (Closes (s.welcome c.id k banner) ↔ s.Closes) ∧
      ¬Watches (s.welcome c.id k banner) j := by
  have hlogged : Inward s (if banner.lines.isEmpty then s else s.log .warning (joined banner.lines)) := by
    split
    · exact .refl s
    · exact .log
  have hcalls : (s.welcome c.id k banner).calls = s.calls.filter (·.id != c.id) := by
    rw [← hlogged.calls]
    rfl
  have hcurrent : (s.welcome c.id k banner).current = s.current := by
    rw [← hlogged.current]
    rfl
  have hopen : (s.welcome c.id k banner).isOpen j = s.isOpen j := by
    unfold Session.isOpen
    rw [← hlogged.channels]
    rfl
  refine ⟨⟨hcurrent.trans h.current, hopen.trans h.isOpen, rfl, fun d hd => ?_, hnodup⟩, ⟨?_, ?_⟩,
    fun hwatches => hne (Option.some.inj hwatches.1)⟩
  · exact h.calls d (List.mem_filter.1 (hcalls ▸ hd)).1
  · rintro ⟨d, hd, hdcloses⟩
    exact ⟨d, (List.mem_filter.1 (hcalls ▸ hd)).1, hdcloses⟩
  · rintro ⟨d, hd, hdcloses⟩
    refine ⟨d, hcalls ▸ List.mem_filter.2 ⟨hd, ?_⟩, hdcloses⟩
    rw [bne_iff_ne]
    intro hid
    rw [List.inj_on_of_nodup_map h.nodup hd hc hid, hcloses] at hdcloses
    cases hdcloses

/-- A session that is to be closed is not watched any more. -/
theorem close (h : Held j s) (id : CallId) (next : Closed)
    (hnodup : ((s.close id next).calls.map Call.id).Nodup) :
    Held j (s.close id next) ∧ (s.close id next).Closes ∧ ¬(s.close id next).Watches j := by
  obtain ⟨w, hw⟩ := Option.isSome_iff_exists.1 h.watcher
  have hclose : s.close id next = ({ s with watched := s.watched.filter (· != w) }.suspend id
      (.closing .watcher next) none).letGoOn id := by
    rw [Session.close, hw]
  rw [hclose] at hnodup ⊢
  refine ⟨⟨h.current, h.isOpen, h.watcher, fun c hc => ?_, hnodup⟩, ?_, ?_⟩
  · rcases List.mem_append.1 hc with hc | hc
    · exact h.calls c (List.mem_filter.1 hc).1
    · rw [List.mem_singleton.1 hc]
      rfl
  · exact ⟨_, List.mem_append_right _ (List.mem_singleton_self _), rfl⟩
  · rintro ⟨hwatcher, hwatched⟩
    obtain rfl : w = j := Option.some.inj (hw.symm.trans hwatcher)
    simpa using (List.mem_filter.1 hwatched).2

/-- Once the watcher has stopped, the channel of the debugger that is held is closed. -/
theorem closeChannel (h : Held j s) (id : CallId) (next : Closed) :
    (({ s with watcher := none } : Session).closeChannel id next).isOpen j = false ∧
      j < (({ s with watcher := none } : Session).closeChannel id next).channels.length := by
  have hcloses : ({ s with watcher := none } : Session).closeChannel id next =
      ((({ s with watcher := none } : Session).changeChannel j fun ch => ch.close .killed).suspend id
        (.closing (.process j) next) none).request (.endProcess id j) := by
    rw [Session.closeChannel]
    dsimp only
    rw [h.current]
  have hchannels : (({ s with watcher := none } : Session).closeChannel id next).channels =
      s.channels.modify j fun ch => ch.close .killed := by
    rw [hcloses]
    rfl
  rw [Session.isOpen, hchannels, List.getElem?_modify_eq, List.length_modify]
  refine ⟨?_, h.lt⟩
  cases s.channels[j]? <;> rfl

theorem proceed (h : Held j s) (env : Surroundings) {c : Call} (hc : c ∈ s.calls)
    (hown : e.caller? = some c.id) (hresumes : e.resumes? s = some c.stage)
    (hsame : s.step env e = s.proceed env c.id c.stage) (hgives : s.givesUpStart e = false) :
    Course j s (s.step env e) e := by
  have honly : ∀ d ∈ s.calls, e.caller? = some d.id → d = c := by
    intro d hd hdown
    exact List.inj_on_of_nodup_map h.nodup hd hc (Option.some.inj (hdown.symm.trans hown))
  have hends : c.stage.isOrdinary → s.endsStart e = false := by
    intro hordinary
    rw [endsStart, hgives, Bool.false_or, welcomesStart, hresumes]
    revert hordinary
    cases c.stage <;> simp [Stage.isOrdinary]
  have hordinary : c.stage.isOrdinary → Course j s (s.step env e) e := by
    intro hordinary
    refine h.stays env (hsame ▸ .proceed hordinary) (fun d hd hdown => ?_) (hends hordinary)
    rw [honly d hd hdown]
    exact Stage.isClosing_of_isOrdinary hordinary
  have helsewhere := h.calls c hc
  have hnodup := h.nodup_step env e
  cases hstage : c.stage with
  | launching =>
    rw [hstage] at helsewhere
    cases helsewhere
  | closing step next =>
    cases step with
    | watcher =>
      have hcloses : s.Closes := ⟨c, hc, by rw [hstage]; rfl⟩
      have hproceeds : s.step env e =
          ({ s with watcher := none } : Session).closeChannel c.id next := by
        rw [hsame, hstage]
        rfl
      obtain ⟨hshut, hlt⟩ := h.closeChannel c.id next
      rw [hproceeds]
      exact .shuts hcloses hshut hlt
    | process | reader =>
      rw [hstage] at helsewhere
      cases helsewhere
  | awaitingBanner k =>
    rw [hstage] at helsewhere hresumes
    have hwelcomes : s.welcomesStart e = s.hasGreeted k := by rw [welcomesStart, hresumes]
    have hproceeds : s.step env e = s.proceed env c.id (.awaitingBanner k) := by rw [hsame, hstage]
    dsimp only [Session.proceed] at hproceeds
    cases hgreeted : (s.channels[k]?).bind Channel.takeUnsolicited with
    | none =>
      have hnone : s.hasGreeted k = false := by rw [hasGreeted_eq, hgreeted]; rfl
      rw [hgreeted] at hproceeds
      rw [hproceeds]
      exact h.idles (by rw [endsStart, hgives, hwelcomes, hnone]; rfl)
    | some taken =>
      obtain ⟨banner, ch⟩ := taken
      have hgreets : s.hasGreeted k = true := by rw [hasGreeted_eq, hgreeted]; rfl
      have htaken : Steady (asOpen env j) s (s.modifyChannel k fun _ => ch) :=
        .take (fun _ => reads_asOpen) hgreeted
      obtain ⟨htakenHeld, -⟩ := h.steady htaken h.nodup
      rw [hgreeted] at hproceeds
      dsimp only at hproceeds
      rw [hproceeds] at hnodup ⊢
      obtain ⟨hheld, hcloses, hunwatched⟩ := htakenHeld.welcome (c := c) hc
        (by simpa [Stage.isElsewhere] using helsewhere) (by rw [hstage]; rfl) hnodup
      exact .welcomes hheld hcloses hunwatched (hwelcomes.trans hgreets) hgives
  | _ => exact hordinary (by rw [hstage]; rfl)

theorem timeOut (h : Held j s) (env : Surroundings) {c : Call} {wait : Nat} (hc : c ∈ s.calls)
    (hstageIn : s.stageIn? c.id wait = some c.stage) :
    Course j s (s.step env (.timesOut c.id wait)) (.timesOut c.id wait) := by
  have hstep : s.step env (.timesOut c.id wait) = s.timeOut env c.id c.stage := by
    dsimp only [Session.step]
    rw [hstageIn]
  have hown : ∀ d ∈ s.calls, (Event.timesOut c.id wait).caller? = some d.id → d = c := by
    intro d hd hdown
    exact List.inj_on_of_nodup_map h.nodup hd hc (Option.some.inj hdown).symm
  have hends : (∀ k, c.stage ≠ .awaitingBanner k) → s.endsStart (.timesOut c.id wait) = false := by
    intro hother
    unfold endsStart givesUpStart welcomesStart Event.resumes?
    dsimp only
    rw [hstageIn]
    cases hstage : c.stage with
    | awaitingBanner k => exact absurd hstage (hother k)
    | _ => rfl
  cases hstage : c.stage with
  | awaitingBanner k =>
    have hgives : s.givesUpStart (.timesOut c.id wait) = !s.hasGreeted k := by
      unfold givesUpStart
      dsimp only
      rw [hstageIn, hstage]
    rw [hstage] at hstep
    cases hgreeted : s.hasGreeted k with
    | true =>
      refine h.proceed env hc rfl hstageIn ?_ (by simp [hgives, hgreeted])
      rw [hstep, hstage]
      exact if_pos hgreeted
    | false =>
      have hcloses : s.step env (.timesOut c.id wait) = s.close c.id .noPrompt := by
        rw [hstep]
        exact if_neg (ne_true_of_eq_false hgreeted)
      have hnodup := h.nodup_step env (.timesOut c.id wait)
      rw [hcloses] at hnodup ⊢
      obtain ⟨hheld, hcloses, hunwatched⟩ := h.close c.id .noPrompt hnodup
      exact .givesUp hheld hcloses hunwatched (by simp [hgives, hgreeted])
  | closing | launching =>
    have hsame : s.step env (.timesOut c.id wait) = s := by
      rw [hstep, hstage]
      rfl
    rw [hsame]
    exact h.idles (hends fun k => by simp [hstage])
  | _ =>
    have hordinary : c.stage.isOrdinary = true := by rw [hstage]; rfl
    refine h.stays env (hstep ▸ .timeOut hordinary) (fun d hd hdown => ?_)
      (hends fun k => by simp [hstage])
    rw [hown d hd hdown]
    exact Stage.isClosing_of_isOrdinary hordinary

/-- What a peaceful event does to a session that holds a debugger which takes commands. -/
theorem step (h : Held j s) (env : Surroundings) (he : s.isPeaceful j e = true) :
    Course j s (s.step env e) e := by
  obtain ⟨hfresh, hpeaceful⟩ := Bool.and_eq_true_iff.1 he
  have hnew : ∀ c ∈ s.calls, e.asksFor c.id = false := fun c hc => by
    simpa using List.all_eq_true.1 hfresh c hc
  have hnobody : ∀ c ∈ s.calls, (none : Option CallId) = some c.id → c.stage.isClosing = false :=
    fun _ _ h => nomatch h
  cases e with
  | call id operation =>
    have hown : ∀ c ∈ s.calls, some id = some c.id → c.stage.isClosing = false := by
      intro c hc hid
      have hunused := hnew c hc
      simp [Event.asksFor, Option.some.inj hid] at hunused
    cases operation with
    | start path args folder =>
      have hrefused : s.step env (.call id (.start path args folder)) =
          s.answer id (.error .alreadyRunning) := if_pos h.isRunning
      exact h.stays env (hrefused ▸ .answer) hown rfl
    | kill => cases hpeaceful
    | _ =>
      refine h.stays env ?_ hown rfl
      dsimp only [Session.step]
      exact .begin rfl
  | proceeds id wait =>
    cases hstageIn : s.stageIn? id wait with
    | none =>
      have hsame : s.step env (.proceeds id wait) = s := by
        dsimp only [Session.step]
        rw [hstageIn]
      rw [hsame]
      exact h.idles (by simp [endsStart, givesUpStart, welcomesStart, Event.resumes?, hstageIn])
    | some stage =>
      obtain ⟨c, hc, rfl, rfl⟩ := exists_call_of_stageIn? hstageIn
      refine h.proceed env hc rfl hstageIn ?_ rfl
      dsimp only [Session.step]
      rw [hstageIn]
  | timesOut id wait =>
    cases hstageIn : s.stageIn? id wait with
    | none =>
      have hsame : s.step env (.timesOut id wait) = s := by
        dsimp only [Session.step]
        rw [hstageIn]
      rw [hsame]
      exact h.idles (by simp [endsStart, givesUpStart, welcomesStart, Event.resumes?, hstageIn])
    | some stage =>
      obtain ⟨c, hc, rfl, rfl⟩ := exists_call_of_stageIn? hstageIn
      exact h.timeOut env hc hstageIn
  | launched id ok =>
    have hsame : s.step env (.launched id ok) = s := by
      dsimp only [Session.step]
      split
      · rename_i hstage
        obtain ⟨c, hc, -, hlaunching⟩ := exists_call_of_stage? hstage
        have helsewhere := h.calls c hc
        rw [hlaunching] at helsewhere
        cases helsewhere
      · rfl
    rw [hsame]
    exact h.idles rfl
  | processEnded id =>
    have hsame : s.step env (.processEnded id) = s := by
      dsimp only [Session.step]
      split
      · rename_i hstage
        obtain ⟨c, hc, -, hclosing⟩ := exists_call_of_stage? hstage
        have helsewhere := h.calls c hc
        rw [hclosing] at helsewhere
        cases helsewhere
      · rfl
    rw [hsame]
    exact h.idles rfl
  | bridgeLaunched id ok =>
    refine h.goesOn env id rfl rfl ?_
    dsimp only [Session.step]
    split
    · exact Or.inr ⟨_, ‹_›, rfl, .bridgeLaunched⟩
    · exact Or.inl rfl
  | bridgeEnded id =>
    refine h.goesOn env id rfl rfl ?_
    dsimp only [Session.step]
    split
    · exact Or.inr ⟨_, ‹_›, rfl, Steady.endRelay.after rfl rfl rfl⟩
    · exact Or.inl rfl
  | channel k event =>
    refine h.stays env ?_ hnobody rfl
    refine .channel_step fun hk ch => ?_
    subst hk
    cases event with
    | writeBegins serial => exact ch.isClosed_beginWrite _ _
    | writeEnds serial fault => exact ch.isClosed_endWrite _ _
    | prints chunk => exact ch.isClosed_feed _ _
    | outputEnds | outputFails => simp at hpeaceful
  | watches k => exact h.stays env (.watch fun _ => reads_asOpen) hnobody rfl
  | bridgePrints b chunk =>
    refine h.stays env ?_ hnobody rfl
    dsimp only [Session.step]
    split
    · exact .foldl (fun _ _ => .request) _ _
    · exact .refl s
  | bridgeExits b code =>
    refine h.stays env ?_ hnobody rfl
    dsimp only [Session.step]
    split
    · exact .of_eq rfl rfl rfl
    · exact .refl s

/-- What a peaceful event does, with what has been asked for before taken care of. -/
theorem after (h : Held j s) (env : Surroundings) (he : s.isPeaceful j e = true) :
    Course j s (s.after env e) e := by
  have hcleared : Held j { s with outbox := [] } := ⟨h.current, h.isOpen, h.watcher, h.calls, h.nodup⟩
  have hresumes : e.resumes? { s with outbox := [] } = e.resumes? s := by cases e <;> rfl
  have hgives : givesUpStart { s with outbox := [] } e = s.givesUpStart e := by cases e <;> rfl
  have hwelcomes : welcomesStart { s with outbox := [] } e = s.welcomesStart e := by
    unfold welcomesStart
    rw [hresumes]
    rfl
  cases hcleared.step env he with
  | stays held closes watches ends =>
    exact .stays held closes watches (by rwa [endsStart, hgives, hwelcomes] at ends)
  | welcomes held closes watches welcomes givesUp =>
    exact .welcomes held closes watches (hwelcomes ▸ welcomes) (hgives ▸ givesUp)
  | givesUp held closes watches givesUp => exact .givesUp held closes watches (hgives ▸ givesUp)
  | shuts closes shut launches => exact .shuts closes shut launches

/-! ## Runs -/

/-- A session that is held is as it was established as long as no start comes to its end. -/
theorem established_iff (h : Held j s) (hcloses : s.Closes → ¬s.Watches j)
    (hrun : throughout (isPeaceful j) s events = true) :
    (s.afterAll events).Established j ↔ s.Watches j ∧ sometime endsStart s events = false := by
  induction events generalizing s with
  | nil =>
    rw [sometime, and_iff_left rfl]
    exact ⟨fun hest => ⟨hest.watcher, hest.watched⟩,
      fun hwatches => ⟨h.current, hwatches.1, hwatches.2, h.isOpen⟩⟩
  | cons e events ih =>
    obtain ⟨he, hrest⟩ := Bool.and_eq_true_iff.1 hrun
    rw [sometime, Bool.or_eq_false_iff]
    cases h.after e.1 he with
    | stays held closes watches ends =>
      have hlater := ih held (fun hc => mt watches.1 (hcloses (closes.1 hc))) hrest
      rw [watches] at hlater
      rw [and_iff_right ends]
      exact hlater
    | welcomes held closes watches welcomes =>
      refine iff_of_false (fun hest => watches ?_) fun hall => ?_
      · exact ((ih held (fun _ => watches) hrest).1 hest).1
      · rw [endsStart, welcomes, Bool.or_true] at hall
        cases hall.2.1
    | givesUp held closes watches givesUp =>
      refine iff_of_false (fun hest => watches ?_) fun hall => ?_
      · exact ((ih held (fun _ => watches) hrest).1 hest).1
      · rw [endsStart, givesUp, Bool.true_or] at hall
        cases hall.2.1
    | shuts closes shut launches =>
      refine iff_of_false (fun hest => ?_) fun hall => hcloses closes hall.1
      have hshut : ((s.after e.1 e.2).afterAll events).isOpen j = false :=
        shut_afterAll launches shut
      exact Bool.noConfusion (hest.isOpen.symm.trans hshut)

/-- Once no session is being closed, the debugger that was held takes commands exactly if no start has
been given up. -/
theorem isOpen_iff (h : Held j s) (hrun : throughout (isPeaceful j) s events = true)
    (hrests : ¬(s.afterAll events).Closes) :
    (s.afterAll events).isOpen j = true ↔ ¬s.Closes ∧ sometime givesUpStart s events = false := by
  induction events generalizing s with
  | nil => exact iff_of_true h.isOpen ⟨hrests, rfl⟩
  | cons e events ih =>
    obtain ⟨he, hrest⟩ := Bool.and_eq_true_iff.1 hrun
    rw [sometime, Bool.or_eq_false_iff]
    cases h.after e.1 he with
    | stays held closes watches ends =>
      have hlater := ih held hrest hrests
      rw [closes] at hlater
      rw [and_iff_right (Bool.or_eq_false_iff.1 ends).1]
      exact hlater
    | welcomes held closes watches welcomes givesUp =>
      have hlater := ih held hrest hrests
      rw [closes] at hlater
      rw [and_iff_right givesUp]
      exact hlater
    | givesUp held closes watches givesUp =>
      refine iff_of_false (fun hopen => ((ih held hrest hrests).1 hopen).1 closes) fun hall => ?_
      rw [givesUp] at hall
      cases hall.2.1
    | shuts closes shut launches =>
      have hshut : ((s.after e.1 e.2).afterAll events).isOpen j = false :=
        shut_afterAll launches shut
      exact iff_of_false (ne_true_of_eq_false hshut) fun hall => hall.1 closes

end Held

/-- In every run in which nobody kills the session and its debugger does not end: a session that has been
established stays established exactly if no start that waits for the prompt of another debugger comes to
its end, and once no session is being closed, its debugger takes commands exactly if no such start has
been given up. -/
theorem established_afterAll_iff (reached : s.Reached) (established : s.Established j)
    (calm : ∀ c ∈ s.calls, c.stage.isCalm j) (peaceful : throughout (isPeaceful j) s events) :
    ((s.afterAll events).Established j ↔ sometime endsStart s events = false) ∧
      ((∀ c ∈ (s.afterAll events).calls, c.stage.isClosing = false) →
        ((s.afterAll events).isOpen j ↔ sometime givesUpStart s events = false)) := by
  have hheld : Held j s :=
    ⟨established.current, established.isOpen, by rw [established.watcher]; rfl,
      fun c hc => (Bool.and_eq_true_iff.1 (calm c hc)).1, reached.nodup⟩
  have hcloses : ¬s.Closes := by
    rintro ⟨c, hc, hclosing⟩
    have hcalm := (Bool.and_eq_true_iff.1 (calm c hc)).2
    rw [hclosing] at hcalm
    cases hcalm
  constructor
  · rw [hheld.established_iff (fun hc => absurd hc hcloses) peaceful]
    exact and_iff_right ⟨established.watcher, established.watched⟩
  · intro hrests
    rw [hheld.isOpen_iff peaceful, and_iff_right hcloses]
    rintro ⟨c, hc, hclosing⟩
    rw [hrests c hc] at hclosing
    cases hclosing

/-! ## A start that gives up late -/

/-- A debugger is launched that prints no prompt, and killed; the next one prints its prompt and sets the
target running.  The first start still waits. -/
def superseding : List (Surroundings × Event) :=
  [(calm 0.0, .call 0 (.start (some "gdb") [] none)),
    (calm 0.0, .launched 0 true),
    (calm 0.0, .call 1 .kill),
    (calm 0.0, .processEnded 1),
    (calm 0.0, .proceeds 1 3),
    (calm 0.0, .call 2 (.start (some "gdb") [] none)),
    (calm 0.0, .launched 2 true),
    (calm 0.0, .channel 1 (.prints "(gdb) ")),
    (calm 0.0, .proceeds 2 5),
    (calm 0.0, .call 3 (.run .continue)),
    (calm 0.0, .channel 1 (.writeBegins 0)),
    (calm 0.0, .channel 1 (.writeEnds 0 none))]

/-- The first start gives up. -/
def givingUp : List (Surroundings × Event) :=
  [(calm 10.0, .timesOut 0 1),
    (calm 10.0, .proceeds 0 7),
    (calm 10.0, .processEnded 0),
    (calm 10.0, .proceeds 0 9)]

/-- The session of the second debugger. -/
def superseded : Session := (create Settings.default none).afterAll superseding

theorem established_superseded : superseded.Established 1 :=
  ⟨by decide +kernel, by decide +kernel, by decide +kernel, by decide +kernel⟩

/-- The second debugger was established and ran; the start of the first one, which had been killed, gives
up and closes its session: it is not running, not watched, and what was pending has failed. -/
theorem late_failure_kills_successor :
    superseded.Established 1 ∧ superseded.runState = .running ∧
      throughout (isPeaceful 1) superseded givingUp ∧ sometime givesUpStart superseded givingUp ∧
      (superseded.afterAll givingUp).isRunning = false ∧
      (superseded.afterAll givingUp).watched = [] ∧
      (superseded.afterAll givingUp).runState = .stopped ∧
      (superseded.afterAll givingUp).outcomeOf 1 0 matches .failed .killed :=
  ⟨established_superseded, by decide +kernel⟩

/-- The second debugger takes no commands any more, since the start of the first one has been given up. -/
theorem established_afterAll_iff_givingUp :
    ¬(superseded.afterAll givingUp).Established 1 ∧ (superseded.afterAll givingUp).isOpen 1 = false := by
  have reached : superseded.Reached := (Reached.create _ _).afterAll superseding
  have peaceful : throughout (isPeaceful 1) superseded givingUp = true := by decide +kernel
  have hends := established_afterAll_iff reached established_superseded (by decide +kernel) peaceful
  have hgivesUp : sometime givesUpStart superseded givingUp = true := by decide +kernel
  have hended : sometime endsStart superseded givingUp = true := by decide +kernel
  have hrests : ∀ c ∈ (superseded.afterAll givingUp).calls, c.stage.isClosing = false := by
    decide +kernel
  refine ⟨fun hest => ?_, ?_⟩
  · rw [hends.1.1 hest] at hended
    cases hended
  · have hopen := hends.2 hrests
    rw [hgivesUp] at hopen
    simpa using hopen

end Session

end DebugConsole
