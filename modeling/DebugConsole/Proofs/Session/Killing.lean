import DebugConsole.Proofs.Session.Subsiding
import DebugConsole.Proofs.Session.Replies
import DebugConsole.Proofs.Session.Succession

set_option autoImplicit false

/-!
# The course of a kill

A kill tells the watcher to stop, shuts the debugger, waits for the end of its process and for the end of
its reader, and then lets the debugger go.  Whatever else goes on meanwhile, as long as nobody starts
anything, the kill goes on like this until nothing is held (`Session.isClosing_or_isOver_step`).
-/

namespace DebugConsole

theorem Stage.unstarting_of_isOrdinary {stage : Stage} (h : stage.isOrdinary) :
    stage.isStarting = false := by
  cases stage with
  | closing | launching | awaitingBanner => cases h
  | _ => rfl

namespace Session

variable {s s' : Session} {env : Surroundings} {e : Event} {id call : CallId} {k : LaunchId} {c : Call}
  {events : List (Surroundings × Event)}

/-! ## Debuggers that have been shut -/

/-- A debugger has been launched and takes no commands. -/
def IsShut (s : Session) (k : LaunchId) : Prop := k < s.channels.length ∧ s.isOpen k = false

theorem IsShut.after (h : s.IsShut k) (env : Surroundings) (e : Event) : (s.after env e).IsShut k :=
  shut_after env e h.1 h.2

/-- If an operation waits for the end of a process, the debugger has been shut. -/
def ShutFor (s : Session) (stage : Stage) : Prop :=
  ∀ k next, stage = .closing (.process k) next → s.IsShut k

theorem shutFor_of_isFollowedBy {next : Closed} {stage : Stage} (h : next.isFollowedBy stage) :
    s.ShutFor stage := by
  rintro k next' rfl
  cases next <;> cases h

theorem isShut_closeChannel (hcurrent : s.current = some k) (hlt : k < s.channels.length)
    (call : CallId) (next : Closed) : (s.closeChannel call next).IsShut k := by
  obtain ⟨rs, hsuspend⟩ := (s.changeChannel k fun ch => ch.close .killed).suspend_eq call
    (.closing (.process k) next) none
  have hchannels : (s.closeChannel call next).channels =
      s.channels.modify k fun ch => ch.close .killed := by
    rw [closeChannel_of_current hcurrent, hsuspend]
    rfl
  refine ⟨by rw [hchannels, List.length_modify]; exact hlt, ?_⟩
  rw [isOpen, hchannels, List.getElem?_modify_eq, List.getElem?_eq_getElem hlt]
  rfl

/-- The channel is closed: if the operation waits for the process, the debugger has been shut. -/
theorem closeChannel_shuts (hlt : ∀ k, s.current = some k → k < s.channels.length) (call : CallId)
    (next : Closed) :
    Onward call (s.closeChannel call next).ShutFor s (s.closeChannel call next) := by
  refine { Onward.closeChannel with own := fun c hc hid => ?_ }
  have hown := Onward.closeChannel.own c hc hid
  cases hcurrent : s.current with
  | none =>
    unfold ClosesTo at hown
    rw [hcurrent] at hown
    exact shutFor_of_isFollowedBy hown
  | some k =>
    unfold ClosesTo at hown
    rw [hcurrent] at hown
    have hstage : c.stage = .closing (.process k) next := hown
    intro j next' hj
    cases hstage.symm.trans hj
    exact isShut_closeChannel hcurrent (hlt k hcurrent) call next

theorem close_shuts (hlt : ∀ k, s.current = some k → k < s.channels.length) (call : CallId)
    (next : Closed) : Onward call (s.close call next).ShutFor s (s.close call next) := by
  cases hwatcher : s.watcher with
  | none =>
    rw [close_of_none hwatcher]
    exact closeChannel_shuts hlt call next
  | some k =>
    rw [close_of_watcher hwatcher]
    exact ((Onward.suspend (by rintro _ _ ⟨⟩)).noting .letGoOn rfl).after rfl rfl

/-- When a debugger comes up whose prompt cannot be waited for, it is shut at once. -/
theorem launched_shuts (s : Session) (call : CallId) :
    Onward call (s.launched call true).ShutFor s.entered (s.launched call true) := by
  let read := s.entered.request (.read s.channels.length)
  by_cases hspent : isSpent s.settings.commandTimeout
  · have hlaunched : s.launched call true = read.close call .noPrompt := if_pos hspent
    have hlt : ∀ k, read.current = some k → k < read.channels.length := by
      intro k hk
      obtain rfl : s.channels.length = k := Option.some.inj hk
      simp [read, request, entered]
    rw [hlaunched]
    exact (close_shuts hlt call .noPrompt).after rfl rfl
  · have hlaunched : s.launched call true =
        read.suspend call (.awaitingBanner s.channels.length) s.settings.commandTimeout :=
      if_neg hspent
    rw [hlaunched]
    exact (Onward.suspend (by rintro _ _ ⟨⟩)).after rfl rfl

/-- Whoever waits for the end of a process has shut the debugger. -/
theorem shutFor_after (h : ∀ c ∈ s.calls, s.ShutFor c.stage)
    (hlt : ∀ k, s.current = some k → k < s.channels.length) (env : Surroundings) (e : Event) :
    ∀ c ∈ (s.after env e).calls, (s.after env e).ShutFor c.stage := by
  let cleared : Session := { s with outbox := [] }
  have hold : ∀ c ∈ s.calls, (s.after env e).ShutFor c.stage :=
    fun c hc k next hstage => (h c hc k next hstage).after env e
  have honward : ∀ {id : CallId} {s₀ : Session} {P : Stage → Prop}, e.caller? = some id →
      Onward id P s₀ (s.after env e) → (∀ stage, P stage → (s.after env e).ShutFor stage) →
      ∀ c ∈ (s.after env e).calls, (s.after env e).ShutFor c.stage := by
    intro id s₀ P own honward hshuts c hc
    rcases Onward.mem_calls (s := cleared) honward own hc with ⟨hc, -⟩ | hP
    · exact hold c hc
    · exact hshuts _ hP
  cases deed env cleared e with
  | steady h =>
    intro c hc
    rcases h.calls c hc with hc | hordinary
    · exact hold c hc
    · intro k next hstage
      rw [hstage] at hordinary
      cases hordinary
  | @starts id path folder args asked =>
    subst asked
    have hstarts : Onward id (s.after env (.call id (.start path args folder))).ShutFor cleared
        (s.after env (.call id (.start path args folder))) := by
      show Onward id (cleared.start id path args folder).ShutFor cleared
        (cleared.start id path args folder)
      unfold start
      split
      · exact .answer
      · split
        · exact close_shuts (s := cleared) hlt id _
        · exact .launchDebugger (by rintro _ _ ⟨⟩)
    exact honward rfl hstarts fun _ h => h
  | kills asked =>
    subst asked
    exact honward rfl (close_shuts (s := cleared) hlt _ .kill) fun _ h => h
  | @watcherEnds c next hc own stage step =>
    have hshuts := closeChannel_shuts (s := { cleared with watcher := none }) hlt c.id next
    rw [← step] at hshuts
    exact honward own hshuts fun _ h => h
  | @processEnds c k next hc asked stage step =>
    have own : e.caller? = some c.id := by rw [asked]; rfl
    rcases cleared.processEnded_cases c.id k next with hreader | hgone
    · rw [← step] at hreader
      refine honward own hreader ?_
      rintro _ rfl _ _ ⟨⟩
    · rw [← step] at hgone
      exact honward own hgone fun _ => shutFor_of_isFollowedBy
  | @readerEnds c next hc own stage step =>
    have hgone : Onward c.id (next.isFollowedBy ·) { cleared with current := none }
        (cleared.step env e) := step ▸ Onward.readerEnded
    exact honward own hgone fun _ => shutFor_of_isFollowedBy
  | @launches c hc asked stage step =>
    have own : e.caller? = some c.id := by rw [asked]; rfl
    have hshuts := launched_shuts cleared c.id
    rw [← step] at hshuts
    exact honward own hshuts fun _ h => h
  | @welcomes c k banner ch hc own stage step =>
    have hwelcomed : Onward c.id (fun _ => False) (cleared.modifyChannel k fun _ => ch)
        (cleared.step env e) := step ▸ .welcome
    exact honward own hwelcomed fun _ h => h.elim
  | @givesUp c k hc own stage step =>
    have hshuts := close_shuts (s := cleared) hlt c.id .noPrompt
    rw [← step] at hshuts
    exact honward own hshuts fun _ h => h

theorem Reached.shutFor (h : s.Reached) : ∀ c ∈ s.calls, s.ShutFor c.stage := by
  induction h with
  | create => exact fun _ hc => absurd hc List.not_mem_nil
  | after reached env e ih =>
    refine shutFor_after ih (fun k hk => ?_) env e
    obtain ⟨ch, hch⟩ := reached.exists_channel hk
    exact (List.getElem?_eq_some_iff.1 hch).1
  | subscribe _ _ ih | unsubscribe _ _ ih => exact ih

/-! ## While nobody starts anything -/

theorem hold_suspend (s : Session) (call : CallId) (stage : Stage) (limit : Option Float) :
    (s.suspend call stage limit).hold = s.hold := by
  obtain ⟨rs, hsuspend⟩ := s.suspend_eq call stage limit
  rw [hsuspend]
  rfl

theorem watcher_of_hold (h : s'.hold = s.hold) : s'.watcher = s.watcher :=
  (Prod.mk.inj (Prod.mk.inj h).2).1

theorem hold_finishClosing (env : Surroundings) (s : Session) (call : CallId) :
    (s.finishClosing call .kill).hold = s.hold := by
  have hforgone : Steady (Grounded.anyhow env 0).toHandling s (s.reportStop none) := .reportStop
  have hfinished : Steady (Grounded.anyhow env 0).toHandling
      { s.reportStop none with stopTicket := none, runState := .stopped }
      (s.finishClosing call .kill) := .finishKill
  exact hfinished.hold.trans hforgone.hold

theorem hold_closeChannel (env : Surroundings) (s : Session) (call : CallId) :
    (s.closeChannel call .kill).hold = s.hold := by
  cases hcurrent : s.current with
  | none =>
    rw [closeChannel_of_none hcurrent]
    exact hold_finishClosing env s call
  | some k =>
    rw [closeChannel_of_current hcurrent]
    exact hold_suspend ..

theorem watcher_close (env : Surroundings) (s : Session) (call : CallId) :
    (s.close call .kill).watcher = s.watcher := by
  cases hwatcher : s.watcher with
  | none =>
    rw [close_of_none hwatcher]
    exact (watcher_of_hold (hold_closeChannel env s call)).trans hwatcher
  | some k =>
    rw [close_of_watcher hwatcher]
    exact (watcher_of_hold (hold_suspend ..)).trans hwatcher

theorem watcher_processEnded (env : Surroundings) (s : Session) (call : CallId) (k : LaunchId) :
    (s.processEnded call k .kill).watcher = s.watcher := by
  unfold processEnded
  dsimp only
  split
  · exact watcher_of_hold (hold_suspend ..)
  · exact watcher_of_hold (s := { s.modifyChannel k Channel.stopReader with current := none })
      (hold_finishClosing env _ call)

/-- No debugger comes up: what is held stays or is let go, and no start is under way. -/
structure Wanes (s s' : Session) : Prop where
  current : s'.current = s.current ∨ s'.current = none
  watcher : s'.watcher = s.watcher ∨ s'.watcher = none
  calls : ∀ c ∈ s'.calls, c.stage.isStarting = false

namespace Wanes

theorem current_eq_none (h : Wanes s s') (hnone : s.current = none) : s'.current = none :=
  h.current.elim (fun hsame => hsame.trans hnone) fun hgone => hgone

theorem watcher_eq_none (h : Wanes s s') (hnone : s.watcher = none) : s'.watcher = none :=
  h.watcher.elim (fun hsame => hsame.trans hnone) fun hgone => hgone

theorem of_onward {P : Stage → Prop} {s₀ : Session} (h : Onward id P s₀ (s.step env e))
    (own : e.caller? = some id) (hstarting : ∀ c ∈ s.calls, c.stage.isStarting = false)
    (hcurrent : s₀.current = s.current ∨ s₀.current = none)
    (hwatcher : (s.step env e).watcher = s.watcher ∨ (s.step env e).watcher = none)
    (hP : ∀ stage, P stage → stage.isStarting = false) : Wanes s (s.step env e) where
  current := hcurrent.imp h.current.trans h.current.trans
  watcher := hwatcher
  calls := fun c hc => (h.mem_calls own hc).elim (fun hold => hstarting c hold.1) (hP c.stage)

end Wanes

theorem unstarting_of_closesTo {stage : Stage} (h : s.ClosesTo .kill stage) :
    stage.isStarting = false := by
  unfold ClosesTo at h
  split at h
  · rw [h]
    rfl
  · exact Stage.unstarting_of_isOrdinary h

/-- As long as nobody starts anything, no debugger comes up. -/
theorem wanes_step (env : Surroundings) (hstarting : ∀ c ∈ s.calls, c.stage.isStarting = false)
    (he : ∀ id path args folder, e ≠ .call id (.start path args folder)) :
    Wanes s (s.step env e) := by
  cases deed env s e with
  | steady h =>
    obtain ⟨hcurrent, hrest⟩ := Prod.mk.inj h.hold
    exact ⟨Or.inl hcurrent, Or.inl (Prod.mk.inj hrest).1, fun c hc =>
      (h.calls c hc).elim (hstarting c) Stage.unstarting_of_isOrdinary⟩
  | starts asked => exact absurd asked (he _ _ _ _)
  | @kills id asked =>
    subst asked
    have honward : Onward id (fun stage => stage = .closing .watcher .kill ∨ s.ClosesTo .kill stage) s
        (s.step env (.call id .kill)) := .close
    refine .of_onward honward rfl hstarting (Or.inl rfl) (Or.inl (watcher_close env s id)) ?_
    rintro stage (rfl | hcloses)
    · rfl
    · exact unstarting_of_closesTo hcloses
  | @watcherEnds c next hc own stage step =>
    obtain rfl : next = .kill := closing_of_unstarting (stage ▸ hstarting c hc)
    have honward : Onward c.id (ClosesTo { s with watcher := none } .kill) { s with watcher := none }
        (s.step env e) := step ▸ Onward.closeChannel
    refine .of_onward honward own hstarting (Or.inl rfl) (Or.inr ?_) fun _ => unstarting_of_closesTo
    rw [step]
    exact watcher_of_hold (s := { s with watcher := none }) (hold_closeChannel env _ c.id)
  | @processEnds c k next hc asked stage step =>
    obtain rfl : next = .kill := closing_of_unstarting (stage ▸ hstarting c hc)
    have own : e.caller? = some c.id := by rw [asked]; rfl
    have hwatcher : (s.step env e).watcher = s.watcher := step ▸ watcher_processEnded env s c.id k
    rcases s.processEnded_cases c.id k .kill with honward | honward
    · rw [← step] at honward
      refine .of_onward honward own hstarting (Or.inl rfl) (Or.inl hwatcher) ?_
      rintro _ rfl
      rfl
    · rw [← step] at honward
      exact .of_onward honward own hstarting (Or.inr rfl) (Or.inl hwatcher)
        fun _ => Stage.unstarting_of_isOrdinary
  | @readerEnds c next hc own stage step =>
    obtain rfl : next = .kill := closing_of_unstarting (stage ▸ hstarting c hc)
    have honward : Onward c.id (Closed.kill.isFollowedBy ·) { s with current := none } (s.step env e) :=
      step ▸ Onward.readerEnded
    refine .of_onward honward own hstarting (Or.inr rfl) (Or.inl ?_)
      fun _ => Stage.unstarting_of_isOrdinary
    rw [step]
    exact watcher_of_hold (s := { s with current := none }) (hold_finishClosing env _ c.id)
  | launches hc _ stage | welcomes hc _ stage | givesUp hc _ stage =>
    have hstarts := hstarting _ hc
    rw [stage] at hstarts
    cases hstarts

/-! ## A kill -/

/-- A session is over: nothing is held, and no halt is waited for. -/
structure IsOver (s : Session) : Prop where
  current : s.current = none
  watcher : s.watcher = none
  runState : s.runState = .stopped
  stopTicket : s.stopTicket = none

/-- A kill is closing the session; once the watcher has stopped, none is held. -/
def IsClosing (s : Session) (id : CallId) : Prop :=
  ∃ c ∈ s.calls, c.id = id ∧
    ∃ step, c.stage = .closing step .kill ∧ (step = .watcher ∨ s.watcher = none)

theorem isOver_finishClosing (env : Surroundings) (hcurrent : s.current = none)
    (hwatcher : s.watcher = none) (call : CallId) : (s.finishClosing call .kill).IsOver := by
  obtain ⟨hcurrent', hrest⟩ := Prod.mk.inj (hold_finishClosing env s call)
  obtain ⟨hrunState, hticket⟩ := Subsides.finishClosing_ended s call
  exact ⟨hcurrent'.trans hcurrent, (Prod.mk.inj hrest).1.trans hwatcher, hrunState, hticket⟩

/-- The watcher has stopped, if there was one. -/
theorem isClosing_or_isOver_closeChannel (env : Surroundings) (hwatcher : s.watcher = none)
    (id : CallId) : (s.closeChannel id .kill).IsClosing id ∨ (s.closeChannel id .kill).IsOver := by
  have hunwatched : (s.closeChannel id .kill).watcher = none :=
    (watcher_of_hold (hold_closeChannel env s id)).trans hwatcher
  cases hcurrent : s.current with
  | none =>
    rw [closeChannel_of_none hcurrent]
    exact Or.inr (isOver_finishClosing env hcurrent hwatcher id)
  | some k => exact Or.inl ⟨_, mem_closeChannel hcurrent id .kill, rfl, _, rfl, Or.inr hunwatched⟩

/-- The process has ended, if there was one. -/
theorem isClosing_or_isOver_processEnded (env : Surroundings) (hwatcher : s.watcher = none)
    (id : CallId) (k : LaunchId) :
    (s.processEnded id k .kill).IsClosing id ∨ (s.processEnded id k .kill).IsOver := by
  unfold processEnded
  dsimp only
  split
  · have hunwatched : ((s.modifyChannel k Channel.stopReader).suspend id (.closing .reader .kill)
        none).watcher = none := (watcher_of_hold (hold_suspend ..)).trans hwatcher
    exact Or.inl ⟨_, mem_suspend _ id (.closing .reader .kill) none, rfl, .reader, rfl,
      Or.inr hunwatched⟩
  · exact Or.inr (isOver_finishClosing
      (s := { s.modifyChannel k Channel.stopReader with current := none }) env rfl hwatcher id)

/-- What happens to a kill that closes the session. -/
theorem isClosing_or_isOver_own {step : Closing} (hnodup : (s.calls.map Call.id).Nodup)
    (env : Surroundings) (hc : c ∈ s.calls) (hstage : c.stage = .closing step .kill)
    (hwatcher : step = .watcher ∨ s.watcher = none) (own : e.caller? = some c.id)
    (he : e.asksFor c.id = false) : (s.step env e).IsClosing c.id ∨ (s.step env e).IsOver := by
  have hsame : s.step env e = s → (s.step env e).IsClosing c.id := by
    intro hsame
    rw [hsame]
    exact ⟨c, hc, rfl, step, hstage, hwatcher⟩
  have hproceeds : c.stage.awaitsWorld = false →
      s.step env e = s ∨ s.step env e = s.proceed env c.id (.closing step .kill) := by
    intro hworld
    rcases step_of_mem env hnodup hc hworld own he with h | ⟨-, h⟩ | ⟨-, h⟩
    · exact Or.inl h
    · exact Or.inr (hstage ▸ h)
    · rw [hstage] at h
      exact Or.inl h
  cases step with
  | watcher =>
    rcases hproceeds (by rw [hstage]; rfl) with h | h
    · exact Or.inl (hsame h)
    · rw [h]
      exact isClosing_or_isOver_closeChannel (s := { s with watcher := none }) env rfl c.id
  | process k =>
    rcases step_of_closing_process env hnodup hc hstage own he with h | ⟨-, h⟩
    · exact Or.inl (hsame h)
    · rw [h]
      exact isClosing_or_isOver_processEnded env (hwatcher.resolve_left fun h => by cases h) c.id k
  | reader =>
    rcases hproceeds (by rw [hstage]; rfl) with h | h
    · exact Or.inl (hsame h)
    · rw [h]
      exact Or.inr (isOver_finishClosing (s := { s with current := none }) env rfl
        (hwatcher.resolve_left fun h => by cases h) c.id)

/-- A kill goes on closing the session until this is over, and over it stays as long as nothing stirs. -/
theorem isClosing_or_isOver_step (hnodup : (s.calls.map Call.id).Nodup)
    (hstarting : ∀ c ∈ s.calls, c.stage.isStarting = false) (env : Surroundings)
    (uncalled : ∀ id operation, e ≠ .call id operation)
    (settles : s.current = none → s.stirs e = false) (h : s.IsClosing id ∨ s.IsOver) :
    (s.step env e).IsClosing id ∨ (s.step env e).IsOver := by
  have hwanes : Wanes s (s.step env e) := wanes_step env hstarting fun _ _ _ _ => uncalled _ _
  rcases h with ⟨c, hc, rfl, step, hstage, hwatcher⟩ | hover
  · by_cases own : e.caller? = some c.id
    · have hasks : e.asksFor c.id = false := by
        cases e with
        | call id operation => exact absurd rfl (uncalled id operation)
        | _ => rfl
      exact isClosing_or_isOver_own hnodup env hc hstage hwatcher own hasks
    · exact Or.inl ⟨c, (acts_step_any s env e).mem_calls own hc, rfl, step, hstage,
        hwatcher.imp_right hwanes.watcher_eq_none⟩
  · have hsubsides : Subsides s (s.step env e) := .step hstarting (settles hover.current)
    exact Or.inr ⟨hwanes.current_eq_none hover.current, hwanes.watcher_eq_none hover.watcher,
      hsubsides.runState.elim (fun hsame => hsame.trans hover.runState) fun hstopped => hstopped,
      hsubsides.ticket hover.stopTicket⟩

end Session

end DebugConsole
