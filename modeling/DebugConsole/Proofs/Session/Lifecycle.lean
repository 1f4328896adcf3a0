import DebugConsole.Proofs.Session.Hearing
import DebugConsole.Proofs.Session.Takeover

set_option autoImplicit false

/-!
# Steps that begin or end a debugger

Only a start, a kill and what these come to by and by begin or end a debugger; `Session.Deed` lists
such steps, and whatever else happens is steady.  So the debugger that a session holds changes in two
ways: it is let go at the end of a closing, and another one comes up at the end of a launch.
-/

namespace DebugConsole

/-- May an operation that has closed a session wait like this? -/
def Closed.isFollowedBy : Closed → Stage → Bool
  | .restart .., .launching => true
  | .kill, stage => stage.isOrdinary
  | _, _ => false

namespace Session

variable {s s' s'' : Session} {env : Surroundings} {e : Event} {call : CallId} {k : LaunchId}
  {P : Stage → Prop} {c : Call}

/-! ## Closing -/

/-- The session holds the debugger that it held, and if the operation waits, it waits in a certain
way. -/
structure Onward (call : CallId) (P : Stage → Prop) (s s' : Session) : Prop where
  current : s'.current = s.current
  launches : s'.channels.length = s.channels.length
  own : ∀ c ∈ s'.calls, c.id = call → P c.stage

namespace Onward

/-- Changes that are not about operations, and then a step of the operation. -/
theorem after (h : Onward call P s' s'') (hcurrent : s'.current = s.current)
    (hlaunches : s'.channels.length = s.channels.length) : Onward call P s s'' :=
  ⟨h.current.trans hcurrent, h.launches.trans hlaunches, h.own⟩

/-- A step of the operation, and then changes that are not about operations. -/
theorem noting (h : Onward call P s s') (hnotes : Notes s' s'') (hcurrent : s''.current = s'.current) :
    Onward call P s s'' :=
  ⟨hcurrent.trans h.current, hnotes.launches.trans h.launches, fun c hc => h.own c (hnotes.calls ▸ hc)⟩

theorem answer {result : Except SessionFault Result} : Onward call P s (s.answer call result) :=
  ⟨rfl, rfl, fun c hc hid => by simpa [hid] using (List.mem_filter.1 hc).2⟩

theorem suspend {stage : Stage} {limit : Option Float} (h : P stage) :
    Onward call P s (s.suspend call stage limit) := by
  obtain ⟨rs, hsuspend⟩ := s.suspend_eq call stage limit
  rw [hsuspend]
  refine ⟨rfl, rfl, fun c hc hid => ?_⟩
  rcases mem_calls_waiting hc with ⟨-, hne⟩ | rfl
  · exact absurd hid hne
  · exact h

theorem launchDebugger {path folder : Option String} {args : List String} (h : P .launching) :
    Onward call P s (s.launchDebugger call path args folder) := by
  unfold Session.launchDebugger
  split
  · exact answer
  · exact (suspend h).noting (.request rfl) rfl

theorem endRelay (h : ∀ stage : Stage, stage.isOrdinary → P stage) :
    Onward call P s (s.endRelay call .kill) := by
  unfold Session.endRelay
  split
  · exact answer
  · split
    · exact ((suspend (h _ rfl)).noting .letGoOn rfl).after rfl rfl
    · exact answer.after rfl rfl

theorem finishKill (h : ∀ stage : Stage, stage.isOrdinary → P stage) :
    Onward call P s (s.finishKill call) := by
  unfold Session.finishKill
  split
  · exact answer
  · split
    · dsimp only
      split
      · exact answer
      · have hlogged : ∀ message, Inward s (s.log .error message) := fun _ => .log
        exact answer.after (hlogged _).current (congrArg List.length (hlogged _).channels)
    · split
      · unfold Session.endBridge
        split
        · exact endRelay h
        · exact (suspend (h _ rfl)).noting (.request rfl) rfl
      · exact answer

theorem finishClosing {next : Closed} :
    Onward call (next.isFollowedBy ·) s (s.finishClosing call next) := by
  have hforgone : Inward s (s.reportStop none) := .reportStop
  have hlaunches : (s.reportStop none).channels.length = s.channels.length :=
    congrArg List.length hforgone.channels
  have hfollows : ∀ path args folder, (Closed.restart path args folder).isFollowedBy .launching :=
    fun _ _ _ => rfl
  unfold Session.finishClosing
  dsimp only
  split
  · exact Onward.after (launchDebugger (hfollows _ _ _)) hforgone.current hlaunches
  · exact answer.after hforgone.current hlaunches
  · exact (finishKill fun _ h => h).after hforgone.current hlaunches

end Onward

/-- Where an operation waits that has told the watcher to stop and closes the channel: for the end of
the debugger that is held, or for nothing of the kind. -/
def ClosesTo (s : Session) (next : Closed) (stage : Stage) : Prop :=
  match s.current with
  | some k => stage = .closing (.process k) next
  | none => next.isFollowedBy stage

theorem closeChannel_of_current (h : s.current = some k) (call : CallId) (next : Closed) :
    s.closeChannel call next = ((s.changeChannel k fun ch => ch.close .killed).suspend call
      (.closing (.process k) next) none).request (.endProcess call k) := by
  unfold closeChannel
  rw [h]

theorem closeChannel_of_none (h : s.current = none) (call : CallId) (next : Closed) :
    s.closeChannel call next = s.finishClosing call next := by
  unfold closeChannel
  rw [h]

theorem Onward.closeChannel {next : Closed} :
    Onward call (s.ClosesTo next) s (s.closeChannel call next) := by
  cases hcurrent : s.current with
  | none =>
    rw [closeChannel_of_none hcurrent]
    have hfinished : Onward call (next.isFollowedBy ·) s (s.finishClosing call next) := finishClosing
    have hcloses : ∀ stage : Stage, next.isFollowedBy stage → s.ClosesTo next stage := by
      intro stage h
      unfold ClosesTo
      rw [hcurrent]
      exact h
    exact { hfinished with own := fun c hc hid => hcloses _ (hfinished.own c hc hid) }
  | some k =>
    rw [closeChannel_of_current hcurrent]
    have hstage : s.ClosesTo next (.closing (.process k) next) := by
      unfold ClosesTo
      rw [hcurrent]
    refine ((suspend hstage).noting (.request rfl) rfl).after rfl ?_
    exact (congrArg List.length (s.channels_changeChannel k _)).trans (List.length_modify ..)

theorem close_of_watcher (h : s.watcher = some k) (call : CallId) (next : Closed) :
    s.close call next = ({ s with watched := s.watched.filter (· != k) }.suspend call
      (.closing .watcher next) none).letGoOn call := by
  unfold close
  rw [h]

theorem close_of_none (h : s.watcher = none) (call : CallId) (next : Closed) :
    s.close call next = s.closeChannel call next := by
  unfold close
  rw [h]

/-- A session is closed: its watcher is told to stop, or it has none. -/
theorem Onward.close {next : Closed} :
    Onward call (fun stage => stage = .closing .watcher next ∨ s.ClosesTo next stage) s
      (s.close call next) := by
  cases hwatcher : s.watcher with
  | none =>
    rw [close_of_none hwatcher]
    exact { Onward.closeChannel with
      own := fun c hc hid => Or.inr (Onward.closeChannel.own c hc hid) }
  | some k =>
    rw [close_of_watcher hwatcher]
    exact ((suspend (Or.inl rfl)).noting .letGoOn rfl).after rfl rfl

theorem Onward.readerEnded {next : Closed} :
    Onward call (next.isFollowedBy ·) { s with current := none } (s.readerEnded call next) :=
  .finishClosing

/-- The process has ended: its reader is told to stop, or the debugger is let go at once. -/
theorem processEnded_cases (s : Session) (call : CallId) (k : LaunchId) (next : Closed) :
    Onward call (· = .closing .reader next) s (s.processEnded call k next) ∨
      Onward call (next.isFollowedBy ·) { s with current := none } (s.processEnded call k next) := by
  unfold processEnded
  dsimp only
  have hlength : (s.modifyChannel k Channel.stopReader).channels.length = s.channels.length :=
    List.length_modify ..
  split
  · have hstops : Onward call (· = .closing .reader next) (s.modifyChannel k Channel.stopReader)
        ((s.modifyChannel k Channel.stopReader).suspend call (.closing .reader next) none) :=
      .suspend rfl
    exact Or.inl ((hstops.noting .letGoOn rfl).after rfl hlength)
  · have hended : Onward call (next.isFollowedBy ·)
        { s.modifyChannel k Channel.stopReader with current := none }
        ((s.modifyChannel k Channel.stopReader).readerEnded call next) := .readerEnded
    exact Or.inr (hended.after rfl hlength)

/-! ## Launching -/

/-- A debugger comes up: its prompt is waited for, or, if nothing can be waited for, the session is
closed at once. -/
theorem Onward.launched (s : Session) (call : CallId) :
    Onward call (fun stage => stage = .awaitingBanner s.channels.length ∨
      stage = .closing .watcher .noPrompt ∨ stage = .closing (.process s.channels.length) .noPrompt)
      s.entered (s.launched call true) := by
  by_cases hspent : isSpent s.settings.commandTimeout
  · have hlaunched : s.launched call true =
        (s.entered.request (.read s.channels.length)).close call .noPrompt := if_pos hspent
    have hcloses : ClosesTo (s.entered.request (.read s.channels.length)) .noPrompt =
        (· = .closing (.process s.channels.length) .noPrompt) := rfl
    rw [hlaunched]
    refine ⟨Onward.close.current, Onward.close.launches, fun c hc hid => ?_⟩
    have hown := Onward.close.own c hc hid
    rw [hcloses] at hown
    exact Or.inr hown
  · have hlaunched : s.launched call true =
        (s.entered.request (.read s.channels.length)).suspend call
          (.awaitingBanner s.channels.length) s.settings.commandTimeout := if_neg hspent
    rw [hlaunched]
    exact (suspend (Or.inl rfl)).after rfl rfl

theorem Onward.welcome {banner : Frame} : Onward call P s (s.welcome call k banner) := by
  have hlogged : Inward s (if banner.lines.isEmpty then s else s.log .warning (joined banner.lines)) := by
    split
    · exact .refl s
    · exact .log
  exact answer.after hlogged.current (congrArg List.length hlogged.channels)

/-! ## Steps -/

/-- What a step does, as far as debuggers begin or end. -/
inductive Deed (env : Surroundings) (s : Session) (e : Event) : Prop
  | steady (h : Steady (Grounded.anyhow env 0).toHandling s (s.step env e))
  | starts {id : CallId} {path folder : Option String} {args : List String}
      (asked : e = .call id (.start path args folder))
  | kills {id : CallId} (asked : e = .call id .kill)
  | watcherEnds {c : Call} {next : Closed} (hc : c ∈ s.calls) (own : e.caller? = some c.id)
      (stage : c.stage = .closing .watcher next)
      (step : s.step env e = { s with watcher := none }.closeChannel c.id next)
  | processEnds {c : Call} {k : LaunchId} {next : Closed} (hc : c ∈ s.calls)
      (asked : e = .processEnded c.id) (stage : c.stage = .closing (.process k) next)
      (step : s.step env e = s.processEnded c.id k next)
  | readerEnds {c : Call} {next : Closed} (hc : c ∈ s.calls) (own : e.caller? = some c.id)
      (stage : c.stage = .closing .reader next) (step : s.step env e = s.readerEnded c.id next)
  | launches {c : Call} (hc : c ∈ s.calls) (asked : e = .launched c.id true)
      (stage : c.stage = .launching) (step : s.step env e = s.launched c.id true)
  | welcomes {c : Call} {k : LaunchId} {banner : Frame} {ch : Channel} (hc : c ∈ s.calls)
      (own : e.caller? = some c.id) (stage : c.stage = .awaitingBanner k)
      (step : s.step env e = (s.modifyChannel k fun _ => ch).welcome c.id k banner)
  | givesUp {c : Call} {k : LaunchId} (hc : c ∈ s.calls) (own : e.caller? = some c.id)
      (stage : c.stage = .awaitingBanner k) (step : s.step env e = s.close c.id .noPrompt)

namespace Deed

theorem idles (h : s.step env e = s) : Deed env s e := by
  have hsteady : Steady (Grounded.anyhow env 0).toHandling s (s.step env e) := by
    rw [h]
    exact .refl s
  exact .steady hsteady

theorem proceeds (hc : c ∈ s.calls) (own : e.caller? = some c.id)
    (h : s.step env e = s.proceed env c.id c.stage) : Deed env s e := by
  cases hstage : c.stage with
  | closing step next =>
    rw [hstage] at h
    cases step with
    | watcher => exact .watcherEnds hc own hstage h
    | process => exact .idles h
    | reader => exact .readerEnds hc own hstage h
  | launching =>
    rw [hstage] at h
    exact .idles h
  | awaitingBanner k =>
    rw [hstage] at h
    cases hgreeted : (s.channels[k]?).bind Channel.takeUnsolicited with
    | none =>
      simp only [Session.proceed, hgreeted] at h
      exact .idles h
    | some taken =>
      simp only [Session.proceed, hgreeted] at h
      exact .welcomes hc own hstage h
  | _ =>
    have hordinary : c.stage.isOrdinary := by rw [hstage]; rfl
    exact .steady (h ▸ .proceed hordinary)

theorem timesOut (hc : c ∈ s.calls) (own : e.caller? = some c.id)
    (h : s.step env e = s.timeOut env c.id c.stage) : Deed env s e := by
  cases hstage : c.stage with
  | awaitingBanner k =>
    by_cases hgreeted : ((s.channels[k]?).any fun ch => !ch.unsolicited.isEmpty) = true
    · refine .proceeds hc own (h.trans ?_)
      rw [hstage]
      exact if_pos hgreeted
    · refine .givesUp hc own hstage (h.trans ?_)
      rw [hstage]
      exact if_neg hgreeted
  | closing | launching =>
    rw [hstage] at h
    exact .idles h
  | _ =>
    have hordinary : c.stage.isOrdinary := by rw [hstage]; rfl
    exact .steady (h ▸ .timeOut hordinary)

end Deed

/-- Every step is a deed of one of these kinds. -/
theorem deed (env : Surroundings) (s : Session) (e : Event) : Deed env s e := by
  cases e with
  | call id operation =>
    cases operation with
    | start path args folder => exact .starts rfl
    | kill => exact .kills rfl
    | _ =>
      refine .steady ?_
      dsimp only [step]
      exact .begin rfl
  | proceeds id wait =>
    cases hstage : s.stageIn? id wait with
    | none => exact .idles (by simp only [step, hstage])
    | some stage =>
      obtain ⟨c, hc, rfl, rfl⟩ := exists_call_of_stageIn? hstage
      exact .proceeds hc rfl (by simp only [step, hstage])
  | timesOut id wait =>
    cases hstage : s.stageIn? id wait with
    | none => exact .idles (by simp only [step, hstage])
    | some stage =>
      obtain ⟨c, hc, rfl, rfl⟩ := exists_call_of_stageIn? hstage
      exact .timesOut hc rfl (by simp only [step, hstage])
  | launched id ok =>
    by_cases hlaunching : s.stage? id = some .launching
    · have hstep : s.step env (.launched id ok) = s.launched id ok := by
        simp only [step, hlaunching]
      cases ok with
      | false => exact .steady (hstep ▸ .answer)
      | true =>
        obtain ⟨c, hc, rfl, hstage⟩ := exists_call_of_stage? hlaunching
        exact .launches hc rfl hstage hstep
    · refine .idles ?_
      dsimp only [step]
      split
      · exact absurd ‹_› hlaunching
      · rfl
  | processEnded id =>
    by_cases hclosing : ∃ k next, s.stage? id = some (.closing (.process k) next)
    · obtain ⟨k, next, hclosing⟩ := hclosing
      obtain ⟨c, hc, rfl, hstage⟩ := exists_call_of_stage? hclosing
      exact .processEnds hc rfl hstage (by simp only [step, hclosing])
    · refine .idles ?_
      dsimp only [step]
      split
      · exact absurd ⟨_, _, ‹_›⟩ hclosing
      · rfl
  | bridgeLaunched id ok =>
    refine .steady ?_
    dsimp only [step]
    split
    · exact .bridgeLaunched
    · exact .refl s
  | bridgeEnded id =>
    refine .steady ?_
    dsimp only [step]
    split
    · exact Steady.endRelay.after rfl rfl rfl
    · exact .refl s
  | channel k event => exact .steady (.channel_step fun _ _ => trivial)
  | watches k => exact .steady (.watch fun _ _ _ _ _ => trivial)
  | bridgePrints b chunk =>
    refine .steady ?_
    dsimp only [step]
    split
    · exact .foldl (fun _ _ => .request) _ _
    · exact .refl s
  | bridgeExits b code =>
    refine .steady ?_
    dsimp only [step]
    split
    · exact .of_eq rfl rfl rfl
    · exact .refl s

/-- Every debugger of a session has been launched before, or has come up just now. -/
theorem launches_cases (env : Surroundings) (s : Session) (e : Event) :
    (s.step env e).channels.length = s.channels.length ∨
      ∃ c ∈ s.calls, e = .launched c.id true ∧ c.stage = .launching ∧
        s.step env e = s.launched c.id true := by
  cases s.deed env e with
  | steady h => exact Or.inl h.launches
  | starts asked =>
    rename_i id path folder args
    refine Or.inl ?_
    rw [asked]
    dsimp only [step, begin]
    unfold start
    split
    · rfl
    · split
      · exact Onward.close.launches
      · have hlaunches : Onward id (· = .launching) s (s.launchDebugger id path args folder) :=
          .launchDebugger rfl
        exact hlaunches.launches
  | kills asked =>
    rw [asked]
    exact Or.inl Onward.close.launches
  | watcherEnds hc own stage hstep => exact Or.inl (hstep ▸ Onward.closeChannel.launches)
  | processEnds hc asked stage hstep =>
    rw [hstep]
    exact Or.inl ((s.processEnded_cases _ _ _).elim Onward.launches Onward.launches)
  | readerEnds hc own stage hstep => exact Or.inl (hstep ▸ Onward.readerEnded.launches)
  | launches hc asked stage hstep => exact Or.inr ⟨_, hc, asked, stage, hstep⟩
  | @welcomes c k banner ch hc own stage hstep =>
    have hwelcome : Onward c.id (fun _ => True) (s.modifyChannel k fun _ => ch)
        ((s.modifyChannel k fun _ => ch).welcome c.id k banner) := .welcome
    exact Or.inl (hstep ▸ hwelcome.launches.trans (List.length_modify ..))
  | givesUp hc own stage hstep => exact Or.inl (hstep ▸ Onward.close.launches)

end Session

end DebugConsole
