import DebugConsole.Proofs.Session.Steadiness

set_option autoImplicit false

/-!
# What a session does to a debugger

Whatever happens outside a debugger, a session does nothing to its channel but to give commands and to
give them up, to take frames that answer nothing, to close it and to stop its reader
(`Session.Deals.step`).  Frames that answer nothing are taken if the debugger is watched, and by the start
that waits for its prompt; only that start has it watched.
-/

namespace DebugConsole

namespace Session

variable {s s' s'' : Session} {env : Surroundings} {e : Event} {call : CallId} {j k : LaunchId}
  {reads : Prop}

/-- The frame that a start takes for what its debugger has printed before the first prompt. -/
def greeting? (s : Session) (j : LaunchId) (e : Event) : Option Frame :=
  match e.resumes? s with
  | some (.awaitingBanner k) =>
    if k = j then ((s.channels[k]?).bind Channel.takeUnsolicited).map Prod.fst else none
  | _ => none

@[simp] theorem greeting?_clear (s : Session) (j : LaunchId) (e : Event) :
    { s with outbox := [] }.greeting? j e = s.greeting? j e := by cases e <;> rfl

/-- What becomes of a debugger's channel when a session may be closed, too. -/
structure Dealing (env : Surroundings) (j : LaunchId) extends Handling env j where
  close : ∀ n ch, rel (n, ch) (n, ch.close .killed)
  stopReader : ∀ n ch, rel (n, ch) (n, ch.stopReader)

/-- Only as much is done to a debugger's channel, and nobody comes to wait for its prompt.  It may come to
be watched when its prompt is read. -/
structure Deals (D : Dealing env j) (reads : Prop) (s s' : Session) : Prop where
  channel : ∀ ch, s.channels[j]? = some ch →
    ∃ ch', s'.channels[j]? = some ch' ∧ D.rel (s.nextId, ch) (s'.nextId, ch')
  numbers : s.nextId ≤ s'.nextId
  awaiting : ∀ c ∈ s'.calls, c.stage = .awaitingBanner j → c ∈ s.calls
  watched : j ∈ s'.watched → j ∈ s.watched ∨ reads

namespace Deals

variable {D : Dealing env j}

theorem trans (h : Deals D reads s s') (h' : Deals D reads s' s'') : Deals D reads s s'' where
  channel := by
    intro ch hch
    obtain ⟨ch', hch', hrel⟩ := h.channel ch hch
    obtain ⟨ch'', hch'', hrel'⟩ := h'.channel ch' hch'
    exact ⟨ch'', hch'', D.trans hrel hrel'⟩
  numbers := Int.le_trans h.numbers h'.numbers
  awaiting := fun c hc hstage => h.awaiting c (h'.awaiting c hc hstage) hstage
  watched := fun hwatched => (h'.watched hwatched).elim h.watched Or.inr

theorem steady (h : Steady D.toHandling s s') : Deals D reads s s' where
  channel := h.channel
  numbers := h.numbers
  awaiting := by
    intro c hc hstage
    refine (h.calls c hc).resolve_right fun hordinary => ?_
    rw [hstage] at hordinary
    cases hordinary
  watched := by
    intro hwatched
    have hhold : s'.watched = s.watched := congrArg (fun hold => hold.2.2) h.hold
    exact Or.inl (hhold ▸ hwatched)

/-- Nothing is said of channels, of watchers and of who waits for a prompt. -/
theorem of_eq (htraffic : s'.traffic = s.traffic) (hcalls : s'.calls = s.calls)
    (hwatched : s'.watched = s.watched) : Deals D reads s s' := by
  have hsteady : Steady D.toHandling s { s with channels := s'.channels, nextId := s'.nextId } :=
    .of_eq rfl htraffic rfl
  exact {
    channel := hsteady.channel
    numbers := hsteady.numbers
    awaiting := fun _ hc _ => hcalls ▸ hc
    watched := fun h => Or.inl (hwatched ▸ h) }

theorem refl (s : Session) : Deals D reads s s := .of_eq rfl rfl rfl

theorem after (h : Deals D reads s' s'') (htraffic : s'.traffic = s.traffic)
    (hcalls : s'.calls = s.calls) (hwatched : s'.watched = s.watched) : Deals D reads s s'' :=
  (of_eq htraffic hcalls hwatched).trans h

theorem suspend {stage : Stage} {limit : Option Float} (h : stage ≠ .awaitingBanner j) :
    Deals D reads s (s.suspend call stage limit) := by
  have hwaiting : Deals D reads s (s.waiting call stage limit) := by
    refine { (refl s : Deals D reads s s) with awaiting := fun c hc hstage => ?_ }
    rcases mem_calls_waiting hc with ⟨hc, -⟩ | rfl
    · exact hc
    · exact absurd hstage h
  obtain ⟨rs, hsuspend⟩ := s.suspend_eq call stage limit
  rw [hsuspend]
  exact hwaiting.trans (of_eq rfl rfl rfl)

/-! ## Closing -/

theorem launchDebugger {path folder : Option String} {args : List String} :
    Deals D reads s (s.launchDebugger call path args folder) := by
  unfold Session.launchDebugger
  split
  · exact steady .answer
  · exact (suspend (by nofun)).trans (of_eq rfl rfl rfl)

theorem finishClosing {next : Closed} : Deals D reads s (s.finishClosing call next) := by
  have hforgone : Deals D reads s
      { s.reportStop none with stopTicket := none, runState := .stopped } :=
    (steady .reportStop).trans (of_eq rfl rfl rfl)
  unfold Session.finishClosing
  dsimp only
  split
  · exact hforgone.trans launchDebugger
  · exact hforgone.trans (steady .answer)
  · exact hforgone.trans (steady .finishKill)

theorem closeChannel {next : Closed} : Deals D reads s (s.closeChannel call next) := by
  unfold Session.closeChannel
  split
  · exact finishClosing
  · rename_i k hk
    have hclosed : Deals D reads s (s.changeChannel k fun ch => ch.close .killed) :=
      steady (.changeChannel fun _ ch _ => D.close _ ch)
    exact (hclosed.trans (suspend (by nofun))).trans (of_eq rfl rfl rfl)

theorem close {next : Closed} : Deals D reads s (s.close call next) := by
  unfold Session.close
  split
  · exact closeChannel
  · rename_i k hk
    have hunwatched : Deals D reads s { s with watched := s.watched.filter (· != k) } :=
      { (refl s : Deals D reads s s) with watched := fun h => Or.inl (List.mem_filter.1 h).1 }
    exact (hunwatched.trans (suspend (by nofun))).trans (steady .letGoOn)

theorem readerEnded {next : Closed} : Deals D reads s (s.readerEnded call next) :=
  finishClosing.after rfl rfl rfl

/-- The process has ended and its output is not read any more. -/
theorem processEnded_stopped {next : Closed} :
    Deals D reads (s.modifyChannel k Channel.stopReader) (s.processEnded call k next) := by
  unfold Session.processEnded
  dsimp only
  split
  · exact (suspend (by nofun)).trans (steady .letGoOn)
  · exact readerEnded

theorem processEnded {next : Closed} : Deals D reads s (s.processEnded call k next) := by
  have hstopped : Deals D reads s (s.modifyChannel k Channel.stopReader) :=
    steady (.modifyChannel fun _ ch _ => D.stopReader _ ch)
  exact hstopped.trans processEnded_stopped

/-! ## Starting -/

theorem welcome {banner : Frame} (hreads : k = j → reads) :
    Deals D reads s (s.welcome call k banner) := by
  have hready : ∀ s : Session, Deals D reads s ({ s with
      runState := .stopped
      watcher := some k
      watched := s.watched ++ [k] }.request (.watch k)) := by
    intro s
    refine { (refl s : Deals D reads s s) with watched := fun h => ?_ }
    exact (List.mem_append.1 h).imp_right fun hk => hreads (List.mem_singleton.1 hk).symm
  unfold Session.welcome
  dsimp only
  split
  · exact (hready s).trans (steady .answer)
  · exact ((steady .log).trans (hready _)).trans (steady .answer)

/-- Another debugger is launched. -/
theorem launched {ok : Bool} (hne : ok = true → j ≠ s.channels.length) :
    Deals D reads s (s.launched call ok) := by
  unfold Session.launched
  dsimp only
  split
  · exact steady .answer
  · rename_i hok
    have hother : j ≠ s.channels.length := hne (by simpa using hok)
    have hentered : Deals D reads s ({ s with
        channels := s.channels ++ [(Channel.create s.settings.prompt).startReader]
        current := some s.channels.length }.request (.read s.channels.length)) := by
      refine { (refl s : Deals D reads s s) with channel := fun ch hch => ⟨ch, ?_, D.refl _⟩ }
      exact (List.getElem?_append_left (List.getElem?_eq_some_iff.1 hch).1).trans hch
    split
    · exact hentered.trans close
    · refine hentered.trans (suspend fun hstage => hother ?_)
      exact (Stage.awaitingBanner.inj hstage).symm

/-- When a debugger has just been launched, only the start that has launched it waits for its prompt. -/
theorem launched_own (s : Session) (call : CallId) (D : Dealing env j) :
    ∃ s', Deals D False s.entered s' ∧ (s.launched call true).traffic = s'.traffic ∧
      (s.launched call true).watched = s'.watched ∧
      ∀ c ∈ (s.launched call true).calls, c ∈ s'.calls ∨ c.id = call := by
  let read := s.entered.request (.read s.channels.length)
  have hentered : Deals D False s.entered read := of_eq rfl rfl rfl
  by_cases hspent : isSpent s.settings.commandTimeout
  · have hlaunched : s.launched call true = read.close call .noPrompt := if_pos hspent
    rw [hlaunched]
    exact ⟨_, hentered.trans close, rfl, rfl, fun _ hc => Or.inl hc⟩
  · have hlaunched : s.launched call true = read.suspend call
        (.awaitingBanner s.channels.length) s.settings.commandTimeout := if_neg hspent
    obtain ⟨rs, hsuspend⟩ := read.suspend_eq call _ s.settings.commandTimeout
    rw [hlaunched, hsuspend]
    refine ⟨_, hentered, rfl, rfl, fun c hc => ?_⟩
    exact (mem_calls_waiting hc).imp And.left (congrArg Call.id)

/-! ## Steps -/

theorem begin {operation : Operation} : Deals D reads s (s.begin env call operation) := by
  cases operation with
  | start path args folder =>
    dsimp only [Session.begin]
    unfold Session.start
    split
    · exact steady .answer
    · split
      · exact close
      · exact launchDebugger
  | kill => exact close
  | _ => exact steady (.begin rfl)

/-- An operation goes on; it may be the start that waits for the debugger's prompt. -/
theorem proceed {stage : Stage}
    (hgreets : ∀ banner ch, stage = .awaitingBanner j →
      (s.channels[j]?).bind Channel.takeUnsolicited = some (banner, ch) →
        reads ∧ D.toHandling.Reads) :
    Deals D reads s (s.proceed env call stage) := by
  cases stage with
  | closing step next =>
    cases step with
    | watcher => exact closeChannel.after rfl rfl rfl
    | process => exact refl s
    | reader => exact readerEnded
  | launching => exact refl s
  | awaitingBanner k =>
    dsimp only [Session.proceed]
    split
    · rename_i banner ch hgreeted
      have hown : k = j → reads ∧ D.toHandling.Reads := by
        rintro rfl
        exact hgreets banner ch rfl hgreeted
      have htaken : Deals D reads s (s.modifyChannel k fun _ => ch) :=
        steady (.take (fun hk => (hown hk).2) hgreeted)
      exact htaken.trans (welcome fun hk => (hown hk).1)
    · exact refl s
  | _ => exact steady (.proceed rfl)

theorem timeOut {stage : Stage}
    (hgreets : ∀ banner ch, stage = .awaitingBanner j →
      (s.channels[j]?).bind Channel.takeUnsolicited = some (banner, ch) →
        reads ∧ D.toHandling.Reads) :
    Deals D reads s (s.timeOut env call stage) := by
  cases stage with
  | closing | launching => exact refl s
  | awaitingBanner k =>
    dsimp only [Session.timeOut]
    split
    · exact proceed hgreets
    · exact close
  | _ => exact steady (.timeOut rfl)

/-- Whatever happens outside a debugger that has been launched. -/
theorem step (apart : ∀ event, e ≠ .channel j event)
    (hnew : ∀ id, e = .launched id true → s.stage? id = some .launching → j ≠ s.channels.length)
    (hreads : j ∈ s.watched ∨ (s.greeting? j e).isSome → D.toHandling.Reads) :
    Deals D (s.greeting? j e).isSome s (s.step env e) := by
  have hgreets : ∀ {stage}, e.resumes? s = some stage → ∀ banner ch, stage = .awaitingBanner j →
      (s.channels[j]?).bind Channel.takeUnsolicited = some (banner, ch) →
        (s.greeting? j e).isSome = true ∧ D.toHandling.Reads := by
    rintro stage hresumes banner ch rfl hgreeted
    have hsome : (s.greeting? j e).isSome = true := by
      simp [greeting?, hresumes, hgreeted]
    exact ⟨hsome, hreads (Or.inr hsome)⟩
  cases e with
  | call call operation => exact begin
  | proceeds call wait =>
    dsimp only [Session.step]
    split
    · exact proceed (hgreets ‹_›)
    · exact refl s
  | timesOut call wait =>
    dsimp only [Session.step]
    split
    · exact timeOut (hgreets ‹_›)
    · exact refl s
  | launched call ok =>
    dsimp only [Session.step]
    split
    · exact launched fun hok => hnew call (by rw [hok]) ‹_›
    · exact refl s
  | processEnded call =>
    dsimp only [Session.step]
    split
    · exact processEnded
    · exact refl s
  | bridgeLaunched call ok =>
    dsimp only [Session.step]
    split
    · exact steady .bridgeLaunched
    · exact refl s
  | bridgeEnded call =>
    dsimp only [Session.step]
    split
    · exact (steady .endRelay).after rfl rfl rfl
    · exact refl s
  | channel k event =>
    refine steady (.channel_step fun hk => ?_)
    subst hk
    exact absurd rfl (apart event)
  | watches k => exact steady (.watch fun hwatched => hreads (Or.inl hwatched))
  | bridgePrints b chunk =>
    dsimp only [Session.step]
    split
    · exact steady (.foldl (fun _ _ => .request) _ _)
    · exact refl s
  | bridgeExits b code =>
    dsimp only [Session.step]
    split <;> exact of_eq rfl rfl rfl

/-- Whatever happens, a debugger's channel is dealt with in a certain way, provided that it is when the
debugger itself does something. -/
theorem step_of_reacts (hlt : j < s.channels.length) (hreads : D.toHandling.Reads)
    (hreacts : ∀ event, e = .channel j event → ∀ n ch, D.rel (n, ch) (n, ch.react env.now event)) :
    Deals D (s.greeting? j e).isSome s (s.step env e) := by
  by_cases hown : ∃ event, e = .channel j event
  · obtain ⟨event, rfl⟩ := hown
    exact steady (.channel_step fun _ ch => hreacts event rfl _ ch)
  · exact step (fun event he => hown ⟨event, he⟩) (fun _ _ _ => Nat.ne_of_lt hlt) fun _ => hreads

end Deals

/-! ## Debuggers that have been launched -/

/-- No debugger is given up that was launched. -/
theorem Acts.launches {caller : Option CallId} {known : String → Nat → Prop}
    (h : Acts caller known s s') : s.channels.length ≤ s'.channels.length := by
  induction h with
  | refl => exact Nat.le_refl _
  | tail _ hact ih =>
    refine Nat.le_trans ih ?_
    cases hact with
    | note hn => exact Nat.le_of_eq hn.launches.symm
    | enter => simp [entered]
    | _ => exact Nat.le_refl _

theorem launches_step (s : Session) (env : Surroundings) (e : Event) :
    s.channels.length ≤ (s.step env e).channels.length := (acts_step_any s env e).launches

theorem launches_launched (env : Surroundings) {id : CallId} (h : s.stage? id = some .launching) :
    s.channels.length < (s.step env (.launched id true)).channels.length := by
  have hentered : s.channels.length < s.entered.channels.length := by simp [entered]
  have hlaunched : Acts (some id) (fun _ _ => True) s.entered (s.launched id true) :=
    .launched_true
  have hstep : s.step env (.launched id true) = s.launched id true := by rw [step, h]
  rw [hstep]
  exact Nat.lt_of_lt_of_le hentered hlaunched.launches

/-- Numbers are counted from nought, and a debugger that is watched, or whose prompt is waited for, has
been launched. -/
structure Grounded (s : Session) : Prop where
  positive : 0 ≤ s.nextId
  watched : ∀ k ∈ s.watched, k < s.channels.length
  awaiting : ∀ c ∈ s.calls, ∀ k, c.stage = .awaitingBanner k → k < s.channels.length

namespace Grounded

/-- Nothing needs to be known of what becomes of a channel. -/
def anyhow (env : Surroundings) (j : LaunchId) : Dealing env j where
  rel _ _ := True
  refl _ := trivial
  trans _ _ := trivial
  number _ _ := trivial
  submit _ := trivial
  signal _ _ _ := trivial
  cancel _ _ _ := trivial
  close _ _ := trivial
  stopReader _ _ := trivial

/-- Nobody comes to watch a debugger, or to wait for its prompt, before it has been launched. -/
theorem deals (s : Session) (env : Surroundings) (e : Event) {k : LaunchId}
    (hk : (s.step env e).channels.length ≤ k) (apart : ∀ event, e ≠ .channel k event) :
    Deals (anyhow env k) False s (s.step env e) := by
  have hunlaunched : s.greeting? k e = none := by
    have hnone : s.channels[k]? = none :=
      List.getElem?_eq_none (Nat.le_trans (launches_step s env e) hk)
    unfold greeting?
    split
    · split
      · rename_i heq
        rw [heq, hnone]
        rfl
      · rfl
    · rfl
  have hdeals : Deals (anyhow env k) (s.greeting? k e).isSome s (s.step env e) := by
    refine .step apart ?_ fun _ _ _ _ _ => trivial
    rintro id rfl hstage heq
    exact Nat.not_lt_of_le hk (heq ▸ launches_launched env hstage)
  exact { hdeals with
    watched := fun h => (hdeals.watched h).imp_right fun hsome => by simp [hunlaunched] at hsome }

theorem step (h : s.Grounded) (env : Surroundings) (e : Event) : (s.step env e).Grounded := by
  by_cases hchannel : ∃ k event, e = .channel k event
  · obtain ⟨k, event, rfl⟩ := hchannel
    obtain ⟨hchannels, -, hnumber, hcalls⟩ := s.step_channel env k event
    have hhold := s.hold_channel env k event
    have hlength : (s.step env (.channel k event)).channels.length = s.channels.length := by
      rw [hchannels, List.length_modify]
    have hwatched : (s.step env (.channel k event)).watched = s.watched :=
      congrArg (fun hold => hold.2.2) hhold
    refine ⟨hnumber ▸ h.positive, fun k hk => ?_, fun c hc k hstage => ?_⟩
    · rw [hlength]
      exact h.watched k (hwatched ▸ hk)
    · rw [hlength]
      exact h.awaiting c (hcalls ▸ hc) k hstage
  · have apart : ∀ k event, e ≠ .channel k event := fun k event he => hchannel ⟨k, event, he⟩
    have hlater := launches_step s env e
    refine ⟨?_, fun k hk => ?_, fun c hc k hstage => ?_⟩
    · exact Int.le_trans h.positive (deals s env e (Nat.le_refl _) (apart _)).numbers
    · by_contra hge
      have hdeals := deals s env e (Nat.le_of_not_lt hge) (apart k)
      exact hge (Nat.lt_of_lt_of_le (h.watched k ((hdeals.watched hk).resolve_right id)) hlater)
    · by_contra hge
      have hdeals := deals s env e (Nat.le_of_not_lt hge) (apart k)
      exact hge (Nat.lt_of_lt_of_le (h.awaiting c (hdeals.awaiting c hc hstage) k hstage) hlater)

end Grounded

theorem Reached.grounded (h : s.Reached) : s.Grounded := by
  induction h with
  | create =>
    exact ⟨Int.le_refl _, fun _ hk => absurd hk List.not_mem_nil, fun _ hc => absurd hc List.not_mem_nil⟩
  | @after s _ env e ih =>
    have hcleared : Grounded { s with outbox := [] } := { ih with }
    exact hcleared.step env e
  | subscribe _ _ ih | unsubscribe _ _ ih => exact { ih with }

end Session

end DebugConsole
