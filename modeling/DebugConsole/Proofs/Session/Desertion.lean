import DebugConsole.Proofs.Session.Displacement
import DebugConsole.Proofs.Session.Killing
import DebugConsole.Proofs.Session.Untold

set_option autoImplicit false

/-!
# A debugger that has been let go

Before a debugger is let go its channel is closed, which wakes everybody who waits for an answer of it, and
its output is read no more (`Session.IsCutOff`).  In good order, every other debugger has gone that way.  So if
all who have been woken have gone on by then, nobody waits for an answer any more, and no frame is left to a
watcher (`Session.isDeserted_of_letsGo`).  Until another debugger comes up this stays so, and nothing
stirs (`Session.IsDeserted.after`, `Session.IsDeserted.stirs`).
-/

namespace DebugConsole

namespace Channel

variable {ch ch' : Channel}

/-! ## Output that is not read -/

/-- Who reads a debugger's output, and the frames of it that answer nothing. -/
def intake (ch : Channel) : ReaderState × List Frame := (ch.reader, ch.unsolicited)

@[simp] theorem intake_retire (ch : Channel) (id : CommandId) (o : Outcome) :
    (ch.retire id o).intake = ch.intake := by
  unfold intake retire flushNext startWrite forget
  grind

theorem intake_submit {c : Command} {t : Ticket} (h : ch.submit c = .ok (t, ch')) :
    ch'.intake = ch.intake := by
  obtain ⟨-, -, rfl⟩ := submit_eq_ok_iff.1 h
  split <;> rfl

theorem intake_signal (ch : Channel) (id : CommandId) (name : String) (now : Float)
    (fault : Option Fault) : (ch.signal id name now fault).2.intake = ch.intake := by
  cases hclosed : ch.isClosed with
  | true => rw [signal_of_isClosed hclosed]
  | false =>
    rcases signal_cases hclosed id name now fault with heq | ⟨t, f, rfl, heq⟩
    · rw [heq]
      rfl
    · obtain ⟨-, -, -, hch⟩ := signal_some_eq_submitted_iff.1 heq
      rw [hch]
      rfl

theorem intake_cancel (ch : Channel) (t : Ticket) : (ch.cancel t).intake = ch.intake := by
  rw [cancel, settle_eq]
  rfl

theorem intake_close (ch : Channel) (fault : ChannelFault) : (ch.close fault).intake = ch.intake := by
  rw [close_eq]
  rfl

theorem intake_beginWrite (ch : Channel) (serial : Nat) (now : Float) :
    (ch.beginWrite serial now).intake = ch.intake := by
  unfold beginWrite
  split <;> rfl

theorem intake_endWrite (ch : Channel) (serial : Nat) (fault : Option Fault) :
    (ch.endWrite serial fault).intake = ch.intake := by
  rcases ch.endWrite_cases serial fault with heq | ⟨w, -, -, f, -, heq⟩
  · rw [heq]
    rfl
  · rw [heq, intake_retire]
    rfl

theorem reader_emit (ch : Channel) (lines : List String) (now : Float) :
    (ch.emit lines now).reader = ch.reader := by
  cases hp : ch.pending with
  | nil => rw [emit_of_pending_nil lines now hp]
  | cons id rest =>
    rw [emit_of_pending_cons lines now hp]
    exact congrArg Prod.fst (ch.intake_retire id _)

/-- Nobody begins to read because of what a debugger does. -/
theorem reader_react (ch : Channel) (now : Float) (event : Event) :
    (ch.react now event).reader = ch.reader ∨ (ch.react now event).reader = .ended := by
  cases event with
  | writeBegins serial => exact Or.inl (congrArg Prod.fst (ch.intake_beginWrite serial now))
  | writeEnds serial fault => exact Or.inl (congrArg Prod.fst (ch.intake_endWrite serial fault))
  | prints chunk =>
    have hframes : ∀ (frames : List (List String)) (ch : Channel),
        (frames.foldl (fun ch lines => ch.emit lines now) ch).reader = ch.reader := by
      intro frames
      induction frames with
      | nil => exact fun _ => rfl
      | cons lines frames ih => exact fun ch => (ih _).trans (ch.reader_emit lines now)
    exact Or.inl (hframes _ _)
  | outputEnds | outputFails => exact Or.inr rfl

/-- Only its output leaves frames that answer nothing. -/
theorem unsolicited_react (ch : Channel) (now : Float) {event : Event}
    (h : ∀ chunk, event ≠ .prints chunk) : (ch.react now event).unsolicited = ch.unsolicited := by
  cases event with
  | writeBegins serial => exact congrArg Prod.snd (ch.intake_beginWrite serial now)
  | writeEnds serial fault => exact congrArg Prod.snd (ch.intake_endWrite serial fault)
  | prints chunk => exact absurd rfl (h chunk)
  | outputEnds => exact congrArg Prod.snd (intake_close { ch with buffer := .empty } .exited)
  | outputFails cause => exact congrArg Prod.snd (ch.intake_close (.unreadable cause))

end Channel

/-- Does an operation wait for the answer to a command? -/
def Stage.awaitsReply : Stage → Bool
  | .awaitingReply .. => true
  | _ => false

namespace Session

variable {s s' : Session} {env : Surroundings} {e : Event} {k : LaunchId} {c : Call}

/-! ## Debuggers that have been cut off -/

/-- Is a debugger's output read? -/
def isRead (s : Session) (k : LaunchId) : Bool := (s.channels[k]?).any fun ch => ch.reader == .running

/-- A debugger that has been launched takes no commands, and its output is not read. -/
structure IsCutOff (s : Session) (k : LaunchId) : Prop where
  shut : s.IsShut k
  unread : s.isRead k = false

/-- Something that stays true of a debugger's output when it is not read any more. -/
def withIntake (env : Surroundings) (k : LaunchId) {P : ReaderState × List Frame → Prop}
    (hstops : ∀ i, P i → P (.absent, i.2)) : Dealing env k where
  rel x y := P x.2.intake → P y.2.intake
  refl _ h := h
  trans h h' hx := h' (h hx)
  number _ _ h := h
  submit hs h := (Channel.intake_submit hs).symm ▸ h
  signal n ch name h := (ch.intake_signal n name env.now (env.signalFault k name)).symm ▸ h
  cancel _ ch t h := (ch.intake_cancel t).symm ▸ h
  close _ ch h := (ch.intake_close .killed).symm ▸ h
  stopReader _ _ h := hstops _ h

/-- Output that is not read will not be. -/
def unreading (env : Surroundings) (k : LaunchId) : Dealing env k :=
  withIntake env k (P := fun i => i.1 ≠ .running) fun _ _ => nofun

theorem reads_unreading : (unreading env k).Reads := fun _ _ _ _ h => h

theorem isRead_eq_false_iff (hlt : k < s.channels.length) :
    s.isRead k = false ↔ s.channels[k].reader ≠ .running := by
  simp [isRead, List.getElem?_eq_getElem hlt]

theorem Deals.isRead {reads : Prop} (h : Deals (unreading env k) reads s s') (hlt : k < s.channels.length)
    (hunread : s.isRead k = false) : s'.isRead k = false := by
  obtain ⟨ch', hch', hstays⟩ := h.channel _ (List.getElem?_eq_getElem hlt)
  have hreader : ch'.reader ≠ .running := hstays ((isRead_eq_false_iff hlt).1 hunread)
  simp [Session.isRead, hch', hreader]

theorem IsCutOff.after (h : s.IsCutOff k) (env : Surroundings) (e : Event) : (s.after env e).IsCutOff k := by
  have hdeals : Deals (unreading env k) _ { s with outbox := [] } (s.after env e) :=
    .step_of_reacts h.shut.1 reads_unreading fun event _ _ ch hreader => by
      rcases ch.reader_react env.now event with hsame | hended
      · exact fun hreads => hreader (hsame.symm.trans hreads)
      · exact fun hreads => nomatch hended.symm.trans hreads
  exact ⟨h.shut.after env e, hdeals.isRead h.shut.1 h.unread⟩

/-- A debugger whose process has ended has been cut off. -/
theorem Reached.isCutOff_of_killed (reached : s.Reached) (env : Surroundings) (h : s.killed? e = some k) :
    (s.after env e).IsCutOff k := by
  unfold killed? at h
  split at h
  · rename_i id
    split at h
    · rename_i k' next hfound
      cases h
      obtain ⟨c, hc, rfl, hstage⟩ := exists_call_of_stage? hfound
      have hshut : s.IsShut k := reached.shutFor c hc _ _ hstage
      let cleared : Session := { s with outbox := [] }
      have hended : s.after env (.processEnded c.id) = cleared.processEnded c.id k next := by
        have hcleared : cleared.stage? c.id = some (.closing (.process k) next) := hfound
        show cleared.step env (.processEnded c.id) = _
        simp only [step, hcleared]
      have hdeals : Deals (unreading env k) False (cleared.modifyChannel k Channel.stopReader)
          (s.after env (.processEnded c.id)) := hended ▸ .processEnded_stopped
      refine ⟨hshut.after env _, hdeals.isRead ?_ ?_⟩
      · simpa [modifyChannel, cleared] using hshut.1
      · simp [Session.isRead, modifyChannel, cleared, List.getElem?_eq_getElem hshut.1, Channel.stopReader]
    · cases h
  · cases h

/-- In good order, every debugger that has been launched is held or has been cut off. -/
theorem Reached.sight_after (reached : s.Reached) (h : s.HeldOrGone s.IsCutOff) (env : Surroundings)
    (alone : s.ComesUpAlone e) : (s.after env e).HeldOrGone (s.after env e).IsCutOff :=
  h.after reached.nodup env alone (fun _ hk => hk.after env e) fun _ hk => reached.isCutOff_of_killed env hk

theorem ReachedInOrder.sight (h : s.ReachedInOrder) : s.HeldOrGone s.IsCutOff := by
  induction h with
  | create => exact ⟨fun _ hc => absurd hc List.not_mem_nil, fun _ hk => absurd hk (Nat.not_lt_zero _)⟩
  | after ordered env orderly ih =>
    exact ordered.reached.sight_after ih env (comesUpAlone_of_isOrderly orderly)
  | subscribe _ _ ih | unsubscribe _ _ ih =>
    exact HeldOrGone.mono ⟨ih.calls, ih.held⟩ fun _ hk => ⟨hk.shut, hk.unread⟩

/-! ## Nobody waits for an answer -/

/-- Nothing that concerns frames which answer nothing is done but to take them. -/
def unprinting (env : Surroundings) (k : LaunchId) : Dealing env k :=
  withIntake env k (P := fun i => i.2 = []) fun _ h => h

theorem reads_unprinting : (unprinting env k).Reads := fun _ _ _ hrest h =>
  List.suffix_nil.1 (Eq.mp (congrArg _ h) hrest)

/-- As long as a debugger that has no frame left prints nothing, it has none. -/
theorem hasGreeted_after (env : Surroundings) (hlt : k < s.channels.length)
    (silent : ∀ chunk, e ≠ .channel k (.prints chunk)) (h : s.hasGreeted k = false) :
    (s.after env e).hasGreeted k = false := by
  have hreacts : ∀ event, e = .channel k event → ∀ (_ : CommandId) (ch : Channel),
      ch.unsolicited = [] → (ch.react env.now event).unsolicited = [] := by
    rintro event heq - ch hnone
    refine (ch.unsolicited_react env.now ?_).trans hnone
    rintro chunk rfl
    exact silent chunk heq
  have hdeals : Deals (unprinting env k) _ { s with outbox := [] } (s.after env e) :=
    .step_of_reacts hlt reads_unprinting hreacts
  obtain ⟨ch', hch', hstays⟩ := hdeals.channel _ (List.getElem?_eq_getElem hlt)
  have hbefore : s.channels[k].unsolicited = [] := by
    simpa [hasGreeted, List.getElem?_eq_getElem hlt] using h
  have hnone : ch'.unsolicited = [] := hstays hbefore
  simp [hasGreeted, hch', hnone]

/-- Nobody comes to wait for an answer while no debugger is held and none comes up. -/
theorem Acts.awaitsReply {caller : Option CallId} {known : String → Nat → Prop} (h : Acts caller known s s')
    (hnone : s.current = none) (hlaunches : s'.channels.length = s.channels.length) :
    s'.current = none ∧ ∀ c ∈ s'.calls, c.stage.awaitsReply = true → c ∈ s.calls := by
  induction h with
  | refl => exact ⟨hnone, fun _ hc _ => hc⟩
  | @tail s₁ s₂ hbefore hact ih =>
    have hacts : Acts caller known s s₁ := hbefore
    have hlast : Acts caller known s₁ s₂ := .single hact
    have hfirst : s₁.channels.length = s.channels.length :=
      Nat.le_antisymm (hlaunches ▸ hlast.launches) hacts.launches
    obtain ⟨hgone, hold⟩ := ih hfirst
    cases hact with
    | note hn => exact ⟨hn.current.trans hgone, fun c hc => hold c (hn.calls ▸ hc)⟩
    | @wait call stage limit own permitted =>
      refine ⟨hgone, fun c hc hawaits => ?_⟩
      rcases mem_calls_waiting hc with ⟨hc, -⟩ | rfl
      · exact hold c hc hawaits
      · cases stage with
        | awaitingReply k t i plan => cases hgone.symm.trans permitted.1
        | _ => cases hawaits
    | answer => exact ⟨hgone, fun c hc => hold c (List.mem_filter.1 hc).1⟩
    | enter => simp [entered, hfirst] at hlaunches
    | leave => exact ⟨rfl, hold⟩
    | _ => exact ⟨hgone, hold⟩

/-- Nobody waits for the answer to a command, and a watcher would find no frame. -/
structure IsDeserted (s : Session) : Prop where
  calls : ∀ c ∈ s.calls, c.stage.awaitsReply = false
  watched : ∀ k ∈ s.watched, s.hasGreeted k = false

/-- Nothing stirs in a session that is deserted, as long as nobody asks for anything. -/
theorem IsDeserted.stirs (h : s.IsDeserted) (uncalled : ∀ id operation, e ≠ .call id operation) :
    s.stirs e = false := by
  have hresumes : ∀ stage, e.resumes? s = some stage → stage.awaitsReply = false := by
    intro stage hstage
    cases e with
    | proceeds | timesOut =>
      obtain ⟨c, hc, -, rfl⟩ := exists_call_of_stageIn? hstage
      exact h.calls c hc
    | _ => cases hstage
  have hunread : (e.resumes? s).any s.readsRun = false ∧ (e.resumes? s).any Stage.isRerun = false := by
    cases hstage : e.resumes? s with
    | none => exact ⟨rfl, rfl⟩
    | some stage =>
      have hawaits := hresumes stage hstage
      cases stage with
      | awaitingReply => cases hawaits
      | _ => exact ⟨rfl, rfl⟩
  refine Bool.or_eq_false_iff.2 ⟨?_, hunread.2⟩
  cases e with
  | call id operation => exact absurd rfl (uncalled id operation)
  | watches k =>
    refine Bool.and_eq_false_imp.2 fun hwatched => h.watched k ?_
    simpa using hwatched
  | _ => exact hunread.1

/-- No watcher is set up while no start is under way. -/
theorem watched_after (unstarting : ∀ c ∈ s.calls, c.stage.isStarting = false) (env : Surroundings)
    (hlt : k < s.channels.length) (h : k ∈ (s.after env e).watched) : k ∈ s.watched := by
  have hungreeted : greeting? { s with outbox := [] } k e = none := by
    rw [greeting?_clear, greeting?]
    split
    · rename_i k' hresumes
      cases e with
      | proceeds | timesOut =>
        obtain ⟨c, hc, -, hstage⟩ := exists_call_of_stageIn? hresumes
        have hstarting := unstarting c hc
        rw [hstage] at hstarting
        cases hstarting
      | _ => cases hresumes
    · rfl
  have hdeals : Deals (Grounded.anyhow env k) _ { s with outbox := [] } (s.after env e) :=
    .step_of_reacts hlt (fun _ _ _ _ => trivial) fun _ _ _ _ => trivial
  refine (hdeals.watched h).resolve_right fun hgreets => ?_
  rw [hungreeted] at hgreets
  cases hgreets

/-- While no start is under way, no debugger comes up. -/
theorem launches_after (unstarting : ∀ c ∈ s.calls, c.stage.isStarting = false) (env : Surroundings)
    (e : Event) : (s.after env e).channels.length = s.channels.length := by
  rcases launches_cases env { s with outbox := [] } e with hsame | ⟨c, hc, -, hstage, -⟩
  · exact hsame
  · have hstarting := unstarting c hc
    rw [hstage] at hstarting
    cases hstarting

/-- A session stays deserted as long as no debugger is held, nobody asks for anything, and no output comes
that is not read. -/
theorem IsDeserted.after (h : s.IsDeserted) (reached : s.Reached) (hnone : s.current = none)
    (unstarting : ∀ c ∈ s.calls, c.stage.isStarting = false) (env : Surroundings)
    (cutOff : ∀ k < s.channels.length, s.IsCutOff k)
    (heard : ∀ k chunk, e = .channel k (.prints chunk) → s.isRead k = true) :
    (s.after env e).IsDeserted := by
  have hlaunches := launches_after unstarting env e
  refine ⟨fun c hc => ?_, fun k hk => ?_⟩
  · have hacts := acts_step_any { s with outbox := [] } env e
    rw [← Bool.not_eq_true]
    intro hawaits
    have hawaited := h.calls c ((hacts.awaitsReply hnone hlaunches).2 c hc hawaits)
    cases hawaits.symm.trans hawaited
  · have hlt : k < s.channels.length := hlaunches ▸ (reached.after env e).grounded.watched k hk
    refine hasGreeted_after env hlt ?_ (h.watched k (watched_after unstarting env hlt hk))
    intro chunk heq
    cases (heard k chunk heq).symm.trans (cutOff k hlt).unread

/-! ## The debugger is let go -/

/-- Has an operation been released, so that it can go on? -/
def isReleased (s : Session) (c : Call) : Bool :=
  match c.stage with
  | .awaitingReply k t _ _ => (s.outcomeOf k t).isDone
  | .awaitingStop t => (s.stopReport? t).isSome
  | _ => false

/-- Has everybody gone on who has been woken? -/
def isStill (s : Session) : Bool :=
  (s.calls.all fun c => !s.isReleased c) && s.watched.all fun k => !s.hasGreeted k

/-- Every ticket of debuggers that have been shut has been settled. -/
theorem Reached.isDone_of_isShut (reached : s.Reached) (shut : k < s.channels.length → s.IsShut k)
    (t : Ticket) : (s.outcomeOf k t).isDone = true := by
  by_cases hlt : k < s.channels.length
  · exact reached.isDone_of_shut (shut hlt).2 t
  · rw [outcomeOf, List.getElem?_eq_none (Nat.le_of_not_lt hlt)]
    rfl

/-- In good order, every debugger has been shut once a session has waited for the one that it closes. -/
theorem Reached.isShut_of_closing (reached : s.Reached) (sight : s.HeldOrGone s.IsCutOff) (hc : c ∈ s.calls)
    {step : Closing} {next : Closed} (hstage : c.stage = .closing step next) (hne : step ≠ .watcher)
    (hlt : k < s.channels.length) : s.IsShut k := by
  have hagrees := sight.calls c hc
  rw [hstage] at hagrees
  rcases sight.held k hlt with hheld | hgone
  · cases step with
    | watcher => exact absurd rfl hne
    | process j =>
      have hprocess : s.current = some j := hagrees.resolve_right fun hnone => by cases hheld.symm.trans hnone
      obtain rfl : j = k := Option.some.inj (hprocess.symm.trans hheld)
      exact reached.shutFor c hc _ _ hstage
    | reader => exact (hagrees k hheld).shut
  · exact hgone.shut

/-- If everybody has gone on who has been woken, a session is deserted when its debugger is let go. -/
theorem Reached.isDeserted_of_letsGo (reached : s.Reached) (sight : s.HeldOrGone s.IsCutOff)
    (unstarting : ∀ c ∈ s.calls, c.stage.isStarting = false) (env : Surroundings)
    (hlets : s.letsGo e = true) (still : s.isStill = true) : (s.after env e).IsDeserted := by
  obtain ⟨hcalls, hwatched⟩ := Bool.and_eq_true_iff.1 still
  have hlaunches := launches_after unstarting env e
  refine ⟨fun d hd => ?_, fun k hk => ?_⟩
  · rcases letsGo_cases (s := { s with outbox := [] }) env hlets with ⟨id, -, hlaunching⟩ |
      ⟨c, hc, step, next, s₀, hstage, hne, hsame, hnone, hlength, hstep⟩
    · obtain ⟨c, hc, -, hstage⟩ := exists_call_of_stage? hlaunching
      have hstarting := unstarting c hc
      rw [hstage] at hstarting
      cases hstarting
    · have hafter : s.after env e = s₀.finishClosing c.id next := hstep
      have hacts : Acts (some c.id) (fun _ _ => True) s₀ (s.after env e) := hafter ▸ .finishClosing
      rw [← Bool.not_eq_true]
      intro hawaits
      -- whoever waits now has waited before, and has been released
      have hwaited : d ∈ s.calls :=
        hsame ▸ (hacts.awaitsReply hnone (hlaunches.trans hlength.symm)).2 d hd hawaits
      have hreleased : s.isReleased d = true := by
        unfold isReleased
        cases hwaits : d.stage with
        | awaitingReply k t i plan =>
          exact reached.isDone_of_isShut (reached.isShut_of_closing sight hc hstage hne) t
        | _ =>
          rw [hwaits] at hawaits
          cases hawaits
      have hunreleased := List.all_eq_true.1 hcalls d hwaited
      rw [hreleased] at hunreleased
      cases hunreleased
  · have hlt : k < s.channels.length := hlaunches ▸ (reached.after env e).grounded.watched k hk
    have hungreeted := List.all_eq_true.1 hwatched k (watched_after unstarting env hlt hk)
    refine hasGreeted_after env hlt ?_ (by simpa using hungreeted)
    rintro chunk rfl
    cases hlets

end Session

end DebugConsole
