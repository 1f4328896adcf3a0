import DebugConsole.Proofs.Session.Desertion

set_option autoImplicit false

/-!
# What a kill leaves

While a kill closes a session everything else goes on: whoever has waited for the debugger is told of a
failure, and may give the next command, which fails as well.  A run command that fails restores the run state
that it found.  Whoever has given it is woken when the debugger is shut, and goes on in turn, that is before the
process has ended and the debugger is let go (`Session.isInTurn`); only then is the target taken for halted.  So
once the kill has returned and everybody who has been released has gone on, nothing is held, nobody waits, and
the target is taken for halted (`Session.over_of_kill`).
-/

namespace DebugConsole

/-- Does an operation wait for the answer to a command, or for a halt? -/
def Stage.isWaiting : Stage → Bool
  | .awaitingReply .. | .awaitingStop _ => true
  | _ => false

namespace Session

variable {s s' : Session} {env : Surroundings} {e : Event} {id : CallId} {k : LaunchId} {c : Call}
  {events : List (Surroundings × Event)}

/-! ## The aftermath of a kill -/

/-- Does everything come in turn?  Nobody asks for anything, output comes only as long as it is read, and
before the debugger is let go everybody has gone on who has been woken. -/
def isInTurn (s : Session) (e : Event) : Bool :=
  match e with
  | .call .. => false
  | .channel k (.prints _) => s.isRead k
  | e => !(s.current.isSome && s.letsGo e) || s.isStill

theorem uncalled_of_isInTurn (h : s.isInTurn e = true) : ∀ id operation, e ≠ .call id operation := by
  rintro id operation rfl
  cases h

theorem heard_of_isInTurn (h : s.isInTurn e = true) :
    ∀ k chunk, e = .channel k (.prints chunk) → s.isRead k = true := by
  rintro k chunk rfl
  exact h

theorem still_of_isInTurn (h : s.isInTurn e = true) (held : s.current.isSome = true)
    (hlets : s.letsGo e = true) : s.isStill = true := by
  unfold isInTurn at h
  split at h
  · cases h
  · cases hlets
  · simpa [held, hlets] using h

theorem asksFor_of_uncalled (uncalled : ∀ id operation, e ≠ .call id operation) (id : CallId) :
    e.asksFor id = false := by
  cases e with
  | call id operation => exact absurd rfl (uncalled id operation)
  | _ => rfl

/-- A session in the aftermath of a kill: every debugger is in sight, no start is under way, and the kill
is closing the session, or this is over.  Once no debugger is held, nobody waits for an answer. -/
structure Dying (id : CallId) (s : Session) : Prop where
  reached : s.Reached
  sight : s.HeldOrGone s.IsCutOff
  unstarting : ∀ c ∈ s.calls, c.stage.isStarting = false
  kill : s.IsClosing id ∨ s.IsOver
  deserted : s.current = none → s.IsDeserted

namespace Dying

theorem cutOff (h : Dying id s) (hnone : s.current = none) : ∀ k < s.channels.length, s.IsCutOff k :=
  fun k hlt => (h.sight.held k hlt).resolve_left fun hheld => by cases hheld.symm.trans hnone

theorem after (h : Dying id s) (env : Surroundings) (he : s.isInTurn e = true) :
    Dying id (s.after env e) := by
  let cleared : Session := { s with outbox := [] }
  have uncalled := uncalled_of_isInTurn he
  have hwanes : Wanes cleared (s.after env e) :=
    wanes_step (s := cleared) env h.unstarting fun _ _ _ _ => uncalled _ _
  have hquiet : cleared.current = none → cleared.stirs e = false := by
    have hstirs : cleared.stirs e = s.stirs e := by cases e <;> rfl
    exact fun hnone => hstirs.trans ((h.deserted hnone).stirs uncalled)
  have hkill : cleared.IsClosing id ∨ cleared.IsOver :=
    h.kill.imp (fun hcloses => hcloses) fun hover => { hover with }
  refine ⟨h.reached.after env e, h.reached.sight_after h.sight env ?_, hwanes.calls,
    isClosing_or_isOver_step (s := cleared) h.reached.nodup h.unstarting env uncalled hquiet hkill, ?_⟩
  · intro c hc _ hlaunching
    have hstarting := h.unstarting c hc
    rw [hlaunching] at hstarting
    cases hstarting
  · intro hgone
    cases hcurrent : s.current with
    | none =>
      exact (h.deserted hcurrent).after h.reached hcurrent h.unstarting env (h.cutOff hcurrent)
        (heard_of_isInTurn he)
    | some k =>
      -- the debugger has been let go just now
      cases hlets : s.letsGo e with
      | true =>
        have still : s.isStill = true := still_of_isInTurn he (by rw [hcurrent]; rfl) hlets
        exact h.reached.isDeserted_of_letsGo h.sight h.unstarting env hlets still
      | false =>
        have numbered : s.isNumbered e = true := List.all_eq_true.2 fun c _ => by
          rw [asksFor_of_uncalled uncalled]
          rfl
        have hkept := (current_of_keeps (s := cleared) env h.reached.nodup numbered hlets).1
        cases (hgone.symm.trans hkept).trans hcurrent

theorem afterAll (h : Dying id s) (inTurn : throughout isInTurn s events = true) :
    Dying id (s.afterAll events) := by
  induction events generalizing s with
  | nil => exact h
  | cons e events ih =>
    obtain ⟨hfirst, hlater⟩ := Bool.and_eq_true_iff.1 inTurn
    exact ih (h.after e.1 hfirst) hlater

/-- Once a session is over, every ticket has been settled. -/
theorem isDone (h : Dying id s) (hcurrent : s.current = none) (k : LaunchId) (t : Ticket) :
    (s.outcomeOf k t).isDone = true :=
  h.reached.isDone_of_isShut (fun hlt => (h.cutOff hcurrent k hlt).shut) t

end Dying

/-- Nobody waits in a session that is over, but those who have been released. -/
theorem Dying.isReleased (h : Dying id s) (ended : s.IsOver) (hc : c ∈ s.calls)
    (hwaits : c.stage.isWaiting = true) : s.isReleased c = true := by
  unfold Session.isReleased
  cases hstage : c.stage with
  | awaitingReply k t i plan => exact h.isDone ended.current k t
  | awaitingStop t =>
    cases hreport : s.stopReport? t with
    | some r => simp [hreport]
    | none =>
      have hticket := h.reached.ticketsAgree.waiting c hc t hstage hreport
      rw [ended.stopTicket] at hticket
      cases hticket
  | _ =>
    rw [hstage] at hwaits
    cases hwaits

/-- Out of turn, a step that has failed may be told so when the debugger has been let go: the session takes
the target for running again, as it was when the step was asked for. -/
example :
    let killed := stepping.after (calm 3.0) (.call 3 .kill)
    let late := [(calm 3.0, .proceeds 3 4), (calm 3.0, .proceeds 1 2), (calm 3.5, .processEnded 3),
      (calm 3.5, .proceeds 3 6), (calm 3.5, .proceeds 2 3)]
    throughout isInTurn killed late = false ∧ (killed.afterAll late).current = none ∧
      (killed.afterAll late).calls.isEmpty = true ∧ (killed.afterAll late).runState = .running := by
  decide +kernel

end Session

end DebugConsole
