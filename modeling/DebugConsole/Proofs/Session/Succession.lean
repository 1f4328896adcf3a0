import DebugConsole.Proofs.Session.Lifecycle

set_option autoImplicit false

/-!
# Which debugger a session holds

A session holds one debugger at a time, and lets it go when its process has been killed.  As long as no
debugger comes up while another operation launches one or ends one, no debugger gets out of sight: whichever
has been launched is held or has gone (`Session.HeldOrGone`), whatever is meant by that, provided that
whoever goes stays gone and that a killed one goes.
-/

namespace DebugConsole

/-- Does an operation launch a debugger, or end the one that is held? -/
def Stage.changesDebugger : Stage → Bool
  | .launching | .closing (.process _) _ | .closing .reader _ => true
  | _ => false

/-- May an operation come to wait like this in a session that holds the given debugger? -/
def Stage.Fits (current : Option LaunchId) : Stage → Prop
  | .launching => current = none
  | .closing (.process k) _ => current = some k
  | .closing .reader _ => False
  | _ => True

theorem Stage.fits_of_isOrdinary {stage : Stage} (h : stage.isOrdinary) (current : Option LaunchId) :
    stage.Fits current := by
  cases stage with
  | closing | launching => cases h
  | _ => trivial

theorem Closed.fits_of_isFollowedBy {next : Closed} {stage : Stage} (h : next.isFollowedBy stage) :
    stage.Fits none := by
  cases next with
  | restart =>
    cases stage with
    | launching => rfl
    | _ => cases h
  | noPrompt => cases h
  | kill => exact Stage.fits_of_isOrdinary h none

/-- Does the place where an operation waits agree with the debugger that is held, and with those that are
gone? -/
def Stage.Agrees (current : Option LaunchId) (gone : LaunchId → Prop) : Stage → Prop
  | .launching => current = none
  | .closing (.process k) _ => current = some k ∨ current = none
  | .closing .reader _ => ∀ k, current = some k → gone k
  | _ => True

namespace Stage

variable {current current' : Option LaunchId} {gone gone' : LaunchId → Prop} {stage : Stage}

theorem agrees_of_fits (h : stage.Fits current) : stage.Agrees current gone := by
  cases stage with
  | launching => exact h
  | closing step next =>
    cases step with
    | watcher => trivial
    | process k => exact Or.inl h
    | reader => exact h.elim
  | _ => trivial

theorem agrees_of_unchanging (h : stage.changesDebugger = false) : stage.Agrees current gone := by
  cases stage with
  | launching => cases h
  | closing step next =>
    cases step with
    | watcher => trivial
    | process | reader => cases h
  | _ => trivial

/-- What agrees goes on to do so while the debugger is held, and when it is let go. -/
theorem Agrees.mono (h : stage.Agrees current gone) (hcurrent : current' = current ∨ current' = none)
    (hgone : ∀ k, gone k → gone' k) : stage.Agrees current' gone' := by
  cases stage with
  | launching =>
    have hnone : current = none := h
    exact hcurrent.elim (fun hsame => hsame.trans hnone) id
  | closing step next =>
    cases step with
    | watcher => trivial
    | process k =>
      rcases hcurrent with rfl | rfl
      · exact h
      · exact Or.inr rfl
    | reader =>
      intro k hk
      rcases hcurrent with rfl | rfl
      · exact hgone k (h k hk)
      · cases hk
  | _ => trivial

end Stage

namespace Session

variable {s s' : Session} {env : Surroundings} {e : Event} {id : CallId} {k : LaunchId} {c : Call}
  {P : Stage → Prop}

/-! ## Which debugger is held -/

theorem ClosesTo.fits {next : Closed} {stage : Stage} (h : s.ClosesTo next stage) :
    stage.Fits s.current := by
  unfold ClosesTo at h
  split at h
  · rename_i hcurrent
    rw [h, hcurrent]
    rfl
  · rename_i hcurrent
    rw [hcurrent]
    exact Closed.fits_of_isFollowedBy h

/-- Whoever is in progress after a step of an operation was so before, or is that operation. -/
theorem Onward.mem_calls {s₀ : Session} (h : Onward id P s₀ (s.step env e))
    (own : e.caller? = some id) (hc : c ∈ (s.step env e).calls) :
    (c ∈ s.calls ∧ c.id ≠ id) ∨ P c.stage := by
  by_cases hid : c.id = id
  · exact Or.inr (h.own c hc hid)
  · have hspares : Spares c.id s (s.step env e) := .step fun howner =>
      hid (Option.some.inj (howner.symm.trans own))
    exact Or.inl ⟨hspares.calls c hc rfl, hid⟩

/-- What a step does to the debugger that a session holds, and where it leaves operations. -/
inductive Succession (s s' : Session) (e : Event) : Prop
  | keeps (current : s'.current = s.current) (launches : s'.channels.length = s.channels.length)
      (calls : ∀ d ∈ s'.calls, d ∈ s.calls ∨ d.stage.Fits s.current)
  | stopsReader {c : Call} {k : LaunchId} {next : Closed} (hc : c ∈ s.calls)
      (asked : e = .processEnded c.id) (stage : c.stage = .closing (.process k) next)
      (current : s'.current = s.current) (launches : s'.channels.length = s.channels.length)
      (calls : ∀ d ∈ s'.calls, d ∈ s.calls ∨ d.stage = .closing .reader next)
  | letsGo {c : Call} {step : Closing} {next : Closed} (hc : c ∈ s.calls)
      (own : e.caller? = some c.id) (stage : c.stage = .closing step next)
      (ended : step = .reader ∨ ∃ k, step = .process k ∧ e = .processEnded c.id)
      (current : s'.current = none) (launches : s'.channels.length = s.channels.length)
      (calls : ∀ d ∈ s'.calls, d ∈ s.calls ∨ d.stage.Fits none)
  | comesUp {c : Call} (hc : c ∈ s.calls) (asked : e = .launched c.id true)
      (stage : c.stage = .launching) (current : s'.current = some s.channels.length)
      (launches : s'.channels.length = s.channels.length + 1)
      (calls : ∀ d ∈ s'.calls, (d ∈ s.calls ∧ d.id ≠ c.id) ∨ d.stage.Fits s'.current)

namespace Succession

/-- An operation goes on, and the debugger that is held stays. -/
theorem of_onward {s₀ : Session} (h : Onward id P s₀ (s.step env e)) (own : e.caller? = some id)
    (hcurrent : s₀.current = s.current) (hlaunches : s₀.channels.length = s.channels.length)
    (hfits : ∀ stage, P stage → stage.Fits s.current) : Succession s (s.step env e) e :=
  .keeps (h.current.trans hcurrent) (h.launches.trans hlaunches) fun d hd =>
    (h.mem_calls own hd).imp And.left (hfits d.stage)

theorem close {next : Closed} (hstep : s.step env e = s.close id next)
    (own : e.caller? = some id) : Succession s (s.step env e) e := by
  have honward : Onward id (fun stage => stage = .closing .watcher next ∨ s.ClosesTo next stage) s
      (s.step env e) := hstep ▸ Onward.close
  refine of_onward honward own rfl rfl fun stage h => ?_
  rcases h with rfl | hcloses
  · trivial
  · exact hcloses.fits

end Succession

/-- Every step is of one of these kinds. -/
theorem succession (env : Surroundings) (s : Session) (e : Event) : Succession s (s.step env e) e := by
  cases s.deed env e with
  | steady h =>
    obtain ⟨hcurrent, -⟩ := Prod.mk.inj h.hold
    exact .keeps hcurrent h.launches fun d hd =>
      (h.calls d hd).imp_right fun hordinary => Stage.fits_of_isOrdinary hordinary _
  | @starts id path folder args asked =>
    subst asked
    by_cases hrunning : s.isRunning = true
    · have honward : Onward id (fun _ => False) s (s.step env (.call id (.start path args folder))) := by
        have hstep : s.step env (.call id (.start path args folder)) =
            s.answer id (.error .alreadyRunning) := if_pos hrunning
        rw [hstep]
        exact .answer
      exact .of_onward honward rfl rfl rfl fun _ h => h.elim
    · cases hcurrent : s.current with
      | some k =>
        have hstep : s.step env (.call id (.start path args folder)) =
            s.close id (.restart path args folder) := by
          show s.start id path args folder = _
          unfold start
          rw [if_neg hrunning, if_pos (by rw [hcurrent]; rfl)]
        exact .close hstep rfl
      | none =>
        have honward : Onward id (· = .launching) s (s.step env (.call id (.start path args folder))) := by
          have hstep : s.step env (.call id (.start path args folder)) =
              s.launchDebugger id path args folder := by
            show s.start id path args folder = _
            unfold start
            rw [if_neg hrunning, if_neg (by rw [hcurrent]; decide)]
          rw [hstep]
          exact .launchDebugger rfl
        refine .of_onward honward rfl rfl rfl fun stage h => ?_
        rw [h]
        exact hcurrent
  | kills asked =>
    subst asked
    exact .close rfl rfl
  | @watcherEnds c next hc own stage hstep =>
    have honward : Onward c.id (ClosesTo { s with watcher := none } next) { s with watcher := none }
        (s.step env e) := hstep ▸ Onward.closeChannel
    exact .of_onward honward own rfl rfl fun _ h => ClosesTo.fits h
  | @processEnds c k next hc asked stage hstep =>
    have own : e.caller? = some c.id := by rw [asked]; rfl
    rcases s.processEnded_cases c.id k next with honward | honward
    · rw [← hstep] at honward
      exact .stopsReader hc asked stage honward.current honward.launches fun d hd =>
        (honward.mem_calls own hd).imp_left And.left
    · rw [← hstep] at honward
      exact .letsGo hc own stage (Or.inr ⟨k, rfl, asked⟩) honward.current honward.launches fun d hd =>
        (honward.mem_calls own hd).imp And.left Closed.fits_of_isFollowedBy
  | @readerEnds c next hc own stage hstep =>
    have honward : Onward c.id (next.isFollowedBy ·) { s with current := none } (s.step env e) :=
      hstep ▸ Onward.readerEnded
    exact .letsGo hc own stage (Or.inl rfl) honward.current honward.launches fun d hd =>
      (honward.mem_calls own hd).imp And.left Closed.fits_of_isFollowedBy
  | @launches c hc asked stage hstep =>
    have own : e.caller? = some c.id := by rw [asked]; rfl
    have honward := Onward.launched s c.id
    rw [← hstep] at honward
    have hlaunches : s.entered.channels.length = s.channels.length + 1 := by simp [entered]
    refine .comesUp hc asked stage honward.current (honward.launches.trans hlaunches) fun d hd => ?_
    refine (honward.mem_calls own hd).imp_right fun h => ?_
    rw [honward.current]
    rcases h with h | h | h <;> rw [h]
    · trivial
    · trivial
    · rfl
  | @welcomes c k banner ch hc own stage hstep =>
    have honward : Onward c.id (fun _ => False) (s.modifyChannel k fun _ => ch) (s.step env e) :=
      hstep ▸ .welcome
    exact .of_onward honward own rfl (List.length_modify ..) fun _ h => h.elim
  | @givesUp c k hc own stage hstep => exact .close hstep own

/-! ## Order -/

/-- A debugger comes up only while no other operation launches one or ends one. -/
def ComesUpAlone (s : Session) (e : Event) : Prop :=
  ∀ c ∈ s.calls, e = .launched c.id true → c.stage = .launching →
    ∀ d ∈ s.calls, d.id ≠ c.id → d.stage.changesDebugger = false

/-- Have operations numbers of their own, and does a debugger come up only while no other operation
launches one or ends one? -/
def isOrderly (s : Session) (e : Event) : Bool :=
  (s.calls.all fun c => !e.asksFor c.id) &&
    match e with
    | .launched id true => s.calls.all fun c => c.id == id || !c.stage.changesDebugger
    | _ => true

theorem comesUpAlone_of_isOrderly (h : s.isOrderly e = true) : s.ComesUpAlone e := by
  intro c hc asked hstage d hd hne
  subst asked
  unfold isOrderly at h
  rw [Bool.and_eq_true] at h
  simpa [hne] using List.all_eq_true.1 h.2 d hd

theorem isOrderly_call {operation : Operation} (h : id ∉ s.calls.map Call.id) :
    s.isOrderly (.call id operation) = true := by
  unfold isOrderly
  rw [Bool.and_eq_true, List.all_eq_true]
  refine ⟨fun c hc => ?_, rfl⟩
  have hne : id ≠ c.id := fun heq => h (heq ▸ List.mem_map_of_mem hc)
  simpa [Event.asksFor] using hne

/-- A session that can be reached in good order. -/
inductive ReachedInOrder : Session → Prop
  | create (settings : Settings) (probe : Option Probe) : ReachedInOrder (create settings probe)
  | after {s : Session} (h : ReachedInOrder s) (env : Surroundings) {e : Event}
      (orderly : s.isOrderly e = true) : ReachedInOrder (s.after env e)
  | subscribe {s : Session} (h : ReachedInOrder s) (name : String) :
      ReachedInOrder (s.subscribe name)
  | unsubscribe {s : Session} (h : ReachedInOrder s) (name : String) :
      ReachedInOrder (s.unsubscribe name)

theorem ReachedInOrder.reached (h : s.ReachedInOrder) : s.Reached := by
  induction h with
  | create settings probe => exact .create settings probe
  | after _ env _ ih => exact ih.after env _
  | subscribe _ name ih => exact ih.subscribe name
  | unsubscribe _ name ih => exact ih.unsubscribe name

theorem ReachedInOrder.afterAll {events : List (Surroundings × Event)} (h : s.ReachedInOrder)
    (orderly : throughout isOrderly s events = true) : (s.afterAll events).ReachedInOrder := by
  induction events generalizing s with
  | nil => exact h
  | cons e events ih =>
    obtain ⟨hfirst, hlater⟩ := Bool.and_eq_true_iff.1 orderly
    exact ih (h.after e.1 hfirst) hlater

/-! ## Debuggers that are held or gone -/

/-- The debugger whose process has ended or been given up, when whoever kills it is told so. -/
def killed? (s : Session) : Event → Option LaunchId
  | .processEnded id =>
    match s.stage? id with
    | some (.closing (.process k) _) => some k
    | _ => none
  | _ => none

theorem killed?_of_mem {next : Closed} (hnodup : (s.calls.map Call.id).Nodup) (hc : c ∈ s.calls)
    (hstage : c.stage = .closing (.process k) next) : s.killed? (.processEnded c.id) = some k := by
  have hfound := stage?_of_mem hnodup hc
  rw [hstage] at hfound
  unfold killed?
  simp only [hfound]

/-- Every debugger that has been launched is held or has gone, and the operations in progress agree with
that. -/
structure HeldOrGone (gone : LaunchId → Prop) (s : Session) : Prop where
  calls : ∀ c ∈ s.calls, c.stage.Agrees s.current gone
  held : ∀ k < s.channels.length, s.current = some k ∨ gone k

theorem HeldOrGone.after {gone gone' : LaunchId → Prop} (h : HeldOrGone gone s)
    (hnodup : (s.calls.map Call.id).Nodup) (env : Surroundings) (alone : s.ComesUpAlone e)
    (hgone : ∀ k, gone k → gone' k) (hkilled : ∀ k, s.killed? e = some k → gone' k) :
    HeldOrGone gone' (s.after env e) := by
  cases succession env { s with outbox := [] } e with
  | keeps current launches calls =>
    refine ⟨fun d hd => ?_, fun k hk => ?_⟩
    · rcases calls d hd with hold | hfits
      · exact (h.calls d hold).mono (Or.inl current) hgone
      · exact Stage.agrees_of_fits (current.symm ▸ hfits)
    · exact (h.held k (launches ▸ hk)).imp current.trans (hgone k)
  | @stopsReader c k next hc asked stage current launches calls =>
    subst asked
    have hends : gone' k := hkilled k (killed?_of_mem hnodup hc stage)
    refine ⟨fun d hd => ?_, fun j hj => ?_⟩
    · rcases calls d hd with hold | hreader
      · exact (h.calls d hold).mono (Or.inl current) hgone
      · rw [hreader]
        intro j hj
        have hagrees := h.calls c hc
        rw [stage] at hagrees
        have hheld : s.current = some j := current.symm.trans hj
        rcases hagrees with hprocess | hnone
        · rw [hprocess] at hheld
          exact Option.some.inj hheld ▸ hends
        · rw [hnone] at hheld
          cases hheld
    · exact (h.held j (launches ▸ hj)).imp current.trans (hgone j)
  | @letsGo c step next hc own stage ended current launches calls =>
    have hends : ∀ k, s.current = some k → gone' k := by
      intro k hk
      have hagrees := h.calls c hc
      rw [stage] at hagrees
      rcases ended with rfl | ⟨j, rfl, asked⟩
      · exact hgone k (hagrees k hk)
      · subst asked
        rcases hagrees with hprocess | hnone
        · rw [hprocess] at hk
          exact Option.some.inj hk ▸ hkilled _ (killed?_of_mem hnodup hc stage)
        · rw [hnone] at hk
          cases hk
    refine ⟨fun d hd => ?_, fun k hk => ?_⟩
    · rcases calls d hd with hold | hfits
      · exact (h.calls d hold).mono (Or.inr current) hgone
      · exact Stage.agrees_of_fits (current.symm ▸ hfits)
    · exact Or.inr ((h.held k (launches ▸ hk)).elim (hends k) (hgone k))
  | @comesUp c hc asked stage current launches calls =>
    have hnone : s.current = none := by
      have hagrees := h.calls c hc
      rw [stage] at hagrees
      exact hagrees
    refine ⟨fun d hd => ?_, fun k hk => ?_⟩
    · rcases calls d hd with ⟨hold, hne⟩ | hfits
      · exact Stage.agrees_of_unchanging (alone c hc asked stage d hold hne)
      · exact Stage.agrees_of_fits hfits
    · rcases Nat.lt_succ_iff_lt_or_eq.1 (launches ▸ hk) with hlt | rfl
      · refine Or.inr ((h.held k hlt).elim (fun hheld => ?_) (hgone k))
        rw [hnone] at hheld
        cases hheld
      · exact Or.inl current

/-- What is gone may be understood differently while no operation goes on. -/
theorem HeldOrGone.mono {gone gone' : LaunchId → Prop} (h : HeldOrGone gone s)
    (hgone : ∀ k, gone k → gone' k) : HeldOrGone gone' s :=
  ⟨fun c hc => (h.calls c hc).mono (Or.inl rfl) hgone, fun k hk => (h.held k hk).imp_right (hgone k)⟩

/-- More and more debuggers have been launched. -/
theorem launches_le_after (env : Surroundings) (e : Event) :
    s.channels.length ≤ (s.after env e).channels.length := by
  cases succession env { s with outbox := [] } e with
  | keeps _ launches | stopsReader _ _ _ _ launches | letsGo _ _ _ _ _ launches =>
    exact Nat.le_of_eq launches.symm
  | comesUp _ _ _ _ launches => exact launches ▸ Nat.le_succ _

/-! ## Closing -/

/-- An operation that waits is in progress. -/
theorem mem_suspend (s : Session) (id : CallId) (stage : Stage) (limit : Option Float) :
    ⟨id, stage, s.waits, limit⟩ ∈ (s.suspend id stage limit).calls := by
  obtain ⟨rs, hsuspend⟩ := s.suspend_eq id stage limit
  rw [hsuspend]
  exact List.mem_append_right _ (List.mem_singleton_self _)

/-- The debugger that is held is being killed. -/
theorem mem_closeChannel (hcurrent : s.current = some k) (id : CallId) (next : Closed) :
    ⟨id, .closing (.process k) next, s.waits, none⟩ ∈ (s.closeChannel id next).calls := by
  rw [closeChannel_of_current hcurrent]
  exact mem_suspend _ id _ none

/-- A session that holds a debugger begins to be closed. -/
theorem mem_close (hcurrent : s.current = some k) (id : CallId) (next : Closed) :
    (⟨id, .closing .watcher next, s.waits, none⟩ ∈ (s.close id next).calls ∧
        (s.close id next).current = some k) ∨
      ⟨id, .closing (.process k) next, s.waits, none⟩ ∈ (s.close id next).calls := by
  cases hwatcher : s.watcher with
  | none =>
    rw [close_of_none hwatcher]
    exact Or.inr (mem_closeChannel hcurrent id next)
  | some j =>
    rw [close_of_watcher hwatcher]
    exact Or.inl ⟨mem_suspend _ id _ none, hcurrent⟩

/-- Only the end of its process goes on with an operation that waits for it. -/
theorem step_of_closing_process {next : Closed} (env : Surroundings)
    (hnodup : (s.calls.map Call.id).Nodup) (hc : c ∈ s.calls)
    (hstage : c.stage = .closing (.process k) next) (own : e.caller? = some c.id)
    (he : e.asksFor c.id = false) :
    s.step env e = s ∨ (e = .processEnded c.id ∧ s.step env e = s.processEnded c.id k next) := by
  have hfound := stage?_of_mem hnodup hc
  rw [hstage] at hfound
  cases e with
  | call => cases own; simp [Event.asksFor] at he
  | proceeds _ wait | timesOut _ wait =>
    cases own
    left
    rcases stageIn?_cases hnodup hc wait with h | ⟨h, -⟩
    · simp only [step, h]
    · simp only [step, h, hstage, proceed, timeOut]
  | launched | bridgeLaunched | bridgeEnded =>
    cases own
    exact Or.inl (by simp only [step, hfound])
  | processEnded =>
    cases own
    exact Or.inr ⟨rfl, by simp only [step, hfound]⟩
  | channel | watches | bridgePrints | bridgeExits => cases own

end Session

end DebugConsole
