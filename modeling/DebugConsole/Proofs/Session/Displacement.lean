import DebugConsole.Proofs.Session.Succession

set_option autoImplicit false

/-!
# When a session lets its debugger go

A session finds out whether it holds a debugger before it launches one, and records the new one when the
launch is over; whoever has ended a debugger lets go whichever is held by then.  In between, another
operation may have a debugger come up, so a session may let go a debugger that nobody has ended.

Here are the steps in which the debugger that is held is let go (`Session.letsGo`), with nothing assumed
about the order of operations.  A debugger that is held while nobody launches or ends one is safe
(`Session.HoldsOn`): whatever happens later, the session holds it until it has been killed.

Bridges are let go too soon in the same way, so what it takes to keep track of processes (`Tracked`) is said
of processes of any kind.
-/

namespace DebugConsole

/-! ## Keeping track of processes -/

/-- What is held is let go: nothing is held then, or the next process that has been launched. -/
def IsNext (count : Nat) (held' : Option LaunchId) (count' : Nat) : Prop :=
  (held' = none ∧ count' = count) ∨ (held' = some count ∧ count' = count + 1)

/-- What is displaced when a process is let go: this one, unless it is away by then. -/
def displacedFrom (held : Option LaunchId) (away : LaunchId → Bool) : List LaunchId :=
  held.toList.filter fun k => !away k

theorem mem_displacedFrom {held : Option LaunchId} {away : LaunchId → Bool} {k : LaunchId} :
    k ∈ displacedFrom held away ↔ held = some k ∧ away k = false := by
  simp [displacedFrom]

/-- Each of a number of processes that have been launched is held or away, or it has been displaced; one that
has been displaced is not held again. -/
structure Tracked (held : Option LaunchId) (count : Nat) (away : LaunchId → Bool) (lost : List LaunchId) :
    Prop where
  launched : ∀ k, held = some k → k < count
  sight : ∀ k < count, held = some k ∨ away k = true ∨ k ∈ lost
  lost : ∀ k ∈ lost, k < count ∧ held ≠ some k

namespace Tracked

variable {held held' : Option LaunchId} {count count' : Nat} {away away' : LaunchId → Bool}
  {lost : List LaunchId}

theorem nothing : Tracked none 0 away [] :=
  ⟨nofun, fun _ hk => absurd hk (Nat.not_lt_zero _), fun _ hk => absurd hk List.not_mem_nil⟩

/-- What is held is kept. -/
theorem keeps (h : Tracked held count away lost) (haway : ∀ k, away k = true → away' k = true) :
    Tracked held count away' lost :=
  { h with sight := fun k hk => (h.sight k hk).imp_right (·.imp_left (haway k)) }

/-- None of the processes launched before is held when one has been let go. -/
theorem ne_of_isNext (next : IsNext count held' count') {k : LaunchId} (hk : k < count) :
    k < count' ∧ held' ≠ some k := by
  rcases next with ⟨rfl, rfl⟩ | ⟨rfl, rfl⟩
  · exact ⟨hk, nofun⟩
  · exact ⟨Nat.lt_succ_of_lt hk, fun heq => Nat.ne_of_gt hk (Option.some.inj heq)⟩

theorem letsGo (h : Tracked held count away lost) (next : IsNext count held' count')
    (haway : ∀ k, away k = true → away' k = true) :
    Tracked held' count' away' (lost ++ displacedFrom held away') := by
  have hlost : ∀ k ∈ lost ++ displacedFrom held away', k < count := by
    intro k hk
    rcases List.mem_append.1 hk with hlost | hdisplaced
    · exact (h.lost k hlost).1
    · exact h.launched k (mem_displacedFrom.1 hdisplaced).1
  refine ⟨fun k hk => ?_, fun k hk => ?_, fun k hk => ne_of_isNext next (hlost k hk)⟩
  · rcases next with ⟨rfl, -⟩ | ⟨rfl, rfl⟩
    · cases hk
    · exact Option.some.inj hk ▸ Nat.lt_succ_self _
  · by_cases hold : k < count
    · refine Or.inr ((h.sight k hold).elim (fun hheld => ?_) (·.imp (haway k) (List.mem_append_left _)))
      cases hthere : away' k with
      | true => exact Or.inl rfl
      | false => exact Or.inr (List.mem_append_right _ (mem_displacedFrom.2 ⟨hheld, hthere⟩))
    · -- only the process that has come up has not been launched before
      rcases next with ⟨-, rfl⟩ | ⟨rfl, rfl⟩
      · exact absurd hk hold
      · exact Or.inl (congrArg some (Nat.le_antisymm (Nat.le_of_not_lt hold) (Nat.le_of_lt_succ hk)))

/-- What is neither away nor displaced is held. -/
theorem held_of_there (h : Tracked held count away lost) {k : LaunchId} (hk : k < count)
    (there : away k = false) (kept : k ∉ lost) : held = some k := by
  rcases h.sight k hk with hheld | haway | hlost
  · exact hheld
  · cases there.symm.trans haway
  · exact absurd hlost kept

/-- Nothing is displaced if every process is held or away afterwards. -/
theorem displacedFrom_eq_nil (h : Tracked held count away lost) (next : IsNext count held' count')
    (hsight : ∀ k < count', held' = some k ∨ away' k = true) : displacedFrom held away' = [] := by
  refine List.eq_nil_iff_forall_not_mem.2 fun k hk => ?_
  obtain ⟨hheld, hthere⟩ := mem_displacedFrom.1 hk
  obtain ⟨hlaunched, hne⟩ := ne_of_isNext next (h.launched k hheld)
  cases ((hsight k hlaunched).resolve_left hne).symm.trans hthere

end Tracked

/-- What can happen to a session and to the processes that it has launched. -/
inductive Occurrence where
  | event (env : Surroundings) (e : Session.Event)
  /-- a process exits by itself -/
  | exits (launch : LaunchId) (code : Int)
  | subscribe (name : String)
  | unsubscribe (name : String)

namespace Session

variable {s : Session} {env : Surroundings} {e : Event} {k : LaunchId} {c : Call}

/-! ## Runs in which anything may happen -/

/-- The session after something has happened. -/
def meets (s : Session) : Occurrence → Session
  | .event env e => s.after env e
  | .exits .. => s
  | .subscribe name => s.subscribe name
  | .unsubscribe name => s.unsubscribe name

/-- A condition holds of each event among the occurrences, in the session that it comes to. -/
def along (p : Session → Event → Bool) : Session → List Occurrence → Bool
  | _, [] => true
  | s, o :: os =>
    (match o with
      | .event _ e => p s e
      | _ => true) && along p (s.meets o) os

theorem along_cons {p : Session → Event → Bool} {o : Occurrence} {os : List Occurrence} :
    s.along p (o :: os) = true ↔
      (∀ env e, o = .event env e → p s e = true) ∧ (s.meets o).along p os = true := by
  cases o with
  | event env e =>
    refine Bool.and_eq_true_iff.trans (and_congr_left fun _ => ⟨fun h _ _ heq => ?_, fun h => h env e rfl⟩)
    cases heq
    exact h
  | exits | subscribe | unsubscribe => exact ⟨fun h => ⟨nofun, h⟩, And.right⟩

/-- Have operations numbers of their own? -/
def isNumbered (s : Session) (e : Event) : Bool := s.calls.all fun c => !e.asksFor c.id

theorem asksFor_of_isNumbered (h : s.isNumbered e = true) (hc : c ∈ s.calls) :
    e.asksFor c.id = false := by
  simpa using List.all_eq_true.1 h c hc

theorem isNumbered_of_isOrderly (h : s.isOrderly e = true) : s.isNumbered e = true :=
  (Bool.and_eq_true_iff.1 h).1

theorem isNumbered_call {id : CallId} {operation : Operation} (h : id ∉ s.calls.map Call.id) :
    s.isNumbered (.call id operation) = true :=
  isNumbered_of_isOrderly (isOrderly_call h)

/-! ## Letting go -/

/-- Is the debugger that is held let go in a step?  It is when another one has come up, and when whoever
closes the session has ended a debugger, this one or another. -/
def letsGo (s : Session) : Event → Bool
  | .launched id true =>
    match s.stage? id with
    | some .launching => true
    | _ => false
  | .processEnded id =>
    match s.stage? id with
    | some (.closing (.process k) _) => !(s.channels[k]?).any fun ch => ch.reader == .running
    | _ => false
  | .proceeds id wait =>
    match s.stageIn? id wait with
    | some (.closing .reader _) => true
    | _ => false
  | _ => false

/-- Does an operation wait for the end of a debugger that it kills? -/
def isEnding (s : Session) (k : LaunchId) : Bool :=
  s.calls.any fun c =>
    match c.stage with
    | .closing (.process j) _ => j == k
    | _ => false

theorem isEnding_iff :
    s.isEnding k = true ↔ ∃ c ∈ s.calls, ∃ next, c.stage = .closing (.process k) next := by
  unfold isEnding
  rw [List.any_eq_true]
  refine exists_congr fun c => and_congr_right fun _ => ⟨fun h => ?_, ?_⟩
  · split at h
    · rename_i next hstage
      exact ⟨next, hstage.trans (by rw [beq_iff_eq.1 h])⟩
    · cases h
  · rintro ⟨next, hstage⟩
    simp [hstage]

/-- When the debugger that is held is let go, another one has come up, or whoever closes the session has
nothing left to close. -/
theorem letsGo_cases (env : Surroundings) (h : s.letsGo e = true) :
    (∃ id, e = .launched id true ∧ s.stage? id = some .launching) ∨
      ∃ c ∈ s.calls, ∃ (step : Closing) (next : Closed) (s₀ : Session),
        c.stage = .closing step next ∧ step ≠ .watcher ∧ s₀.calls = s.calls ∧ s₀.current = none ∧
        s₀.channels.length = s.channels.length ∧ s.step env e = s₀.finishClosing c.id next := by
  unfold letsGo at h
  split at h
  · rename_i id
    split at h
    · exact Or.inl ⟨id, rfl, ‹_›⟩
    · cases h
  · rename_i id
    split at h
    · rename_i k next hstage
      obtain ⟨c, hc, rfl, heq⟩ := exists_call_of_stage? hstage
      refine Or.inr ⟨c, hc, _, next, { s.modifyChannel k Channel.stopReader with current := none }, heq,
        by simp, rfl, rfl, List.length_modify .., ?_⟩
      have hended : s.processEnded c.id k next =
          (s.modifyChannel k Channel.stopReader).readerEnded c.id next := by
        unfold processEnded
        exact if_neg (by simpa using h)
      simp only [step, hstage]
      exact hended
    · cases h
  · rename_i id wait
    split at h
    · rename_i next hstage
      obtain ⟨c, hc, rfl, heq⟩ := exists_call_of_stageIn? hstage
      refine Or.inr ⟨c, hc, _, next, { s with current := none }, heq, by simp, rfl, rfl, rfl, ?_⟩
      simp only [step, hstage, proceed]
      rfl
    · cases h
  · cases h

/-- When the debugger that is held is let go, the next one has come up or none is held. -/
theorem isNext_of_letsGo (env : Surroundings) (h : s.letsGo e = true) :
    IsNext s.channels.length (s.step env e).current (s.step env e).channels.length := by
  rcases letsGo_cases env h with ⟨id, rfl, hstage⟩ | ⟨c, -, -, next, s₀, -, -, -, hnone, hlength, hstep⟩
  · have hstep : s.step env (.launched id true) = s.launched id true := by simp only [step, hstage]
    have honward := Onward.launched s id
    rw [hstep]
    exact Or.inr ⟨honward.current, honward.launches.trans (by simp [entered])⟩
  · have honward : Onward c.id (next.isFollowedBy ·) s₀ (s.step env e) := hstep ▸ Onward.finishClosing
    exact Or.inl ⟨honward.current.trans hnone, honward.launches.trans hlength⟩

/-- Otherwise it stays. -/
theorem current_of_keeps (env : Surroundings) (hnodup : (s.calls.map Call.id).Nodup)
    (numbered : s.isNumbered e = true) (h : s.letsGo e = false) :
    (s.step env e).current = s.current ∧ (s.step env e).channels.length = s.channels.length := by
  cases succession env s e with
  | keeps current launches | stopsReader _ _ _ current launches => exact ⟨current, launches⟩
  | @letsGo c step next hc own stage ended _ _ =>
    rcases ended with rfl | ⟨k, rfl, rfl⟩
    · rcases step_of_mem env hnodup hc (by rw [stage]; rfl) own (asksFor_of_isNumbered numbered hc) with
        hidle | ⟨rfl, -⟩ | ⟨-, hidle⟩
      · rw [hidle]
        exact ⟨rfl, rfl⟩
      · simp only [letsGo, stageIn?_of_mem hnodup hc, stage] at h
        cases h
      · rw [hidle, stage]
        exact ⟨rfl, rfl⟩
    · have hfound := stage?_of_mem hnodup hc
      rw [stage] at hfound
      simp only [letsGo, hfound, Bool.not_eq_false'] at h
      have hstops : s.step env (.processEnded c.id) = ((s.modifyChannel k Channel.stopReader).suspend c.id
          (.closing .reader next) none).letGoOn c.id := by
        simp only [step, hfound]
        unfold processEnded
        exact if_pos h
      have honward : Onward c.id (fun _ => True) (s.modifyChannel k Channel.stopReader)
          (s.step env (.processEnded c.id)) := by
        rw [hstops]
        exact (Onward.suspend trivial).noting .letGoOn rfl
      exact ⟨honward.current, honward.launches.trans (List.length_modify ..)⟩
  | @comesUp c hc asked stage _ _ =>
    simp only [asked, letsGo, stage?_of_mem hnodup hc, stage] at h
    cases h

/-- Whoever waits for the end of a debugger goes on to do so until it has been killed. -/
theorem isEnding_after (env : Surroundings) (hnodup : (s.calls.map Call.id).Nodup)
    (numbered : s.isNumbered e = true) (h : s.isEnding k = true) :
    (s.after env e).isEnding k = true ∨ s.killed? e = some k := by
  obtain ⟨c, hc, next, hstage⟩ := isEnding_iff.1 h
  have hstays : c ∈ (s.after env e).calls → (s.after env e).isEnding k = true := fun hc =>
    isEnding_iff.2 ⟨c, hc, next, hstage⟩
  by_cases own : e.caller? = some c.id
  · rcases step_of_closing_process (s := { s with outbox := [] }) env hnodup hc hstage own
      (asksFor_of_isNumbered numbered hc) with hidle | ⟨rfl, -⟩
    · have hsame : s.after env e = { s with outbox := [] } := hidle
      exact Or.inl (hstays (by rw [hsame]; exact hc))
    · exact Or.inr (killed?_of_mem hnodup hc hstage)
  · exact Or.inl (hstays ((acts_step_any { s with outbox := [] } env e).mem_calls own hc))

/-! ## A debugger that is safe -/

/-- Does no operation start or close a session? -/
def isSettled (s : Session) : Bool := s.calls.all fun c => c.stage.isOrdinary

/-- A session holds a debugger, nobody launches another one, and whoever ends one ends that one. -/
structure HoldsOn (s : Session) (k : LaunchId) : Prop where
  current : s.current = some k
  calls : ∀ c ∈ s.calls, c.stage.Fits (some k)

theorem HoldsOn.of_isSettled (h : s.isSettled = true) (hcurrent : s.current = some k) : s.HoldsOn k :=
  ⟨hcurrent, fun c hc => Stage.fits_of_isOrdinary (List.all_eq_true.1 h c hc) _⟩

/-- Nobody waits for the end of a debugger in a session that nobody starts or closes. -/
theorem isEnding_of_isSettled (h : s.isSettled = true) (k : LaunchId) : s.isEnding k = false := by
  rw [Bool.eq_false_iff]
  intro hends
  obtain ⟨c, hc, next, hstage⟩ := isEnding_iff.1 hends
  have hordinary := List.all_eq_true.1 h c hc
  rw [hstage] at hordinary
  cases hordinary

/-- The session goes on to hold the debugger until it has been killed. -/
theorem HoldsOn.after (h : s.HoldsOn k) (hnodup : (s.calls.map Call.id).Nodup) (env : Surroundings)
    (e : Event) : (s.after env e).HoldsOn k ∨ s.killed? e = some k := by
  have hfits := h.calls
  have hkilled : ∀ {c : Call} {j : LaunchId} {next : Closed}, c ∈ s.calls →
      c.stage = .closing (.process j) next → s.killed? (.processEnded c.id) = some k := by
    intro c j next hc hstage
    have hheld := hfits c hc
    rw [hstage] at hheld
    exact (killed?_of_mem hnodup hc hstage).trans hheld.symm
  cases succession env { s with outbox := [] } e with
  | keeps current _ calls =>
    refine Or.inl ⟨current.trans h.current, fun d hd => (calls d hd).elim (hfits d) fun h' => ?_⟩
    have hcurrent : { s with outbox := [] }.current = some k := h.current
    rwa [hcurrent] at h'
  | stopsReader hc asked stage _ _ _ =>
    rw [asked]
    exact Or.inr (hkilled hc stage)
  | @letsGo c step next hc own stage ended _ _ _ =>
    rcases ended with rfl | ⟨j, rfl, asked⟩
    · have hreader := hfits c hc
      rw [stage] at hreader
      exact hreader.elim
    · rw [asked]
      exact Or.inr (hkilled hc stage)
  | @comesUp c hc asked stage _ _ _ =>
    have hlaunching := hfits c hc
    rw [stage] at hlaunching
    cases hlaunching

end Session

end DebugConsole
