import DebugConsole.Proofs.Session.Displacement
import DebugConsole.Rehearsal.Child

set_option autoImplicit false

/-!
# The processes of a session's debuggers

A process is out of hand if it is still there and the session does not hold its debugger, so that no kill of
the session ends it.  That comes about in two ways.

* Whoever kills a process waits for its end, but only for so long (`ProcessHandle.killWait`).  A process that
  does not heed being killed outlives it, and the session lets its debugger go all the same.
* A debugger is displaced (`Fleet.displacedIn`): the session lets it go although its process is there and
  nobody is ending it.  Two operations have launched debuggers at the same time, and the second one to come
  up takes the place of the first; or one has launched a debugger while another was ending the last.

There is no third way (`Fleet.areSoleHeld_iff_not_displaced`).  As long as no debugger comes up while another
operation launches one or ends one, none is displaced.
-/

namespace DebugConsole

namespace Rehearsal.Child

variable {c : Child}

/-- Has a process been killed that does not heed it? -/
def HasOutlived (c : Child) : Prop := c.ignoresKill = true ∧ 0 < c.kills

/-- A process has ended, unless it has outlived being killed. -/
def IsGone (c : Child) : Prop := c.handle.isAlive = true → c.HasOutlived

instance (c : Child) : Decidable c.HasOutlived := inferInstanceAs (Decidable (_ ∧ _))

instance (c : Child) : Decidable c.IsGone := inferInstanceAs (Decidable (_ → _))

theorem ignoresKill_kill (c : Child) : c.kill.2.ignoresKill = c.ignoresKill := by
  unfold kill
  dsimp only
  split
  · rfl
  · split <;> rfl

/-- A process that does not heed being killed outlives it, and any other one ends. -/
theorem isAlive_kill (c : Child) :
    c.kill.2.handle.isAlive = (c.handle.isAlive && c.ignoresKill) := by
  have hcancelled : ∀ h : ProcessHandle, h.cancelReaders.2.isAlive = h.isAlive := fun _ => rfl
  unfold kill
  dsimp only
  rw [hcancelled]
  by_cases halive : c.handle.isAlive = true
  · rw [if_neg (by simp [halive]), halive, Bool.true_and]
    by_cases hignores : c.ignoresKill = true
    · rw [if_pos hignores, halive, hignores]
    · rw [if_neg hignores, Bool.eq_false_iff.2 hignores]
      unfold ProcessHandle.exit
      rw [if_pos halive]
      rfl
  · rw [if_pos (by simpa using halive), Bool.eq_false_iff.2 halive, Bool.false_and]

theorem isGone_kill (c : Child) : c.kill.2.IsGone := by
  intro halive
  rw [isAlive_kill, Bool.and_eq_true] at halive
  refine ⟨(ignoresKill_kill c).trans halive.2, ?_⟩
  unfold kill
  dsimp only
  rw [if_neg (by simp [halive.1]), if_pos halive.2]
  exact Nat.succ_pos _

theorem IsGone.exit (h : c.IsGone) (code : Int) :
    IsGone { c with handle := c.handle.exit code } := by
  intro halive
  refine h ?_
  dsimp only at halive
  unfold ProcessHandle.exit at halive
  split at halive
  · cases halive
  · exact halive

/-- Whichever process exits by itself, one that is gone stays so. -/
theorem isGone_exits {children : LaunchId → Child} {k : LaunchId} (h : (children k).IsGone) (j : LaunchId)
    (code : Int) :
    (Function.update children j { children j with handle := (children j).handle.exit code } k).IsGone := by
  by_cases hk : k = j
  · subst hk
    rw [Function.update_self]
    exact h.exit code
  · rwa [Function.update_of_ne hk]

theorem ignoresKill_exits (children : LaunchId → Child) (j k : LaunchId) (code : Int) :
    (Function.update children j { children j with handle := (children j).handle.exit code } k).ignoresKill =
      (children k).ignoresKill := by
  by_cases hk : k = j
  · subst hk
    rw [Function.update_self]
  · rw [Function.update_of_ne hk]

/-- A process that heeds being killed is gone when it has ended. -/
theorem IsGone.isAlive_eq_false (h : c.IsGone) (heeds : c.ignoresKill = false) :
    c.handle.isAlive = false := by
  rw [Bool.eq_false_iff]
  intro halive
  cases (h halive).1.symm.trans heeds

end Rehearsal.Child

open Rehearsal (Child)

/-- The kill of a debugger is on its way: it waits for the watcher to stop, or for the process to end. -/
def Session.IsKilling (s : Session) (id : CallId) (k : LaunchId) : Prop :=
  ∃ c ∈ s.calls, c.id = id ∧
    (c.stage = .closing .watcher .kill ∨ c.stage = .closing (.process k) .kill)

/-- A session, and the processes of the debuggers that it has launched and will launch. -/
structure Fleet where
  session : Session
  children : LaunchId → Child

namespace Fleet

open Session (Event create calm isNumbered isOrderly along_cons HoldsOn nodup_after
  asksFor_of_isNumbered isNumbered_of_isOrderly isNumbered_call comesUpAlone_of_isOrderly
  isNext_of_letsGo current_of_keeps isEnding_after isEnding_of_isSettled killed?_of_mem mem_close
  mem_closeChannel step_of_mem step_of_closing_process acts_step_any launches_le_after closeChannel
  stageIn?_of_mem)

variable {f : Fleet} {env : Surroundings} {e : Event} {o : Occurrence} {os : List Occurrence}
  {id : CallId} {j k : LaunchId} {lost : List LaunchId}

/-- Has a debugger been launched whose process is still there?  A launch is over when its process has
survived the first moments; a process that is in them belongs to an operation that launches it. -/
def isAlive (f : Fleet) (k : LaunchId) : Bool :=
  decide (k < f.session.channels.length) && (f.children k).handle.isAlive

/-- Something happens to the session.  Whoever kills a process goes on when that has been done. -/
def after (f : Fleet) (env : Surroundings) (e : Event) : Fleet where
  session := f.session.after env e
  children := match f.session.killed? e with
    | some k => Function.update f.children k (f.children k).kill.2
    | none => f.children

/-- A process exits by itself. -/
def exits (f : Fleet) (k : LaunchId) (code : Int) : Fleet where
  session := f.session
  children := Function.update f.children k
    { f.children k with handle := (f.children k).handle.exit code }

/-- The fleet after something has happened. -/
def meets (f : Fleet) : Occurrence → Fleet
  | .event env e => f.after env e
  | .exits k code => f.exits k code
  | .subscribe name => { f with session := f.session.subscribe name }
  | .unsubscribe name => { f with session := f.session.unsubscribe name }

/-- The fleet after some things have happened. -/
def afterAll (f : Fleet) (os : List Occurrence) : Fleet := os.foldl meets f

/-- Is a debugger's process gone, or is an operation ending it? -/
def isAway (f : Fleet) (k : LaunchId) : Bool :=
  decide (f.children k).IsGone || f.session.isEnding k

/-- The debugger that is displaced: it is let go although its process is there and nobody is ending it. -/
def displacedIn (f : Fleet) : Occurrence → List LaunchId
  | .event env e =>
    if f.session.letsGo e then displacedFrom f.session.current (f.after env e).isAway else []
  | _ => []

/-- The debuggers that are displaced in a run. -/
def displaced : Fleet → List Occurrence → List LaunchId
  | _, [] => []
  | f, o :: os => f.displacedIn o ++ displaced (f.meets o) os

theorem session_meets (f : Fleet) (o : Occurrence) : (f.meets o).session = f.session.meets o := by
  cases o <;> rfl

/-! ## Processes -/

/-- What becomes of a process when something happens to the session: it may be killed. -/
theorem children_after (f : Fleet) (env : Surroundings) (e : Event) (k : LaunchId) :
    (f.after env e).children k = f.children k ∨ (f.after env e).children k = (f.children k).kill.2 := by
  unfold after
  split
  · rename_i j _
    by_cases hk : k = j
    · subst hk
      exact Or.inr (Function.update_self ..)
    · exact Or.inl (Function.update_of_ne hk ..)
  · exact Or.inl rfl

theorem isGone_after (h : (f.children k).IsGone) (env : Surroundings) (e : Event) :
    ((f.after env e).children k).IsGone := by
  rcases children_after f env e k with hsame | hkilled
  · rwa [hsame]
  · rw [hkilled]
    exact Child.isGone_kill _

/-- A process that has been killed is gone. -/
theorem isGone_of_killed (h : f.session.killed? e = some k) (env : Surroundings) :
    ((f.after env e).children k).IsGone := by
  have hkilled : (f.after env e).children k = (f.children k).kill.2 := by
    unfold after
    rw [h]
    exact Function.update_self ..
  rw [hkilled]
  exact Child.isGone_kill _

theorem ignoresKill_after (f : Fleet) (env : Surroundings) (e : Event) (k : LaunchId) :
    ((f.after env e).children k).ignoresKill = (f.children k).ignoresKill := by
  rcases children_after f env e k with hsame | hkilled
  · rw [hsame]
  · rw [hkilled, Child.ignoresKill_kill]

/-- Whether a process heeds being killed does not change. -/
theorem ignoresKill_afterAll (f : Fleet) (os : List Occurrence) (k : LaunchId) :
    ((f.afterAll os).children k).ignoresKill = (f.children k).ignoresKill := by
  induction os generalizing f with
  | nil => rfl
  | cons o os ih =>
    refine (ih (f.meets o)).trans ?_
    cases o with
    | event env e => exact ignoresKill_after f env e k
    | exits j code => exact Child.ignoresKill_exits f.children j k code
    | subscribe | unsubscribe => rfl

theorem isAlive_eq_false (h : (f.children k).IsGone) (heeds : (f.children k).ignoresKill = false) :
    f.isAlive k = false := by
  unfold isAlive
  rw [h.isAlive_eq_false heeds, Bool.and_false]

/-- A process that does not heed being killed is there until it exits by itself. -/
theorem isAlive_after (h : f.isAlive k = true) (ignores : (f.children k).ignoresKill = true)
    (env : Surroundings) (e : Event) : (f.after env e).isAlive k = true := by
  obtain ⟨hlaunched, halive⟩ := Bool.and_eq_true_iff.1 h
  refine Bool.and_eq_true_iff.2 ⟨decide_eq_true (Nat.lt_of_lt_of_le (of_decide_eq_true hlaunched)
    (launches_le_after env e)), ?_⟩
  rcases children_after f env e k with hsame | hkilled
  · rwa [hsame]
  · rw [hkilled, Child.isAlive_kill, halive, ignores]
    rfl

/-! ## Debuggers that are displaced -/

/-- Every debugger that has been launched is held, away or displaced. -/
structure Traced (lost : List LaunchId) (f : Fleet) : Prop where
  nodup : (f.session.calls.map Call.id).Nodup
  tracked : Tracked f.session.current f.session.channels.length f.isAway lost

/-- A debugger whose process is gone or being ended stays away. -/
theorem isAway_after (hnodup : (f.session.calls.map Call.id).Nodup) (env : Surroundings)
    (numbered : f.session.isNumbered e = true) (h : f.isAway k = true) : (f.after env e).isAway k = true := by
  have hgone : ((f.after env e).children k).IsGone → (f.after env e).isAway k = true := fun h =>
    Bool.or_eq_true_iff.2 (Or.inl (decide_eq_true h))
  rcases Bool.or_eq_true_iff.1 h with h | hends
  · exact hgone (isGone_after (of_decide_eq_true h) env e)
  · rcases isEnding_after env hnodup numbered hends with h | hkilled
    · exact Bool.or_eq_true_iff.2 (Or.inr h)
    · exact hgone (isGone_of_killed hkilled env)

/-- When the debugger that is held is let go, the next one has come up or none is held. -/
theorem isNext_after (env : Surroundings) (hgoes : f.session.letsGo e = true) :
    IsNext f.session.channels.length (f.after env e).session.current
      (f.after env e).session.channels.length :=
  isNext_of_letsGo (s := { f.session with outbox := [] }) env hgoes

theorem Traced.event (h : f.Traced lost) (env : Surroundings) (numbered : f.session.isNumbered e = true) :
    (f.after env e).Traced (lost ++ f.displacedIn (.event env e)) := by
  have haway : ∀ k, f.isAway k = true → (f.after env e).isAway k = true := fun _ =>
    isAway_after h.nodup env numbered
  refine ⟨nodup_after h.nodup, ?_⟩
  cases hgoes : f.session.letsGo e with
  | true =>
    rw [displacedIn, if_pos hgoes]
    exact h.tracked.letsGo (isNext_after env hgoes) haway
  | false =>
    obtain ⟨hcurrent, hlaunches⟩ :=
      current_of_keeps (s := { f.session with outbox := [] }) env h.nodup numbered hgoes
    have hsame : (f.after env e).session.current = f.session.current := hcurrent
    have hcount : (f.after env e).session.channels.length = f.session.channels.length := hlaunches
    rw [displacedIn, if_neg (by simp [hgoes]), List.append_nil, hsame, hcount]
    exact h.tracked.keeps haway

theorem Traced.meets (h : f.Traced lost)
    (numbered : ∀ env e, o = .event env e → f.session.isNumbered e = true) :
    (f.meets o).Traced (lost ++ f.displacedIn o) := by
  cases o with
  | event env e => exact h.event env (numbered env e rfl)
  | exits j code =>
    rw [show f.displacedIn (.exits j code) = [] from rfl, List.append_nil]
    refine ⟨h.nodup, h.tracked.keeps fun k hk => ?_⟩
    rw [isAway, Bool.or_eq_true_iff, decide_eq_true_iff] at hk ⊢
    exact hk.imp_left (Child.isGone_exits · j code)
  | subscribe | unsubscribe =>
    rw [show f.displacedIn _ = [] from rfl, List.append_nil]
    exact ⟨h.nodup, h.tracked⟩

/-- What is traced stays so, and so is what is displaced in a run. -/
theorem Traced.afterAll (h : f.Traced lost) (numbered : f.session.along isNumbered os = true) :
    (f.afterAll os).Traced (lost ++ f.displaced os) := by
  induction os generalizing f lost with
  | nil => rwa [show f.displaced [] = [] from rfl, List.append_nil]
  | cons o os ih =>
    obtain ⟨hfirst, hlater⟩ := along_cons.1 numbered
    rw [← session_meets] at hlater
    rw [displaced, ← List.append_assoc]
    exact ih (h.meets hfirst) hlater

/-- A fleet whose session has launched nothing. -/
def IsNew (f : Fleet) : Prop := ∃ settings probe, f.session = create settings probe

theorem IsNew.traced (h : f.IsNew) : f.Traced [] := by
  obtain ⟨settings, probe, hcreated⟩ := h
  refine ⟨?_, ?_⟩ <;> rw [hcreated]
  · exact List.nodup_nil
  · exact .nothing

/-! ## Good order -/

/-- Every process that is still there is held, or has outlived being killed. -/
structure Kept (f : Fleet) : Prop where
  traced : f.Traced []
  sight : f.session.HeldOrGone fun k => (f.children k).IsGone

theorem IsNew.kept (h : f.IsNew) : f.Kept := by
  refine ⟨h.traced, ?_⟩
  obtain ⟨settings, probe, hcreated⟩ := h
  rw [hcreated]
  exact ⟨fun _ hc => absurd hc List.not_mem_nil, fun _ hk => absurd hk (Nat.not_lt_zero _)⟩

/-- In good order, no debugger is let go that is not gone. -/
theorem Kept.event (h : f.Kept) (env : Surroundings) (orderly : f.session.isOrderly e = true) :
    f.displacedIn (.event env e) = [] ∧ (f.after env e).Kept := by
  have hsight : (f.session.after env e).HeldOrGone fun k => ((f.after env e).children k).IsGone :=
    h.sight.after h.traced.nodup env (comesUpAlone_of_isOrderly orderly)
      (fun _ hk => isGone_after hk env e) fun _ hk => isGone_of_killed hk env
  have hnone : f.displacedIn (.event env e) = [] := by
    rw [displacedIn]
    split
    · rename_i hgoes
      refine h.traced.tracked.displacedFrom_eq_nil (isNext_after env hgoes) fun k hk => ?_
      exact (hsight.held k hk).imp_right fun hgone => Bool.or_eq_true_iff.2 (Or.inl (decide_eq_true hgone))
    · rfl
  refine ⟨hnone, ?_, hsight⟩
  have htraced := h.traced.event env (isNumbered_of_isOrderly orderly)
  rwa [hnone] at htraced

theorem Kept.meets (h : f.Kept)
    (orderly : ∀ env e, o = .event env e → f.session.isOrderly e = true) :
    f.displacedIn o = [] ∧ (f.meets o).Kept := by
  cases o with
  | event env e => exact h.event env (orderly env e rfl)
  | exits j code =>
    exact ⟨rfl, h.traced.meets (o := .exits j code) nofun, h.sight.mono fun _ hk => Child.isGone_exits hk j code⟩
  | subscribe name => exact ⟨rfl, h.traced.meets (o := .subscribe name) nofun, h.sight.calls, h.sight.held⟩
  | unsubscribe name =>
    exact ⟨rfl, h.traced.meets (o := .unsubscribe name) nofun, h.sight.calls, h.sight.held⟩

/-- As long as no debugger comes up while another operation launches one or ends one, none is displaced. -/
theorem Kept.displaced_eq_nil (h : f.Kept) (orderly : f.session.along isOrderly os = true) :
    f.displaced os = [] := by
  induction os generalizing f with
  | nil => rfl
  | cons o os ih =>
    obtain ⟨hfirst, hlater⟩ := along_cons.1 orderly
    obtain ⟨hnone, hkept⟩ := h.meets hfirst
    rw [← session_meets] at hlater
    rw [displaced, hnone, ih hkept hlater]
    rfl

/-! ## The kill of the debugger that is held -/

/-- The debugger is safe and a kill of it on its way, or its process is gone. -/
def Dooms (f : Fleet) (id : CallId) (k : LaunchId) : Prop :=
  (f.session.HoldsOn k ∧ f.session.IsKilling id k) ∨ (f.children k).IsGone

/-- A kill begins with the debugger that is held. -/
theorem isKilling_of_kill (hcurrent : f.session.current = some k) (env : Surroundings) (id : CallId) :
    (f.after env (.call id .kill)).session.IsKilling id k := by
  rcases mem_close (s := { f.session with outbox := [] }) hcurrent id .kill with ⟨hc, -⟩ | hc
  · exact ⟨_, hc, rfl, Or.inl rfl⟩
  · exact ⟨_, hc, rfl, Or.inr rfl⟩

/-- A kill that is on its way stays so until the debugger has been killed. -/
theorem isKilling_after (hnodup : (f.session.calls.map Call.id).Nodup)
    (numbered : f.session.isNumbered e = true) (hcurrent : f.session.current = some k)
    (h : f.session.IsKilling id k) (env : Surroundings) :
    (f.session.after env e).IsKilling id k ∨ f.session.killed? e = some k := by
  obtain ⟨c, hc, rfl, hstage⟩ := h
  have hsame : f.session.after env e = { f.session with outbox := [] } →
      (f.session.after env e).IsKilling c.id k := by
    intro hsame
    rw [hsame]
    exact ⟨c, hc, rfl, hstage⟩
  by_cases own : e.caller? = some c.id
  · have hasks := asksFor_of_isNumbered numbered hc
    rcases hstage with hstage | hstage
    · -- the watcher has stopped, and the debugger that is held is to be killed
      rcases step_of_mem (s := { f.session with outbox := [] }) env hnodup hc (by rw [hstage]; rfl) own
        hasks with hidle | ⟨-, hgoesOn⟩ | ⟨-, hidle⟩
      · exact Or.inl (hsame hidle)
      · have hafter : f.session.after env e =
            closeChannel { f.session with outbox := [], watcher := none } c.id .kill := by
          refine hgoesOn.trans ?_
          rw [hstage]
          rfl
        refine Or.inl ⟨⟨c.id, .closing (.process k) .kill, f.session.waits, none⟩, ?_, rfl, Or.inr rfl⟩
        rw [hafter]
        exact mem_closeChannel (s := { f.session with outbox := [], watcher := none }) hcurrent c.id .kill
      · refine Or.inl (hsame (hidle.trans ?_))
        rw [hstage]
        rfl
    · rcases step_of_closing_process (s := { f.session with outbox := [] }) env hnodup hc hstage own hasks
        with hidle | ⟨rfl, -⟩
      · exact Or.inl (hsame hidle)
      · exact Or.inr (killed?_of_mem hnodup hc hstage)
  · exact Or.inl ⟨c, (acts_step_any { f.session with outbox := [] } env e).mem_calls own hc, rfl, hstage⟩

theorem Dooms.event (h : f.Dooms id k) (hnodup : (f.session.calls.map Call.id).Nodup) (env : Surroundings)
    (numbered : f.session.isNumbered e = true) : (f.after env e).Dooms id k := by
  rcases h with ⟨hholds, hkilling⟩ | hgone
  · rcases hholds.after hnodup env e with hholds' | hkilled
    · exact (isKilling_after hnodup numbered hholds.current hkilling env).imp (⟨hholds', ·⟩)
        (isGone_of_killed · env)
    · exact Or.inr (isGone_of_killed hkilled env)
  · exact Or.inr (isGone_after hgone env e)

theorem Dooms.afterAll (h : f.Dooms id k) (traced : f.Traced lost)
    (numbered : f.session.along isNumbered os = true) : (f.afterAll os).Dooms id k := by
  induction os generalizing f lost with
  | nil => exact h
  | cons o os ih =>
    obtain ⟨hfirst, hlater⟩ := along_cons.1 numbered
    rw [← session_meets] at hlater
    refine ih ?_ (traced.meets hfirst) hlater
    cases o with
    | event env e => exact h.event traced.nodup env (hfirst env e rfl)
    | exits j code => exact h.imp_right (Child.isGone_exits · j code)
    | subscribe | unsubscribe => exact h.imp_left fun ⟨hholds, hkilling⟩ => ⟨⟨hholds.1, hholds.2⟩, hkilling⟩

/-- A kill of a debugger that is held while nobody starts or closes the session is on its way as long as the
process is not gone, whatever happens. -/
theorem dooms_of_kill (traced : f.Traced lost) (settled : f.session.isSettled = true)
    (hcurrent : f.session.current = some k) (fresh : id ∉ f.session.calls.map Call.id) (env : Surroundings)
    (numbered : (f.after env (.call id .kill)).session.along isNumbered os = true) :
    ((f.after env (.call id .kill)).afterAll os).Dooms id k := by
  have hbegun : (f.after env (.call id .kill)).Dooms id k := by
    rcases (HoldsOn.of_isSettled settled hcurrent).after traced.nodup env (.call id .kill) with h | h
    · exact Or.inl ⟨h, isKilling_of_kill hcurrent env id⟩
    · cases h
  exact hbegun.afterAll (traced.event env (isNumbered_call fresh)) numbered

/-- A kill during which nothing else happens is done with the process when this has been killed. -/
theorem isGone_of_kill (hnodup : (f.session.calls.map Call.id).Nodup) (hcurrent : f.session.current = some k)
    (env env' env'' : Surroundings) (id : CallId) :
    ((((f.after env (.call id .kill)).after env' (.proceeds id f.session.waits)).after env''
      (.processEnded id)).children k).IsGone := by
  let killing := f.session.after env (.call id .kill)
  have hnodup : (killing.calls.map Call.id).Nodup := nodup_after hnodup
  have hlater : ((killing.after env' (.proceeds id f.session.waits)).calls.map Call.id).Nodup :=
    nodup_after hnodup
  have hkilled : ∀ wait, ⟨id, .closing (.process k) .kill, wait, none⟩ ∈
      (killing.after env' (.proceeds id f.session.waits)).calls →
      ((((f.after env (.call id .kill)).after env' (.proceeds id f.session.waits)).after env''
        (.processEnded id)).children k).IsGone :=
    fun _ hc => isGone_of_killed (f := (f.after env (.call id .kill)).after env' (.proceeds id f.session.waits))
      (killed?_of_mem hlater hc rfl) env''
  rcases mem_close (s := { f.session with outbox := [] }) hcurrent id .kill with ⟨hc, hheld⟩ | hc
  · have hafter : killing.after env' (.proceeds id f.session.waits) =
        closeChannel { killing with outbox := [], watcher := none } id .kill := by
      have hcleared : Session.stageIn? { killing with outbox := [] } id f.session.waits =
          some (.closing .watcher .kill) := stageIn?_of_mem hnodup hc
      unfold Session.after
      simp only [Session.step, hcleared]
      rfl
    refine hkilled killing.waits ?_
    rw [hafter]
    exact mem_closeChannel (s := { killing with outbox := [], watcher := none }) hheld id .kill
  · refine hkilled f.session.waits ?_
    rcases step_of_closing_process (s := { killing with outbox := [] })
        (e := .proceeds id f.session.waits) env' hnodup hc rfl rfl rfl with hidle | ⟨hends, -⟩
    · have hsame : killing.after env' (.proceeds id f.session.waits) = { killing with outbox := [] } :=
        hidle
      rw [hsame]
      exact hc
    · cases hends

/-! ## The processes that are left -/

/-- A debugger is the one that is held, no other one's process is there, and a kill ends its process: the kill
is on its way until it has, whatever happens meanwhile, and it has when the process has been killed. -/
structure IsSoleHeld (f : Fleet) (k : LaunchId) : Prop where
  held : f.session.current = some k
  sole : ∀ j, f.isAlive j = true → j = k
  dies : ∀ id, id ∉ f.session.calls.map Call.id → ∀ env os,
    (f.after env (.call id .kill)).session.along isNumbered os = true →
      ((f.after env (.call id .kill)).afterAll os).session.IsKilling id k ∨
        ((f.after env (.call id .kill)).afterAll os).isAlive k = false
  dead : ∀ id env env' env'', (((f.after env (.call id .kill)).after env'
    (.proceeds id f.session.waits)).after env'' (.processEnded id)).isAlive k = false

/-- A debugger that is held while nobody starts or closes the session, and no other one's process is there: a
kill ends its process if this heeds being killed. -/
theorem IsSoleHeld.of_heeds (traced : f.Traced lost) (settled : f.session.isSettled = true)
    (held : f.session.current = some k) (sole : ∀ j, f.isAlive j = true → j = k)
    (heeds : (f.children k).ignoresKill = false) : f.IsSoleHeld k where
  held := held
  sole := sole
  dies := by
    intro id fresh env os numbered
    have hheeds : (((f.after env (.call id .kill)).afterAll os).children k).ignoresKill = false := by
      rw [ignoresKill_afterAll, ignoresKill_after, heeds]
    exact (dooms_of_kill traced settled held fresh env numbered).imp And.right (isAlive_eq_false · hheeds)
  dead := fun id env env' env'' => isAlive_eq_false (isGone_of_kill traced.nodup held env env' env'' id)
    (by rw [ignoresKill_after, ignoresKill_after, ignoresKill_after, heeds])

/-- No kill ends a process that does not heed being killed. -/
theorem IsSoleHeld.heeds (h : f.IsSoleHeld k) (alive : f.isAlive k = true) :
    (f.children k).ignoresKill = false := by
  rw [Bool.eq_false_iff]
  intro hignores
  have hstill : ∀ (g : Fleet) (e : Event), (g.children k).ignoresKill = true → g.isAlive k = true →
      ((g.after (calm 0.0) e).children k).ignoresKill = true ∧
        (g.after (calm 0.0) e).isAlive k = true := fun g e hi ha =>
    ⟨(ignoresKill_after ..).trans hi, isAlive_after ha hi _ e⟩
  obtain ⟨hi, ha⟩ := hstill f (.call 0 .kill) hignores alive
  obtain ⟨hi, ha⟩ := hstill _ (.proceeds 0 f.session.waits) hi ha
  obtain ⟨-, ha⟩ := hstill _ (.processEnded 0) hi ha
  cases ha.symm.trans (h.dead 0 (calm 0.0) (calm 0.0) (calm 0.0))

/-- Whatever has happened: while nobody starts or closes the session, a process that is still there is the one
of the debugger that is held, the only one, and one that a kill ends, exactly if none that is still there has
been displaced or does not heed being killed.  None is displaced as long as no debugger comes up while
another operation launches one or ends one. -/
theorem areSoleHeld_iff_not_displaced (created : f.IsNew) (numbered : f.session.along isNumbered os = true)
    (settled : (f.afterAll os).session.isSettled = true) :
    ((∀ k, (f.afterAll os).isAlive k = true → (f.afterAll os).IsSoleHeld k) ↔
        ∀ k, (f.afterAll os).isAlive k = true →
          k ∉ f.displaced os ∧ (f.children k).ignoresKill = false) ∧
      (f.session.along isOrderly os = true → f.displaced os = []) := by
  have traced : (f.afterAll os).Traced (f.displaced os) := created.traced.afterAll numbered
  refine ⟨⟨fun h k alive => ?_, fun h k alive => ?_⟩, created.kept.displaced_eq_nil⟩
  · have hsole := h k alive
    refine ⟨fun hlost => (traced.tracked.lost k hlost).2 hsole.held, ?_⟩
    rw [← ignoresKill_afterAll f os]
    exact hsole.heeds alive
  · have hheeds : ∀ j, (f.afterAll os).isAlive j = true →
        ((f.afterAll os).children j).ignoresKill = false := fun j hj =>
      (ignoresKill_afterAll ..).trans (h j hj).2
    have hheld : ∀ j, (f.afterAll os).isAlive j = true → (f.afterAll os).session.current = some j := by
      intro j hj
      have there : (f.afterAll os).isAway j = false := by
        rw [isAway, isEnding_of_isSettled settled, Bool.or_false, decide_eq_false_iff_not]
        intro hgone
        cases hj.symm.trans (isAlive_eq_false hgone (hheeds j hj))
      exact traced.tracked.held_of_there (of_decide_eq_true (Bool.and_eq_true_iff.1 hj).1) there (h j hj).1
    refine .of_heeds traced settled (hheld k alive) (fun j hj => ?_) (hheeds k alive)
    exact Option.some.inj ((hheld j hj).symm.trans (hheld k alive))

/-! ## Runs -/

/-- A process that heeds being killed, or does not. -/
def child (ignoresKill : Bool) : Child :=
  ⟨.create .utf8 true [.stdout] none, ignoresKill, none, 0, 0.0⟩

/-- A session that waits for ever and has launched nothing, whose debuggers heed being killed. -/
def idle : Fleet :=
  ⟨.create { Settings.default with commandTimeout := none } none, fun _ => child false⟩

/-- Two operations start a debugger at the same time: each has found that there is none. -/
def overlapping : List Occurrence :=
  [.event (calm 0.0) (.call 0 (.start (some "gdb") [] none)),
    .event (calm 0.1) (.call 1 (.start (some "gdb") [] none)),
    .event (calm 0.5) (.launched 0 true), .event (calm 0.6) (.launched 1 true),
    .event (calm 0.7) (.channel 0 (.prints "(gdb) ")), .event (calm 0.7) (.proceeds 0 2),
    .event (calm 0.8) (.channel 1 (.prints "(gdb) ")), .event (calm 0.8) (.proceeds 1 3)]

/-- The first of two debuggers that were started at the same time exits by itself: the second one is left, and
a kill ends it. -/
theorem isSoleHeld_of_exit : (idle.afterAll (overlapping ++ [.exits 0 0])).IsSoleHeld 1 := by
  have numbered : idle.session.along isNumbered (overlapping ++ [.exits 0 0]) = true := by decide +kernel
  have settled : (idle.afterAll (overlapping ++ [.exits 0 0])).session.isSettled = true := by decide +kernel
  have hiff := (areSoleHeld_iff_not_displaced (f := idle) ⟨_, _, rfl⟩ numbered settled).1
  refine hiff.2 (fun k alive => ⟨?_, rfl⟩) 1 (by decide +kernel)
  rw [show idle.displaced (overlapping ++ [.exits 0 0]) = [0] by decide +kernel, List.mem_singleton]
  rintro rfl
  have hdead : (idle.afterAll (overlapping ++ [.exits 0 0])).isAlive 0 = false := by decide +kernel
  cases alive.symm.trans hdead

/-- Both processes are there when both debuggers have been started and nobody starts or closes the session any
more, although both heed being killed: the first one has been displaced, and no kill of the session ends
it. -/
theorem two_processes_of_overlapping_starts :
    idle.session.along isNumbered overlapping = true ∧
      (idle.afterAll overlapping).session.calls.isEmpty = true ∧
      (∀ k, (idle.children k).ignoresKill = false) ∧ idle.displaced overlapping = [0] ∧
      (idle.afterAll overlapping).session.current = some 1 ∧
      (idle.afterAll overlapping).isAlive 0 = true ∧ (idle.afterAll overlapping).isAlive 1 = true ∧
      ¬∀ k, (idle.afterAll overlapping).isAlive k = true → (idle.afterAll overlapping).IsSoleHeld k := by
  have hcurrent : (idle.afterAll overlapping).session.current = some 1 := by decide +kernel
  have halive : (idle.afterAll overlapping).isAlive 0 = true := by decide +kernel
  refine ⟨by decide +kernel, by decide +kernel, fun _ => rfl, by decide +kernel, hcurrent, halive,
    by decide +kernel, fun h => ?_⟩
  cases (h 0 halive).held.symm.trans hcurrent

end Fleet

end DebugConsole
