import DebugConsole.Proofs.Session.Bridges

set_option autoImplicit false

/-!
# Bridges that go astray

A session ends the bridge that it holds before it launches another one, and records the new one when the
launch is over.  In between, another operation may have a bridge come up; and whoever has waited for a
bridge to end lets go whichever is held by then.  So a bridge may be displaced: it is let go although its
process is there (`Bridgework.displacedIn`).

That is the only way in which a bridge that heeds being killed gets out of hand
(`Bridgework.bridges_areSoleHeld_iff`).  As long as no bridge comes up while another operation ends one
or launches one, none is displaced.
-/

namespace DebugConsole

open Rehearsal (Child)

namespace Session

variable {s : Session} {env : Surroundings} {e : Event} {id : CallId} {k : LaunchId}

/-! ## Letting go -/

/-- Is the bridge that is held let go in a step?  It is when another one has come up, and when whoever has
asked a bridge to end, this one or another, is told that it has. -/
def letsBridgeGo (s : Session) : Event → Bool
  | .bridgeLaunched id true =>
    match s.stage? id with
    | some (.launchingBridge ..) => true
    | _ => false
  | .bridgeEnded id =>
    match s.stage? id with
    | some (.endingBridge _) => true
    | _ => false
  | _ => false

/-- When the bridge that is held is let go, the next one has come up or none is held. -/
theorem isNext_of_letsBridgeGo (env : Surroundings) (bridged : s.IsBridged) (h : s.letsBridgeGo e = true) :
    IsNext s.bridges (s.step env e).bridge (s.step env e).bridges ∧ (s.step env e).probe = s.probe := by
  unfold letsBridgeGo at h
  split at h
  · rename_i id
    split at h
    · rename_i options others hstage
      obtain ⟨p, hprobe, -⟩ := bridged
      have hshuns : Shuns s.bridgedOver (s.step env (.bridgeLaunched id true)) := by
        simp only [step, hstage]
        rw [bridgeLaunched_eq hprobe]
        exact .connectTarget
      have hdock := Prod.mk.inj hshuns.dock
      exact ⟨Or.inr (Prod.mk.inj hdock.2), hdock.1⟩
    · cases h
  · rename_i id
    split at h
    · rename_i next hstage
      have htends : Tends { s with bridge := none } (s.step env (.bridgeEnded id)) := by
        simp only [step, hstage]
        exact .endRelay rfl
      have hdock := Prod.mk.inj htends.dock
      exact ⟨Or.inl (Prod.mk.inj hdock.2), hdock.1⟩
    · cases h
  · cases h

/-- Otherwise it stays. -/
theorem dock_of_keeps (env : Surroundings) (hnodup : (s.calls.map Call.id).Nodup)
    (h : s.letsBridgeGo e = false) : (s.step env e).dock = s.dock := by
  cases hleaves : s.leavesRelay e with
  | true =>
    unfold leavesRelay at hleaves
    split at hleaves
    · split at hleaves
      · rename_i hstage
        simp only [step, hstage, proceed]
        exact dock_relayEnded ..
      · cases hleaves
    · cases hleaves
  | false =>
    cases crossing env s e (fun hleaves' => absurd (hleaves.symm.trans hleaves') Bool.false_ne_true) with
    | tends ht => exact ht.dock
    | ends hc asked stage _ =>
      simp only [asked, letsBridgeGo, stage?_of_mem hnodup hc, stage] at h
      cases h
    | comesUp hc asked stage _ _ =>
      simp only [asked, letsBridgeGo, stage?_of_mem hnodup hc, stage] at h
      cases h

/-! ## A bridge that is safe -/

/-- Does no operation end or launch a bridge? -/
def isClearOfBridge (s : Session) : Bool := s.calls.all fun c => !c.stage.isAtBridge

/-- A session holds a bridge, and nobody ends one or launches one. -/
structure HoldsBridge (s : Session) (k : LaunchId) : Prop where
  bridge : s.bridge = some k
  calls : ∀ c ∈ s.calls, c.stage.isAtBridge = false

theorem HoldsBridge.of_isClearOfBridge (h : s.isClearOfBridge = true) (hbridge : s.bridge = some k) :
    s.HoldsBridge k :=
  ⟨hbridge, fun c hc => by simpa using List.all_eq_true.1 h c hc⟩

/-- The session goes on to hold the bridge until this has been asked to end. -/
theorem HoldsBridge.after (h : s.HoldsBridge k) (env : Surroundings) (e : Event) :
    (s.after env e).HoldsBridge k ∨ ∃ id, .endBridge id k ∈ (s.after env e).outbox := by
  have hat : ∀ {c : Call}, c ∈ s.calls → c.stage.isAtBridge = true → False := fun hc hat =>
    nomatch (h.calls _ hc).symm.trans hat
  have hleaves : { s with outbox := [] }.leavesRelay e = true → s.bridge = none := by
    intro hleaves
    obtain ⟨c, hc, next, hstage⟩ := exists_call_of_leavesRelay hleaves
    exact (hat hc (by rw [hstage]; rfl)).elim
  cases crossing env { s with outbox := [] } e hleaves with
  | tends ht =>
    have hbridge : (s.after env e).bridge = some k := (bridge_of_dock ht.dock).trans h.bridge
    by_cases hclear : ∀ c ∈ (s.after env e).calls, c.stage.isAtBridge = false
    · exact Or.inl ⟨hbridge, hclear⟩
    · -- whoever has come to the bridge has asked for its end
      obtain ⟨c, hc, hat'⟩ : ∃ c ∈ (s.after env e).calls, c.stage.isAtBridge = true := by
        simpa using hclear
      rcases ht.calls c hc with hold | hmeets
      · exact (hat hold hat').elim
      · have hmeets : c.stage.Meets (s.after env e).bridge (s.after env e).outbox := hmeets
        cases hstage : c.stage with
        | endingBridge next =>
          rw [hstage] at hmeets
          exact Or.inr (hmeets k hbridge)
        | endingRelay | launchingBridge =>
          rw [hstage] at hmeets
          cases hbridge.symm.trans hmeets
        | _ =>
          rw [hstage] at hat'
          cases hat'
  | ends hc _ stage _ => exact (hat hc (by rw [stage]; rfl)).elim
  | comesUp hc _ stage _ _ => exact (hat hc (by rw [stage]; rfl)).elim

/-- A kill that waits for the debugger to go does so until it has asked for the end of the bridge that is
held. -/
theorem killCloses_after (env : Surroundings) (bridged : s.IsBridged) (hnodup : (s.calls.map Call.id).Nodup)
    (numbered : s.isNumbered e = true) (h : s.KillCloses id) :
    (s.after env e).KillCloses id ∨ ∀ b, s.bridge = some b → .endBridge id b ∈ (s.after env e).outbox := by
  obtain ⟨c, hc, rfl, step, hstage⟩ := h
  by_cases own : e.caller? = some c.id
  · rcases parts_of_closing (s := { s with outbox := [] }) env bridged hnodup hc hstage own
      (asksFor_of_isNumbered numbered hc) with hidle | hparts
    · have hsame : s.after env e = { s with outbox := [] } := hidle
      refine Or.inl ⟨c, ?_, rfl, step, hstage⟩
      rw [hsame]
      exact hc
    · exact hparts.asks
  · exact Or.inl ⟨c, (acts_step_any { s with outbox := [] } env e).mem_calls own hc, rfl, step, hstage⟩

end Session

namespace Bridgework

open Session (Event IsBridged HoldsBridge create isNumbered isOrderlyAtBridge along_cons nodup_after
  isNext_of_letsBridgeGo dock_of_keeps killCloses_after endBridge_asks finishKill calm)

variable {f : Bridgework} {env : Surroundings} {e : Event} {o : Occurrence} {os : List Occurrence}
  {id : CallId} {j k : LaunchId} {lost : List LaunchId}

/-! ## Runs in which anything may happen -/

/-- The bridges after something has happened. -/
def meets (f : Bridgework) : Occurrence → Bridgework
  | .event env e => f.after env e
  | .exits k code => f.exits k code
  | .subscribe name => { f with session := f.session.subscribe name }
  | .unsubscribe name => { f with session := f.session.unsubscribe name }

/-- The bridges after some things have happened. -/
def afterAll (f : Bridgework) (os : List Occurrence) : Bridgework := os.foldl meets f

/-- Is a bridge's process gone? -/
def isAway (f : Bridgework) (k : LaunchId) : Bool := decide (f.children k).IsGone

/-- The bridge that is displaced: it is let go although its process is there.  Nobody ends it then, for
whoever ends a bridge has killed its process. -/
def displacedIn (f : Bridgework) : Occurrence → List LaunchId
  | .event env e =>
    if f.session.letsBridgeGo e then displacedFrom f.session.bridge (f.after env e).isAway else []
  | _ => []

/-- The bridges that are displaced in a run. -/
def displaced : Bridgework → List Occurrence → List LaunchId
  | _, [] => []
  | f, o :: os => f.displacedIn o ++ displaced (f.meets o) os

theorem session_meets (f : Bridgework) (o : Occurrence) : (f.meets o).session = f.session.meets o := by
  cases o <;> rfl

theorem ignoresKill_after (f : Bridgework) (env : Surroundings) (e : Event) (k : LaunchId) :
    ((f.after env e).children k).ignoresKill = (f.children k).ignoresKill := by
  show (killed f.children _ k).ignoresKill = _
  unfold killed
  split
  · exact Child.ignoresKill_kill _
  · rfl

/-- Whether a process heeds being killed does not change. -/
theorem ignoresKill_afterAll (f : Bridgework) (os : List Occurrence) (k : LaunchId) :
    ((f.afterAll os).children k).ignoresKill = (f.children k).ignoresKill := by
  induction os generalizing f with
  | nil => rfl
  | cons o os ih =>
    refine (ih (f.meets o)).trans ?_
    cases o with
    | event env e => exact ignoresKill_after f env e k
    | exits j code => exact Child.ignoresKill_exits f.children j k code
    | subscribe | unsubscribe => rfl

theorem isAlive_eq_false (h : (f.children k).IsGone) (heeds : (f.children k).ignoresKill = false) :
    f.isAlive k = false := by
  unfold isAlive
  rw [h.isAlive_eq_false heeds, Bool.and_false]

/-! ## Bridges that are displaced -/

/-- Every bridge that has been launched is held, gone or displaced. -/
structure Traced (lost : List LaunchId) (f : Bridgework) : Prop where
  nodup : (f.session.calls.map Call.id).Nodup
  bridged : f.session.IsBridged
  tracked : Tracked f.session.bridge f.session.bridges f.isAway lost

theorem isAway_after (env : Surroundings) (e : Event) (h : f.isAway k = true) :
    (f.after env e).isAway k = true :=
  decide_eq_true (isGone_killed _ (of_decide_eq_true h))

/-- When the bridge that is held is let go, the next one has come up or none is held. -/
theorem isNext_after (env : Surroundings) (bridged : f.session.IsBridged)
    (hgoes : f.session.letsBridgeGo e = true) :
    IsNext f.session.bridges (f.after env e).session.bridge (f.after env e).session.bridges ∧
      (f.after env e).session.probe = f.session.probe :=
  isNext_of_letsBridgeGo (s := { f.session with outbox := [] }) env bridged hgoes

theorem Traced.event (h : f.Traced lost) (env : Surroundings) (e : Event) :
    (f.after env e).Traced (lost ++ f.displacedIn (.event env e)) := by
  cases hgoes : f.session.letsBridgeGo e with
  | true =>
    obtain ⟨hnext, hprobe⟩ := isNext_after env h.bridged hgoes
    rw [displacedIn, if_pos hgoes]
    refine ⟨nodup_after h.nodup, ?_, h.tracked.letsGo hnext fun _ => isAway_after env e⟩
    unfold IsBridged
    rw [hprobe]
    exact h.bridged
  | false =>
    have hdock : (f.after env e).session.dock = f.session.dock :=
      dock_of_keeps (s := { f.session with outbox := [] }) env h.nodup hgoes
    obtain ⟨hprobe, hheld⟩ := Prod.mk.inj hdock
    obtain ⟨hbridge, hbridges⟩ := Prod.mk.inj hheld
    rw [displacedIn, if_neg (by simp [hgoes]), List.append_nil]
    refine ⟨nodup_after h.nodup, ?_, ?_⟩
    · unfold IsBridged
      rw [hprobe]
      exact h.bridged
    · rw [hbridge, hbridges]
      exact h.tracked.keeps fun _ => isAway_after env e

theorem Traced.meets (h : f.Traced lost) (o : Occurrence) : (f.meets o).Traced (lost ++ f.displacedIn o) := by
  cases o with
  | event env e => exact h.event env e
  | exits j code =>
    rw [show f.displacedIn (.exits j code) = [] from rfl, List.append_nil]
    refine ⟨h.nodup, h.bridged, h.tracked.keeps fun k hk => ?_⟩
    exact decide_eq_true (Child.isGone_exits (of_decide_eq_true hk) j code)
  | subscribe | unsubscribe =>
    rw [show f.displacedIn _ = [] from rfl, List.append_nil]
    exact ⟨h.nodup, h.bridged, h.tracked⟩

/-- What is traced stays so, and so is what is displaced in a run. -/
theorem Traced.afterAll (h : f.Traced lost) (os : List Occurrence) :
    (f.afterAll os).Traced (lost ++ f.displaced os) := by
  induction os generalizing f lost with
  | nil => rwa [show f.displaced [] = [] from rfl, List.append_nil]
  | cons o os ih =>
    rw [displaced, ← List.append_assoc]
    exact ih (h.meets o)

/-- A session that has launched nothing, with a toolchain that talks to its probe through a bridge. -/
def IsNew (f : Bridgework) : Prop :=
  ∃ settings probe, f.session = create settings probe ∧ f.session.IsBridged

theorem IsNew.kept (h : f.IsNew) : f.Kept := by
  obtain ⟨session, children⟩ := f
  obtain ⟨settings, probe, rfl, bridged⟩ := h
  exact kept_create bridged children

theorem IsNew.traced (h : f.IsNew) : f.Traced [] := by
  refine ⟨h.kept.nodup, h.kept.bridged, ?_⟩
  obtain ⟨settings, probe, hcreated, -⟩ := h
  rw [hcreated]
  exact .nothing

/-! ## Good order -/

/-- In good order, no bridge is let go that is not gone. -/
theorem Kept.displacedIn_eq_nil (h : f.Kept) (traced : f.Traced []) (env : Surroundings)
    (orderly : f.session.isOrderlyAtBridge e = true) : f.displacedIn (.event env e) = [] := by
  rw [displacedIn]
  split
  · rename_i hgoes
    refine traced.tracked.displacedFrom_eq_nil (isNext_after env h.bridged hgoes).1 fun k hk => ?_
    exact ((h.event env orderly).sight.held k hk).imp_right decide_eq_true
  · rfl

/-- As long as no bridge comes up while another operation ends one or launches one, none is displaced. -/
theorem Kept.displaced_eq_nil (h : f.Kept) (traced : f.Traced [])
    (orderly : f.session.along isOrderlyAtBridge os = true) : f.displaced os = [] := by
  induction os generalizing f with
  | nil => rfl
  | cons o os ih =>
    obtain ⟨hfirst, hlater⟩ := along_cons.1 orderly
    rw [← session_meets] at hlater
    have hstep : f.displacedIn o = [] ∧ (f.meets o).Kept := by
      cases o with
      | event env e =>
        exact ⟨h.displacedIn_eq_nil traced env (hfirst env e rfl), h.event env (hfirst env e rfl)⟩
      | exits j code => exact ⟨rfl, h.exits j code⟩
      | subscribe | unsubscribe => exact ⟨rfl, h.nodup, h.bridged, h.sight.calls, h.sight.held⟩
    obtain ⟨hnone, hkept⟩ := hstep
    have htraced := traced.meets o
    rw [hnone] at htraced
    rw [displaced, hnone, ih hkept htraced hlater]
    rfl

/-! ## The kill of the bridge that is held -/

/-- The bridge is safe and a kill waits for the debugger to go, or the bridge's process is gone. -/
def Dooms (f : Bridgework) (id : CallId) (k : LaunchId) : Prop :=
  (f.session.HoldsBridge k ∧ f.session.KillCloses id) ∨ (f.children k).IsGone

theorem Dooms.event (h : f.Dooms id k) (traced : f.Traced lost) (env : Surroundings)
    (numbered : f.session.isNumbered e = true) : (f.after env e).Dooms id k := by
  rcases h with ⟨hholds, hcloses⟩ | hgone
  · rcases hholds.after env e with hholds' | ⟨id', hasked⟩
    · refine (killCloses_after env traced.bridged traced.nodup numbered hcloses).imp (⟨hholds', ·⟩)
        fun hasks => ?_
      exact isGone_of_asked id (hasks k hholds.bridge)
    · exact Or.inr (isGone_of_asked id' hasked)
  · exact Or.inr (isGone_killed _ hgone)

theorem Dooms.afterAll (h : f.Dooms id k) (traced : f.Traced lost)
    (numbered : f.session.along isNumbered os = true) : (f.afterAll os).Dooms id k := by
  induction os generalizing f lost with
  | nil => exact h
  | cons o os ih =>
    obtain ⟨hfirst, hlater⟩ := along_cons.1 numbered
    rw [← session_meets] at hlater
    refine ih ?_ (traced.meets o) hlater
    cases o with
    | event env e => exact h.event traced env (hfirst env e rfl)
    | exits j code => exact h.imp_right (Child.isGone_exits · j code)
    | subscribe | unsubscribe => exact h.imp_left fun ⟨hholds, hcloses⟩ => ⟨⟨hholds.1, hholds.2⟩, hcloses⟩

/-- A kill of a session whose bridge is safe waits for the debugger to go, or has the bridge end. -/
theorem dooms_of_kill (traced : f.Traced lost) (hholds : f.session.HoldsBridge k) (env : Surroundings)
    (id : CallId) : (f.after env (.call id .kill)).Dooms id k := by
  rcases hholds.after env (.call id .kill) with hholds' | ⟨id', hasked⟩
  · have hparts : Session.Parts id { f.session with outbox := [] } (f.session.after env (.call id .kill)) :=
      .close traced.bridged
    exact hparts.asks.imp (⟨hholds', ·⟩) fun hasks => isGone_of_asked id (hasks k hholds.bridge)
  · exact Or.inr (isGone_of_asked id' hasked)

/-- When the debugger has been let go, a kill asks for the end of the bridge that is held. -/
theorem killed_of_finishKill (bridged : f.session.IsBridged) (hbridge : f.session.bridge = some k)
    (id : CallId) :
    killed f.children (f.session.finishKill id).outbox k = (f.children k).kill.2 := by
  obtain ⟨p, hprobe, hmessage, huses⟩ := bridged
  have hends : f.session.finishKill id = f.session.endBridge id .kill := by
    unfold finishKill
    simp only [hprobe, hmessage, huses, if_true]
  have hasked : (f.session.finishKill id).outbox.any (·.ends k) = true := by
    rw [hends]
    exact List.any_eq_true.2 ⟨_, endBridge_asks _ id .kill hbridge, by simp [Request.ends]⟩
  exact if_pos hasked

/-! ## The processes that are left -/

/-- A bridge is the one that is held, no other one's process is there, and a kill ends its process: the kill
waits for the debugger to go until it has, whatever happens meanwhile, and it has when the debugger has been
let go and the toolchain has cleaned up. -/
structure IsSoleHeld (f : Bridgework) (k : LaunchId) : Prop where
  held : f.session.bridge = some k
  sole : ∀ j, f.isAlive j = true → j = k
  dies : ∀ id, id ∉ f.session.calls.map Call.id → ∀ env os,
    (f.after env (.call id .kill)).session.along isNumbered os = true →
      ((f.after env (.call id .kill)).afterAll os).session.KillCloses id ∨
        ((f.after env (.call id .kill)).afterAll os).isAlive k = false
  dead : ∀ id, (killed f.children (f.session.finishKill id).outbox k).handle.isAlive = false

/-- A bridge that is held while nobody ends or launches one, and no other one's process is there: a kill ends
its process if this heeds being killed. -/
theorem IsSoleHeld.of_heeds (traced : f.Traced lost) (hholds : f.session.HoldsBridge k)
    (sole : ∀ j, f.isAlive j = true → j = k) (heeds : (f.children k).ignoresKill = false) :
    f.IsSoleHeld k where
  held := hholds.bridge
  sole := sole
  dies := by
    intro id fresh env os numbered
    have hheeds : (((f.after env (.call id .kill)).afterAll os).children k).ignoresKill = false := by
      rw [ignoresKill_afterAll, ignoresKill_after, heeds]
    have hdooms : ((f.after env (.call id .kill)).afterAll os).Dooms id k :=
      (dooms_of_kill traced hholds env id).afterAll (traced.event env _) numbered
    exact hdooms.imp And.right (isAlive_eq_false · hheeds)
  dead := by
    intro id
    rw [killed_of_finishKill traced.bridged hholds.bridge, Child.isAlive_kill, heeds, Bool.and_false]

/-- No kill ends a process that does not heed being killed. -/
theorem IsSoleHeld.heeds (h : f.IsSoleHeld k) (bridged : f.session.IsBridged) (alive : f.isAlive k = true) :
    (f.children k).ignoresKill = false := by
  have hdead := h.dead 0
  rw [killed_of_finishKill bridged h.held, Child.isAlive_kill, (Bool.and_eq_true_iff.1 alive).2,
    Bool.true_and] at hdead
  exact hdead

/-- Whatever has happened: while nobody ends or launches a bridge, a process of one that is still there is
that of the bridge that is held, the only one, and one that a kill ends, exactly if none that is still there
has been displaced or does not heed being killed.  None is displaced as long as no bridge comes up while
another operation ends one or launches one. -/
theorem bridges_areSoleHeld_iff (created : f.IsNew) (clear : (f.afterAll os).session.isClearOfBridge = true) :
    ((∀ k, (f.afterAll os).isAlive k = true → (f.afterAll os).IsSoleHeld k) ↔
        ∀ k, (f.afterAll os).isAlive k = true →
          k ∉ f.displaced os ∧ (f.children k).ignoresKill = false) ∧
      (f.session.along isOrderlyAtBridge os = true → f.displaced os = []) := by
  have traced : (f.afterAll os).Traced (f.displaced os) := created.traced.afterAll os
  refine ⟨⟨fun h k alive => ?_, fun h k alive => ?_⟩, created.kept.displaced_eq_nil created.traced⟩
  · have hsole := h k alive
    refine ⟨fun hlost => (traced.tracked.lost k hlost).2 hsole.held, ?_⟩
    rw [← ignoresKill_afterAll f os]
    exact hsole.heeds traced.bridged alive
  · have hheeds : ∀ j, (f.afterAll os).isAlive j = true →
        ((f.afterAll os).children j).ignoresKill = false := fun j hj =>
      (ignoresKill_afterAll ..).trans (h j hj).2
    have hheld : ∀ j, (f.afterAll os).isAlive j = true → (f.afterAll os).session.bridge = some j := by
      intro j hj
      have there : (f.afterAll os).isAway j = false := by
        refine decide_eq_false fun hgone => ?_
        cases hj.symm.trans (isAlive_eq_false hgone (hheeds j hj))
      exact traced.tracked.held_of_there (of_decide_eq_true (Bool.and_eq_true_iff.1 hj).1) there (h j hj).1
    refine .of_heeds traced (.of_isClearOfBridge clear (hheld k alive)) (fun j hj => ?_) (hheeds k alive)
    exact Option.some.inj ((hheld j hj).symm.trans (hheld k alive))

/-! ## Runs -/

/-- A session that has launched nothing, whose bridges heed being killed. -/
def idle : Bridgework := ⟨.create Settings.default (some probe), fun _ => Fleet.child false⟩

/-- Two operations connect at the same time: each has found that there is no bridge to end. -/
def overlapping : List Occurrence :=
  [.event (calm 0.0) (.call 0 (.connect options [])), .event (calm 0.1) (.call 1 (.connect options [])),
    .event (calm 0.5) (.bridgeLaunched 0 true), .event (calm 0.6) (.bridgeLaunched 1 true)]

theorem isNew_idle : idle.IsNew := ⟨_, _, rfl, probe, rfl, rfl, rfl⟩

/-- The first of two bridges that were launched at the same time exits by itself: the second one is left, and a
kill ends it. -/
theorem bridge_isSoleHeld_of_exit : (idle.afterAll (overlapping ++ [.exits 0 0])).IsSoleHeld 1 := by
  have clear : (idle.afterAll (overlapping ++ [.exits 0 0])).session.isClearOfBridge = true := by
    decide +kernel
  have hiff := (bridges_areSoleHeld_iff isNew_idle clear).1
  refine hiff.2 (fun k alive => ⟨?_, rfl⟩) 1 (by decide +kernel)
  rw [show idle.displaced (overlapping ++ [.exits 0 0]) = [0] by decide +kernel, List.mem_singleton]
  rintro rfl
  have hdead : (idle.afterAll (overlapping ++ [.exits 0 0])).isAlive 0 = false := by decide +kernel
  cases alive.symm.trans hdead

/-- Both processes are there when both operations are over, although both heed being killed: the first bridge
has been displaced, and no kill ends it. -/
theorem two_bridges_of_overlapping_connects :
    idle.session.along isNumbered overlapping = true ∧
      (idle.afterAll overlapping).session.calls.isEmpty = true ∧
      (∀ k, (idle.children k).ignoresKill = false) ∧ idle.displaced overlapping = [0] ∧
      (idle.afterAll overlapping).session.bridge = some 1 ∧
      (idle.afterAll overlapping).isAlive 0 = true ∧ (idle.afterAll overlapping).isAlive 1 = true ∧
      ¬∀ k, (idle.afterAll overlapping).isAlive k = true → (idle.afterAll overlapping).IsSoleHeld k := by
  have hbridge : (idle.afterAll overlapping).session.bridge = some 1 := by decide +kernel
  have halive : (idle.afterAll overlapping).isAlive 0 = true := by decide +kernel
  refine ⟨by decide +kernel, by decide +kernel, fun _ => rfl, by decide +kernel, hbridge, halive,
    by decide +kernel, fun h => ?_⟩
  cases (h 0 halive).held.symm.trans hbridge

end Bridgework

end DebugConsole
