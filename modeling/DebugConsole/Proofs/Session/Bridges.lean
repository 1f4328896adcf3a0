import DebugConsole.Proofs.Session.Fleet
import DebugConsole.Proofs.Session.Parting

set_option autoImplicit false

/-!
# The processes of a session's bridges

A session ends its bridge when it connects anew and when it is killed, whoever asks for that.  Whoever kills
a process waits for its end, but only for so long, so a process may outlive being killed.  As long as no
bridge comes up while another operation ends one or launches one, every bridge whose process is still there
is the one that is held, or has outlived being killed.
-/

namespace DebugConsole

open Rehearsal (Child)

/-- Does a request ask for the end of a bridge? -/
def Request.ends (b : LaunchId) : Request → Bool
  | .endBridge _ b' => b' == b
  | _ => false

/-- Does the place where an operation waits agree with the bridge that is held, and with those that are
gone? -/
def Stage.AgreesWithBridge (bridge : Option LaunchId) (gone : LaunchId → Prop) : Stage → Prop
  | .endingBridge _ => ∀ b, bridge = some b → gone b
  | .endingRelay _ | .launchingBridge .. => bridge = none
  | _ => True

namespace Stage

variable {bridge : Option LaunchId} {gone gone' : LaunchId → Prop} {stage : Stage}

theorem AgreesWithBridge.mono (h : stage.AgreesWithBridge bridge gone) (hgone : ∀ b, gone b → gone' b) :
    stage.AgreesWithBridge bridge gone' := by
  cases stage with
  | endingBridge => exact fun b hb => hgone b (h b hb)
  | endingRelay | launchingBridge => exact h
  | _ => trivial

/-- When no bridge is held, every operation agrees with that. -/
theorem agreesWithBridge_none : stage.AgreesWithBridge none gone := by
  cases stage with
  | endingBridge => exact fun b hb => nomatch hb
  | endingRelay | launchingBridge => rfl
  | _ => trivial

theorem Meets.agrees {asked : List Request} (h : stage.Meets bridge asked)
    (hended : ∀ id b, .endBridge id b ∈ asked → gone b) : stage.AgreesWithBridge bridge gone := by
  cases stage with
  | endingBridge next =>
    intro b hb
    obtain ⟨id, hr⟩ := h b hb
    exact hended id b hr
  | endingRelay | launchingBridge => exact h
  | _ => trivial

end Stage

namespace Session

variable {s : Session} {env : Surroundings} {e : Event} {c : Call} {gone gone' : LaunchId → Prop}

/-! ## Order -/

/-- Have operations numbers of their own, and does a bridge come up only while no other operation ends one
or launches one? -/
def isOrderlyAtBridge (s : Session) (e : Event) : Bool :=
  (s.calls.all fun c => !e.asksFor c.id) &&
    match e with
    | .bridgeLaunched id true => s.calls.all fun c => c.id == id || !c.stage.isAtBridge
    | _ => true

theorem away_of_isOrderlyAtBridge {id : CallId} (h : s.isOrderlyAtBridge (.bridgeLaunched id true) = true)
    (hc : c ∈ s.calls) (hne : c.id ≠ id) : c.stage.isAtBridge = false := by
  unfold isOrderlyAtBridge at h
  rw [Bool.and_eq_true] at h
  simpa [hne] using List.all_eq_true.1 h.2 c hc

theorem isOrderlyAtBridge_call {id : CallId} {operation : Operation} (h : id ∉ s.calls.map Call.id) :
    s.isOrderlyAtBridge (.call id operation) = true :=
  Bool.and_eq_true_iff.2 ⟨isNumbered_call h, rfl⟩

/-! ## Bridges that are held or gone -/

/-- Every bridge that has been launched is held or has gone, and the operations in progress agree with
that. -/
structure BridgeInSight (gone : LaunchId → Prop) (s : Session) : Prop where
  calls : ∀ c ∈ s.calls, c.stage.AgreesWithBridge s.bridge gone
  held : ∀ b < s.bridges, s.bridge = some b ∨ gone b

/-- No bridge is held while an operation ends the relay. -/
theorem BridgeInSight.relay (h : BridgeInSight gone s) :
    ∀ c ∈ s.calls, ∀ next, c.stage = .endingRelay next → s.bridge = none := by
  intro c hc next hstage
  have hagrees := h.calls c hc
  rw [hstage] at hagrees
  exact hagrees

theorem BridgeInSight.bridge_of_leavesRelay (h : BridgeInSight gone s) (hleaves : s.leavesRelay e = true) :
    s.bridge = none := by
  obtain ⟨c, hc, next, hstage⟩ := exists_call_of_leavesRelay hleaves
  exact h.relay c hc next hstage

/-- What is gone may be understood differently while no operation goes on. -/
theorem BridgeInSight.mono (h : BridgeInSight gone s) (hgone : ∀ b, gone b → gone' b) :
    BridgeInSight gone' s :=
  ⟨fun c hc => (h.calls c hc).mono hgone, fun b hb => (h.held b hb).imp_right (hgone b)⟩

theorem BridgeInSight.after (h : BridgeInSight gone s) (env : Surroundings)
    (orderly : s.isOrderlyAtBridge e = true) (hgone : ∀ b, gone b → gone' b)
    (hended : ∀ id b, .endBridge id b ∈ (s.after env e).outbox → gone' b) :
    BridgeInSight gone' (s.after env e) := by
  cases crossing env { s with outbox := [] } e h.bridge_of_leavesRelay with
  | tends ht =>
    have hbridge : (s.after env e).bridge = s.bridge := bridge_of_dock ht.dock
    have hbridges : (s.after env e).bridges = s.bridges := (Prod.mk.inj (Prod.mk.inj ht.dock).2).2
    refine ⟨fun d hd => ?_, fun b hb => ?_⟩
    · rcases ht.calls d hd with hold | hmeets
      · rw [hbridge]
        exact (h.calls d hold).mono hgone
      · exact hmeets.agrees hended
    · rw [hbridge]
      exact (h.held b (hbridges ▸ hb)).imp_right (hgone b)
  | @ends c next hc asked stage ht =>
    have hbridge : (s.after env e).bridge = none := bridge_of_dock ht.dock
    have hbridges : (s.after env e).bridges = s.bridges := (Prod.mk.inj (Prod.mk.inj ht.dock).2).2
    have hagrees : Stage.AgreesWithBridge s.bridge gone (.endingBridge next) := stage ▸ h.calls c hc
    refine ⟨fun d hd => ?_, fun b hb => Or.inr (hgone b ?_)⟩
    · rw [hbridge]
      exact Stage.agreesWithBridge_none
    · exact (h.held b (hbridges ▸ hb)).elim (hagrees b) id
  | @comesUp c options others hc asked stage hdock hcalls =>
    subst asked
    have hnone : s.bridge = none := by
      have hagrees := h.calls c hc
      rw [stage] at hagrees
      exact hagrees
    obtain ⟨hbridge, hbridges⟩ := Prod.mk.inj (Prod.mk.inj hdock).2
    refine ⟨fun d hd => Stage.Meets.agrees (Stage.meets_of_away ?_ _ (s.after env _).outbox) hended,
      fun b hb => ?_⟩
    · -- Another operation at the bridge would not have asked for the end of the new one.
      exact (hcalls d hd).elim (fun ⟨hold, hne⟩ => away_of_isOrderlyAtBridge orderly hold hne) id
    · rcases Nat.lt_succ_iff_lt_or_eq.1 (Nat.lt_of_lt_of_eq hb hbridges) with hlt | rfl
      · refine Or.inr (hgone b ((h.held b hlt).resolve_left fun hheld => ?_))
        rw [hnone] at hheld
        cases hheld
      · exact Or.inl hbridge

/-- The toolchain stays the same. -/
theorem BridgeInSight.probe (h : BridgeInSight gone s) (env : Surroundings) (e : Event) :
    (s.after env e).probe = s.probe := by
  cases crossing env { s with outbox := [] } e h.bridge_of_leavesRelay with
  | tends ht | ends _ _ _ ht => exact (Prod.mk.inj ht.dock).1
  | comesUp _ _ _ hdock => exact (Prod.mk.inj hdock).1

end Session

/-- A session, and the processes of the bridges that it has launched and will launch. -/
structure Bridgework where
  session : Session
  children : LaunchId → Child

namespace Bridgework

open Session (Event BridgeInSight IsBridged create nodup_after)

variable {f : Bridgework} {e : Event} {k : LaunchId}

/-- Has a bridge been launched whose process is still there?  A launch is over when its process has survived
the first moments, and a process that is in them is not counted: the operation that launches it waits then
(`Stage.launchingBridge`). -/
def isAlive (f : Bridgework) (k : LaunchId) : Bool :=
  decide (k < f.session.bridges) && (f.children k).handle.isAlive

/-- The processes after some requests.  A bridge is killed as soon as its end is asked for; that it has been
waited for is told later. -/
def killed (children : LaunchId → Child) (asked : List Request) : LaunchId → Child := fun b =>
  if asked.any (·.ends b) then (children b).kill.2 else children b

/-- Something happens to the session. -/
def after (f : Bridgework) (env : Surroundings) (e : Event) : Bridgework where
  session := f.session.after env e
  children := killed f.children (f.session.after env e).outbox

/-- A process exits by itself. -/
def exits (f : Bridgework) (k : LaunchId) (code : Int) : Bridgework where
  session := f.session
  children := Function.update f.children k
    { f.children k with handle := (f.children k).handle.exit code }

/-! ## What every step keeps -/

theorem isGone_killed {children : LaunchId → Child} (asked : List Request) (h : (children k).IsGone) :
    (killed children asked k).IsGone := by
  unfold killed
  split
  · exact Child.isGone_kill _
  · exact h

theorem isGone_of_asked {children : LaunchId → Child} {asked : List Request} (id : CallId)
    (h : .endBridge id k ∈ asked) : (killed children asked k).IsGone := by
  have hasked : asked.any (·.ends k) = true := List.any_eq_true.2 ⟨_, h, by simp [Request.ends]⟩
  unfold killed
  rw [if_pos hasked]
  exact Child.isGone_kill _

/-- Every bridge whose process is still there is held, or has outlived being killed. -/
structure Kept (f : Bridgework) : Prop where
  nodup : (f.session.calls.map Call.id).Nodup
  bridged : f.session.IsBridged
  sight : f.session.BridgeInSight fun b => (f.children b).IsGone

theorem Kept.event (h : f.Kept) (env : Surroundings) (orderly : f.session.isOrderlyAtBridge e = true) :
    (f.after env e).Kept where
  nodup := nodup_after h.nodup
  bridged := by
    unfold IsBridged
    rw [show (f.after env e).session.probe = f.session.probe from h.sight.probe env e]
    exact h.bridged
  sight := h.sight.after env orderly (fun _ => isGone_killed _) fun id _ => isGone_of_asked id

theorem Kept.exits (h : f.Kept) (k : LaunchId) (code : Int) : (f.exits k code).Kept :=
  ⟨h.nodup, h.bridged, h.sight.mono fun _ hb => Child.isGone_exits hb k code⟩

/-- Nothing has been launched. -/
theorem kept_create {settings : Settings} {probe : Option Probe}
    (bridged : (create settings probe).IsBridged) (children : LaunchId → Child) :
    Kept ⟨.create settings probe, children⟩ :=
  ⟨List.nodup_nil, bridged, fun _ hc => absurd hc List.not_mem_nil,
    fun _ hb => absurd hb (Nat.not_lt_zero _)⟩

/-! ## Sessions to try -/

/-- A probe that is reached through a bridge. -/
def probe : Probe := ⟨.sdcc, none, "openocd", true, none, none⟩

/-- How a program is connected to. -/
def options : ConnectOptions := ⟨"a.elf", "", "", none, [], []⟩

end Bridgework

end DebugConsole
