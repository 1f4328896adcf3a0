import DebugConsole.Proofs.Service.Idleness
import DebugConsole.Proofs.Session.Bridges

set_option autoImplicit false

/-!
# What stopping a session leaves of the bridges

A client that stops a session is told whether it was running.  If it was, it is killed, and when the client
is told so, no bridge is left.  A session whose debugger has ended by itself is not running, and is not
killed: then stopping it leaves every bridge as it is (`isBridgeless_iff_of_stopped`).

A run is in good order (`Service.isOrderly`) if no bridge comes up while another operation ends one or
launches one; then every bridge is held or gone, and whoever stops the session waits for its kill (`Kept`).
A bridge is counted from the end of its launch on: one that is in its first moments belongs to the operation
that launches it, and nothing is said about it.
-/

namespace DebugConsole

open Rehearsal (Child)

/-- The request of the session that the service passes on. -/
def ServiceRequest.session? : ServiceRequest → Option Request
  | .session r => some r
  | _ => none

/-- Is the monitor to be woken? -/
def ServiceRequest.isAlarm : ServiceRequest → Bool
  | .alarm _ => true
  | _ => false

namespace Service

variable {v : Service} {env : Surroundings} {e : Event} {id : CallId} {w : Bool}

/-! ## Passing requests on -/

theorem targetAnswer_ne_stopped (s : Session) (t : TargetTool) (r : Result) :
    targetAnswer s t r ≠ .stopped w := by
  unfold targetAnswer
  split <;> nofun

/-- Only who stops a session is told that it was running. -/
theorem answerOf_eq_stopped {s : Session} {t : Tool} {r : Result}
    (h : answerOf s t r = .ok (.stopped w)) : t = .stopSession ∧ w = true := by
  unfold answerOf at h
  split at h
  · cases h
  · cases h
  · cases h
    exact ⟨rfl, rfl⟩
  · cases h
  · exact absurd (Except.ok.inj h) (targetAnswer_ne_stopped _ _ _)

theorem mem_outbox_touch {x : ServiceRequest} (hx : x.isAlarm = false) (now : Float) :
    x ∈ (v.touch now).outbox ↔ x ∈ v.outbox := by
  unfold touch ensureMonitor sleep
  grind [request, ServiceRequest.isAlarm]

/-- What is asked for stays asked for. -/
theorem mem_forward_of_mem {x : ServiceRequest} (hx : x.isAlarm = false) (now : Float) (r : Request)
    (h : x ∈ v.outbox) : x ∈ (v.forward now r).outbox := by
  have hfinish : ∀ id t outcome, x ∈ (v.finishTool now id t outcome).outbox := by
    intro id t outcome
    unfold finishTool
    dsimp only
    split
    · exact List.mem_append_left _ h
    · refine List.mem_append_left _ ?_
      split
      · exact (mem_outbox_touch hx now).2 h
      · exact h
  unfold forward
  split
  · split
    · exact hfinish ..
    · split <;> exact List.mem_append_left _ h
  · exact List.mem_append_left _ h

/-- What the session asks for is passed on. -/
theorem mem_foldl_forward (now : Float) {r : Request} (hr : r.isAnswer = false) {rs : List Request}
    (hmem : r ∈ rs) : .session r ∈ (rs.foldl (fun v r => v.forward now r) v).outbox := by
  have hstays : ∀ (rs : List Request) (v : Service), .session r ∈ v.outbox →
      .session r ∈ (rs.foldl (fun v r => v.forward now r) v).outbox := by
    intro rs
    induction rs with
    | nil => exact fun _ h => h
    | cons r' rs ih => exact fun v h => ih _ (mem_forward_of_mem rfl now r' h)
  induction rs generalizing v with
  | nil => cases hmem
  | cons r' rs ih =>
    rcases List.mem_cons.1 hmem with rfl | hmem
    · refine hstays rs _ ?_
      cases r with
      | answer => cases hr
      | _ => exact List.mem_append_right _ (List.mem_singleton_self _)
    · exact ih hmem

theorem tools_forward {x : CallId × Tool} (now : Float) {r : Request} (h : x ∈ (v.forward now r).tools) :
    x ∈ v.tools := by
  unfold forward at h
  split at h
  · split at h
    · rw [tools_finishTool] at h
      exact (List.mem_filter.1 h).1
    · split at h <;> exact h
  · exact h

/-- Tools come to their end, and none is added. -/
theorem tools_foldl_forward {x : CallId × Tool} (now : Float) {rs : List Request}
    (h : x ∈ (rs.foldl (fun v r => v.forward now r) v).tools) : x ∈ v.tools := by
  induction rs generalizing v with
  | nil => exact h
  | cons r rs ih => exact tools_forward now (ih h)

theorem tools_stepSession {x : CallId × Tool} {e : Session.Event} (h : x ∈ (v.stepSession env e).tools) :
    x ∈ v.tools :=
  tools_foldl_forward (v := { v with session := { v.session.step env e with outbox := [] } }) env.now h

/-- Whoever is told that a session has been stopped has asked for that, and the kill has returned. -/
theorem stopped_forward {now : Float} {r : Request}
    (h : .answer id (.ok (.stopped w)) ∈ (v.forward now r).outbox) :
    .answer id (.ok (.stopped w)) ∈ v.outbox ∨
      (w = true ∧ (id, .stopSession) ∈ v.tools ∧ ∃ result, r = .answer id result) := by
  unfold forward at h
  split at h
  · rename_i id' outcome
    split at h
    · rename_i t hlookup
      unfold finishTool at h
      dsimp only at h
      split at h
      · refine Or.inl ((List.mem_append.1 h).resolve_right fun h => ?_)
        cases List.mem_singleton.1 h
      · rename_i result
        rcases List.mem_append.1 h with h | h
        · refine Or.inl ?_
          split at h
          · exact (mem_outbox_touch (v := { v with tools := v.tools.filter (·.1 != id') }) rfl now).1 h
          · exact h
        · obtain ⟨rfl, hanswer⟩ := ServiceRequest.answer.inj (List.mem_singleton.1 h)
          obtain ⟨rfl, hw⟩ := answerOf_eq_stopped hanswer.symm
          obtain ⟨before, behind, htools, -⟩ := List.lookup_eq_some_iff.1 hlookup
          refine Or.inr ⟨hw, ?_, _, rfl⟩
          rw [htools]
          exact List.mem_append_right _ List.mem_cons_self
    · refine Or.inl ?_
      split at h <;> exact (List.mem_append.1 h).resolve_right fun h => nomatch List.mem_singleton.1 h
  · exact Or.inl ((List.mem_append.1 h).resolve_right fun h => nomatch List.mem_singleton.1 h)

theorem stopped_foldl_forward {now : Float} {rs : List Request}
    (h : .answer id (.ok (.stopped w)) ∈ (rs.foldl (fun v r => v.forward now r) v).outbox) :
    .answer id (.ok (.stopped w)) ∈ v.outbox ∨
      (w = true ∧ (id, .stopSession) ∈ v.tools ∧ ∃ result, .answer id result ∈ rs) := by
  induction rs generalizing v with
  | nil => exact Or.inl h
  | cons r rs ih =>
    rcases ih h with h | ⟨hw, htool, result, hr⟩
    · refine (stopped_forward h).imp_right fun ⟨hw, htool, result, hr⟩ => ⟨hw, htool, result, ?_⟩
      rw [hr]
      exact List.mem_cons_self
    · exact Or.inr ⟨hw, tools_forward now htool, result, List.mem_cons_of_mem _ hr⟩

theorem stopped_stepSession {e : Session.Event} (quiet : ∀ r ∈ v.outbox, r.isAlarm = true)
    (h : .answer id (.ok (.stopped w)) ∈ (v.stepSession env e).outbox) :
    w = true ∧ (id, .stopSession) ∈ v.tools ∧
      ∃ result, .answer id result ∈ (v.session.step env e).outbox :=
  (stopped_foldl_forward h).resolve_left fun h => nomatch quiet _ h

/-! ## Steps -/

/-- Have the operations that begin numbers of their own, do they begin with a tool or with the monitor, and
does a bridge come up only while no other operation ends one or launches one? -/
def isOrderly (v : Service) : Event → Bool
  | .tool id _ => (v.tools.all fun t => t.1 != id) && v.session.calls.all fun c => c.id != id
  | .session (.call ..) => false
  | .session e => v.session.isOrderlyAtBridge e
  | .alarm => v.session.calls.all fun c => c.id != monitorCall

/-- What a step of the service comes to: the session rests, or it does a step of its own. -/
inductive Doing (v : Service) (env : Surroundings) (e : Event) (v' : Service) : Prop
  | rests (session : v'.session = v.session) (tools : v'.tools = v.tools)
      (quiet : ∀ r, .session r ∉ v'.outbox)
      (tells : ∀ id w, .answer id (.ok (.stopped w)) ∈ v'.outbox →
        w = false ∧ e = .tool id .stopSession ∧ v.session.isRunning = false)
  | steps {u : Service} {e' : Session.Event} (does : v' = u.stepSession env e')
      (session : u.session = v.session) (quiet : ∀ r ∈ u.outbox, r.isAlarm = true)
      (orderly : v.session.isOrderlyAtBridge e' = true)
      (stops : ∀ id, (id, .stopSession) ∈ u.tools →
        e' = .call id .kill ∨ ((id, .stopSession) ∈ v.tools ∧ e'.asksFor id = false))
      (running : ∀ id, e = .tool id .stopSession → v.session.isRunning = true)

theorem isOrderlyAtBridge_of_fresh {s : Session} {o : Operation}
    (h : (s.calls.all fun c => c.id != id) = true) : s.isOrderlyAtBridge (.call id o) = true := by
  refine Session.isOrderlyAtBridge_call fun hmem => ?_
  obtain ⟨c, hc, hid⟩ := List.mem_map.1 hmem
  simpa [hid] using List.all_eq_true.1 h c hc

namespace Doing

/-- Nothing is asked of the session. -/
theorem alarms {v' : Service} (session : v'.session = v.session) (tools : v'.tools = v.tools)
    (quiet : ∀ r ∈ v'.outbox, r.isAlarm = true) : Doing v env e v' :=
  .rests session tools (fun _ h => nomatch quiet _ h) fun _ _ h => nomatch quiet _ h

/-- A tool's operation is handed to the session. -/
theorem delegate {u : Service} {t : Tool} {o : Operation} (session : u.session = v.session)
    (tools : u.tools = v.tools) (quiet : ∀ r ∈ u.outbox, r.isAlarm = true)
    (orderly : v.isOrderly (.tool id t) = true) (kills : t = .stopSession → o = .kill)
    (running : t = .stopSession → v.session.isRunning = true) :
    Doing v env (.tool id t) (u.delegate env id t o) := by
  obtain ⟨hnew, hfresh⟩ := Bool.and_eq_true_iff.1 orderly
  refine .steps (u := { u with tools := u.tools ++ [(id, t)] }) rfl session quiet
    (isOrderlyAtBridge_of_fresh hfresh) (fun id' hmem => ?_) fun id' heq => running (by cases heq; rfl)
  rcases List.mem_append.1 hmem with hold | hown
  · rw [tools] at hold
    have hne : id' ≠ id := by simpa using List.all_eq_true.1 hnew _ hold
    exact Or.inr ⟨hold, by simpa [Session.Event.asksFor] using hne.symm⟩
  · obtain ⟨rfl, rfl⟩ := Prod.mk.inj (List.mem_singleton.1 hown)
    exact Or.inl (by rw [kills rfl])

/-- A tool that is not handed to the session is answered at once. -/
theorem answers {u : Service} {t : Tool} {result : Except ToolFault ToolAnswer}
    (session : u.session = v.session) (tools : u.tools = v.tools)
    (quiet : ∀ r ∈ u.outbox, r.isAlarm = true)
    (tells : ∀ w, result = .ok (.stopped w) →
      w = false ∧ t = .stopSession ∧ v.session.isRunning = false) :
    Doing v env (.tool id t) (u.answer id result) := by
  refine .rests session tools (fun r h => ?_) fun id' w h => ?_
  · rcases List.mem_append.1 h with h | h
    · exact nomatch quiet _ h
    · cases List.mem_singleton.1 h
  · rcases List.mem_append.1 h with h | h
    · exact nomatch quiet _ h
    · obtain ⟨rfl, hresult⟩ := ServiceRequest.answer.inj (List.mem_singleton.1 h)
      obtain ⟨hw, rfl, hstopped⟩ := tells w hresult.symm
      exact ⟨hw, rfl, hstopped⟩

end Doing

/-- Every step in good order is of one of these kinds. -/
theorem doing (env : Surroundings) (orderly : v.isOrderly e = true) :
    Doing v env e (v.after env e) := by
  let cleared : Service := { v with outbox := [] }
  have quiet : ∀ r ∈ (cleared.touch env.now).outbox, r.isAlarm = true := by
    intro r hr
    by_contra hnot
    exact List.not_mem_nil ((mem_outbox_touch (by simpa using hnot) env.now).1 hr)
  have nothing : ∀ r ∈ cleared.outbox, r.isAlarm = true := fun _ hr => absurd hr List.not_mem_nil
  have hsession : (cleared.touch env.now).session = v.session := session_touch _ _
  have htools : (cleared.touch env.now).tools = v.tools := tools_touch _ _
  cases e with
  | tool id t =>
    show Doing v env _ (cleared.begin env id t)
    cases t with
    | startSession path args folder => exact .delegate rfl rfl nothing orderly nofun nofun
    | stopSession =>
      unfold begin
      dsimp only
      split
      · rename_i hrunning
        rw [hsession] at hrunning
        exact .delegate hsession htools quiet orderly (fun _ => rfl) fun _ => hrunning
      · rename_i hstopped
        rw [hsession, Bool.not_eq_true] at hstopped
        exact .answers hsession htools quiet fun w hw => ⟨by cases hw; rfl, rfl, hstopped⟩
    | status =>
      refine .answers hsession htools quiet fun w hw => ?_
      unfold statusOf at hw
      split at hw <;> cases hw
    | target tool =>
      unfold begin
      dsimp only
      split
      · split <;> exact .answers hsession htools quiet nofun
      · split
        · exact .delegate hsession htools quiet orderly nofun nofun
        · exact .answers hsession htools quiet nofun
  | session e =>
    refine .steps (u := cleared) rfl rfl nothing ?_ (fun id htool => ?_) nofun
    · cases e with
      | call => cases orderly
      | _ => exact orderly
    · cases e with
      | call => cases orderly
      | _ => exact Or.inr ⟨htool, rfl⟩
  | alarm =>
    have hsleeps : Doing v env .alarm cleared.sleep :=
      .alarms rfl rfl fun r hr => by rw [List.mem_singleton.1 hr]; rfl
    show Doing v env _ (if cleared.monitor == .sleeping then cleared.wakeMonitor env else cleared)
    unfold wakeMonitor
    split
    · split
      · exact hsleeps
      · split
        · refine .steps (u := { cleared with monitor := .killing }) rfl rfl nothing
            (isOrderlyAtBridge_of_fresh orderly) (fun id htool => ?_) nofun
          by_cases hid : monitorCall = id
          · exact Or.inl (by rw [hid])
          · exact Or.inr ⟨htool, by simpa [Session.Event.asksFor] using hid⟩
        · exact hsleeps
    · exact .alarms rfl rfl nothing

end Service

/-- A service, and the processes of the bridges that its session has launched and will launch. -/
structure Installation where
  service : Service
  children : LaunchId → Child

namespace Installation

open Session (Kills Parts calm kills_step)
open Service (Doing doing session_stepSession mem_foldl_forward tools_stepSession stopped_stepSession)

variable {x y : Installation} {env : Surroundings} {e : Service.Event} {id : CallId} {w : Bool}

/-- The session of an installation, with its bridges. -/
def bridgework (x : Installation) : Bridgework := ⟨x.service.session, x.children⟩

/-- Something happens to the service. -/
def after (x : Installation) (env : Surroundings) (e : Service.Event) : Installation where
  service := x.service.after env e
  children := Bridgework.killed x.children
    ((x.service.after env e).outbox.filterMap ServiceRequest.session?)

/-- A bridge exits by itself. -/
def exits (x : Installation) (b : LaunchId) (code : Int) : Installation where
  service := x.service
  children := (x.bridgework.exits b code).children

/-- What can happen to an installation in good order. -/
inductive Step : Installation → Installation → Prop
  | event (x : Installation) (env : Surroundings) (e : Service.Event)
      (orderly : x.service.isOrderly e = true) : Step x (x.after env e)
  | exits (x : Installation) (b : LaunchId) (code : Int) : Step x (x.exits b code)

/-- An installation after some steps. -/
abbrev Run : Installation → Installation → Prop := Relation.ReflTransGen Step

/-- An installation that can be reached from one that has launched nothing, with a toolchain that talks to its
probe through a bridge. -/
def Reached (x : Installation) : Prop :=
  ∃ settings probe children, (Session.create settings probe).IsBridged ∧
    Run ⟨.create settings probe, children⟩ x

/-- No bridge that has been launched is there any more, except for those that have outlived being killed. -/
def IsBridgeless (x : Installation) : Prop :=
  ∀ b, x.bridgework.isAlive b = true → (x.children b).HasOutlived

/-- Every bridge is held or gone, and whoever stops the session waits for its kill. -/
structure Kept (x : Installation) : Prop where
  bridges : x.bridgework.Kept
  tidy : x.service.session.outbox = []
  stops : ∀ id, (id, .stopSession) ∈ x.service.tools →
    ∀ c ∈ x.service.session.calls, c.id = id → c.stage.isKilling = true

/-- A step of the session under whoever stops it: the kill goes on, and when it is answered no bridge is
held. -/
theorem Kept.kills (h : x.Kept) {e' : Session.Event} (env : Surroundings)
    (hstops : e' = .call id .kill ∨ ((id, .stopSession) ∈ x.service.tools ∧ e'.asksFor id = false)) :
    Kills id x.service.session (x.service.session.step env e') := by
  rcases hstops with rfl | ⟨htool, hasks⟩
  · have hparts : Parts id x.service.session (x.service.session.close id .kill) := .close h.bridges.bridged
    exact hparts.toKills
  · exact kills_step env h.bridges.bridged h.bridges.nodup h.bridges.sight.relay (h.stops id htool) hasks

/-- A step of the session within the service keeps every bridge in sight. -/
theorem Kept.stepSession (h : x.Kept) {u : Service} {e' : Session.Event} (env : Surroundings)
    (hsession : u.session = x.service.session) (orderly : x.service.session.isOrderlyAtBridge e' = true) :
    Bridgework.Kept ⟨(u.stepSession env e').session, Bridgework.killed x.children
      ((u.stepSession env e').outbox.filterMap ServiceRequest.session?)⟩ := by
  let children := Bridgework.killed x.children
    ((u.stepSession env e').outbox.filterMap ServiceRequest.session?)
  have hafter : x.service.session.after env e' = u.session.step env e' := by
    rw [hsession, Session.after, ← h.tidy]
  have hended : ∀ id b, .endBridge id b ∈ (x.service.session.after env e').outbox →
      (children b).IsGone := by
    intro id b hasked
    rw [hafter] at hasked
    exact Bridgework.isGone_of_asked id
      (List.mem_filterMap.2 ⟨.session (.endBridge id b), mem_foldl_forward env.now rfl hasked, rfl⟩)
  have hkept : (x.bridgework.after env e').Kept := h.bridges.event env orderly
  have hsight : (x.service.session.after env e').BridgeInSight fun b => (children b).IsGone :=
    h.bridges.sight.after env orderly (fun _ => Bridgework.isGone_killed _) hended
  have hnodup : ((x.service.session.after env e').calls.map Call.id).Nodup := hkept.nodup
  have hbridged : (x.service.session.after env e').IsBridged := hkept.bridged
  rw [session_stepSession, ← hafter]
  exact ⟨hnodup, hbridged, hsight.calls, hsight.held⟩

theorem Kept.event (h : x.Kept) (env : Surroundings) (orderly : x.service.isOrderly e = true) :
    (x.after env e).Kept := by
  have tidy : (x.service.after env e).session.outbox = [] :=
    (Service.step_keeps (v := { x.service with outbox := [] }) h.tidy env e).2
  cases doing env orderly with
  | rests session tools quiet tells =>
    refine ⟨?_, tidy, ?_⟩
    · show Bridgework.Kept ⟨(x.service.after env e).session, _⟩
      rw [session]
      exact ⟨h.bridges.nodup, h.bridges.bridged, h.bridges.sight.mono fun _ => Bridgework.isGone_killed _⟩
    · show ∀ id, (id, .stopSession) ∈ (x.service.after env e).tools →
        ∀ c ∈ (x.service.after env e).session.calls, c.id = id → c.stage.isKilling = true
      rw [session, tools]
      exact h.stops
  | @steps u e' does session quiet aligned stops running =>
    refine ⟨?_, tidy, fun id htool => ?_⟩
    · show Bridgework.Kept ⟨(x.service.after env e).session, Bridgework.killed x.children
        ((x.service.after env e).outbox.filterMap ServiceRequest.session?)⟩
      rw [does]
      exact h.stepSession env session aligned
    · have htool : (id, .stopSession) ∈ (x.service.after env e).tools := htool
      rw [does] at htool
      have hwaits : (id, .stopSession) ∈ u.tools := tools_stepSession htool
      show ∀ c ∈ (x.service.after env e).session.calls, c.id = id → c.stage.isKilling = true
      rw [does, session_stepSession, session]
      exact (h.kills env (stops id hwaits)).own

theorem Kept.step (h : x.Kept) (hstep : Step x y) : y.Kept := by
  cases hstep with
  | event env e orderly => exact h.event env orderly
  | exits b code =>
    exact ⟨h.bridges.exits b code, h.tidy, h.stops⟩

theorem Reached.kept (h : x.Reached) : x.Kept := by
  obtain ⟨settings, probe, children, bridged, hrun⟩ := h
  induction hrun with
  | refl => exact ⟨Bridgework.kept_create bridged children, rfl, fun _ h => absurd h List.not_mem_nil⟩
  | tail _ hstep ih => exact ih.step hstep

/-- Nothing becomes of the bridges if nothing is asked of the session. -/
theorem children_of_quiet (quiet : ∀ r, .session r ∉ (x.service.after env e).outbox) :
    (x.after env e).children = x.children := by
  have hunasked : (x.service.after env e).outbox.filterMap ServiceRequest.session? = [] := by
    refine List.filterMap_eq_nil_iff.2 fun r hr => ?_
    cases r with
    | session r => exact absurd hr (quiet r)
    | _ => rfl
  unfold after
  rw [hunasked]
  rfl

/-- If no bridge is held, none is left. -/
theorem Kept.isBridgeless (h : x.Kept) (hbridge : x.service.session.bridge = none) : x.IsBridgeless := by
  intro b halive
  obtain ⟨hlaunched, hlives⟩ := Bool.and_eq_true_iff.1 halive
  refine ((h.bridges.sight.held b (of_decide_eq_true hlaunched)).resolve_left fun hheld => ?_) hlives
  cases hbridge.symm.trans hheld

/-- In good order, a client that stops the session is told so when no bridge is left, if the session was
running.  If it was not, the client is told that at once, and then no bridge is left exactly if none was
there before. -/
theorem isBridgeless_iff_of_stopped (reached : x.Reached) (orderly : x.service.isOrderly e = true)
    (told : .answer id (.ok (.stopped w)) ∈ (x.after env e).service.outbox) :
    ((x.after env e).IsBridgeless ↔ w = true ∨ x.IsBridgeless) ∧
      (w = false ↔ e = .tool id .stopSession ∧ x.service.session.isRunning = false) := by
  have kept := reached.kept
  cases doing env orderly with
  | rests session tools quiet tells =>
    obtain ⟨hw, hasked, hstopped⟩ := tells id w told
    have hsame : (x.after env e).children = x.children := children_of_quiet quiet
    have hbridges : (x.after env e).bridgework.session = x.service.session := session
    have hleft : (x.after env e).IsBridgeless ↔ x.IsBridgeless := by
      unfold IsBridgeless Bridgework.isAlive
      rw [hbridges, show (x.after env e).bridgework.children = x.children from hsame, hsame]
      rfl
    exact ⟨hleft.trans (by simp [hw]), iff_of_true hw ⟨hasked, hstopped⟩⟩
  | @steps u e' does session quiet aligned stops running =>
    have htold : .answer id (.ok (.stopped w)) ∈ (u.stepSession env e').outbox := does ▸ told
    obtain ⟨hw, htool, result, hanswer⟩ := stopped_stepSession quiet htold
    have hbridge : (x.after env e).service.session.bridge = none := by
      show (x.service.after env e).session.bridge = none
      rw [session] at hanswer
      rw [does, session_stepSession, session]
      refine ((kept.kills env (stops id htool)).answers result hanswer).resolve_left fun h => ?_
      rw [kept.tidy] at h
      cases h
    have hleft := (kept.event env orderly).isBridgeless hbridge
    refine ⟨iff_of_true hleft (Or.inl hw), iff_of_false (by simp [hw]) fun ⟨hasked, hstopped⟩ => ?_⟩
    rw [running id hasked] at hstopped
    cases hstopped

/-! ## Runs -/

/-- The installation after several events. -/
def afterAll (x : Installation) : List (Surroundings × Service.Event) → Installation
  | [] => x
  | e :: events => (x.after e.1 e.2).afterAll events

/-- Is a run in good order? -/
def inOrder (x : Installation) : List (Surroundings × Service.Event) → Bool
  | [] => true
  | e :: events => x.service.isOrderly e.2 && (x.after e.1 e.2).inOrder events

theorem run_afterAll {events : List (Surroundings × Service.Event)} (h : x.inOrder events = true) :
    Run x (x.afterAll events) := by
  induction events generalizing x with
  | nil => exact .refl
  | cons e events ih =>
    obtain ⟨horderly, hlater⟩ := Bool.and_eq_true_iff.1 h
    exact (ih hlater).head (.event x e.1 e.2 horderly)

/-- A service that has not been used, with bridges that heed being killed. -/
def idle : Installation :=
  ⟨.create Settings.default (some Bridgework.probe), fun _ => Fleet.child false⟩

/-- A client starts a session and connects through a bridge; then the debugger exits. -/
def abandoning : List (Surroundings × Service.Event) :=
  [(calm 0.0, .tool 1 (.startSession (some "gdb") [] none)),
    (calm 0.0, .session (.launched 1 true)),
    (calm 0.0, .session (.channel 0 (.prints "(gdb) "))),
    (calm 0.0, .session (.proceeds 1 1)),
    (calm 1.0, .tool 2 (.target (.connect Bridgework.options []))),
    (calm 1.0, .session (.bridgeLaunched 2 true)),
    (calm 1.0, .session (.channel 0 .outputEnds)),
    (calm 1.0, .session (.proceeds 2 3))]

/-- The client starts the session again, and stops it. -/
def stoppingLater : List (Surroundings × Service.Event) :=
  [(calm 2.0, .tool 3 (.startSession (some "gdb") [] none)),
    (calm 2.0, .session (.proceeds 3 4)),
    (calm 2.0, .session (.processEnded 3)),
    (calm 2.0, .session (.launched 3 true)),
    (calm 2.0, .session (.channel 1 (.prints "(gdb) "))),
    (calm 2.0, .session (.proceeds 3 7)),
    (calm 3.0, .tool 4 .stopSession),
    (calm 3.0, .session (.proceeds 4 8)),
    (calm 3.0, .session (.processEnded 4)),
    (calm 3.0, .session (.proceeds 4 10)),
    (calm 3.0, .session (.bridgeEnded 4))]

/-- Is a client told that its session has been stopped, in the last step? -/
def tellsStopped (x : Installation) (id : CallId) (wasRunning : Bool) : Bool :=
  x.service.outbox.any fun
    | .answer id' (.ok (.stopped w)) => id' == id && w == wasRunning
    | _ => false

theorem mem_of_tellsStopped (h : x.tellsStopped id w = true) :
    .answer id (.ok (.stopped w)) ∈ x.service.outbox := by
  obtain ⟨r, hr, hsame⟩ := List.any_eq_true.1 h
  split at hsame
  · obtain ⟨hid, hw⟩ := Bool.and_eq_true_iff.1 hsame
    rwa [beq_iff_eq.1 hid, beq_iff_eq.1 hw] at hr
  · cases hsame

/-- The bridge of the first debugger is ended when the second one is stopped. -/
theorem isBridgeless_of_restart :
    ((idle.afterAll (abandoning ++ stoppingLater)).after (calm 3.0)
      (.session (.proceeds 4 12))).IsBridgeless := by
  let x := idle.afterAll (abandoning ++ stoppingLater)
  have reached : x.Reached := ⟨_, _, _, ⟨_, rfl, rfl, rfl⟩, run_afterAll (by decide +kernel)⟩
  have told : .answer 4 (.ok (.stopped true)) ∈
      (x.after (calm 3.0) (.session (.proceeds 4 12))).service.outbox :=
    mem_of_tellsStopped (by decide +kernel)
  have orderly : x.service.isOrderly (.session (.proceeds 4 12)) = true := by decide +kernel
  exact (isBridgeless_iff_of_stopped reached orderly told).1.2 (Or.inl rfl)

/-- A client stops the session whose debugger has exited: it is told that none was running, and the bridge
is there. -/
theorem bridge_outlives_stop :
    ∃ x : Installation, x.Reached ∧ x.service.isOrderly (.tool 3 .stopSession) = true ∧
      .answer 3 (.ok (.stopped false)) ∈ (x.after (calm 2.0) (.tool 3 .stopSession)).service.outbox ∧
      (x.after (calm 2.0) (.tool 3 .stopSession)).bridgework.isAlive 0 = true ∧
      ¬((x.after (calm 2.0) (.tool 3 .stopSession)).children 0).HasOutlived :=
  ⟨idle.afterAll abandoning, ⟨_, _, _, ⟨_, rfl, rfl, rfl⟩, run_afterAll (by decide +kernel)⟩,
    by decide +kernel, mem_of_tellsStopped (by decide +kernel), by decide +kernel⟩

end Installation

end DebugConsole
