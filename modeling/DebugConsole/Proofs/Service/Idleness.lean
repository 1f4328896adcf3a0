import DebugConsole.Proofs.Session.Acts
import DebugConsole.Proofs.Session.Restoration
import DebugConsole.Service.Step

set_option autoImplicit false

/-!
# When an unused session is killed

The monitor kills a session for which no activity has been noted for long enough (`killsAt_iff`).  Asking
for a tool is an activity, except for starting a session, which is one when it has succeeded; so is the end
of running or halting the target and of waiting for a halt (`isActivity`).  The time between asking for a
tool and its end is not: a session is killed under the hands of whoever waits long enough for the target to
halt.
-/

namespace DebugConsole

namespace Session

/-- Closing a session that has a debugger takes time: nobody is answered at once. -/
theorem asks_close {s : Session} (call : CallId) (next : Closed) (held : s.current.isSome) :
    ∃ rs : List Request, (s.close call next).outbox = s.outbox ++ rs ∧
      ∀ r ∈ rs, r.isAnswer = false := by
  have hwaits : ∀ {s' : Session} (stage : Stage), Notes s s' →
      ∃ rs : List Request, (s'.suspend call stage none).outbox = s.outbox ++ rs ∧
        ∀ r ∈ rs, r.isAnswer = false := fun _ h => h.asks
  unfold close
  split
  · unfold closeChannel
    split
    · simp_all
    · rename_i k _
      have hclosed : Notes s (s.changeChannel k fun ch => ch.close .killed) := .changeChannel
      obtain ⟨rs, houtbox, hno⟩ := hwaits (.closing (.process k) next) hclosed
      refine ⟨rs ++ [.endProcess call k], ?_, fun r hr => ?_⟩
      · rw [← List.append_assoc, ← houtbox]
        rfl
      · rcases List.mem_append.1 hr with hr | hr
        · exact hno r hr
        · rw [List.mem_singleton.1 hr]
          rfl
  · refine ⟨_, rfl, fun r hr => ?_⟩
    obtain ⟨c, -, rfl⟩ := List.mem_map.1 hr
    rfl

end Session

namespace Service

variable {v : Service} {env : Surroundings} {e : Event}

/-! ## Runs -/

/-- The service after an event, with nothing in the outbox but what this step asks for. -/
def after (v : Service) (env : Surroundings) (e : Event) : Service :=
  { v with outbox := [] }.step env e

/-- The service after some events, one after another. -/
def afterAll (v : Service) (events : List (Surroundings × Event)) : Service :=
  events.foldl (fun v e => v.after e.1 e.2) v

/-! ## Activity -/

/-- Is the end of a tool an activity, given what its operation has ended with? -/
def isActiveEnd (t : Tool) : Except SessionFault Result → Bool
  | .ok r => touchesAtEnd t r
  | .error _ => false

/-- Is an activity among the ends of tools that some requests tell of? -/
def endsActivity : List (CallId × Tool) → List Request → Bool
  | _, [] => false
  | tools, .answer id outcome :: rs =>
    match tools.lookup id with
    | some t => isActiveEnd t outcome || endsActivity (tools.filter (·.1 != id)) rs
    | none => endsActivity tools rs
  | tools, _ :: rs => endsActivity tools rs

/-- Is an event an activity? -/
def isActivity (v : Service) (env : Surroundings) : Event → Bool
  | .tool id (.startSession path args folder) =>
    endsActivity (v.tools ++ [(id, .startSession path args folder)])
      (v.session.step env (.call id (.start path args folder))).outbox
  | .tool .. => true
  | .session e => endsActivity v.tools (v.session.step env e).outbox
  | .alarm => false

/-- The time of the last activity in a run, or the given time if there is none. -/
def lastActive (v : Service) (time : Float) : List (Surroundings × Event) → Float
  | [] => time
  | e :: events =>
    (v.after e.1 e.2).lastActive (if v.isActivity e.1 e.2 then e.1.now else time) events

@[simp] theorem lastActivity_touch (v : Service) (now : Float) :
    (v.touch now).lastActivity = now := by
  unfold touch ensureMonitor sleep
  grind [request]

@[simp] theorem session_touch (v : Service) (now : Float) : (v.touch now).session = v.session := by
  unfold touch ensureMonitor sleep
  grind [request]

@[simp] theorem tools_touch (v : Service) (now : Float) : (v.touch now).tools = v.tools := by
  unfold touch ensureMonitor sleep
  grind [request]

/-- Passing a request on leaves the session alone. -/
@[simp] theorem session_forward (v : Service) (now : Float) (r : Request) :
    (v.forward now r).session = v.session := by
  unfold forward finishTool
  grind [request, sleep, session_touch]

theorem tools_finishTool (v : Service) (now : Float) (id : CallId) (t : Tool)
    (outcome : Except SessionFault Result) :
    (v.finishTool now id t outcome).tools = v.tools.filter (·.1 != id) := by
  unfold finishTool
  grind [request, tools_touch]

theorem lastActivity_finishTool (v : Service) (now : Float) (id : CallId) (t : Tool)
    (outcome : Except SessionFault Result) :
    (v.finishTool now id t outcome).lastActivity =
      if isActiveEnd t outcome then now else v.lastActivity := by
  unfold finishTool isActiveEnd
  cases outcome with
  | error f => rfl
  | ok r =>
    dsimp only
    split
    · exact lastActivity_touch _ _
    · rfl

/-- Passing on what a step of the session asks for is an activity if a tool ends with one. -/
theorem lastActivity_foldl_forward (now : Float) (rs : List Request) (v : Service) :
    (rs.foldl (fun v r => v.forward now r) v).lastActivity =
      if endsActivity v.tools rs then now else v.lastActivity := by
  induction rs generalizing v with
  | nil => rfl
  | cons r rs ih =>
    rw [List.foldl_cons, ih]
    cases r with
    | answer id outcome =>
      obtain ⟨tool, hlookup⟩ : ∃ tool, v.tools.lookup id = tool := ⟨_, rfl⟩
      simp only [forward, endsActivity, hlookup]
      cases tool with
      | some t =>
        simp only [tools_finishTool, lastActivity_finishTool]
        by_cases hactive : isActiveEnd t outcome = true <;> simp [hactive]
      | none =>
        dsimp only
        split <;> rfl
    | _ => rfl

theorem session_foldl_forward (now : Float) (rs : List Request) (v : Service) :
    (rs.foldl (fun v r => v.forward now r) v).session = v.session := by
  induction rs generalizing v with
  | nil => rfl
  | cons r rs ih => rw [List.foldl_cons, ih, session_forward]

/-- What is passed on and ends no operation is passed on as it is. -/
theorem foldl_forward_of_no_answer (now : Float) {rs : List Request} (v : Service)
    (h : ∀ r ∈ rs, r.isAnswer = false) :
    rs.foldl (fun v r => v.forward now r) v =
      { v with outbox := v.outbox ++ rs.map ServiceRequest.session } := by
  induction rs generalizing v with
  | nil => simp
  | cons r rs ih =>
    have hforward : v.forward now r = v.request (.session r) := by
      cases r with
      | answer => cases h _ List.mem_cons_self
      | _ => rfl
    rw [List.foldl_cons, ih _ fun r hr => h r (List.mem_cons_of_mem _ hr), hforward]
    simp [request]

/-! ## Steps -/

/-- A step of the session is an activity if a tool ends with one. -/
theorem lastActivity_stepSession (v : Service) (env : Surroundings) (e : Session.Event) :
    (v.stepSession env e).lastActivity =
      if endsActivity v.tools (v.session.step env e).outbox then env.now else v.lastActivity :=
  lastActivity_foldl_forward _ _ _

theorem session_stepSession (v : Service) (env : Surroundings) (e : Session.Event) :
    (v.stepSession env e).session = { v.session.step env e with outbox := [] } :=
  session_foldl_forward _ _ _

/-- The monitor that wakes begins to kill the session exactly if this is running and has not been used
for long enough; it sleeps on otherwise. -/
theorem wakeMonitor_cases (tidy : v.session.outbox = []) :
    (v.wakeMonitor env).lastActivity = v.lastActivity ∧
      (v.wakeMonitor env).monitor =
        if v.session.isRunning ∧ v.settings.idleTimeout ≤ env.now - v.lastActivity then .killing
        else .sleeping := by
  unfold wakeMonitor
  split
  · simp_all [sleep, request]
  · rename_i hrunning
    have hrunning : v.session.isRunning = true := by simpa using hrunning
    split
    · rename_i hidle
      have held : v.session.current.isSome := by
        unfold Session.isRunning Session.currentChannel? at hrunning
        cases hcurrent : v.session.current with
        | none => simp [hcurrent] at hrunning
        | some k => rfl
      obtain ⟨rs, houtbox, hno⟩ := Session.asks_close monitorCall .kill held
      rw [tidy, List.nil_append] at houtbox
      have hkills : (v.session.step env (.call monitorCall .kill)).outbox = rs := houtbox
      unfold stepSession
      dsimp only
      rw [hkills, foldl_forward_of_no_answer _ _ hno]
      simp [hrunning, hidle]
    · simp_all [sleep, request]

/-- What has been asked for is noted; starting a session is noted when it has succeeded. -/
theorem lastActivity_begin (v : Service) (env : Surroundings) (id : CallId) (t : Tool) :
    (v.begin env id t).lastActivity =
      if v.isActivity env (.tool id t) then env.now else v.lastActivity := by
  -- what has been noted once at a time may be noted again at the same time
  have hdelegate : ∀ (v : Service) (o : Operation), v.lastActivity = env.now →
      (v.delegate env id t o).lastActivity = env.now := by
    intro v o hnow
    unfold delegate
    rw [lastActivity_stepSession]
    split
    · rfl
    · exact hnow
  cases t with
  | startSession path args folder => exact lastActivity_stepSession _ _ _
  | stopSession =>
    unfold begin
    dsimp only
    split
    · exact hdelegate _ _ (lastActivity_touch _ _)
    · exact lastActivity_touch _ _
  | status => exact lastActivity_touch _ _
  | target tool =>
    unfold begin
    dsimp only
    split
    · split <;> exact lastActivity_touch _ _
    · split
      · exact hdelegate _ _ (lastActivity_touch _ _)
      · exact lastActivity_touch _ _

/-- Every event that is an activity is noted, and no other. -/
theorem lastActivity_step (tidy : v.session.outbox = []) (env : Surroundings) (e : Event) :
    (v.step env e).lastActivity = if v.isActivity env e then env.now else v.lastActivity := by
  cases e with
  | tool id t => exact lastActivity_begin v env id t
  | session e => exact lastActivity_stepSession v env e
  | alarm =>
    unfold step
    dsimp only
    split
    · exact (wakeMonitor_cases tidy).1
    · rfl

/-- What a step of the service does to the session is a step of the session, if anything. -/
theorem session_step (v : Service) (env : Surroundings) (e : Event) :
    (v.step env e).session = v.session ∨
      ∃ e', (v.step env e).session = { v.session.step env e' with outbox := [] } := by
  have hdelegate : ∀ (u : Service) (id : CallId) (t : Tool) (o : Operation),
      u.session = v.session →
        ∃ e', (u.delegate env id t o).session = { v.session.step env e' with outbox := [] } := by
    intro u id t o hu
    refine ⟨.call id o, ?_⟩
    rw [← hu]
    exact session_stepSession _ _ _
  cases e with
  | tool id t =>
    unfold step begin
    cases t with
    | startSession path args folder => exact Or.inr (hdelegate _ _ _ _ rfl)
    | stopSession =>
      dsimp only
      split
      · exact Or.inr (hdelegate _ _ _ _ (session_touch _ _))
      · exact Or.inl (session_touch _ _)
    | status => exact Or.inl (session_touch _ _)
    | target tool =>
      dsimp only
      split
      · split <;> exact Or.inl (session_touch _ _)
      · split
        · exact Or.inr (hdelegate _ _ _ _ (session_touch _ _))
        · exact Or.inl (session_touch _ _)
  | session e => exact Or.inr ⟨e, session_stepSession _ _ _⟩
  | alarm =>
    unfold step wakeMonitor
    dsimp only
    split
    · split
      · exact Or.inl rfl
      · split
        · exact Or.inr ⟨_, session_stepSession _ _ _⟩
        · exact Or.inl rfl
    · exact Or.inl rfl

/-- The settings stay, and no request is left with the session. -/
theorem step_keeps (tidy : v.session.outbox = []) (env : Surroundings) (e : Event) :
    (v.step env e).settings = v.settings ∧ (v.step env e).session.outbox = [] := by
  unfold settings
  rcases session_step v env e with heq | ⟨e', heq⟩ <;> rw [heq]
  · exact ⟨rfl, tidy⟩
  · exact ⟨Session.settings_step _ _ _, rfl⟩

/-! ## When the monitor kills -/

/-- Does the monitor begin to kill the session if its sleep is over now? -/
def killsAt (v : Service) (env : Surroundings) : Prop :=
  v.monitor = .sleeping ∧ (v.after env .alarm).monitor = .killing

/-- A run notes its last activity. -/
theorem afterAll_keeps (tidy : v.session.outbox = []) (events : List (Surroundings × Event)) :
    (v.afterAll events).lastActivity = v.lastActive v.lastActivity events ∧
      (v.afterAll events).settings = v.settings ∧ (v.afterAll events).session.outbox = [] := by
  induction events generalizing v with
  | nil => exact ⟨rfl, rfl, tidy⟩
  | cons e events ih =>
    have tidy' : Session.outbox (Service.session { v with outbox := [] }) = [] := tidy
    obtain ⟨hsettings, hempty⟩ := step_keeps tidy' e.1 e.2
    obtain ⟨hactivity, hlater, hrest⟩ := ih (v := v.after e.1 e.2) hempty
    refine ⟨?_, hlater.trans hsettings, hrest⟩
    have hnoted := lastActivity_step tidy' e.1 e.2
    rw [show v.afterAll (e :: events) = (v.after e.1 e.2).afterAll events from rfl, hactivity,
      lastActive, after, hnoted]
    rfl

/-- In every run, whatever tools are in progress, the monitor begins to kill the session when its sleep
is over exactly if the session is running and the last activity is as long ago as a session may stay
unused. -/
theorem killsAt_iff (settings : Settings) (probe : Option Probe)
    (events : List (Surroundings × Event)) (env : Surroundings) :
    ((create settings probe).afterAll events).killsAt env ↔
      ((create settings probe).afterAll events).monitor = .sleeping ∧
        ((create settings probe).afterAll events).session.isRunning = true ∧
        settings.idleTimeout ≤ env.now - (create settings probe).lastActive 0.0 events := by
  obtain ⟨hactivity, hsettings, tidy⟩ :=
    afterAll_keeps (v := create settings probe) rfl events
  have hlast : (create settings probe).lastActivity = 0.0 := rfl
  have hidle : (create settings probe).settings.idleTimeout = settings.idleTimeout := rfl
  rw [hlast] at hactivity
  rw [← hactivity, ← hidle, ← hsettings]
  generalize (create settings probe).afterAll events = v at tidy
  refine and_congr_right fun hsleeping => ?_
  have hwakes : v.after env .alarm = { v with outbox := [] }.wakeMonitor env :=
    if_pos (by simp [hsleeping])
  have tidy' : Session.outbox (Service.session { v with outbox := [] }) = [] := tidy
  rw [hwakes, (wakeMonitor_cases tidy').2]
  split
  · exact iff_of_true rfl ‹_›
  · exact iff_of_false nofun ‹_›

instance (v : Service) (env : Surroundings) : Decidable (v.killsAt env) :=
  inferInstanceAs (Decidable (_ ∧ _))

/-! ## A client that waits too long -/

open Session (calm)

/-- A client starts a session that may stay unused for ten seconds, and continues the target, which
does not halt. -/
def waitingLong : List (Surroundings × Event) :=
  [(calm 0.0, .tool 1 (.startSession (some "gdb") [] none)),
    (calm 0.0, .session (.launched 1 true)),
    (calm 0.0, .session (.channel 0 (.prints "(gdb) "))),
    (calm 0.0, .session (.proceeds 1 1)),
    (calm 1.0, .tool 2 (.target (.control (.run .continue)))),
    (calm 1.0, .session (.channel 0 (.writeBegins 0))),
    (calm 1.0, .session (.channel 0 (.writeEnds 0 none))),
    (calm 3.5, .alarm),
    (calm 7.0, .alarm),
    (calm 10.5, .alarm)]

/-- The monitor kills the session while the client waits for the target to halt. -/
theorem kills_while_waiting :
    let v := (create { Settings.default with idleTimeout := 10.0 } none).afterAll waitingLong
    v.tools.map Prod.fst = [2] ∧ v.killsAt (calm 14.0) := by
  decide +kernel

end Service

end DebugConsole
