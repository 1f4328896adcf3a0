import DebugConsole.Proofs.Session.Sequences

set_option autoImplicit false

/-!
# Connecting

What a toolchain does before it connects ends with a message, at once or when its bridge has come up or has
failed to.  Until then nothing is given (`Prepares`).  If the message is empty the commands follow, and if
not connecting has failed.

`Connects` says how far an operation has come.  Loading and disconnecting have nothing to prepare and begin
where the commands are given; so for all three, whatever the debugger answers, the commands of the toolchain
are given in order up to the first that fails, and those that the user has added only if none has
(`fulfils_of_staysOpen`).
-/

namespace DebugConsole

/-! ## Preparing a connection -/

/-- The message that preparing a connection ends with at once, if it does not need a bridge. -/
def Probe.message? (p : Probe) : Option String :=
  match p.connectMessage with
  | some message => some message
  | none =>
    if !p.toolchain.usesBridge then some ""
    else if !p.hasBridgeProgram then some Session.bridgeMissing
    else none

/-- The options that the commands are made from. -/
def Probe.prepared (p : Probe) (options : ConnectOptions) : ConnectOptions :=
  match p.message? with
  | some _ => options
  | none => Toolchain.forwardSlashes options

/-- Where an operation waits for its connection to be prepared. -/
inductive Stage.Prepares (options : ConnectOptions) (others : List String) : Stage → Prop
  | endingBridge : Prepares options others (.endingBridge (.connect options others))
  | endingRelay : Prepares options others (.endingRelay (.connect options others))
  | launchingBridge : Prepares options others (.launchingBridge options others)

namespace Session

variable {s s' s'' : Session} {env : Surroundings} {e : Event} {id : CallId} {p : Probe} {c : Call}
  {options : ConnectOptions} {others : List String} {events : List (Surroundings × Event)}

/-- The message that preparing a connection ends with in a step, if it does. -/
def prepared? (s : Session) (id : CallId) : Event → Option String
  | .call caller (.connect ..) => if caller = id then s.probe.bind Probe.message? else none
  | .bridgeLaunched caller ok =>
    match s.stage? caller with
    | some (.launchingBridge ..) => if caller = id then some (if ok then "" else bridgeFailed) else none
    | _ => none
  | _ => none

/-- The message that preparing a connection ends with in a run, if it does. -/
def preparation? (s : Session) (id : CallId) : List (Surroundings × Event) → Option String
  | [] => none
  | e :: events => (s.prepared? id e.2).or ((s.after e.1 e.2).preparation? id events)

theorem prepared?_eq_none (h : e.caller? ≠ some id) : s.prepared? id e = none := by
  have hne : ∀ {caller}, some caller ≠ some id → caller ≠ id := fun h heq => h (congrArg some heq)
  cases e with
  | call caller operation =>
    cases operation with
    | connect => exact if_neg (hne h)
    | _ => rfl
  | bridgeLaunched caller ok =>
    dsimp only [prepared?]
    split
    · exact if_neg (hne h)
    · rfl
  | _ => rfl

/-- Nothing is given or answered, and an operation comes to wait somewhere. -/
structure Prepares (id : CallId) (P : Stage → Prop) (s s' : Session) : Prop where
  commands : s'.commands = s.commands
  answers : ∀ result, .answer id result ∈ s'.outbox → .answer id result ∈ s.outbox
  waits : ∃ c ∈ s'.calls, c.id = id ∧ P c.stage

namespace Prepares

variable {P Q : Stage → Prop}

theorem mono (h : Prepares id P s s') (hPQ : ∀ stage, P stage → Q stage) : Prepares id Q s s' where
  commands := h.commands
  answers := h.answers
  waits := by
    obtain ⟨c, hc, hid, hstage⟩ := h.waits
    exact ⟨c, hc, hid, hPQ _ hstage⟩

theorem after (h : Prepares id P s' s'') (hchannels : s'.channels = s.channels)
    (houtbox : ∀ result, .answer id result ∈ s'.outbox → .answer id result ∈ s.outbox) :
    Prepares id P s s'' where
  commands := by rw [h.commands, Session.commands, hchannels]; rfl
  answers := fun result hr => houtbox result (h.answers result hr)
  waits := h.waits

theorem suspend {stage : Stage} (h : P stage) : Prepares id P s (s.suspend id stage none) :=
  ⟨rfl, fun _ hr => hr, _, List.mem_append_right _ (List.mem_singleton_self _), rfl, h⟩

theorem requesting (h : Prepares id P s s') {rs : List Request} (hrs : ∀ r ∈ rs, r.isAnswer = false) :
    Prepares id P s (s'.requestAll rs) where
  commands := h.commands
  answers := fun result hr =>
    h.answers result ((List.mem_append.1 hr).resolve_right fun hr => by cases hrs _ hr)
  waits := h.waits

theorem request (h : Prepares id P s s') {r : Request} (hr : r.isAnswer = false) :
    Prepares id P s (s'.request r) :=
  h.requesting fun r' hr' => by rwa [List.mem_singleton.1 hr']

theorem launchBridge (hp : s.probe = some p) :
    Prepares id (· = .launchingBridge options others) s (s.launchBridge id options others) := by
  unfold Session.launchBridge
  rw [hp]
  let noted := s.request
    (.bridgeLog (bridgeLine p.bridgeProgram (Toolchain.bridgeArguments options.bridgeConfigs)))
  have hwaits : Prepares id (· = .launchingBridge options others) noted
      (noted.suspend id (.launchingBridge options others) none) := suspend rfl
  have hnoted : ∀ result, .answer id result ∈ noted.outbox → .answer id result ∈ s.outbox := by
    intro result hr
    rcases List.mem_append.1 hr with hr | hr
    · exact hr
    · cases List.mem_singleton.1 hr
  have hreached : Prepares id (· = .launchingBridge options others) s
      (noted.suspend id (.launchingBridge options others) none) := hwaits.after rfl hnoted
  exact hreached.request rfl

theorem relayEnded (hp : s.probe = some p) :
    Prepares id (· = .launchingBridge options others) s (s.relayEnded id (.connect options others)) := by
  have hlaunches : Prepares id (· = .launchingBridge options others) { s with relay := none }
      ({ s with relay := none }.launchBridge id options others) := launchBridge hp
  exact hlaunches.after rfl fun _ hr => hr

/-- Whoever relays the output of an earlier bridge ends first, if there is one. -/
theorem endRelay (hp : s.probe = some p) :
    Prepares id (fun stage => stage = .endingRelay (.connect options others) ∨
      stage = .launchingBridge options others) s (s.endRelay id (.connect options others)) := by
  unfold Session.endRelay
  split
  · exact (launchBridge hp).mono fun _ => Or.inr
  · rename_i b _
    split
    · let unrelayed : Session := { s with relayed := s.relayed.filter (· != b) }
      have hwaits : Prepares id (fun stage => stage = .endingRelay (.connect options others) ∨
          stage = .launchingBridge options others) unrelayed
          (unrelayed.suspend id (.endingRelay (.connect options others)) none) := suspend (Or.inl rfl)
      have hrelayed : Prepares id (fun stage => stage = .endingRelay (.connect options others) ∨
          stage = .launchingBridge options others) unrelayed
          ((unrelayed.suspend id (.endingRelay (.connect options others)) none).letGoOn id) := by
        refine hwaits.requesting fun r hr => ?_
        obtain ⟨c, -, rfl⟩ := List.mem_map.1 hr
        rfl
      exact hrelayed.after rfl fun _ hr => hr
    · exact (relayEnded hp).mono fun _ => Or.inr

theorem preparing (h : Prepares id (fun stage => stage = .endingRelay (.connect options others) ∨
    stage = .launchingBridge options others) s s') : Prepares id (Stage.Prepares options others) s s' :=
  h.mono fun stage hstage => by rcases hstage with rfl | rfl <;> constructor

theorem endBridge (hp : s.probe = some p) :
    Prepares id (Stage.Prepares options others) s (s.endBridge id (.connect options others)) := by
  unfold Session.endBridge
  split
  · exact (endRelay hp).preparing
  · have hwaits : Prepares id (Stage.Prepares options others) s
        (s.suspend id (.endingBridge (.connect options others)) none) := suspend .endingBridge
    exact hwaits.request rfl

end Prepares

/-! ## Steps -/

/-- The commands that may fail after the connection is made. -/
def connectExtras (options : ConnectOptions) (others : List String) : List Issue :=
  others.map (plainIssue · .connect .hidden) ++ options.customCommands.map (plainIssue · .custom .log)

/-- The commands that make the connection. -/
def connectIssues (p : Probe) (options : ConnectOptions) : List Issue :=
  (p.toolchain.connectCommands options).map (goalIssue (.connect options.executable))

/-- When it is its turn, an operation whose connection is being prepared waits on, or the bridge that it has
launched has come up or has failed to. -/
theorem step_own_of_preparing (env : Surroundings) (hnodup : (s.calls.map Call.id).Nodup) (hp : s.probe = some p)
    (hc : c ∈ s.calls) (hstage : c.stage.Prepares options others) (own : e.caller? = some c.id)
    (he : e.asksFor c.id = false) :
    (s.prepared? c.id e = none ∧
        (s.step env e = s ∨ Prepares c.id (Stage.Prepares options others) s (s.step env e))) ∨
      ∃ ok, s.prepared? c.id e = some (if ok then "" else bridgeFailed) ∧
        s.step env e = s.bridgeLaunched env c.id options others ok := by
  have hfound := stage?_of_mem hnodup hc
  have hstageIn : ∀ {wait stage}, s.stageIn? c.id wait = some stage → stage = c.stage := by
    intro wait stage h
    rcases stageIn?_cases hnodup hc wait with hnone | ⟨hsome, -⟩
    · cases hnone.symm.trans h
    · exact Option.some.inj (h.symm.trans hsome)
  generalize c.stage = stage at *
  generalize c.id = id at *
  cases e with
  | call =>
    cases own
    simp [Event.asksFor] at he
  | proceeds caller wait =>
    cases own
    refine Or.inl ⟨rfl, ?_⟩
    dsimp only [Session.step]
    split
    · rename_i heq
      rw [hstageIn heq]
      cases hstage with
      | endingRelay => exact Or.inr ((Prepares.relayEnded hp).mono fun _ h => h ▸ .launchingBridge)
      | _ => exact Or.inl rfl
    · exact Or.inl rfl
  | timesOut caller wait =>
    cases own
    refine Or.inl ⟨rfl, Or.inl ?_⟩
    dsimp only [Session.step]
    split
    · rename_i heq
      rw [hstageIn heq]
      cases hstage <;> rfl
    · rfl
  | launched caller ok =>
    cases own
    refine Or.inl ⟨rfl, Or.inl ?_⟩
    dsimp only [Session.step]
    rw [hfound]
    cases hstage <;> rfl
  | processEnded caller =>
    cases own
    refine Or.inl ⟨rfl, Or.inl ?_⟩
    dsimp only [Session.step]
    rw [hfound]
    cases hstage <;> rfl
  | bridgeLaunched caller ok =>
    cases own
    dsimp only [Session.step, prepared?]
    rw [hfound]
    cases hstage with
    | launchingBridge => exact Or.inr ⟨ok, if_pos rfl, rfl⟩
    | _ => exact Or.inl ⟨rfl, Or.inl rfl⟩
  | bridgeEnded caller =>
    cases own
    refine Or.inl ⟨rfl, ?_⟩
    dsimp only [Session.step]
    rw [hfound]
    cases hstage with
    | endingBridge =>
      have hends : Prepares id (Stage.Prepares options others) { s with bridge := none }
          ({ s with bridge := none }.endRelay id (.connect options others)) :=
        (Prepares.endRelay (s := { s with bridge := none }) hp).preparing
      exact Or.inr (hends.after rfl fun _ hr => hr)
    | _ => exact Or.inl rfl
  | channel | watches | bridgePrints | bridgeExits => cases own

/-- When the bridge has come up the commands are given. -/
theorem bridgeLaunched_true (env : Surroundings) (id : CallId) (options : ConnectOptions)
    (others : List String) (hp : s.probe = some p) :
    ∃ s', Inward s s' ∧ s.bridgeLaunched env id options others true =
      s'.connectTarget env id p.toolchain options others := by
  let up : Session := { s with
    bridges := s.bridges + 1
    bridge := some s.bridges
    relay := some s.bridges
    relayed := s.relayed ++ [s.bridges] }.request (.readBridge s.bridges)
  have hup : Inward s up :=
    ⟨rfl, rfl, rfl, rfl, [.readBridge s.bridges], rfl, by simp [Request.isAnswer]⟩
  refine ⟨up, hup, ?_⟩
  unfold bridgeLaunched
  rw [if_neg (by decide)]
  split
  · rename_i hnone
    cases hp.symm.trans hnone
  · rename_i q hq
    cases hp.symm.trans hq
    rfl

/-- A connection comes to its end when its bridge fails to come up. -/
theorem ends_of_launching (sound : s.Sound) (hrunning : s.isRunning = true) (env : Surroundings)
    (hc : c ∈ s.calls) (hstage : c.stage = .launchingBridge options others) : s.Ends c.id := by
  have hfound : { s with outbox := [] }.stage? c.id = some (.launchingBridge options others) :=
    (stage?_of_mem sound.nodup hc).trans (congrArg some hstage)
  have hafter : s.after env (.bridgeLaunched c.id false) =
      { s with outbox := [] }.failConnect c.id options bridgeFailed := by
    show { s with outbox := [] }.step env (.bridgeLaunched c.id false) = _
    dsimp only [Session.step]
    rw [hfound]
    rfl
  exact .of_after env (.bridgeLaunched c.id false) hrunning rfl rfl
    (.of_gone (hafter ▸ notMem_answer _ _ _))

/-- A turn after which an operation waits where it comes to its end. -/
theorem ends_of_waits {P : Stage → Prop} (sound : s.Sound) (hrunning : s.isRunning = true)
    (hp : s.probe = some p) (own : e.caller? = some id) (he : e.isCall = false)
    (hsteady : ∀ j, Steady (asOpen env j) s (s.after env e))
    (waits : Prepares id P s' (s.after env e))
    (ends : ∀ {s : Session} {c : Call}, s.Sound → s.isRunning = true → s.probe = some p → c ∈ s.calls →
      P c.stage → s.Ends c.id) : s.Ends id := by
  obtain ⟨c, hc, rfl, hstage⟩ := waits.waits
  exact .of_after env e hrunning own he (ends (sound.after env e)
    ((Steady.isRunning_eq hsteady).trans hrunning) ((probe_after s env e).trans hp) hc hstage)

theorem ends_of_endingRelay (sound : s.Sound) (hrunning : s.isRunning = true) (hp : s.probe = some p)
    (env : Surroundings) (hc : c ∈ s.calls) (hstage : c.stage = .endingRelay (.connect options others)) :
    s.Ends c.id := by
  have hafter : s.after env (.proceeds c.id c.wait) =
      { s with outbox := [] }.relayEnded c.id (.connect options others) := by
    rw [after_proceeds sound.nodup hc, hstage]
    rfl
  have hlaunches : Prepares c.id (· = .launchingBridge options others) { s with outbox := [] }
      (s.after env (.proceeds c.id c.wait)) := hafter ▸ Prepares.relayEnded hp
  refine ends_of_waits sound hrunning hp rfl rfl (fun j => ?_) hlaunches
    fun sound hrunning _ hc hstage => ends_of_launching sound hrunning env hc hstage
  rw [hafter]
  exact Steady.relayEnded.after rfl rfl rfl

/-- A connection that is being prepared comes to its end. -/
theorem ends_of_preparing (sound : s.Sound) (hrunning : s.isRunning = true) (hp : s.probe = some p)
    (env : Surroundings) (hc : c ∈ s.calls) (hstage : c.stage.Prepares options others) : s.Ends c.id := by
  generalize hstaged : c.stage = stage at hstage
  cases hstage with
  | launchingBridge => exact ends_of_launching sound hrunning env hc hstaged
  | endingRelay => exact ends_of_endingRelay sound hrunning hp env hc hstaged
  | endingBridge =>
    let unbridged : Session := { s with outbox := [], bridge := none }
    have hfound : { s with outbox := [] }.stage? c.id = some (.endingBridge (.connect options others)) :=
      (stage?_of_mem sound.nodup hc).trans (congrArg some hstaged)
    have hafter : s.after env (.bridgeEnded c.id) = unbridged.endRelay c.id (.connect options others) := by
      show { s with outbox := [] }.step env (.bridgeEnded c.id) = _
      dsimp only [Session.step]
      rw [hfound]
    have hprepares : Prepares c.id (fun stage => stage = .endingRelay (.connect options others) ∨
        stage = .launchingBridge options others) unbridged (s.after env (.bridgeEnded c.id)) :=
      hafter ▸ Prepares.endRelay hp
    refine ends_of_waits sound hrunning hp rfl rfl (fun j => ?_) hprepares ?_
    · rw [hafter]
      exact Steady.endRelay.after rfl rfl rfl
    · rintro s c sound hrunning hp hc (hstage | hstage)
      · exact ends_of_endingRelay sound hrunning hp env hc hstage
      · exact ends_of_launching sound hrunning env hc hstage

/-- How far connecting has come: its connection is being prepared, has not come about, or has and the
commands are given. -/
inductive Connects (s : Session) (id : CallId) (p : Probe) (options : ConnectOptions)
    (others : List String) (message : Option String) (given : List Command)
    (answers : List (Except SessionFault Result)) : Prop
  | prepares {c : Call} (mem : c ∈ s.calls) (own : c.id = id) (stage : c.stage.Prepares options others)
      (waits : message = none) (gave : given = []) (untold : answers = [])
      (ends : s.isRunning = true → s.Ends id)
  | refused {m : String} (gone : id ∉ s.calls.map Call.id) (returned : message = some m)
      (nonempty : m ≠ "") (gave : given = [])
      (told : answers = [.ok (.connected false options.executable)])
  | connects (returned : message = some "")
      (fulfils : s.Fulfils id (Ran (.connect options.executable) (connectIssues p options)
        (connectExtras options others)) given answers)

theorem isPlain_connect : ∀ i ∈ connectIssues p options ++ connectExtras options others,
    i.bySignal = false := by
  intro i hi
  simp only [connectIssues, connectExtras, List.mem_append, List.mem_map] at hi
  rcases hi with ⟨text, -, rfl⟩ | ⟨text, -, rfl⟩ | ⟨text, -, rfl⟩ <;> rfl

namespace Connects

/-- A connection that does not come about. -/
theorem of_failConnect (sound : s.Sound) {m : String} (hm : m ≠ "")
    (hprepared : s.prepared? id e = some m)
    (hafter : s.after env e = { s with outbox := [] }.failConnect id options m)
    (calls : ∀ e ∈ events, e.2.asksFor id = false) :
    ((s.after env e).afterAll events).Connects id p options others
      (s.preparation? id ((env, e) :: events)) (s.gives id ((env, e) :: events))
      (s.answersTo id ((env, e) :: events)) := by
  have hlogged : Inward { s with outbox := [] } ({ s with outbox := [] }.log .error m) := .log
  have hspares : Spares id { s with outbox := [] } ({ s with outbox := [] }.log .error m) :=
    .of_inward hlogged
  have hgone : id ∉ (s.after env e).calls.map Call.id := hafter ▸ notMem_answer _ _ _
  have hchannels : ({ s with outbox := [] }.failConnect id options m).channels = s.channels :=
    hlogged.channels
  have hgiven : s.givenIn env id e = [] := by
    refine givenIn_of_eq sound.earlier hafter ?_
    rw [Session.commands, hchannels]
    rfl
  have htold : (s.after env e).answersIn id = [.ok (.connected false options.executable)] := by
    rw [hafter, failConnect, answersIn_answer, hspares.answersIn rfl]
    rfl
  have hrest := answersTo_of_absent hgone calls
  refine .refused hrest.1 ?_ hm ?_ ?_
  · rw [preparation?, hprepared]
    rfl
  · rw [gives, hgiven, gives_of_absent (sound.after env e) hgone calls]
    rfl
  · rw [answersTo, htold, hrest.2]
    rfl

/-- A connection that comes about: the commands are given. -/
theorem of_connectTarget (sound : s.Sound) (hrunning : s.isRunning = true) (own : e.caller? = some id)
    (hprepared : s.prepared? id e = some "") (hinward : Inward { s with outbox := [] } s')
    (hafter : s.after env e = s'.connectTarget env id p.toolchain options others)
    (stays : (s.after env e).StaysOpen events)
    (calls : ∀ e ∈ events, e.2.asksFor id = false) :
    ((s.after env e).afterAll events).Connects id p options others
      (s.preparation? id ((env, e) :: events)) (s.gives id ((env, e) :: events))
      (s.answersTo id ((env, e) :: events)) := by
  refine .connects ?_ (fulfils_of_after sound hrunning own hinward hafter isPlain_connect stays calls)
  rw [preparation?, hprepared]
  rfl

/-- While its connection is being prepared an operation waits, until the bridge has come up or has failed
to. -/
theorem of_preparing (sound : s.Sound) (hp : s.probe = some p) (around : Surroundings) (hc : c ∈ s.calls)
    (hstage : c.stage.Prepares options others) (stays : s.StaysOpen events)
    (calls : ∀ e ∈ events, e.2.asksFor c.id = false) :
    (s.afterAll events).Connects c.id p options others (s.preparation? c.id events) (s.gives c.id events)
      (s.answersTo c.id events) := by
  induction events generalizing s c with
  | nil => exact .prepares hc rfl hstage rfl rfl rfl (ends_of_preparing sound · hp around hc hstage)
  | cons e events ih =>
    obtain ⟨env, e⟩ := e
    obtain ⟨hrunning, hstays⟩ := staysOpen_cons.1 stays
    have he : e.asksFor c.id = false := calls (env, e) List.mem_cons_self
    have hcalls : ∀ e ∈ events, e.2.asksFor c.id = false := fun e he => calls e (List.mem_cons_of_mem _ he)
    have hwaits : ∀ d ∈ (s.after env e).calls, d.id = c.id → d.stage.Prepares options others →
        s.prepared? c.id e = none → s.givenIn env c.id e = [] → (s.after env e).answersIn c.id = [] →
        ((s.after env e).afterAll events).Connects c.id p options others
          (s.preparation? c.id ((env, e) :: events)) (s.gives c.id ((env, e) :: events))
          (s.answersTo c.id ((env, e) :: events)) := by
      intro d hd hid hprepares hnone hgiven huntold
      rw [preparation?, hnone, gives, hgiven, answersTo, huntold, ← hid]
      exact ih (sound.after env e) ((probe_after s env e).trans hp) hd hprepares hstays (hid ▸ hcalls)
    by_cases hown : e.caller? = some c.id
    · rcases step_own_of_preparing (s := { s with outbox := [] }) env sound.nodup hp hc hstage hown he with
        ⟨hnone, hsame | hprepares⟩ | ⟨ok, hprepared, hlaunched⟩
      · have hafter : s.after env e = { s with outbox := [] } := hsame
        exact hwaits c (hafter ▸ hc) rfl hstage hnone (givenIn_of_eq sound.earlier hafter rfl)
          (by rw [hafter]; rfl)
      · obtain ⟨d, hd, hid, hwaiting⟩ := hprepares.waits
        refine hwaits d hd hid hwaiting hnone
          (givenIn_of_eq sound.earlier rfl hprepares.commands) ?_
        exact List.eq_nil_iff_forall_not_mem.2 fun result hr =>
          absurd (hprepares.answers result (mem_answersIn.1 hr)) List.not_mem_nil
      · have hafter : s.after env e = { s with outbox := [] }.bridgeLaunched env c.id options others ok :=
          hlaunched
        cases ok with
        | false =>
          have hm : bridgeFailed ≠ "" := by decide
          exact of_failConnect sound hm hprepared hafter hcalls
        | true =>
          obtain ⟨up, hup, hconnects⟩ :=
            bridgeLaunched_true (s := { s with outbox := [] }) env c.id options others hp
          exact of_connectTarget sound hrunning hown hprepared hup (hafter.trans hconnects) hstays hcalls
    · have hspares : Spares c.id { s with outbox := [] } (s.after env e) := .step hown
      have hmem : c ∈ (s.after env e).calls :=
        (acts_step_any { s with outbox := [] } env e).mem_calls hown hc
      exact hwaits c hmem rfl hstage (prepared?_eq_none hown) (if_neg hown) (hspares.answersIn rfl)

end Connects

/-! ## The operations -/

/-- How connecting begins depends on the message that its preparation ends with, if it does at once. -/
theorem connect_cases (env : Surroundings) (id : CallId) (options : ConnectOptions) (others : List String)
    (hp : s.probe = some p) :
    (p.message? = some "" ∧
        s.connect env id options others = s.connectTarget env id p.toolchain options others) ∨
      (∃ m, m ≠ "" ∧ p.message? = some m ∧
        s.connect env id options others = s.failConnect id options m) ∨
      (p.message? = none ∧ s.connect env id options others =
        s.endBridge id (.connect (Toolchain.forwardSlashes options) others)) := by
  unfold connect Probe.message?
  rw [hp]
  dsimp only
  cases p.connectMessage with
  | some m =>
    by_cases hm : m = ""
    · subst hm
      exact Or.inl ⟨rfl, rfl⟩
    · exact Or.inr (Or.inl ⟨m, hm, rfl, if_neg (by simpa using hm)⟩)
  | none =>
    cases p.toolchain.usesBridge with
    | false => exact Or.inl ⟨rfl, rfl⟩
    | true =>
      cases p.hasBridgeProgram with
      | false => exact Or.inr (Or.inl ⟨bridgeMissing, by decide, rfl, rfl⟩)
      | true => exact Or.inr (Or.inr ⟨rfl, rfl⟩)

/-- Connecting gives nothing before its connection is prepared, nothing if that fails, and then its
commands. -/
theorem connects_of_connect (sound : s.Sound) (hp : s.probe = some p) (env : Surroundings) (id : CallId)
    (options : ConnectOptions) (others : List String)
    (stays : s.StaysOpen ((env, .call id (.connect options others)) :: events))
    (calls : ∀ e ∈ events, e.2.asksFor id = false) :
    (s.afterAll ((env, .call id (.connect options others)) :: events)).Connects id p (p.prepared options) others
      (s.preparation? id ((env, .call id (.connect options others)) :: events))
      (s.gives id ((env, .call id (.connect options others)) :: events))
      (s.answersTo id ((env, .call id (.connect options others)) :: events)) := by
  obtain ⟨hrunning, hstays⟩ := staysOpen_cons.1 stays
  have hprepared : s.prepared? id (.call id (.connect options others)) = p.message? := by
    refine (if_pos rfl).trans ?_
    rw [hp, Option.bind_some]
  have hoptions : ∀ m, p.message? = some m → p.prepared options = options := by
    intro m hm
    rw [Probe.prepared, hm]
  rcases connect_cases (s := { s with outbox := [] }) env id options others hp with
    ⟨hmessage, hconnect⟩ | ⟨m, hm, hmessage, hconnect⟩ | ⟨hmessage, hconnect⟩
  · rw [hoptions _ hmessage]
    exact Connects.of_connectTarget sound hrunning rfl (hprepared.trans hmessage) (.refl _) hconnect hstays
      calls
  · rw [hoptions _ hmessage]
    exact Connects.of_failConnect sound hm (hprepared.trans hmessage) hconnect calls
  · have hforward : p.prepared options = Toolchain.forwardSlashes options := by
      rw [Probe.prepared, hmessage]
    have hprepares : Prepares id (Stage.Prepares (Toolchain.forwardSlashes options) others)
        { s with outbox := [] } (s.after env (.call id (.connect options others))) := by
      have hends : Prepares id (Stage.Prepares (Toolchain.forwardSlashes options) others)
          { s with outbox := [] } _ := Prepares.endBridge hp
      rw [← hconnect] at hends
      exact hends
    obtain ⟨c, hc, rfl, hwaits⟩ := hprepares.waits
    have hgiven : s.givenIn env c.id (.call c.id (.connect options others)) = [] :=
      givenIn_of_eq sound.earlier rfl hprepares.commands
    have huntold : (s.after env (.call c.id (.connect options others))).answersIn c.id = [] :=
      List.eq_nil_iff_forall_not_mem.2 fun result hr =>
        absurd (hprepares.answers result (mem_answersIn.1 hr)) List.not_mem_nil
    rw [preparation?, hprepared, hmessage, gives, hgiven, answersTo, huntold, hforward]
    exact Connects.of_preparing (sound.after _ _) ((probe_after s _ _).trans hp) env hc hwaits hstays calls

/-- Loading and disconnecting give the commands of the toolchain for it, and what is added. -/
theorem fulfils_of_pursue (sound : s.Sound) (hp : s.probe = some p) (env : Surroundings) (id : CallId)
    {operation : Operation} (goal : Goal) (commands : Toolchain → List String) (extras : List Issue)
    (hplain : ∀ i ∈ extras, i.bySignal = false)
    (hafter : s.after env (.call id operation) =
      { s with outbox := [] }.pursue env id goal commands extras)
    (stays : s.StaysOpen ((env, .call id operation) :: events))
    (calls : ∀ e ∈ events, e.2.asksFor id = false) :
    (s.afterAll ((env, .call id operation) :: events)).Fulfils id
      (Ran goal ((commands p.toolchain).map (goalIssue goal)) extras)
      (s.gives id ((env, .call id operation) :: events))
      (s.answersTo id ((env, .call id operation) :: events)) := by
  obtain ⟨hrunning, hstays⟩ := staysOpen_cons.1 stays
  have hbegins : s.after env (.call id operation) = { s with outbox := [] }.sequence env id goal
      ((commands p.toolchain).map (goalIssue goal)) extras := by
    rw [hafter]
    unfold pursue
    split
    · rename_i hnone
      cases hp.symm.trans hnone
    · rename_i q hq
      cases hp.symm.trans hq
      rfl
  refine fulfils_of_after sound hrunning rfl (.refl _) hbegins (fun i hi => ?_) hstays calls
  rcases List.mem_append.1 hi with hi | hi
  · obtain ⟨text, -, rfl⟩ := List.mem_map.1 hi
    cases goal <;> rfl
  · exact hplain i hi

/-- In every run of a session that stays open, connecting, loading and disconnecting give the commands of the
toolchain in order, up to the first that fails, which is what the caller is told; if none fails they give
the ones that are added, in order and whatever becomes of them, and the caller is told of success.
Connecting gives nothing before its connection is prepared, and nothing at all if that ends with a message.
The same holds of any other sequence of commands.  None of them is ever stuck: turns of its own bring it to
its end. -/
theorem fulfils_of_staysOpen (reached : s.Reached) (hp : s.probe = some p) (env : Surroundings) (id : CallId)
    (calls : ∀ e ∈ events, e.2.asksFor id = false) :
    (∀ options others, let run := (env, .call id (.connect options others)) :: events;
      s.StaysOpen run → (s.afterAll run).Connects id p (p.prepared options) others (s.preparation? id run)
        (s.gives id run) (s.answersTo id run)) ∧
    (∀ extras, let run := (env, .call id (.load extras)) :: events;
      s.StaysOpen run → (s.afterAll run).Fulfils id
        (Ran .load (p.toolchain.loadCommands.map (goalIssue .load))
          (extras.map (plainIssue · .startDebug .hidden)))
        (s.gives id run) (s.answersTo id run)) ∧
    (let run := (env, .call id .disconnect) :: events;
      s.StaysOpen run → (s.afterAll run).Fulfils id
        (Ran .disconnect (p.toolchain.disconnectCommands.map (goalIssue .disconnect)) [])
        (s.gives id run) (s.answersTo id run)) ∧
    (∀ goal required optional, let first := s.sequence env id goal required optional;
      (∀ i ∈ required ++ optional, i.bySignal = false) → s.isRunning = true → s.answersIn id = [] →
      first.StaysOpen events → (first.afterAll events).Fulfils id (Ran goal required optional)
        (first.givenFrom s.nextId ++ first.gives id events)
        (first.answersIn id ++ first.answersTo id events)) := by
  have sound := reached.sound
  refine ⟨?connect, ?load, ?disconnect, ?sequence⟩
  case connect =>
    intro options others run stays
    exact connects_of_connect sound hp env id options others stays calls
  case load =>
    intro extras run stays
    refine fulfils_of_pursue sound hp env id .load Toolchain.loadCommands _ (fun i hi => ?_) rfl stays calls
    obtain ⟨text, -, rfl⟩ := List.mem_map.1 hi
    rfl
  case disconnect =>
    intro run stays
    exact fulfils_of_pursue sound hp env id .disconnect Toolchain.disconnectCommands [] nofun rfl stays
      calls
  case sequence =>
    intro goal required optional first plain hrunning unanswered stays
    exact fulfils_of_sequence sound hrunning env unanswered plain stays calls

/-- A session with a toolchain, whose debugger has printed its prompt. -/
def equipped : Session :=
  (create Settings.default (some ⟨.st7, none, "", false, none, none⟩)).afterAll (launching 0 0 0)

/-- The debugger refuses a command. -/
def refusing : List (Surroundings × Event) :=
  [(calm 2.0, .channel 0 (.writeBegins 0)),
    (calm 2.0, .channel 0 (.writeEnds 0 none)),
    (calm 2.0, .channel 0 (.prints "Error: no target\n(gdb) ")),
    (calm 2.0, .proceeds 1 2)]

/-- When the program cannot be loaded the target is not reset, and what was added is not given. -/
theorem fulfils_of_staysOpen_refusing :
    let run := (calm 2.0, .call 1 (.load ["monitor reset"])) :: refusing;
    equipped.StaysOpen run ∧ equipped.gives 1 run = [⟨0, "load"⟩] ∧
      (equipped.afterAll run).Fulfils 1
        (Ran .load (Toolchain.st7.loadCommands.map (goalIssue .load))
          [plainIssue "monitor reset" .startDebug .hidden])
        (equipped.gives 1 run) (equipped.answersTo 1 run) := by
  intro run
  have reached : equipped.Reached := (Reached.create _ _).afterAll _
  have hp : equipped.probe = some ⟨.st7, none, "", false, none, none⟩ := probe_afterAll _ _
  have calls : ∀ e ∈ refusing, e.2.asksFor 1 = false := by decide +kernel
  have stays : equipped.StaysOpen run := by decide +kernel
  exact ⟨stays, by decide +kernel,
    (fulfils_of_staysOpen reached hp (calm 2.0) 1 calls).2.1 ["monitor reset"] stays⟩

end Session

end DebugConsole
