import DebugConsole.Proofs.Session.Bridging

set_option autoImplicit false

/-!
# What a kill does about the bridge

A kill ends the bridge once the debugger has been let go (`Session.Parts`): as long as it has not, it waits
for the debugger, and then it asks for the end of the bridge that is held.  When it is answered, no bridge is
held any more.
-/

namespace DebugConsole

/-- Does a kill wait like this? -/
def Stage.isKilling : Stage → Bool
  | .closing _ .kill | .endingBridge .kill | .endingRelay .kill => true
  | _ => false

namespace Session

variable {s s' s'' : Session} {env : Surroundings} {e : Event} {id call : CallId} {k : LaunchId} {c : Call}

/-- Does the toolchain talk to its probe through a bridge, which a kill ends? -/
def IsBridged (s : Session) : Prop :=
  ∃ p, s.probe = some p ∧ p.killMessage = none ∧ p.toolchain.usesBridge = true

/-- A kill waits for the debugger to go. -/
def KillCloses (s : Session) (id : CallId) : Prop :=
  ∃ c ∈ s.calls, c.id = id ∧ ∃ step, c.stage = .closing step .kill

/-- Notes answer nobody. -/
theorem Notes.answers {result : Except SessionFault Result} (h : Notes s s')
    (hr : .answer id result ∈ s'.outbox) : .answer id result ∈ s.outbox := by
  obtain ⟨rs, houtbox, hno⟩ := h.asks
  rw [houtbox] at hr
  exact (List.mem_append.1 hr).resolve_right fun hr => nomatch hno _ hr

/-- A kill that waits goes on to wait like one, and it is answered when no bridge is held. -/
structure Kills (id : CallId) (s s' : Session) : Prop where
  own : ∀ c ∈ s'.calls, c.id = id → c.stage.isKilling = true
  answers : ∀ result, .answer id result ∈ s'.outbox → .answer id result ∈ s.outbox ∨ s'.bridge = none

/-- A kill goes on: it waits for the debugger to go, or it has asked for the end of the bridge that was
held. -/
structure Parts (id : CallId) (s s' : Session) : Prop extends Kills id s s' where
  asks : s'.KillCloses id ∨ ∀ b, s.bridge = some b → .endBridge id b ∈ s'.outbox

/-- The session when nothing is left to close. -/
def closed (s : Session) : Session := { s.reportStop none with stopTicket := none, runState := .stopped }

theorem shuns_closed (s : Session) : Shuns s s.closed := Shuns.reportStop.trans (.of_eq rfl rfl)

theorem closed_answers {result : Except SessionFault Result} (hr : .answer id result ∈ s.closed.outbox) :
    .answer id result ∈ s.outbox := by
  have hinward : Inward s (s.reportStop none) := .reportStop
  obtain ⟨rs, houtbox, hno⟩ := hinward.asks
  have hmem : Request.answer id result ∈ s.outbox ++ rs := houtbox ▸ hr
  exact (List.mem_append.1 hmem).resolve_right fun hr => nomatch hno _ hr

/-- Once the debugger has been let go, a kill ends the bridge. -/
theorem finishClosing_of_bridged (bridged : s.IsBridged) (id : CallId) :
    s.finishClosing id .kill = s.closed.endBridge id .kill := by
  obtain ⟨p, hprobe, hmessage, huses⟩ := bridged
  have hsame : s.closed.probe = some p := (Prod.mk.inj (shuns_closed s).dock).1.trans hprobe
  show s.closed.finishKill id = _
  unfold finishKill
  simp only [hsame, hmessage, huses, if_true]

/-- The end of a bridge that is held is asked for. -/
theorem endBridge_asks (s : Session) (id : CallId) (next : BridgeEnded) {b : LaunchId}
    (h : s.bridge = some b) : .endBridge id b ∈ (s.endBridge id next).outbox := by
  unfold endBridge
  rw [h]
  exact List.mem_append_right _ (List.mem_singleton_self _)

theorem isKilling_suspend {stage : Stage} (h : stage.isKilling = true) :
    ∀ c ∈ (s.suspend id stage none).calls, c.id = id → c.stage.isKilling = true := by
  have honward : Onward id (·.isKilling = true) s (s.suspend id stage none) := .suspend h
  exact honward.own

namespace Parts

/-- Changes that are not about the bridge, and then a step of the kill. -/
theorem after (h : Parts id s' s'') (hbridge : s'.bridge = s.bridge)
    (hanswers : ∀ result, .answer id result ∈ s'.outbox → .answer id result ∈ s.outbox) :
    Parts id s s'' where
  own := h.own
  asks := hbridge ▸ h.asks
  answers := fun result hr => (h.answers result hr).imp_left (hanswers result)

theorem noting (h : Parts id s s') (hnotes : Notes s' s'') (hbridge : s''.bridge = s'.bridge) :
    Parts id s s'' where
  own := fun c hc => h.own c (hnotes.calls ▸ hc)
  asks := by
    obtain ⟨rs, houtbox, -⟩ := hnotes.asks
    refine h.asks.imp (fun ⟨c, hc, hcloses⟩ => ⟨c, hnotes.calls.symm ▸ hc, hcloses⟩) fun hasks b hb => ?_
    rw [houtbox]
    exact List.mem_append_left _ (hasks b hb)
  answers := fun result hr => (h.answers result (hnotes.answers hr)).imp_right hbridge.trans

theorem answer {result : Except SessionFault Result} (h : s.bridge = none) :
    Parts id s (s.answer id result) where
  own := fun c hc hid => absurd hid (by simpa using (List.mem_filter.1 hc).2)
  asks := Or.inr fun _ hb => nomatch h.symm.trans hb
  answers := fun _ _ => Or.inr h

/-- A kill waits for the debugger, or for those who relay the output of a bridge that is gone. -/
theorem suspend {stage : Stage} (hkilling : stage.isKilling = true)
    (h : (∃ step, stage = .closing step .kill) ∨ s.bridge = none) :
    Parts id s (s.suspend id stage none) where
  own := isKilling_suspend hkilling
  asks := h.imp (fun hcloses => ⟨_, mem_suspend s id stage none, rfl, hcloses⟩)
    fun hnone _ hb => nomatch hnone.symm.trans hb
  answers := fun _ hr => Or.inl hr

theorem endRelay (h : s.bridge = none) : Parts id s (s.endRelay id .kill) := by
  unfold Session.endRelay
  split
  · exact answer h
  · rename_i b _
    split
    · let relayed : Session := { s with relayed := s.relayed.filter (· != b) }
      have hends : Parts id relayed ((relayed.suspend id (.endingRelay .kill) none).letGoOn id) :=
        (suspend (s := relayed) rfl (Or.inr h)).noting .letGoOn rfl
      exact hends.after rfl fun _ hr => hr
    · have hended : Parts id { s with relay := none } (s.relayEnded id .kill) := answer h
      exact hended.after rfl fun _ hr => hr

theorem endBridge : Parts id s (s.endBridge id .kill) := by
  refine ⟨⟨?_, ?_⟩, Or.inr fun b => endBridge_asks s id .kill⟩
  all_goals unfold Session.endBridge
  · split
    · exact (endRelay ‹_›).own
    · exact isKilling_suspend rfl
  · split
    · exact (endRelay ‹_›).answers
    · exact fun result hr => Or.inl
        ((List.mem_append.1 hr).resolve_right fun hr => nomatch List.mem_singleton.1 hr)

theorem finishClosing (bridged : s.IsBridged) : Parts id s (s.finishClosing id .kill) := by
  rw [finishClosing_of_bridged bridged]
  exact endBridge.after (bridge_of_dock (shuns_closed s).dock) fun result hr => closed_answers hr

theorem closeChannel (bridged : s.IsBridged) : Parts id s (s.closeChannel id .kill) := by
  cases hcurrent : s.current with
  | none =>
    rw [closeChannel_of_none hcurrent]
    exact finishClosing bridged
  | some k =>
    rw [closeChannel_of_current hcurrent]
    have hwaits : Parts id (s.changeChannel k fun ch => ch.close .killed)
        (((s.changeChannel k fun ch => ch.close .killed).suspend id (.closing (.process k) .kill)
          none).request (.endProcess id k)) :=
      (suspend rfl (Or.inl ⟨_, rfl⟩)).noting (.request rfl) rfl
    exact hwaits.after rfl fun _ hr => Notes.changeChannel.answers hr

theorem close (bridged : s.IsBridged) : Parts id s (s.close id .kill) := by
  cases hwatcher : s.watcher with
  | none =>
    rw [close_of_none hwatcher]
    exact closeChannel bridged
  | some k =>
    rw [close_of_watcher hwatcher]
    let unwatched : Session := { s with watched := s.watched.filter (· != k) }
    have hwaits : Parts id unwatched ((unwatched.suspend id (.closing .watcher .kill) none).letGoOn id) :=
      (suspend rfl (Or.inl ⟨_, rfl⟩)).noting .letGoOn rfl
    exact hwaits.after rfl fun _ hr => hr

theorem readerEnded (bridged : s.IsBridged) : Parts id s (s.readerEnded id .kill) := by
  have hended : Parts id { s with current := none } (s.readerEnded id .kill) := finishClosing bridged
  exact hended.after rfl fun _ hr => hr

theorem processEnded (bridged : s.IsBridged) : Parts id s (s.processEnded id k .kill) := by
  unfold Session.processEnded
  dsimp only
  have hstopped : ∀ {s' : Session}, Parts id (s.modifyChannel k Channel.stopReader) s' → Parts id s s' :=
    fun h => h.after rfl fun _ hr => hr
  split
  · exact hstopped ((suspend rfl (Or.inl ⟨_, rfl⟩)).noting .letGoOn rfl)
  · exact hstopped (readerEnded bridged)

end Parts

/-! ## Steps of a kill -/

/-- What happens to a kill that waits for the debugger to go. -/
theorem parts_of_closing {step : Closing} (env : Surroundings) (bridged : s.IsBridged)
    (hnodup : (s.calls.map Call.id).Nodup) (hc : c ∈ s.calls) (hstage : c.stage = .closing step .kill)
    (own : e.caller? = some c.id) (he : e.asksFor c.id = false) :
    s.step env e = s ∨ Parts c.id s (s.step env e) := by
  have hproceeds : c.stage.awaitsWorld = false →
      s.step env e = s ∨ s.step env e = s.proceed env c.id (.closing step .kill) := by
    intro hworld
    rcases step_of_mem env hnodup hc hworld own he with h | ⟨-, h⟩ | ⟨-, h⟩
    · exact Or.inl h
    · exact Or.inr (hstage ▸ h)
    · rw [hstage] at h
      exact Or.inl h
  cases step with
  | watcher =>
    refine (hproceeds (by rw [hstage]; rfl)).imp_right fun h => ?_
    have hclosed : Parts c.id { s with watcher := none } (s.step env e) := by
      rw [h]
      exact .closeChannel bridged
    exact hclosed.after rfl fun _ hr => hr
  | process k =>
    refine (step_of_closing_process env hnodup hc hstage own he).imp_right fun h => ?_
    rw [h.2]
    exact .processEnded bridged
  | reader =>
    refine (hproceeds (by rw [hstage]; rfl)).imp_right fun h => ?_
    rw [h]
    exact .readerEnded bridged

/-- Only the end of the bridge goes on with an operation that waits for it. -/
theorem step_of_endingBridge {next : BridgeEnded} (env : Surroundings)
    (hnodup : (s.calls.map Call.id).Nodup) (hc : c ∈ s.calls) (hstage : c.stage = .endingBridge next)
    (own : e.caller? = some c.id) (he : e.asksFor c.id = false) :
    s.step env e = s ∨ s.step env e = { s with bridge := none }.endRelay c.id next := by
  have hfound := stage?_of_mem hnodup hc
  rw [hstage] at hfound
  cases e with
  | call => cases own; simp [Event.asksFor] at he
  | proceeds _ wait | timesOut _ wait =>
    cases own
    left
    rcases stageIn?_cases hnodup hc wait with h | ⟨h, -⟩
    · simp only [step, h]
    · simp only [step, h, hstage, proceed, timeOut]
  | launched | bridgeLaunched | processEnded =>
    cases own
    exact Or.inl (by simp only [step, hfound])
  | bridgeEnded =>
    cases own
    exact Or.inr (by simp only [step, hfound])
  | channel | watches | bridgePrints | bridgeExits => cases own

/-- Whatever happens, a kill that waits goes on to do so, or is answered when no bridge is held; none is while
it ends the relay. -/
theorem kills_step (env : Surroundings) (bridged : s.IsBridged) (hnodup : (s.calls.map Call.id).Nodup)
    (hrelay : ∀ c ∈ s.calls, ∀ next, c.stage = .endingRelay next → s.bridge = none)
    (hkilling : ∀ c ∈ s.calls, c.id = id → c.stage.isKilling = true) (he : e.asksFor id = false) :
    Kills id s (s.step env e) := by
  have hidle : s.step env e = s → Kills id s (s.step env e) := by
    intro h
    rw [h]
    exact ⟨hkilling, fun _ hr => Or.inl hr⟩
  by_cases own : e.caller? = some id
  · by_cases hmem : id ∈ s.calls.map Call.id
    · obtain ⟨c, hc, rfl⟩ := List.mem_map.1 hmem
      have hstays := hkilling c hc rfl
      -- The stages of a kill, in the order in which it passes them.
      cases hstage : c.stage with
      | closing step next =>
        rw [hstage] at hstays
        cases next with
        | kill =>
          rcases parts_of_closing env bridged hnodup hc hstage own he with h | h
          · exact hidle h
          · exact h.toKills
        | restart | noPrompt => cases hstays
      | endingBridge next =>
        rw [hstage] at hstays
        cases next with
        | kill =>
          rcases step_of_endingBridge env hnodup hc hstage own he with h | h
          · exact hidle h
          · have hends : Parts c.id { s with bridge := none } (s.step env e) := by
              rw [h]
              exact .endRelay rfl
            exact ⟨hends.own, hends.answers⟩
        | connect => cases hstays
      | endingRelay next =>
        rw [hstage] at hstays
        cases next with
        | kill =>
          rcases step_of_mem env hnodup hc (by rw [hstage]; rfl) own he with h | ⟨-, h⟩ | ⟨-, h⟩
          · exact hidle h
          · have hends : Parts c.id { s with relay := none } (s.step env e) := by
              rw [h, hstage]
              exact .answer (hrelay c hc _ hstage)
            exact ⟨hends.own, hends.answers⟩
          · rw [hstage] at h
            exact hidle h
        | connect => cases hstays
      | _ =>
        rw [hstage] at hstays
        cases hstays
    · exact hidle (step_of_absent hmem own he)
  · have hspares : Spares id s (s.step env e) := .step own
    exact ⟨fun c hc hid => hkilling c (hspares.calls c hc hid) hid,
      fun result hr => Or.inl (hspares.answers result hr)⟩

end Session

end DebugConsole
