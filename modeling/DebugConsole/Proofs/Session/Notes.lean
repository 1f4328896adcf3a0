import DebugConsole.Proofs.Session.Bystanders

set_option autoImplicit false

/-!
# Notes

Much of what a session does is noted only: a message is logged, a subscriber told, a command handed to
its channel.  Nobody waits, goes on or is answered by it, and nothing becomes of halts, breakpoint
numbers and debuggers.
-/

namespace DebugConsole

namespace Session

variable {s s' s'' : Session} {env : Surroundings} {call : CallId}

/-- Notes are taken: who is in progress stays the same, nobody is answered, and tickets, breakpoint
numbers and debuggers stay as they are. -/
structure Notes (s s' : Session) : Prop where
  settings : s'.settings = s.settings
  calls : s'.calls = s.calls
  stopTicket : s'.stopTicket = s.stopTicket
  stops : s'.stops = s.stops
  breakpoints : s'.breakpoints = s.breakpoints
  current : s'.current = s.current
  launches : s'.channels.length = s.channels.length
  asks : ∃ rs : List Request, s'.outbox = s.outbox ++ rs ∧ ∀ r ∈ rs, r.isAnswer = false

namespace Notes

theorem refl (s : Session) : Notes s s :=
  ⟨rfl, rfl, rfl, rfl, rfl, rfl, rfl, [], (List.append_nil _).symm, fun _ hr => nomatch hr⟩

theorem trans (h : Notes s s') (h' : Notes s' s'') : Notes s s'' where
  settings := h'.settings.trans h.settings
  calls := h'.calls.trans h.calls
  stopTicket := h'.stopTicket.trans h.stopTicket
  stops := h'.stops.trans h.stops
  breakpoints := h'.breakpoints.trans h.breakpoints
  current := h'.current.trans h.current
  launches := h'.launches.trans h.launches
  asks := by
    obtain ⟨rs, hrs, hno⟩ := h.asks
    obtain ⟨rs', hrs', hno'⟩ := h'.asks
    refine ⟨rs ++ rs', by rw [hrs', hrs, List.append_assoc], fun r hr => ?_⟩
    exact (List.mem_append.1 hr).elim (hno r) (hno' r)

theorem requestAll {rs : List Request} (h : ∀ r ∈ rs, r.isAnswer = false) :
    Notes s (s.requestAll rs) := ⟨rfl, rfl, rfl, rfl, rfl, rfl, rfl, rs, rfl, h⟩

theorem request {r : Request} (h : r.isAnswer = false) : Notes s (s.request r) :=
  requestAll fun r hr => by rwa [List.mem_singleton.1 hr]

theorem publish {e : SessionEvent} : Notes s (s.publish e) := { refl s with }

theorem log {level : LogLevel} {message : String} : Notes s (s.log level message) := by
  unfold Session.log
  split
  · split
    · exact publish
    · exact refl s
  · exact publish

theorem modifyChannel {k : LaunchId} {f : Channel → Channel} : Notes s (s.modifyChannel k f) :=
  { refl s with launches := by simp [Session.modifyChannel] }

theorem changeChannel {k : LaunchId} {f : Channel → Channel} : Notes s (s.changeChannel k f) := by
  refine modifyChannel.trans (requestAll fun r hr => ?_)
  obtain ⟨ch, -, hr⟩ := List.mem_flatMap.1 hr
  unfold consequences at hr
  grind [Call.goOn, Request.isAnswer]

theorem suspend {stage : Stage} {limit : Option Float} :
    Notes (s.waiting call stage limit) (s.suspend call stage limit) := by
  unfold Session.suspend
  split
  · split
    · exact request rfl
    · exact refl _
  · exact refl _

theorem letGoOn : Notes s (s.letGoOn call) := by
  refine requestAll fun r hr => ?_
  obtain ⟨c, -, rfl⟩ := List.mem_map.1 hr
  rfl

theorem failedReport {message : String} : Notes s (s.failedReport message).2 := by
  unfold Session.failedReport
  dsimp only
  exact log

theorem settledReport {i : Issue} {o : Outcome} : Notes s (s.settledReport i o).2 := by
  unfold Session.settledReport
  split
  · rename_i frame
    have htimed : Notes s { s with lastElapsed := frame.elapsed } := { refl s with }
    have hlogged : Notes s
        ({ s with lastElapsed := frame.elapsed }.log i.level ("[SEND]: " ++ i.text)) :=
      htimed.trans log
    unfold answeredReport
    dsimp only
    split <;> split
    · exact (hlogged.trans log).trans log
    · exact ((hlogged.trans log).trans log).trans log
    · exact hlogged.trans log
    · exact (hlogged.trans log).trans log
  all_goals exact failedReport

theorem abandonPlan {kind : CommandKind} {plan : Plan} : Notes s (s.abandonPlan kind plan) := by
  unfold Session.abandonPlan
  split
  · split
    · exact { refl s with }
    · exact refl s
  · exact refl s

theorem submit {i : Issue} : Notes s (s.submit env i).2 := by
  have hnext : ∀ n text, Notes s { s with nextId := n, lastCommand := some text } :=
    fun _ _ => { refl s with }
  unfold Session.submit
  split
  · exact refl s
  · split
    · exact refl s
    · dsimp only
      split
      · split
        · exact hnext _ _
        · exact ((hnext _ _).trans changeChannel).trans (request rfl)
        · exact ((hnext _ _).trans changeChannel).trans (request rfl)
      · split
        · exact hnext _ _
        · exact (hnext _ _).trans changeChannel

theorem foldl {α : Type} {f : Session → α → Session} (h : ∀ s a, Notes s (f s a)) (as : List α)
    (s : Session) : Notes s (as.foldl f s) := by
  induction as generalizing s with
  | nil => exact refl s
  | cons a as ih => exact (h s a).trans (ih _)

theorem channel {k : LaunchId} {e : Channel.Event} : Notes s (s.step env (.channel k e)) := by
  cases e with
  | prints chunk => exact modifyChannel.trans (foldl (fun _ _ => changeChannel) _ _)
  | _ => exact changeChannel

end Notes

end Session

end DebugConsole
