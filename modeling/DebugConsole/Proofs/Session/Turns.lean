import DebugConsole.Proofs.Session.Scripts
import DebugConsole.Proofs.Session.Takeover

set_option autoImplicit false

/-!
# Operations that come to their ends

An operation that gives one command after another never waits for good: it gives a command up when its time
limit is reached, and goes on in its turn.  As it has so many commands to give and no more, it comes to its
end by its own turns alone, whatever the debugger leaves unanswered.
-/

namespace DebugConsole

/-- A ticket that is given up is settled. -/
theorem Channel.isDone_cancel (ch : Channel) (t : Ticket) : ((ch.cancel t).outcome t).isDone = true := by
  rw [Outcome.isDone_iff_ne_waiting, Ne, outcome_eq_waiting_iff, cancel, settle_eq]
  intro hwaiting
  dsimp only at hwaiting
  by_cases hw : ch.outcomes[t]? = some .waiting
  · have hlt : t < ch.outcomes.length := (List.getElem?_eq_some_iff.1 hw).1
    rw [Outcome.settled_of_waiting _ hw, List.getElem?_set_self hlt] at hwaiting
    cases hwaiting
  · rw [Outcome.settled_of_not_waiting _ hw] at hwaiting
    exact hw hwaiting

namespace Session

variable {s s' : Session} {env : Surroundings} {e : Event} {id : CallId} {k : LaunchId} {t : Ticket}
  {c : Call} {i : Issue} {plan : Plan} {start next : Next} {rounds : List Round} {given : List Command}
  {answers : List (Except SessionFault Result)}

/-- Turns of its own bring an operation to its end, while its debugger takes commands. -/
def Ends (s : Session) (id : CallId) : Prop :=
  ∃ turns : List (Surroundings × Event), (∀ e ∈ turns, e.2.caller? = some id ∧ e.2.isCall = false) ∧
    s.StaysOpen turns ∧ id ∉ (s.afterAll turns).calls.map Call.id

namespace Ends

theorem of_gone (h : id ∉ s.calls.map Call.id) : s.Ends id := ⟨[], by simp, rfl, h⟩

/-- A turn, and then the others. -/
theorem of_after (env : Surroundings) (e : Event) (hrunning : s.isRunning = true) (own : e.caller? = some id) (he : e.isCall = false)
    (h : (s.after env e).Ends id) : s.Ends id := by
  obtain ⟨turns, hturns, hstays, hgone⟩ := h
  exact ⟨(env, e) :: turns, List.forall_mem_cons.2 ⟨⟨own, he⟩, hturns⟩,
    staysOpen_cons.2 ⟨hrunning, hstays⟩, hgone⟩

end Ends

/-! ## Turns -/

/-- A debugger takes commands after whatever is steady. -/
theorem Steady.isRunning_eq (h : ∀ j, Steady (asOpen env j) s s') : s'.isRunning = s.isRunning := by
  have hcurrent : s'.current = s.current := by
    have hhold := (h 0).hold
    simp only [Session.hold, Prod.mk.injEq] at hhold
    exact hhold.1
  unfold isRunning currentChannel?
  rw [hcurrent]
  cases s.current with
  | none => rfl
  | some j => exact (h j).isOpen

theorem isDone_giveUp (s : Session) (k : LaunchId) (t : Ticket) :
    ((s.giveUp k t).outcomeOf k t).isDone = true := by
  have hchannels : (s.giveUp k t).channels[k]? = (s.channels[k]?).map fun ch => ch.cancel t :=
    List.getElem?_modify_eq ..
  unfold outcomeOf
  rw [hchannels]
  cases s.channels[k]? with
  | none => rfl
  | some ch => exact ch.isDone_cancel t

/-- An operation whose command is not settled gives it up when its time limit is reached. -/
theorem after_timesOut (hnodup : (s.calls.map Call.id).Nodup) (hc : c ∈ s.calls)
    (hstage : c.stage = .awaitingReply k t i plan) (hwaits : (s.outcomeOf k t).isDone = false)
    (env : Surroundings) :
    s.after env (.timesOut c.id c.wait) = { s with outbox := [] }.giveUp k t := by
  have hfound : { s with outbox := [] }.stageIn? c.id c.wait = some c.stage := stageIn?_of_mem hnodup hc
  show { s with outbox := [] }.step env (.timesOut c.id c.wait) = _
  dsimp only [Session.step]
  rw [hfound, hstage]
  exact if_neg (by rw [show outcomeOf { s with outbox := [] } k t = s.outcomeOf k t from rfl, hwaits]; decide)

/-- An operation goes on in its turn. -/
theorem after_proceeds (hnodup : (s.calls.map Call.id).Nodup) (hc : c ∈ s.calls) (env : Surroundings) :
    s.after env (.proceeds c.id c.wait) = { s with outbox := [] }.proceed env c.id c.stage := by
  have hfound : { s with outbox := [] }.stageIn? c.id c.wait = some c.stage := stageIn?_of_mem hnodup hc
  show { s with outbox := [] }.step env (.proceeds c.id c.wait) = _
  dsimp only [Session.step]
  rw [hfound]

/-! ## The end -/

/-- An operation that goes on gives as many commands as are left, or fewer. -/
theorem proceed_cases (sound : s.Sound) (hrunning : s.isRunning = true) (plain : start.IsPlain)
    (env : Surroundings) (id : CallId) (leads : start.Leads rounds (.issue i plan))
    (hdone : (s.outcomeOf k t).isDone = true) :
    id ∉ (s.proceed env id (.awaitingReply k t i plan)).calls.map Call.id ∨
      ∃ c rounds' k' t' i' plan', c ∈ (s.proceed env id (.awaitingReply k t i plan)).calls ∧ c.id = id ∧
        c.stage = .awaitingReply k' t' i' plan' ∧ start.Leads rounds' (.issue i' plan') ∧
        plan'.remaining < plan.remaining := by
  let told := s.settledReport i (s.outcomeOf k t)
  have hproceeds : s.proceed env id (.awaitingReply k t i plan) =
      (told.2.advancePlan i.kind plan told.1).1.continuePlan env id
        (told.2.advancePlan i.kind plan told.1).2 := if_pos hdone
  have hinward : Inward s (told.2.advancePlan i.kind plan told.1).1 :=
    Inward.settledReport.trans .advancePlan
  have hleads := Next.Leads.told (x := ⟨i, 0, told.1⟩) told.2 leads
  have hremaining := told.2.remaining_advancePlan i.kind plan told.1
  dsimp only at hleads
  rw [hproceeds]
  generalize told.2.advancePlan i.kind plan told.1 = advanced at *
  obtain ⟨s', next⟩ := advanced
  cases next with
  | finish result => exact Or.inl (notMem_answer _ _ _)
  | issue i' plan' =>
    obtain ⟨k', ch, numbers, hopen⟩ := sound.exists_open hrunning
    have hopen' := hopen.of_inward hinward
    obtain ⟨⟨c, hc, hid, hstage⟩, -⟩ := perform_of_isOpen env id plan' hopen'.current hopen'.present
      hopen'.isOpen hopen'.booked (plain _ _ _ hleads)
    exact Or.inr ⟨c, _, _, _, _, _, hc, hid, hstage, hleads, hremaining⟩

/-- An operation that waits for the answer to a command comes to its end. -/
theorem ends_of_awaitingReply (sound : s.Sound) (hrunning : s.isRunning = true) (plain : start.IsPlain)
    (env : Surroundings) (hc : c ∈ s.calls) (hid : c.id = id) (hstage : c.stage = .awaitingReply k t i plan)
    (leads : start.Leads rounds (.issue i plan)) : s.Ends id := by
  -- the commands that are left become fewer whenever the operation goes on
  induction hleft : plan.remaining using Nat.strongRecOn generalizing s c k t i plan rounds with
  | _ left ih =>
  subst hid hleft
  have hgoesOn : ∀ {s : Session}, s.Sound → s.isRunning = true → c ∈ s.calls →
      (s.outcomeOf k t).isDone = true → s.Ends c.id := by
    intro s sound hrunning hc hdone
    have hafter := after_proceeds sound.nodup hc env
    have hsteady : ∀ j, Steady (asOpen env j) s (s.after env (.proceeds c.id c.wait)) := by
      intro j
      rw [hafter, hstage]
      exact (Steady.proceed rfl).after rfl rfl rfl
    refine Ends.of_after env (.proceeds c.id c.wait) hrunning rfl rfl ?_
    have hcases := proceed_cases (s := { s with outbox := [] }) ⟨sound.nodup, sound.booked⟩ hrunning plain env
      c.id leads hdone
    rw [← hstage, ← hafter] at hcases
    rcases hcases with hgone | ⟨c', rounds', k', t', i', plan', hc', hid, hstage', hleads, hlt⟩
    · exact .of_gone hgone
    · exact ih _ hlt (sound.after env _) ((Steady.isRunning_eq hsteady).trans hrunning) hc' hid hstage' hleads
        rfl
  cases hdone : (s.outcomeOf k t).isDone with
  | true => exact hgoesOn sound hrunning hc hdone
  | false =>
    -- its time limit settles the ticket, and the next turn is the one in which it goes on
    have hafter := after_timesOut sound.nodup hc hstage hdone env
    have hsteady : ∀ j, Steady (asOpen env j) s (s.after env (.timesOut c.id c.wait)) := by
      intro j
      rw [hafter]
      exact Steady.giveUp.after rfl rfl rfl
    refine Ends.of_after env (.timesOut c.id c.wait) hrunning rfl rfl (hgoesOn (sound.after env _)
      ((Steady.isRunning_eq hsteady).trans hrunning) (hafter ▸ hc) ?_)
    rw [hafter]
    exact isDone_giveUp ..

/-- An operation follows a script, and comes to its end if its debugger takes commands. -/
structure Fulfils (s : Session) (id : CallId) (script : List Round → Next → Prop) (given : List Command)
    (answers : List (Except SessionFault Result)) : Prop where
  follows : s.Follows id script given answers
  ends : s.isRunning = true → s.Ends id

/-- An operation comes to its end from wherever it stands. -/
theorem Stands.fulfils {script : List Round → Next → Prop} (h : s.Stands id start given answers)
    (sound : s.Sound) (plain : start.IsPlain) (env : Surroundings)
    (along : ∀ rounds next, start.Leads rounds next → script rounds next) :
    s.Fulfils id script given answers := by
  refine ⟨h.along along, fun hrunning => ?_⟩
  cases h with
  | ends gone => exact .of_gone gone
  | waits mem own stage _ _ leads => exact ends_of_awaitingReply sound hrunning plain env mem own stage leads

end Session

end DebugConsole
