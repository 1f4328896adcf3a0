import DebugConsole.Proofs.Session.Release

set_option autoImplicit false

/-!
# What those who wait for a halt are told

Whoever waits for a halt waits on until its ticket reports or its limit is reached.  Once the ticket
has reported a place, the operation is told that place, and nothing else, whatever happens meanwhile:
the next halt has another ticket.
-/

namespace DebugConsole

namespace Session

variable {caller : Option CallId} {known : String → Nat → Prop} {s s' : Session}
  {env : Surroundings} {e : Event} {c : Call} {t : Ticket} {id : CallId}

/-! ## Answers -/

/-- What an operation is answered in a step. -/
def answersIn (s : Session) (id : CallId) : List (Except SessionFault Result) :=
  s.outbox.filterMap fun
    | .answer call result => if call == id then some result else none
    | _ => none

/-- What an operation is answered in a run. -/
def answersTo (s : Session) (id : CallId) :
    List (Surroundings × Event) → List (Except SessionFault Result)
  | [] => []
  | e :: events => (s.after e.1 e.2).answersIn id ++ (s.after e.1 e.2).answersTo id events

theorem answersTo_append (s : Session) (id : CallId) (events events' : List (Surroundings × Event)) :
    s.answersTo id (events ++ events') =
      s.answersTo id events ++ (s.afterAll events).answersTo id events' := by
  induction events generalizing s with
  | nil => rfl
  | cons e events ih =>
    rw [List.cons_append, answersTo, ih, answersTo, List.append_assoc]
    rfl

theorem mem_answersIn {result : Except SessionFault Result} :
    result ∈ s.answersIn id ↔ .answer id result ∈ s.outbox := by
  unfold answersIn
  rw [List.mem_filterMap]
  constructor
  · rintro ⟨r, hr, hresult⟩
    split at hresult
    · split at hresult
      · rename_i hid
        cases hresult
        rwa [beq_iff_eq.1 hid] at hr
      · cases hresult
    · cases hresult
  · exact fun hr => ⟨_, hr, by simp⟩

theorem Spares.answersIn (h : Spares id s s') (hs : s.answersIn id = []) : s'.answersIn id = [] := by
  refine List.eq_nil_iff_forall_not_mem.2 fun result hr => ?_
  have hold := mem_answersIn.2 (h.answers result (mem_answersIn.1 hr))
  rw [hs] at hold
  cases hold

theorem answersIn_answer (s : Session) (id : CallId) (result : Except SessionFault Result) :
    (s.answer id result).answersIn id = s.answersIn id ++ [result] := by
  simp [answersIn, answer, request]

theorem notMem_answer (s : Session) (id : CallId) (result : Except SessionFault Result) :
    id ∉ (s.answer id result).calls.map Call.id := by
  simp [answer, request]

theorem finishStop_told (s : Session) (id : CallId) (t : Ticket) (r : Option StopLocation) :
    (s.finishStop id t r).answersIn id = s.answersIn id ++ [.ok (.stop r)] ∧
      id ∉ (s.finishStop id t r).calls.map Call.id := by
  unfold finishStop
  dsimp only
  split <;> exact ⟨answersIn_answer _ _ _, notMem_answer _ _ _⟩

/-! ## Operations and their numbers -/

theorem Acts.mem_calls (hacts : Acts caller known s s') (hne : caller ≠ some c.id)
    (h : c ∈ s.calls) : c ∈ s'.calls := by
  induction hacts with
  | refl => exact h
  | tail _ hact ih => exact hact.mem_calls hne ih

theorem Acts.keeps_report (hacts : Acts caller known s s') {r : Option StopLocation}
    (h : s.stopReport? t = some r) : s'.stopReport? t = some r := by
  induction hacts with
  | refl => exact h
  | tail _ hact ih => exact hact.keeps_report ih

theorem Act.nodup (hact : Act caller known s s') (h : (s.calls.map Call.id).Nodup) :
    (s'.calls.map Call.id).Nodup := by
  have hfilter : ∀ call, ((s.calls.filter fun c => c.id != call).map Call.id).Nodup := fun call =>
    h.sublist (List.filter_sublist.map _)
  cases hact with
  | note hn => rwa [hn.calls]
  | @wait call stage limit own permitted =>
    unfold waiting
    rw [List.map_append, List.nodup_append]
    refine ⟨hfilter call, by simp, ?_⟩
    simp only [List.mem_map, List.mem_filter, List.mem_singleton]
    rintro _ ⟨c, ⟨-, hne⟩, rfl⟩ _ ⟨c', rfl, rfl⟩ heq
    simp [heq] at hne
  | answer result own => exact hfilter _
  | _ => exact h

theorem Acts.nodup (hacts : Acts caller known s s') (h : (s.calls.map Call.id).Nodup) :
    (s'.calls.map Call.id).Nodup := by
  induction hacts with
  | refl => exact h
  | tail _ hact ih => exact hact.nodup ih

theorem nodup_after (h : (s.calls.map Call.id).Nodup) :
    ((s.after env e).calls.map Call.id).Nodup :=
  (acts_step_any { s with outbox := [] } env e).nodup h

theorem Reached.nodup (h : s.Reached) : (s.calls.map Call.id).Nodup := by
  induction h with
  | create => exact List.nodup_nil
  | after _ _ _ ih => exact nodup_after ih
  | subscribe _ _ ih | unsubscribe _ _ ih => exact ih

theorem call?_of_mem (hnodup : (s.calls.map Call.id).Nodup) (hc : c ∈ s.calls) :
    s.call? c.id = some c := by
  unfold call?
  generalize s.calls = calls at hnodup hc
  induction calls with
  | nil => cases hc
  | cons d calls ih =>
    rw [List.map_cons, List.nodup_cons] at hnodup
    rcases List.mem_cons.1 hc with rfl | hc
    · rw [List.find?_cons_of_pos (by simp)]
    · have hne : ¬(d.id == c.id) = true := by
        simpa using fun heq : d.id = c.id => hnodup.1 (heq ▸ List.mem_map_of_mem hc)
      rw [List.find?_cons_of_neg (by exact hne), ih hnodup.2 hc]

theorem stage?_of_mem (hnodup : (s.calls.map Call.id).Nodup) (hc : c ∈ s.calls) :
    s.stage? c.id = some c.stage := by
  rw [stage?, call?_of_mem hnodup hc]
  rfl

theorem stageIn?_of_mem (hnodup : (s.calls.map Call.id).Nodup) (hc : c ∈ s.calls) :
    s.stageIn? c.id c.wait = some c.stage := by
  rw [stageIn?, call?_of_mem hnodup hc, Option.filter_some, if_pos (beq_self_eq_true c.wait)]
  rfl

theorem stageIn?_cases (hnodup : (s.calls.map Call.id).Nodup) (hc : c ∈ s.calls) (wait : Nat) :
    s.stageIn? c.id wait = none ∨ (s.stageIn? c.id wait = some c.stage ∧ c.wait = wait) := by
  by_cases hwait : c.wait = wait
  · exact Or.inr ⟨hwait ▸ stageIn?_of_mem hnodup hc, hwait⟩
  · rw [stageIn?, call?_of_mem hnodup hc]
    exact Or.inl (by simp [hwait])

/-- Nothing happens to an operation that is not in progress. -/
theorem step_of_absent (h : id ∉ s.calls.map Call.id) (own : e.caller? = some id)
    (he : e.asksFor id = false) : s.step env e = s := by
  have hnone : s.call? id = none := by
    unfold call?
    rw [List.find?_eq_none]
    intro c hc hid
    exact h (by rw [← beq_iff_eq.1 hid]; exact List.mem_map_of_mem hc)
  have hstage : s.stage? id = none := by rw [stage?, hnone]; rfl
  have hstageIn : ∀ wait, s.stageIn? id wait = none := by
    intro wait
    rw [stageIn?, hnone]
    rfl
  cases e with
  | call => cases own; simp [Event.asksFor] at he
  | proceeds | timesOut => cases own; unfold Session.step; dsimp only; rw [hstageIn]
  | launched | processEnded | bridgeLaunched | bridgeEnded =>
    cases own
    unfold Session.step
    dsimp only
    rw [hstage]
  | channel | watches | bridgePrints | bridgeExits => cases own

/-- An operation that does not wait for the world outside goes on, or its limit is reached, or nothing
happens to it. -/
theorem step_of_mem (env : Surroundings) (hnodup : (s.calls.map Call.id).Nodup) (hc : c ∈ s.calls)
    (hworld : c.stage.awaitsWorld = false) (own : e.caller? = some c.id)
    (he : e.asksFor c.id = false) :
    s.step env e = s ∨ (e = .proceeds c.id c.wait ∧ s.step env e = s.proceed env c.id c.stage) ∨
      (e = .timesOut c.id c.wait ∧ s.step env e = s.timeOut env c.id c.stage) := by
  cases e with
  | call => cases own; simp [Event.asksFor] at he
  | proceeds _ wait =>
    cases own
    unfold Session.step
    dsimp only
    rcases stageIn?_cases hnodup hc wait with hnone | ⟨hsome, rfl⟩
    · rw [hnone]
      exact Or.inl rfl
    · rw [hsome]
      exact Or.inr (Or.inl ⟨rfl, rfl⟩)
  | timesOut _ wait =>
    cases own
    unfold Session.step
    dsimp only
    rcases stageIn?_cases hnodup hc wait with hnone | ⟨hsome, rfl⟩
    · rw [hnone]
      exact Or.inl rfl
    · rw [hsome]
      exact Or.inr (Or.inr ⟨rfl, rfl⟩)
  | launched | processEnded | bridgeLaunched | bridgeEnded =>
    cases own
    unfold Session.step
    dsimp only
    rw [stage?_of_mem hnodup hc]
    left
    split
    · rename_i hstage
      rw [Option.some.inj hstage] at hworld
      cases hworld
    · rfl
  | channel | watches | bridgePrints | bridgeExits => cases own

/-- What happens to an operation that waits for a halt: nothing, or it is told what has been reported,
or its limit is reached. -/
theorem step_of_awaitingStop (env : Surroundings) (hnodup : (s.calls.map Call.id).Nodup) (hc : c ∈ s.calls)
    (hstage : c.stage = .awaitingStop t) (own : e.caller? = some c.id)
    (he : e.asksFor c.id = false) :
    s.step env e = s ∨
      (∃ r, s.stopReport? t = some r ∧ s.step env e = s.finishStop c.id t r) ∨
      (e = .timesOut c.id c.wait ∧ s.stopReport? t = none ∧
        s.step env e = s.answer c.id (.ok (.stop none))) := by
  have hcases := step_of_mem env hnodup hc (by rw [hstage]; rfl) own he
  rw [hstage] at hcases
  unfold timeOut proceed at hcases
  dsimp only at hcases
  cases hreport : s.stopReport? t with
  | some r =>
    rw [hreport] at hcases
    rcases hcases with hsame | ⟨-, htold⟩ | ⟨-, htold⟩
    · exact Or.inl hsame
    · exact Or.inr (Or.inl ⟨r, rfl, htold⟩)
    · exact Or.inr (Or.inl ⟨r, rfl, htold⟩)
  | none =>
    rw [hreport] at hcases
    rcases hcases with hsame | ⟨-, hsame⟩ | ⟨hexpires, hanswer⟩
    · exact Or.inl hsame
    · exact Or.inl hsame
    · exact Or.inr (Or.inr ⟨hexpires, rfl, hanswer⟩)

/-! ## Who is told what -/

theorem answersIn_of_absent (env : Surroundings) (h : id ∉ s.calls.map Call.id) (he : e.asksFor id = false) :
    id ∉ (s.after env e).calls.map Call.id ∧ (s.after env e).answersIn id = [] := by
  by_cases hcaller : e.caller? = some id
  · have hsame : s.after env e = { s with outbox := [] } :=
      step_of_absent (s := { s with outbox := [] }) h hcaller he
    rw [hsame]
    exact ⟨h, rfl⟩
  · have hspares : Spares id { s with outbox := [] } (s.after env e) := .step hcaller
    refine ⟨fun hmem => ?_, hspares.answersIn rfl⟩
    obtain ⟨c, hc, rfl⟩ := List.mem_map.1 hmem
    exact h (List.mem_map_of_mem (hspares.calls c hc rfl))

theorem answersTo_of_absent (h : id ∉ s.calls.map Call.id) {events : List (Surroundings × Event)}
    (hasks : ∀ e ∈ events, e.2.asksFor id = false) :
    id ∉ (s.afterAll events).calls.map Call.id ∧ s.answersTo id events = [] := by
  induction events generalizing s with
  | nil => exact ⟨h, rfl⟩
  | cons e events ih =>
    obtain ⟨habsent, hnone⟩ := answersIn_of_absent e.1 h (hasks e List.mem_cons_self)
    obtain ⟨hgone, hrest⟩ := ih habsent fun e he => hasks e (List.mem_cons_of_mem _ he)
    exact ⟨hgone, by rw [answersTo, hnone, hrest]; rfl⟩

/-- Whoever holds a ticket that has reported waits on, or is told what it has reported. -/
theorem answersIn_of_reported (env : Surroundings) {r : Option StopLocation}
    (hnodup : (s.calls.map Call.id).Nodup)
    (hc : c ∈ s.calls) (hstage : c.stage = .awaitingStop t) (hreport : s.stopReport? t = some r)
    (he : e.asksFor c.id = false) :
    (c ∈ (s.after env e).calls ∧ (s.after env e).answersIn c.id = []) ∨
      (c.id ∉ (s.after env e).calls.map Call.id ∧
        (s.after env e).answersIn c.id = [.ok (.stop r)]) := by
  by_cases hcaller : e.caller? = some c.id
  · rcases step_of_awaitingStop (s := { s with outbox := [] }) env hnodup hc hstage
      hcaller he with hsame | ⟨r', hr', htold⟩ | ⟨-, hnone, -⟩
    · have hafter : s.after env e = { s with outbox := [] } := hsame
      rw [hafter]
      exact Or.inl ⟨hc, rfl⟩
    · obtain rfl : r = r' := Option.some.inj (hreport.symm.trans hr')
      have hafter : s.after env e = Session.finishStop { s with outbox := [] } c.id t r := htold
      rw [hafter]
      exact Or.inr (finishStop_told { s with outbox := [] } c.id t r).symm
    · cases hreport.symm.trans hnone
  · have hspares : Spares c.id { s with outbox := [] } (s.after env e) := .step hcaller
    exact Or.inl ⟨(acts_step_any { s with outbox := [] } env e).mem_calls hcaller hc,
      hspares.answersIn rfl⟩

/-- However a run goes on that begins in the given way, an operation is told a place by the time it is
not in progress any more, and nothing else. -/
def Obtains (s : Session) (begun : List (Surroundings × Event)) (id : CallId)
    (location : StopLocation) : Prop :=
  ∀ later : List (Surroundings × Event), (∀ e ∈ later, e.2.asksFor id = false) →
    (id ∈ (s.afterAll (begun ++ later)).calls.map Call.id ∧ s.answersTo id (begun ++ later) = []) ∨
      (id ∉ (s.afterAll (begun ++ later)).calls.map Call.id ∧
        s.answersTo id (begun ++ later) = [.ok (.stop (some location))])

/-- Whoever holds a ticket that has reported a place is told that place. -/
theorem obtains_of_reported {location : StopLocation} (hnodup : (s.calls.map Call.id).Nodup)
    (hc : c ∈ s.calls) (hstage : c.stage = .awaitingStop t)
    (hreport : s.stopReport? t = some (some location)) : s.Obtains [] c.id location := by
  intro later hasks
  rw [List.nil_append]
  induction later generalizing s with
  | nil => exact Or.inl ⟨List.mem_map_of_mem hc, rfl⟩
  | cons e later ih =>
    have hkept : (s.after e.1 e.2).stopReport? t = some (some location) :=
      (acts_step_any { s with outbox := [] } e.1 e.2).keeps_report hreport
    have hlater := fun e he => hasks e (List.mem_cons_of_mem _ he)
    rw [answersTo]
    rcases answersIn_of_reported e.1 hnodup hc hstage hreport
      (hasks e List.mem_cons_self) with ⟨hwaits, hnone⟩ | ⟨hgone, htold⟩
    · rw [hnone]
      exact ih (nodup_after hnodup) hwaits hkept hlater
    · obtain ⟨habsent, hrest⟩ := answersTo_of_absent hgone hlater
      rw [htold, hrest]
      exact Or.inr ⟨habsent, rfl⟩

theorem Obtains.later {location : StopLocation} (hnone : (s.after env e).answersIn id = [])
    (h : (s.after env e).Obtains [] id location) : s.Obtains [(env, e)] id location := by
  intro later hasks
  rw [List.singleton_append, answersTo, hnone]
  exact h later hasks

/-- An operation that is told at once is told nothing else. -/
theorem Obtains.now {location : StopLocation}
    (habsent : id ∉ (s.after env e).calls.map Call.id)
    (htold : (s.after env e).answersIn id = [.ok (.stop (some location))]) :
    s.Obtains [(env, e)] id location := by
  intro later hasks
  obtain ⟨hgone, hrest⟩ := answersTo_of_absent habsent hasks
  rw [List.singleton_append, answersTo, htold, hrest]
  exact Or.inr ⟨hgone, rfl⟩

/-- Asking for a halt that has been reported and not been claimed. -/
theorem waitForStop_of_reported {r : Option StopLocation} {limit : Option Float}
    (hticket : s.stopTicket = some t) (hreport : s.stopReport? t = some r) :
    s.waitForStop id limit =
      if isTimed limit then (s.suspend id (.awaitingStop t) limit).letGoOn id
      else s.finishStop id t r := by
  have hpresent : s.withStopTicket = s := if_pos (by rw [hticket]; rfl)
  unfold waitForStop
  dsimp only
  rw [hpresent, hticket, Option.getD_some, hreport]

/-- Whoever waits although nothing keeps them any longer is asked to go on. -/
theorem releases_letGoOn {stage : Stage} {limit : Option Float}
    (hnodup : (((s.suspend id stage limit).letGoOn id).calls.map Call.id).Nodup)
    (hstage : stage = .awaitingStop t) (hreport : (s.stopReport? t).isSome)
    (hc : c ∈ ((s.suspend id stage limit).letGoOn id).calls) (hid : c.id = id) :
    ((s.suspend id stage limit).letGoOn id).Releases c := by
  have hsuspend : Notes (s.waiting id stage limit) (s.suspend id stage limit) := .suspend
  have hmem : c ∈ (s.suspend id stage limit).calls := hc
  have hcall : (s.suspend id stage limit).call? c.id = some c := call?_of_mem hnodup hmem
  have hnew : c.stage = stage := by
    rw [hsuspend.calls] at hmem
    rcases mem_calls_waiting hmem with ⟨-, hne⟩ | rfl
    · exact absurd hid hne
    · rfl
  refine ⟨hc, ⟨t, hnew.trans hstage, ?_⟩, ?_⟩
  · show ((s.suspend id stage limit).stopReport? t).isSome
    rw [stopReport?, hsuspend.stops]
    exact hreport
  · refine List.mem_append_right _ (List.mem_map_of_mem ?_)
    rw [← show c.id = id from hid] at hcall ⊢
    exact Option.mem_toList.2 hcall

/-- Whoever asks for a halt that has been reported and not been claimed is told the place: at once, or
when they go on. -/
theorem obtains_of_asking {location : StopLocation} (hnodup : (s.calls.map Call.id).Nodup)
    (hticket : s.stopTicket = some t) (hreport : s.stopReport? t = some (some location))
    (limit : Option Float) :
    (∀ c ∈ (s.after env (.call id (.waitForStop limit))).calls, c.id = id →
        (s.after env (.call id (.waitForStop limit))).Releases c) ∧
      s.Obtains [(env, .call id (.waitForStop limit))] id location := by
  have hnodup' : ((s.after env (.call id (.waitForStop limit))).calls.map Call.id).Nodup :=
    nodup_after hnodup
  have hkept : (s.after env (.call id (.waitForStop limit))).stopReport? t = some (some location) :=
    (acts_step_any { s with outbox := [] } env _).keeps_report hreport
  have hasking : s.after env (.call id (.waitForStop limit)) =
      if isTimed limit then
        (Session.suspend { s with outbox := [] } id (.awaitingStop t) limit).letGoOn id
      else Session.finishStop { s with outbox := [] } id t (some location) :=
    waitForStop_of_reported (s := { s with outbox := [] }) hticket hreport
  cases htimed : isTimed limit with
  | true =>
    rw [if_pos htimed] at hasking
    have hmem : (⟨id, .awaitingStop t, s.waits, limit⟩ : Call) ∈
        (s.after env (.call id (.waitForStop limit))).calls := by
      rw [hasking]
      show _ ∈ (Session.suspend { s with outbox := [] } id (.awaitingStop t) limit).calls
      rw [Notes.suspend.calls]
      exact List.mem_append_right _ (List.mem_singleton_self _)
    have hinward : Inward (Session.waiting { s with outbox := [] } id (.awaitingStop t) limit)
        (s.after env (.call id (.waitForStop limit))) := by
      rw [hasking]
      exact Inward.suspend.trans .letGoOn
    have hspares : Spares id _ _ := .of_inward hinward
    refine ⟨fun c hc hid => ?_, .later (hspares.answersIn rfl) ?_⟩
    · have hreported : (Session.stopReport? { s with outbox := [] } t).isSome := by
        show (s.stopReport? t).isSome
        rw [hreport]
        rfl
      rw [hasking] at hc hnodup' ⊢
      exact releases_letGoOn hnodup' rfl hreported hc hid
    · exact obtains_of_reported hnodup' hmem rfl hkept
  | false =>
    rw [if_neg (by simp [htimed])] at hasking
    obtain ⟨htold, habsent⟩ := finishStop_told { s with outbox := [] } id t (some location)
    rw [← hasking] at htold habsent
    refine ⟨fun c hc hid => ?_, .now habsent htold⟩
    have hmem := List.mem_map_of_mem (f := Call.id) hc
    rw [hid] at hmem
    exact absurd hmem habsent

/-- Whoever waits for a halt waits on, unless a halt is reported or the limit is reached. -/
theorem mem_blocked_after (hnodup : (s.calls.map Call.id).Nodup) (hc : c ∈ s.blocked)
    (he : e.asksFor c.id = false) (hlimit : e ≠ .timesOut c.id c.wait)
    (hunreported : ∀ t, c.stage = .awaitingStop t → (s.after env e).stopReport? t = none) :
    c ∈ (s.after env e).blocked := by
  obtain ⟨hmem, t, hstage, hnone⟩ := mem_blocked.1 hc
  refine mem_blocked.2 ⟨?_, t, hstage, hunreported t hstage⟩
  by_cases hcaller : e.caller? = some c.id
  · rcases step_of_awaitingStop (s := { s with outbox := [] }) env hnodup hmem hstage
      hcaller he with hsame | ⟨r, hr, -⟩ | ⟨hexpires, -, -⟩
    · have hafter : s.after env e = { s with outbox := [] } := hsame
      rw [hafter]
      exact hmem
    · cases hnone.symm.trans hr
    · exact absurd hexpires hlimit
  · exact (acts_step_any { s with outbox := [] } env e).mem_calls hcaller hmem

/-- No operation reports the halt that it waits for. -/
theorem stopReport?_after_own (hnodup : (s.calls.map Call.id).Nodup) (hc : c ∈ s.calls)
    (hstage : c.stage = .awaitingStop t) (hnone : s.stopReport? t = none)
    (own : e.caller? = some c.id) (he : e.asksFor c.id = false) :
    (s.after env e).stopReport? t = none := by
  rcases step_of_awaitingStop (s := { s with outbox := [] }) env hnodup hc hstage own he with
    hsame | ⟨r, hr, -⟩ | ⟨-, -, hanswer⟩
  · rw [after, hsame]
    exact hnone
  · cases hnone.symm.trans hr
  · rw [after, hanswer]
    exact hnone

end Session

end DebugConsole
