import DebugConsole.Proofs.Session.Acts
import DebugConsole.Proofs.Session.Restoration

set_option autoImplicit false

/-!
# Who is released when a run or a session ends

Whoever waits for a halt holds a ticket, and goes on once the ticket has reported.  All who wait hold the
ticket for the next halt (`TicketsAgree`), so one report releases them all.  Which endings report
(`Ending`)?  A run command does if its answer says where the target halted, or at least that it did; closing
a session does, once the debugger is gone.  A run command that fails, for whatever reason, reports nothing,
and neither does a debugger that exits or whose output cannot be read: whoever waits then waits on
(`releases_iff_of_ending`).
-/

namespace DebugConsole

/-- Does the report of a run command say that the target has halted?  A target that runs in the
background halts only where the report says so. -/
def Report.halts (r : Report) (kind : CommandKind) : Bool :=
  r.isOk && (kind != .continueBackground || r.stop.isSome)

namespace Session

variable {caller : Option CallId} {known : String → Nat → Prop} {s s' : Session}
  {env : Surroundings} {e : Event} {c : Call} {t : Ticket}

/-! ## Tickets -/

/-- What has been reported stays. -/
theorem Act.keeps_report (hact : Act caller known s s') {r : Option StopLocation}
    (h : s.stopReport? t = some r) : s'.stopReport? t = some r := by
  have hlt : t < s.stops.length := by
    by_contra hge
    simp [stopReport?, List.getElem?_eq_none (Nat.le_of_not_lt hge)] at h
  cases hact with
  | note hn => rwa [stopReport?, hn.stops]
  | expect => rwa [stopReport?, newStopTicket, List.getElem?_append_left hlt]
  | report location ticket unreported =>
    rename_i u
    have htu : t ≠ u := by
      rintro rfl
      simp [unreported] at h
    simpa [stopReport?, requestAll, Ne.symm htu] using h
  | _ => exact h

theorem Act.reported (hact : Act caller known s s') (h : (s.stopReport? t).isSome) :
    (s'.stopReport? t).isSome := by
  obtain ⟨r, hr⟩ := Option.isSome_iff_exists.1 h
  rw [hact.keeps_report hr]
  rfl

/-- Whoever waits for a halt that has not been reported holds the ticket for the next halt. -/
structure TicketsAgree (s : Session) : Prop where
  issued : ∀ t, s.stopTicket = some t → t < s.stops.length
  waiting : ∀ c ∈ s.calls, ∀ t, c.stage = .awaitingStop t → s.stopReport? t = none →
    s.stopTicket = some t

namespace TicketsAgree

/-- Once the ticket for the next halt has reported, nobody waits for a halt. -/
theorem reported (h : s.TicketsAgree)
    (spent : ∀ t, s.stopTicket = some t → t < s.stops.length → (s.stopReport? t).isSome)
    (hc : c ∈ s.calls) (hstage : c.stage = .awaitingStop t) : (s.stopReport? t).isSome := by
  cases hreport : s.stopReport? t with
  | some location => rfl
  | none =>
    have hticket := h.waiting c hc t hstage hreport
    rw [← hreport]
    exact spent t hticket (h.issued t hticket)

/-- Every small change keeps the tickets in agreement. -/
theorem act (h : s.TicketsAgree) (hact : Act caller known s s') : s'.TicketsAgree := by
  cases hact with
  | note hn =>
    refine ⟨by rw [hn.stopTicket, hn.stops]; exact h.issued, ?_⟩
    rw [hn.stopTicket, hn.calls]
    unfold stopReport?
    rw [hn.stops]
    exact h.waiting
  | wait limit own permitted =>
    refine ⟨h.issued, fun c hc t hstage hnone => ?_⟩
    rcases mem_calls_waiting hc with ⟨hc, -⟩ | rfl
    · exact h.waiting c hc t hstage hnone
    · dsimp only at hstage
      rw [hstage] at permitted
      exact permitted
  | answer result own => exact ⟨h.issued, fun c hc => h.waiting c (List.mem_filter.1 hc).1⟩
  | expect spent =>
    refine ⟨fun t ht => ?_, fun c hc t hstage hnone => ?_⟩
    · cases ht
      simp [newStopTicket]
    · have hreported := h.reported (fun t ht _ => spent t ht) hc hstage
      have hact : Act caller known s s.newStopTicket := .expect s spent
      have hstays := hact.reported hreported
      simp [hnone] at hstays
  | report location ticket unreported =>
    rename_i u
    refine ⟨fun t ht => ?_, fun c hc t hstage hnone => ?_⟩
    · simpa [requestAll] using h.issued t ht
    · by_cases htu : t = u
      · rw [htu]
        exact ticket
      · refine h.waiting c hc t hstage ?_
        simpa [stopReport?, requestAll, Ne.symm htu] using hnone
  | forgo spent =>
    refine ⟨fun t ht => (by cases ht), fun c hc t hstage hnone => ?_⟩
    have hreported := h.reported spent hc hstage
    rw [show s.stopReport? t = none from hnone] at hreported
    cases hreported
  | keep | drop | dropAll | enter | leave => exact ⟨h.issued, h.waiting⟩

/-- Notes are nothing to those who wait. -/
theorem note (h : s.TicketsAgree) (hn : Notes s s') : s'.TicketsAgree := by
  have hact : Act none (fun _ _ => True) s s' := .note hn
  exact h.act hact

theorem create (settings : Settings) (probe : Option Probe) :
    (Session.create settings probe).TicketsAgree where
  issued := fun _ ht => by cases ht
  waiting := fun _ hc => absurd hc List.not_mem_nil

theorem acts (h : s.TicketsAgree) (hacts : Acts caller known s s') : s'.TicketsAgree := by
  induction hacts with
  | refl => exact h
  | tail _ hact ih => exact ih.act hact

theorem after (h : s.TicketsAgree) (env : Surroundings) (e : Event) :
    (s.after env e).TicketsAgree := by
  have hclear : TicketsAgree { s with outbox := [] } := ⟨h.issued, h.waiting⟩
  exact hclear.acts (acts_step_any _ env e)

end TicketsAgree

/-! ## Who waits, and who is released -/

/-- The operations that wait for a halt which has not been reported. -/
def blocked (s : Session) : List Call :=
  s.calls.filter fun c =>
    match c.stage with
    | .awaitingStop t => (s.stopReport? t).isNone
    | _ => false

/-- An operation has waited for a halt, which has been reported, and it is asked to go on. -/
structure Releases (s : Session) (c : Call) : Prop where
  mem : c ∈ s.calls
  reported : ∃ t, c.stage = .awaitingStop t ∧ (s.stopReport? t).isSome
  goesOn : c.goOn ∈ s.outbox

theorem mem_blocked : c ∈ s.blocked ↔
    c ∈ s.calls ∧ ∃ t, c.stage = .awaitingStop t ∧ s.stopReport? t = none := by
  unfold blocked
  rw [List.mem_filter]
  refine and_congr_right fun _ => ?_
  cases c.stage <;> simp

/-- Whoever is released does not wait any more. -/
theorem Releases.notMem_blocked (h : s.Releases c) : c ∉ s.blocked := by
  intro hc
  obtain ⟨t, hstage, hreported⟩ := h.reported
  obtain ⟨-, u, hstage', hnone⟩ := mem_blocked.1 hc
  rw [hstage] at hstage'
  cases hstage'
  simp [hnone] at hreported

/-- What the ticket for the next halt reports releases all who wait. -/
theorem TicketsAgree.releases_report (h : s.TicketsAgree) (location : Option StopLocation)
    (ticket : s.stopTicket = some t) (hc : c ∈ s.blocked) :
    ({ s with stops := s.stops.set t (some location) }.requestAll
      ((s.calls.filter fun c : Call => c.awaitsStop t).map Call.goOn)).Releases c := by
  obtain ⟨hmem, u, hstage, hunreported⟩ := mem_blocked.1 hc
  obtain rfl : t = u := Option.some.inj (ticket.symm.trans (h.waiting c hmem u hstage hunreported))
  refine ⟨hmem, ⟨t, hstage, ?_⟩, ?_⟩
  · simp [stopReport?, requestAll, h.issued t ticket]
  · refine List.mem_append_right _ (List.mem_map_of_mem (List.mem_filter.2 ⟨hmem, ?_⟩))
    simp [Call.awaitsStop, hstage]

/-- A report releases all who wait. -/
theorem TicketsAgree.releases_reportStop (h : s.TicketsAgree) (location : Option StopLocation)
    (hc : c ∈ s.blocked) : (s.reportStop location).Releases c := by
  obtain ⟨hmem, t, hstage, hunreported⟩ := mem_blocked.1 hc
  have hticket := h.waiting c hmem t hstage hunreported
  have hreport : s.reportStop location = { s with stops := s.stops.set t (some location) }.requestAll
      ((s.calls.filter fun c : Call => c.awaitsStop t).map Call.goOn) := by
    simp [reportStop, withStopTicket, hticket, hunreported]
  rw [hreport]
  exact h.releases_report location hticket hc

/-- Notes change nothing for those who wait. -/
theorem Notes.blocked (h : Notes s s') : s'.blocked = s.blocked := by
  unfold Session.blocked stopReport?
  rw [h.calls, h.stops]

namespace Act

/-- Others stay in progress. -/
theorem mem_calls (hact : Act caller known s s') (hne : caller ≠ some c.id) (h : c ∈ s.calls) :
    c ∈ s'.calls := by
  have hkept : ∀ {call : CallId}, caller = some call → c ∈ s.calls.filter (·.id != call) := by
    intro call own
    refine List.mem_filter.2 ⟨h, ?_⟩
    simpa using fun hid : c.id = call => hne (by rw [own, hid])
  cases hact with
  | note hn => rwa [hn.calls]
  | wait limit own permitted => exact List.mem_append_left _ (hkept own)
  | answer result own => exact hkept own
  | _ => exact h

/-- What has been asked for stays asked for. -/
theorem mem_outbox {r : Request} (hact : Act caller known s s') (h : r ∈ s.outbox) :
    r ∈ s'.outbox := by
  cases hact with
  | note hn =>
    obtain ⟨rs, houtbox, -⟩ := hn.asks
    rw [houtbox]
    exact List.mem_append_left _ h
  | answer | report => exact List.mem_append_left _ h
  | _ => exact h

/-- Whoever has been released stays so, whatever others do. -/
theorem releases (hact : Act caller known s s') (hne : caller ≠ some c.id) (h : s.Releases c) :
    s'.Releases c where
  mem := hact.mem_calls hne h.mem
  reported := by
    obtain ⟨t, hstage, hreported⟩ := h.reported
    exact ⟨t, hstage, hact.reported hreported⟩
  goesOn := hact.mem_outbox h.goesOn

/-- Whoever waits for a halt waits on or is released, and is released before the debugger is let
go. -/
theorem releases_or_blocked (hact : Act caller known s s') (hne : caller ≠ some c.id)
    (h : s.TicketsAgree) (hc : c ∈ s.blocked) :
    s'.Releases c ∨ (c ∈ s'.blocked ∧ (s.current.isSome → s'.current.isSome)) := by
  obtain ⟨hmem, t, hstage, hunreported⟩ := mem_blocked.1 hc
  have hticket := h.waiting c hmem t hstage hunreported
  have hspent : ¬∀ t, s.stopTicket = some t → t < s.stops.length → (s.stopReport? t).isSome := by
    intro spent
    have hreported := h.reported spent hmem hstage
    simp [hunreported] at hreported
  have hmem' := hact.mem_calls hne hmem
  cases hact with
  | note hn =>
    right
    rw [hn.blocked, hn.current]
    exact ⟨hc, fun hheld => hheld⟩
  | wait | answer =>
    exact Or.inr ⟨mem_blocked.2 ⟨hmem', t, hstage, hunreported⟩, fun hheld => hheld⟩
  | expect spent => exact absurd (fun t ht _ => spent t ht) hspent
  | report location ticket unreported =>
    exact Or.inl (h.releases_report location ticket hc)
  | forgo spent => exact absurd spent hspent
  | leave forgone =>
    rw [hticket] at forgone
    cases forgone
  | keep | drop | dropAll => exact Or.inr ⟨hc, fun hheld => hheld⟩
  | enter => exact Or.inr ⟨hc, fun _ => rfl⟩

end Act

/-- So it is in every step of others. -/
theorem TicketsAgree.releases_or_blocked (h : s.TicketsAgree) (hc : c ∈ s.blocked)
    (hne : caller ≠ some c.id) (hacts : Acts caller known s s') :
    s'.Releases c ∨ (c ∈ s'.blocked ∧ (s.current.isSome → s'.current.isSome)) := by
  have hstep : s'.TicketsAgree ∧
      (s'.Releases c ∨ (c ∈ s'.blocked ∧ (s.current.isSome → s'.current.isSome))) := by
    induction hacts with
    | refl => exact ⟨h, Or.inr ⟨hc, fun hheld => hheld⟩⟩
    | tail _ hact ih =>
      obtain ⟨hagree, hreleased | ⟨hblocked, hheld⟩⟩ := ih
      · exact ⟨hagree.act hact, Or.inl (hact.releases hne hreleased)⟩
      · exact ⟨hagree.act hact, (hact.releases_or_blocked hne hagree hblocked).imp id
          (And.imp id fun hstays => hstays ∘ hheld)⟩
  exact hstep.2

/-- Whoever waits for a halt waits on when somebody else is answered. -/
theorem mem_blocked_answer {call : CallId} {result : Except SessionFault Result}
    (hne : c.id ≠ call) (hc : c ∈ s.blocked) : c ∈ (s.answer call result).blocked := by
  obtain ⟨hmem, hwaits⟩ := mem_blocked.1 hc
  exact mem_blocked.2 ⟨List.mem_filter.2 ⟨hmem, by simpa using hne⟩, hwaits⟩

/-! ## The end of a run command -/

/-- A run command reports a halt exactly if its answer says so. -/
theorem finishRun_cases (s : Session) (kind : CommandKind) (previous : RunState) (r : Report) :
    (r.halts kind = true ∧ ∃ s' location, Notes s s' ∧
        (s.finishRun kind previous r).1 = s'.reportStop (some location)) ∨
      (r.halts kind = false ∧ Notes s (s.finishRun kind previous r).1) := by
  have hcounted : Notes s
      (if kind.blocksUntilStop then { s with blockingRuns := s.blockingRuns - 1 } else s) := by
    split
    · exact { Notes.refl s with }
    · exact .refl s
  have hset : ∀ (s : Session) (state : RunState), Notes s { s with runState := state } :=
    fun s _ => { Notes.refl s with }
  unfold finishRun
  revert hcounted
  generalize (if kind.blocksUntilStop then { s with blockingRuns := s.blockingRuns - 1 } else s) = s₁
  intro hcounted
  dsimp only
  split
  · exact Or.inr ⟨by simp_all [Report.halts], hcounted.trans (hset _ _)⟩
  · split
    · exact Or.inr ⟨by simp_all [Report.halts], hcounted⟩
    · exact Or.inl ⟨by simp_all [Report.halts], _, _,
        hcounted.trans (Notes.publish.trans (hset _ _)), rfl⟩
    · refine Or.inl ⟨?_, _, _, hcounted.trans (hset _ _), rfl⟩
      cases hstop : r.stop <;> simp_all [Report.halts]

/-- The answer to a run command releases those who wait exactly if it says that the target has
halted. -/
theorem TicketsAgree.resumeReply_run {call : CallId} {i : Issue} {previous : RunState} {r : Report}
    (h : s.TicketsAgree) (hne : c.id ≠ call) (hc : c ∈ s.blocked) :
    if r.halts i.kind then (s.resumeReply env call i (.run previous) r).Releases c
      else c ∈ (s.resumeReply env call i (.run previous) r).blocked := by
  obtain ⟨s₁, location, heq, -⟩ := s.advancePlan_run i.kind previous r
  have hs₁ : (s.finishRun i.kind previous r).1 = s₁ := congrArg Prod.fst heq
  rw [resumeReply_of_finish heq]
  rcases s.finishRun_cases i.kind previous r with ⟨hhalts, s₂, place, hnotes, hreport⟩ |
      ⟨hhalts, hnotes⟩
  · rw [if_pos hhalts]
    have hreleases := (h.note hnotes).releases_reportStop (some place) (hnotes.blocked ▸ hc)
    rw [← hreport, hs₁] at hreleases
    have hanswers : Act (some call) (fun _ _ => True) s₁ (s₁.answer call (.ok (.stop location))) :=
      .answer s₁ _ rfl
    exact hanswers.releases (by simpa using Ne.symm hne) hreleases
  · rw [if_neg (by simp [hhalts])]
    rw [hs₁] at hnotes
    exact mem_blocked_answer hne (hnotes.blocked ▸ hc)

/-! ## Endings -/

theorem afterAll_append (s : Session) (before later : List (Surroundings × Event)) :
    s.afterAll (before ++ later) = (s.afterAll before).afterAll later := List.foldl_append ..

/-- A run goes on after one of its events. -/
theorem afterAll_append_cons (s : Session) (before later : List (Surroundings × Event))
    (e : Surroundings × Event) :
    s.afterAll (before ++ e :: later) = (s.afterAll (before ++ [e])).afterAll later := by
  rw [← afterAll_append, List.append_assoc, List.singleton_append]

/-- A condition holds of each event of a run, in the session that it comes to. -/
def throughout (p : Session → Event → Bool) : Session → List (Surroundings × Event) → Bool
  | _, [] => true
  | s, e :: events => p s e.2 && throughout p (s.after e.1 e.2) events

/-- A condition holds of an event of a run, in the session that it comes to. -/
def sometime (p : Session → Event → Bool) : Session → List (Surroundings × Event) → Bool
  | _, [] => false
  | s, e :: events => p s e.2 || sometime p (s.after e.1 e.2) events

theorem throughout_append {p : Session → Event → Bool} {s : Session}
    {before later : List (Surroundings × Event)} :
    throughout p s (before ++ later) = true ↔
      throughout p s before = true ∧ throughout p (s.afterAll before) later = true := by
  induction before generalizing s with
  | nil => exact (and_iff_right rfl).symm
  | cons e before ih =>
    rw [List.cons_append, throughout, throughout, Bool.and_eq_true, ih, Bool.and_eq_true, and_assoc]
    rfl

/-- Sessions that a run leads to, in which subscribers may come and go. -/
inductive Reached : Session → Prop
  | create (settings : Settings) (probe : Option Probe) : Reached (create settings probe)
  | after {s : Session} (h : Reached s) (env : Surroundings) (e : Event) : Reached (s.after env e)
  | subscribe {s : Session} (h : Reached s) (name : String) : Reached (s.subscribe name)
  | unsubscribe {s : Session} (h : Reached s) (name : String) : Reached (s.unsubscribe name)

/-- A run may go on. -/
theorem Reached.afterAll (h : s.Reached) (events : List (Surroundings × Event)) :
    (s.afterAll events).Reached := by
  induction events generalizing s with
  | nil => exact h
  | cons e events ih => exact ih (h.after e.1 e.2)

/-- In every run the tickets agree. -/
theorem Reached.ticketsAgree (h : s.Reached) : s.TicketsAgree := by
  induction h with
  | create settings probe => exact .create settings probe
  | after _ env e ih => exact ih.after env e
  | subscribe _ _ ih | unsubscribe _ _ ih => exact ⟨ih.issued, ih.waiting⟩

/-- What has become of an operation's run command, an answer, a fault or that it was given up: does it
say that the target has halted? -/
def runEnds? (s : Session) (id : CallId) (wait : Nat) : Option Bool :=
  match s.stageIn? id wait with
  | some (.awaitingReply k t i (.run _)) =>
    if (s.outcomeOf k t).isDone then
      some ((s.settledReport i (s.outcomeOf k t)).1.halts i.kind)
    else none
  | _ => none

/-- The events with which a run command or a session ends, and whether those who wait for a halt hear
of it. -/
inductive Ending (s : Session) (env : Surroundings) : Event → Bool → Prop
  /-- whoever gave the run command reads what has become of it -/
  | answered {e : Event} {id : CallId} {wait : Nat} {halts : Bool}
      (own : e = .proceeds id wait ∨ e = .timesOut id wait)
      (ends : s.runEnds? id wait = some halts) : Ending s env e halts
  | exits (k : LaunchId) : Ending s env (.channel k .outputEnds) false
  | unreadable (k : LaunchId) (cause : String) : Ending s env (.channel k (.outputFails cause)) false
  /-- the session has been closed and lets its debugger go -/
  | closes {e : Event} (held : s.current.isSome) (gone : (s.after env e).current = none) :
      Ending s env e true

/-- Reading what has become of a run command. -/
theorem after_of_runEnds? (env : Surroundings) {id : CallId} {wait : Nat} {halts : Bool}
    (own : e = .proceeds id wait ∨ e = .timesOut id wait)
    (ends : s.runEnds? id wait = some halts) :
    ∃ s₁ i previous r, Notes { s with outbox := [] } s₁ ∧ r.halts i.kind = halts ∧
      s.after env e = s₁.resumeReply env id i (.run previous) r := by
  unfold runEnds? at ends
  split at ends
  · rename_i k t i previous hstage
    split at ends
    · rename_i hdone
      refine ⟨_, i, previous, _, .settledReport (o := s.outcomeOf k t) (i := i),
        Option.some.inj ends, ?_⟩
      have hproceed : { s with outbox := [] }.proceed env id (.awaitingReply k t i (.run previous)) =
          ({ s with outbox := [] }.settledReport i (s.outcomeOf k t)).2.resumeReply env id i
            (.run previous) (s.settledReport i (s.outcomeOf k t)).1 := by
        rw [← settledReport_clear]
        exact if_pos hdone
      have hstage' : { s with outbox := [] }.stageIn? id wait =
          some (.awaitingReply k t i (.run previous)) := hstage
      rw [← hproceed]
      rcases own with rfl | rfl <;> dsimp only [after, step] <;> rw [hstage']
      exact if_pos hdone
    · cases ends
  · cases ends

/-- Before the debugger is let go, everybody who waits for a halt is released. -/
theorem TicketsAgree.releases_of_leave (h : s.TicketsAgree) (hc : c ∈ s.blocked)
    (hne : caller ≠ some c.id) (hacts : Acts caller known s s') (held : s.current.isSome)
    (gone : s'.current = none) : s'.Releases c := by
  rcases h.releases_or_blocked hc hne hacts with hreleased | ⟨-, hheld⟩
  · exact hreleased
  · have hcurrent := hheld held
    simp [gone] at hcurrent

/-- In every run, whoever waits for a halt when a run command or the session ends is released exactly
if the ending is one of those that are heard of: a run command whose answer says that the target has
halted, and the end of closing the session.  After the other endings, a failed run command and a
debugger that exits or cannot be read, whoever waits waits on. -/
theorem releases_iff_of_ending {b : Bool} (reached : s.Reached) (waits : c ∈ s.blocked)
    (ending : s.Ending env e b) (other : e.caller? ≠ some c.id) :
    ((s.after env e).Releases c ↔ b = true) ∧ (c ∈ (s.after env e).blocked ↔ b = false) := by
  have hagree : TicketsAgree { s with outbox := [] } :=
    ⟨reached.ticketsAgree.issued, reached.ticketsAgree.waiting⟩
  have hblocked : c ∈ Session.blocked { s with outbox := [] } := waits
  suffices h : if b then (s.after env e).Releases c else c ∈ (s.after env e).blocked by
    cases b with
    | true => exact ⟨iff_of_true h rfl, iff_of_false (Releases.notMem_blocked h) nofun⟩
    | false => exact ⟨iff_of_false (fun hr => hr.notMem_blocked h) nofun, iff_of_true h rfl⟩
  cases ending with
  | @answered _ id wait _ own ends =>
    obtain ⟨s₁, i, previous, r, hnotes, rfl, hafter⟩ := after_of_runEnds? env own ends
    have hagree₁ := hagree.note hnotes
    have hne : c.id ≠ id := by
      rintro rfl
      rcases own with rfl | rfl <;> exact other rfl
    rw [hafter]
    exact hagree₁.resumeReply_run hne (hnotes.blocked ▸ hblocked)
  | exits k | unreadable k =>
    rw [if_neg (by decide), after, Notes.channel.blocked]
    exact hblocked
  | closes held gone =>
    rw [if_pos rfl]
    exact hagree.releases_of_leave hblocked other (acts_step_any _ env e) held gone

/-! ## Who waits on -/

/-- While one caller waits for the target to halt, a second one interrupts it and a third one waits
with no limit. -/
def interrupted : Session :=
  continuing.afterAll [(calm 2.0, .call 2 .interrupt), (calm 2.5, .call 3 (.waitForStop none))]

/-- The debugger exits, which ends the run command; the session is not running any more, and still
the second and the third caller wait for a halt, without a limit and without being asked to go on. -/
theorem exit_strands_waiters :
    let exited := interrupted.afterAll [(calm 3.0, .channel 0 .outputEnds), (calm 3.0, .proceeds 1 2)]
    exited.endsUnhalted 1 = true ∧ exited.isRunning = false ∧
      (exited.blocked.map fun c => (c.id, c.limit.isSome)) = [(2, false), (3, false)] ∧
      exited.calls.map Call.id = [2, 3] := by
  decide +kernel

/-- Had the target halted, whoever has interrupted it would have been released once the answer was
read; when the debugger exits, nobody is. -/
theorem releases_iff_of_ending_interrupted :
    let halted := interrupted.after (calm 3.0) (.channel 0 (.prints "main () at main.c:12\n(gdb) "))
    (∃ c ∈ halted.blocked, c.id = 2 ∧ (halted.after (calm 3.0) (.proceeds 1 2)).Releases c) ∧
      ∃ c ∈ interrupted.blocked, c.id = 2 ∧
        c ∈ (interrupted.after (calm 3.0) (.channel 0 .outputEnds)).blocked := by
  have hreached : interrupted.Reached := ((Reached.create _ _).afterAll _).afterAll _
  have other : ∀ {c : Call}, c.id = 2 → some 1 ≠ some c.id := by
    intro c hid
    rw [hid]
    decide
  constructor
  · have hwaits : ((interrupted.after (calm 3.0)
        (.channel 0 (.prints "main () at main.c:12\n(gdb) "))).blocked.any fun c => c.id == 2) =
        true := by decide +kernel
    have hends : (interrupted.after (calm 3.0)
        (.channel 0 (.prints "main () at main.c:12\n(gdb) "))).runEnds? 1 2 = some true := by
      decide +kernel
    obtain ⟨c, hc, hid⟩ := List.any_eq_true.1 hwaits
    have hid : c.id = 2 := by simpa using hid
    have hhalted := hreached.afterAll
      [(calm 3.0, .channel 0 (.prints "main () at main.c:12\n(gdb) "))]
    exact ⟨c, hc, hid,
      (releases_iff_of_ending hhalted hc (.answered (Or.inl rfl) hends) (other hid)).1.2 rfl⟩
  · have hwaits : (interrupted.blocked.any fun c => c.id == 2) = true := by decide +kernel
    obtain ⟨c, hc, hid⟩ := List.any_eq_true.1 hwaits
    exact ⟨c, hc, by simpa using hid,
      (releases_iff_of_ending hreached hc (.exits 0) nofun).2.2 rfl⟩

end Session

end DebugConsole
