import DebugConsole.Proofs.Session.Giving

set_option autoImplicit false

/-!
# Operations that give one command after another

Such an operation is told of each command before it gives the next one, and what it is told decides which
one that is, or what it ends with.  `Next.Leads` says where a number of rounds, each a command and what is
told of it, leads to.  In a session that stays open, an operation is at every time where the rounds that lie
behind it lead to: it has given their commands, and waits for the answer to one more or has ended.
-/

namespace DebugConsole

/-- A command of an operation, the number it is given, and what the operation is told of it. -/
structure Round where
  issue : Issue
  number : CommandId
  report : Report

/-- What the debugger is given. -/
def Round.command (x : Round) : Command := ⟨x.number, x.issue.text⟩

namespace Session

/-- Where an operation comes to that gives commands and is told of them. -/
inductive Next.Leads (start : Next) : List Round → Next → Prop
  | start : Leads start [] start
  | told {rounds : List Round} {plan : Plan} {x : Round} (s : Session)
      (before : Leads start rounds (.issue x.issue plan)) :
      Leads start (rounds ++ [x]) (s.advancePlan x.issue.kind plan x.report).2

/-- Is no command given by a signal, whatever the operation is told? -/
def Next.IsPlain (start : Next) : Prop :=
  ∀ rounds i plan, start.Leads rounds (.issue i plan) → i.bySignal = false

variable {s s' : Session} {env : Surroundings} {e : Event} {id : CallId} {k : LaunchId} {ch : Channel}
  {t : Ticket} {c : Call} {i : Issue} {plan : Plan} {start next : Next} {rounds : List Round}
  {given : List Command} {answers : List (Except SessionFault Result)}
  {events : List (Surroundings × Event)}

/-! ## The commands that a step gives -/

/-- The commands with a number from the given one on. -/
def givenFrom (s : Session) (n : CommandId) : List Command := s.commands.filter fun c => n ≤ c.id

/-- The commands that an operation gives in a step. -/
def givenIn (s : Session) (env : Surroundings) (id : CallId) (e : Event) : List Command :=
  if e.caller? = some id then (s.after env e).givenFrom s.nextId else []

/-- The commands that an operation gives in a run, in order. -/
def gives (s : Session) (id : CallId) : List (Surroundings × Event) → List Command
  | [] => []
  | e :: events => s.givenIn e.1 id e.2 ++ (s.after e.1 e.2).gives id events

/-- In a run there is always a debugger that takes commands. -/
def StaysOpen (s : Session) (events : List (Surroundings × Event)) : Prop :=
  throughout (fun s _ => s.isRunning) s events = true

instance : Decidable (s.StaysOpen events) := inferInstanceAs (Decidable (_ = true))

theorem staysOpen_cons {e : Surroundings × Event} :
    s.StaysOpen (e :: events) ↔ s.isRunning = true ∧ (s.after e.1 e.2).StaysOpen events :=
  Bool.and_eq_true_iff

/-- A session whose current debugger takes commands, none of which has had a number that is still to be
given. -/
structure Open (s : Session) (k : LaunchId) (ch : Channel) (numbers : List CommandId) : Prop where
  current : s.current = some k
  present : s.channels[k]? = some ch
  isOpen : ch.isClosed = false
  booked : ch.Booked s.nextId numbers
  earlier : ∀ c ∈ s.commands, c.id < s.nextId

theorem commands_modifyChannel {f : Channel → Channel} (h : ∀ ch, (f ch).commands = ch.commands) :
    (s.modifyChannel k f).commands = s.commands := by
  have hmap : (s.channels.modify k f).map Channel.commands = s.channels.map Channel.commands := by
    apply List.ext_getElem?
    intro j
    rw [List.getElem?_map, List.getElem?_map, List.getElem?_modify]
    cases s.channels[j]? with
    | none => rfl
    | some ch => by_cases hkj : k = j <;> simp [hkj, h]
  show (s.channels.modify k f).flatMap _ = s.channels.flatMap _
  rw [List.flatMap_def, hmap, ← List.flatMap_def]

theorem commands_giveUp : (s.giveUp k t).commands = s.commands :=
  commands_modifyChannel fun ch => ch.commands_cancel t

theorem commands_awaitReply : (s.awaitReply id k t i plan).commands = s.commands := by
  have hsuspended : ∀ limit, (s.suspend id (.awaitingReply k t i plan) limit).commands = s.commands := by
    intro limit
    obtain ⟨rs, hsuspend⟩ := s.suspend_eq id (.awaitingReply k t i plan) limit
    rw [hsuspend]
    rfl
  unfold awaitReply
  dsimp only
  split
  · exact hsuspended _
  · split
    · exact commands_giveUp.trans (hsuspended _)
    · exact hsuspended _

theorem givenFrom_eq_nil (h : ∀ c ∈ s.commands, c.id < s.nextId) : s.givenFrom s.nextId = [] := by
  rw [givenFrom, List.filter_eq_nil_iff]
  intro c hc
  simpa using h c hc

/-- A command that the debugger takes is the one that is given. -/
theorem givenFrom_perform {numbers : List CommandId} (h : s.Open k ch numbers) (env : Surroundings)
    (id : CallId) (plan : Plan) (hplain : i.bySignal = false) :
    (s.perform env id i plan).givenFrom s.nextId = [⟨s.nextId, i.text⟩] := by
  obtain ⟨ch', hsubmitted, hperform⟩ := perform_eq_of_isOpen env id plan h.current h.present h.isOpen hplain
  obtain ⟨first, last, hold, hnew⟩ := Channel.commands_submit hsubmitted
  obtain ⟨before, ch₀, behind, hchannels, hlength, hmodified⟩ :=
    List.exists_of_modify (fun _ => ch') (List.getElem?_eq_some_iff.1 h.present).1
  obtain rfl : ch₀ = ch := by
    have hpresent := h.present
    rw [hchannels, ← hlength, List.getElem?_append_right (Nat.le_refl _), Nat.sub_self] at hpresent
    exact Option.some.inj hpresent
  have hperformed : (s.perform env id i plan).commands = before.flatMap Channel.commands ++
      ((first ++ ⟨s.nextId, i.text⟩ :: last) ++ behind.flatMap Channel.commands) := by
    rw [hperform, commands_awaitReply]
    show (s.channels.modify k fun _ => ch').flatMap _ = _
    rw [hmodified, List.flatMap_append, List.flatMap_cons, hnew]
  have hcommands : s.commands = before.flatMap Channel.commands ++
      ((first ++ last) ++ behind.flatMap Channel.commands) := by
    rw [Session.commands, hchannels, List.flatMap_append, List.flatMap_cons, hold]
  have hnone : ∀ {commands : List Command}, commands ⊆ s.commands →
      commands.filter (fun c => s.nextId ≤ c.id) = [] := by
    intro commands hsub
    rw [List.filter_eq_nil_iff]
    intro c hc
    simpa using h.earlier c (hsub hc)
  rw [hcommands] at hnone
  rw [givenFrom, hperformed, List.filter_append, List.filter_append, List.filter_append,
    List.filter_cons_of_pos (by simp), hnone (by grind), hnone (by grind), hnone (by grind),
    hnone (by grind)]
  rfl

/-! ## Sessions whose books fit together -/

/-- Operations in progress have numbers of their own, and the books of all debuggers' channels fit together.
-/
structure Sound (s : Session) : Prop where
  nodup : (s.calls.map Call.id).Nodup
  booked : ∀ {k : LaunchId} {ch : Channel}, s.channels[k]? = some ch →
    ∃ numbers, ch.Booked s.nextId numbers

theorem Reached.sound (h : s.Reached) : s.Sound := ⟨h.nodup, h.booked⟩

namespace Sound

theorem after (h : s.Sound) (env : Surroundings) (e : Event) : (s.after env e).Sound :=
  ⟨nodup_after h.nodup, exists_booked_after h.booked env e⟩

theorem afterAll (h : s.Sound) (events : List (Surroundings × Event)) : (s.afterAll events).Sound := by
  induction events generalizing s with
  | nil => exact h
  | cons e events ih => exact ih (h.after e.1 e.2)

theorem of_inward (h : s.Sound) (hs : Inward s s') : s'.Sound where
  nodup := by rw [hs.calls]; exact h.nodup
  booked := by
    intro k ch hch
    rw [hs.channels] at hch
    rw [hs.nextId]
    exact h.booked hch

/-- Giving the next command, or ending, leaves the books in order. -/
theorem continuePlan (h : s.Sound) (env : Surroundings) (id : CallId)
    (within : ∀ i plan, next = .issue i plan → plan.Within (fun _ _ => True) i) :
    (s.continuePlan env id next).Sound := by
  refine ⟨(Acts.continuePlan within).nodup h.nodup, fun {k ch} hch => ?_⟩
  have hsteady : Steady (bookkeeping env k).toHandling s (s.continuePlan env id next) := .continuePlan
  have hlt : k < s.channels.length := hsteady.launches ▸ (List.getElem?_eq_some_iff.1 hch).1
  obtain ⟨numbers, hbooked⟩ := h.booked (List.getElem?_eq_getElem hlt)
  obtain ⟨ch', hch', hcontinues⟩ := hsteady.channel _ (List.getElem?_eq_getElem hlt)
  obtain ⟨more, hmore⟩ := hcontinues.booked numbers hbooked
  obtain rfl : ch' = ch := Option.some.inj (hch'.symm.trans hch)
  exact ⟨_, hmore⟩

/-- All commands have had their numbers. -/
theorem earlier (h : s.Sound) : ∀ c ∈ s.commands, c.id < s.nextId := by
  intro c hc
  obtain ⟨ch, hch, hmem⟩ := mem_commands.1 hc
  obtain ⟨k, hk⟩ := List.mem_iff_getElem?.1 hch
  obtain ⟨numbers, hbooked⟩ := h.booked hk
  refine hbooked.earlier _ ?_
  rcases List.mem_append.1 hmem with hmem | hmem
  · obtain ⟨w, hw, rfl⟩ := List.mem_map.1 hmem
    exact hbooked.consistent.writing w hw
  · exact hbooked.consistent.mem_of_mem_pending
      (hbooked.consistent.mem_pending_of_mem_backlog (List.mem_map_of_mem hmem))

theorem exists_open (h : s.Sound) (hrunning : s.isRunning = true) : ∃ k ch numbers, s.Open k ch numbers := by
  obtain ⟨ch, hch, hopen⟩ := (Option.any_eq_true _ _).1 hrunning
  obtain ⟨k, hcurrent, hpresent⟩ := Option.bind_eq_some_iff.1 hch
  obtain ⟨numbers, hbooked⟩ := h.booked hpresent
  exact ⟨k, ch, numbers, hcurrent, hpresent, by simpa using hopen, hbooked, h.earlier⟩

end Sound

theorem Open.of_inward {numbers : List CommandId} (h : s.Open k ch numbers) (hs : Inward s s') :
    s'.Open k ch numbers where
  current := hs.current.trans h.current
  present := by rw [hs.channels]; exact h.present
  isOpen := h.isOpen
  booked := by rw [hs.nextId]; exact h.booked
  earlier := by
    rw [Session.commands, hs.channels, hs.nextId]
    exact h.earlier

theorem Open.clear {numbers : List CommandId} (h : s.Open k ch numbers) :
    { s with outbox := [] }.Open k ch numbers := { h with }

/-- Who gives a command that a debugger takes is not answered yet. -/
theorem Open.answersIn_perform {numbers : List CommandId} (h : s.Open k ch numbers) (env : Surroundings)
    (plan : Plan) (hplain : i.bySignal = false) (unanswered : s.answersIn id = []) :
    (s.perform env id i plan).answersIn id = [] := by
  obtain ⟨-, -, hanswers⟩ :=
    perform_of_isOpen env id plan h.current h.present h.isOpen h.booked hplain
  refine List.eq_nil_iff_forall_not_mem.2 fun result hr => ?_
  have hold := mem_answersIn.2 (hanswers result (mem_answersIn.1 hr))
  rw [unanswered] at hold
  cases hold

/-! ## What an operation is told -/

/-- What an operation has been told of a command is what has become of the ticket of its number. -/
def Bears (s : Session) (x : Round) : Prop :=
  ∃ k t o, s.Books k t x.number ∧ s.Settled k t o ∧ o.Tells x.issue.kind x.report

theorem Bears.after {x : Round} (h : s.Bears x) (env : Surroundings) (e : Event) :
    (s.after env e).Bears x := by
  obtain ⟨k, t, o, hbooks, hsettled, htells⟩ := h
  exact ⟨k, t, o, hbooks.after env e, hsettled.after env e, htells⟩

/-! ## How far an operation has come -/

/-- An operation has come as far as a script says: it has given the commands of its rounds and one more, for
which it waits, or it has given those of all its rounds and has been answered. -/
inductive Follows (s : Session) (id : CallId) (script : List Round → Next → Prop) (given : List Command)
    (answers : List (Except SessionFault Result)) : Prop
  | waits {rounds : List Round} {c : Call} {k : LaunchId} {t : Ticket} {i : Issue} {plan : Plan}
      {n : CommandId} (mem : c ∈ s.calls) (own : c.id = id)
      (stage : c.stage = .awaitingReply k t i plan) (books : s.Books k t n)
      (bears : ∀ x ∈ rounds, s.Bears x) (comes : script rounds (.issue i plan))
      (gave : given = rounds.map Round.command ++ [⟨n, i.text⟩]) (untold : answers = [])
  | ends {rounds : List Round} {result : Result} (gone : id ∉ s.calls.map Call.id)
      (bears : ∀ x ∈ rounds, s.Bears x) (comes : script rounds (.finish result))
      (gave : given = rounds.map Round.command) (told : answers = [.ok result])

/-- An operation has come as far as the rounds that lie behind it lead to. -/
abbrev Stands (s : Session) (id : CallId) (start : Next) := s.Follows id start.Leads

/-- An operation follows whatever script its rounds lead along. -/
theorem Follows.along {script script' : List Round → Next → Prop} (h : s.Follows id script given answers)
    (along : ∀ rounds next, script rounds next → script' rounds next) :
    s.Follows id script' given answers := by
  cases h with
  | waits mem own stage books bears comes gave untold =>
    exact .waits mem own stage books bears (along _ _ comes) gave untold
  | ends gone bears comes gave told => exact .ends gone bears (along _ _ comes) gave told

/-- From where its rounds lead to, an operation gives the next command or ends. -/
theorem stands_continuePlan {numbers : List CommandId} (h : s.Open k ch numbers) (env : Surroundings)
    (unanswered : s.answersIn id = []) (plain : start.IsPlain) (leads : start.Leads rounds next)
    (bears : ∀ x ∈ rounds, (s.continuePlan env id next).Bears x) :
    (s.continuePlan env id next).Stands id start
      (rounds.map Round.command ++ (s.continuePlan env id next).givenFrom s.nextId)
      ((s.continuePlan env id next).answersIn id) := by
  cases next with
  | finish result =>
    refine .ends (notMem_answer _ _ _) bears leads ?_ ?_
    · have hnone : (s.answer id (.ok result)).givenFrom s.nextId = [] :=
        givenFrom_eq_nil h.earlier
      show _ ++ (s.answer id (.ok result)).givenFrom s.nextId = _
      rw [hnone, List.append_nil]
    · show (s.answer id (.ok result)).answersIn id = _
      rw [answersIn_answer, unanswered]
      rfl
  | issue i plan =>
    have hplain := plain _ _ _ leads
    obtain ⟨⟨c, hc, hid, hstage⟩, hbooks, -⟩ :=
      perform_of_isOpen env id plan h.current h.present h.isOpen h.booked hplain
    refine .waits hc hid hstage hbooks bears leads ?_ (h.answersIn_perform env plan hplain unanswered)
    show _ ++ (s.perform env id i plan).givenFrom s.nextId = _
    rw [givenFrom_perform h env id plan hplain]

/-! ## Steps and runs -/

theorem givenIn_of_eq {s' : Session} (h : ∀ c ∈ s.commands, c.id < s.nextId) (hafter : s.after env e = s')
    (hcommands : s'.commands = s.commands) : s.givenIn env id e = [] := by
  unfold givenIn
  split
  · rw [hafter, givenFrom, hcommands]
    exact givenFrom_eq_nil h
  · rfl

/-- An operation that is not in progress gives nothing. -/
theorem givenIn_of_absent (sound : s.Sound) (gone : id ∉ s.calls.map Call.id) (env : Surroundings)
    (he : e.asksFor id = false) : s.givenIn env id e = [] := by
  by_cases hown : e.caller? = some id
  · exact givenIn_of_eq sound.earlier (step_of_absent (s := { s with outbox := [] }) gone hown he) rfl
  · exact if_neg hown

theorem gives_of_absent (sound : s.Sound) (gone : id ∉ s.calls.map Call.id)
    (others : ∀ e ∈ events, e.2.asksFor id = false) : s.gives id events = [] := by
  induction events generalizing s with
  | nil => rfl
  | cons e events ih =>
    have he := others e List.mem_cons_self
    rw [gives, givenIn_of_absent sound gone e.1 he, List.nil_append]
    exact ih (sound.after e.1 e.2) (answersIn_of_absent e.1 gone he).1 fun e he =>
      others e (List.mem_cons_of_mem _ he)

namespace Stands

/-- A step in which an operation goes on from where its rounds lead to. -/
theorem of_continuePlan (sound : s.Sound) (hrunning : s.isRunning = true) (plain : start.IsPlain)
    (own : e.caller? = some id) (hinward : Inward { s with outbox := [] } s')
    (hafter : s.after env e = s'.continuePlan env id next) (leads : start.Leads rounds next)
    (bears : ∀ x ∈ rounds, (s.after env e).Bears x) :
    (s.after env e).Stands id start (rounds.map Round.command ++ s.givenIn env id e)
      ((s.after env e).answersIn id) := by
  obtain ⟨j, ch, numbers, hopen⟩ := sound.exists_open hrunning
  have hspares : Spares id { s with outbox := [] } s' := .of_inward hinward
  have hgiven : s.givenIn env id e = (s'.continuePlan env id next).givenFrom s'.nextId := by
    rw [givenIn, if_pos own, hafter, hinward.nextId]
  rw [hgiven, hafter]
  exact stands_continuePlan (hopen.clear.of_inward hinward) env (hspares.answersIn rfl) plain leads
    (hafter ▸ bears)

/-- A step in which an operation waits. -/
theorem rests {n : CommandId} (hc : c ∈ (s.after env e).calls) (stage : c.stage = .awaitingReply k t i plan)
    (books : s.Books k t n) (bears : ∀ x ∈ rounds, s.Bears x) (leads : start.Leads rounds (.issue i plan))
    (hgiven : s.givenIn env c.id e = []) (huntold : (s.after env e).answersIn c.id = []) :
    (s.after env e).Stands c.id start
      (rounds.map Round.command ++ [⟨n, i.text⟩] ++ s.givenIn env c.id e)
      ([] ++ (s.after env e).answersIn c.id) := by
  rw [hgiven, huntold, List.append_nil]
  exact .waits hc rfl stage (books.after env e) (fun x hx => (bears x hx).after env e) leads rfl rfl

/-- When the ticket that an operation waits for is settled, the operation is told and goes on. -/
theorem goesOn (sound : s.Sound) (hrunning : s.isRunning = true) (plain : start.IsPlain) {n : CommandId}
    (own : e.caller? = some id) (books : s.Books k t n) (bears : ∀ x ∈ rounds, s.Bears x)
    (leads : start.Leads rounds (.issue i plan)) (hdone : (s.outcomeOf k t).isDone = true)
    (hafter : s.after env e = { s with outbox := [] }.proceed env id (.awaitingReply k t i plan)) :
    (s.after env e).Stands id start (rounds.map Round.command ++ [⟨n, i.text⟩] ++ s.givenIn env id e)
      ([] ++ (s.after env e).answersIn id) := by
  let told := { s with outbox := [] }.settledReport i (s.outcomeOf k t)
  let x : Round := ⟨i, n, told.1⟩
  have hinward : Inward { s with outbox := [] } (told.2.advancePlan i.kind plan told.1).1 :=
    Inward.settledReport.trans .advancePlan
  have hbears : ∀ y ∈ rounds ++ [x], (s.after env e).Bears y := by
    intro y hy
    refine Bears.after ?_ env e
    rcases List.mem_append.1 hy with hy | hy
    · exact bears y hy
    · rw [List.mem_singleton.1 hy]
      exact ⟨k, t, _, books, books.settled hdone, tells_settledReport _ i hdone⟩
  have hstands := of_continuePlan sound hrunning plain own hinward (hafter.trans (if_pos hdone))
    (.told told.2 leads (x := x)) hbears
  rw [List.map_append] at hstands
  exact hstands

/-- An operation stays as far as the rounds that lie behind it lead to, in every step of a session that is
open. -/
theorem after (h : s.Stands id start given answers) (sound : s.Sound) (hrunning : s.isRunning = true)
    (plain : start.IsPlain) (env : Surroundings) (he : e.asksFor id = false) :
    (s.after env e).Stands id start (given ++ s.givenIn env id e)
      (answers ++ (s.after env e).answersIn id) := by
  have hnone : ∀ {s'}, s.after env e = s' → s'.commands = s.commands → s.givenIn env id e = [] :=
    givenIn_of_eq sound.earlier
  cases h with
  | ends gone bears leads gave told =>
    obtain ⟨habsent, huntold⟩ := answersIn_of_absent env gone he
    rw [givenIn_of_absent sound gone env he, huntold, List.append_nil, List.append_nil]
    exact .ends habsent (fun x hx => (bears x hx).after env e) leads gave told
  | @waits rounds c k t i plan n hc hid stage books bears leads gave untold =>
    subst hid gave untold
    by_cases hown : e.caller? = some c.id
    · rcases after_own_of_awaitingReply env sound.nodup hc stage hown he with hafter | hafter | ⟨hdone, hafter⟩
      · exact rests (hafter ▸ hc) stage books bears leads (hnone hafter rfl) (by rw [hafter]; rfl)
      · have hspares : Spares c.id { s with outbox := [] } ({ s with outbox := [] }.giveUp k t) := .giveUp
        exact rests (hafter ▸ hc) stage books bears leads (hnone hafter commands_giveUp)
          (by rw [hafter]; exact hspares.answersIn rfl)
      · rw [stage] at hafter
        exact goesOn sound hrunning plain hown books bears leads hdone hafter
    · have hspares : Spares c.id { s with outbox := [] } (s.after env e) := .step hown
      have hmem : c ∈ (s.after env e).calls :=
        (acts_step_any { s with outbox := [] } env e).mem_calls hown hc
      exact rests hmem stage books bears leads (if_neg hown) (hspares.answersIn rfl)

/-- In every run of a session that stays open, an operation is always where the rounds that lie behind it
lead to. -/
theorem afterAll (h : s.Stands id start given answers) (sound : s.Sound)
    (stays : s.StaysOpen events) (plain : start.IsPlain)
    (others : ∀ e ∈ events, e.2.asksFor id = false) :
    (s.afterAll events).Stands id start (given ++ s.gives id events)
      (answers ++ s.answersTo id events) := by
  induction events generalizing s given answers with
  | nil =>
    rw [gives, answersTo, List.append_nil, List.append_nil]
    exact h
  | cons e events ih =>
    obtain ⟨hrunning, hstays⟩ := staysOpen_cons.1 stays
    rw [gives, answersTo, ← List.append_assoc, ← List.append_assoc]
    exact ih (h.after sound hrunning plain e.1 (others e List.mem_cons_self)) (sound.after e.1 e.2)
      hstays fun e he => others e (List.mem_cons_of_mem _ he)

end Stands

end Session

end DebugConsole
