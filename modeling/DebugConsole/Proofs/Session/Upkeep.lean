import DebugConsole.Proofs.Session.HandOver
import DebugConsole.Proofs.Session.Provenance

set_option autoImplicit false

/-!
# How the table of breakpoint numbers is kept up

Setting the breakpoints of a file takes the numbers kept for it off the table, has the debugger delete
them, sets the new breakpoints one by one, and keeps the numbers that were confirmed.  Disconnecting
has the debugger delete everything, goes on as long as it succeeds, and forgets all numbers.
`Session.Change` says what each step does to the table and to the operations in progress, as long as
nothing else is asked for, and which number has been confirmed and which delete command has ended in
it.
-/

namespace DebugConsole

/-- A delete command that has come to its end. -/
structure Deletion where
  /-- the file whose breakpoints it is about; without one, those of every file -/
  file : Option String
  text : String
  /-- was it answered without a failure? -/
  ok : Bool
  deriving DecidableEq, Repr

/-- Does the text of a command name a breakpoint that is to be deleted? -/
def Names (text : String) (n : Nat) : Prop :=
  ∃ numbers : List Nat, text = removalText (numbers.map Int.ofNat) ∧ n ∈ numbers

/-- Was the command to delete a breakpoint of a file? -/
def Deletion.Covers (d : Deletion) (file : String) (n : Nat) : Prop :=
  d.file = none ∨ (d.file = some file ∧ Names d.text n)

/-- The command that deletes every breakpoint. -/
def deleteAll : String := "delete"

/-- Every toolchain leaves its target by deleting every breakpoint first, and once. -/
theorem Toolchain.disconnectCommands_eq (t : Toolchain) :
    ∃ rest, t.disconnectCommands = deleteAll :: rest ∧ deleteAll ∉ rest := by
  cases t
  · exact ⟨["symbol-file", "target gdi -close"], rfl, by decide⟩
  · exact ⟨["symbol-file"], rfl, by decide⟩

namespace Stage

/-- Where disconnecting waits; some commands are still to be given. -/
abbrev leaving (k : LaunchId) (t : Ticket) (i : Issue) (required : List Issue) : Stage :=
  .awaitingReply k t i (.sequence .disconnect true required [])

/-- Does an operation wait for an answer of the debugger on its way to set the breakpoints of a file,
or to disconnect? -/
inductive Updates (k : LaunchId) : Stage → Prop
  | clear {t : Ticket} {i : Issue} {file : String} {requests : List BreakpointRequest} :
      Updates k (.awaitingReply k t i (.clear file requests))
  | place {t : Ticket} {i : Issue} {file : String} {condition : Option String}
      {confirmed : List Breakpoint} {rest : List BreakpointRequest} :
      Updates k (.awaitingReply k t i (.place file condition confirmed rest))
  | leave {t : Ticket} {i : Issue} {required : List Issue}
      (later : ∀ j ∈ required, j.bySignal = false ∧ j.text ≠ deleteAll) :
      Updates k (leaving k t i required)

theorem Updates.awaits {k : LaunchId} {stage : Stage} (h : stage.Updates k) :
    ∃ t i plan, stage = .awaitingReply k t i plan := by
  cases h <;> exact ⟨_, _, _, rfl⟩

end Stage

namespace Session

variable {s s' s'' : Session} {env : Surroundings} {e : Event} {id : CallId} {k : LaunchId}
  {own : List Call} {table : List (String × List Nat)} {file : String}
  {confirmed : List Breakpoint}

/-! ## What ends in a step -/

/-- The delete command that ends when an operation goes on. -/
def deletionAt? (s : Session) : Stage → Option Deletion
  | .awaitingReply k t i (.clear file _) =>
    if (s.outcomeOf k t).isDone then
      some ⟨some file, i.text, (s.settledReport i (s.outcomeOf k t)).1.isOk⟩
    else none
  | .awaitingReply k t i (.sequence .disconnect ..) =>
    if (s.outcomeOf k t).isDone && i.text == deleteAll then
      some ⟨none, i.text, (s.settledReport i (s.outcomeOf k t)).1.isOk⟩
    else none
  | _ => none

/-- The delete command that ends in a step: when its caller goes on, or at once if no debugger takes
it. -/
def deletion? (s : Session) (e : Event) : Option Deletion :=
  match e with
  | .call _ (.setBreakpoints file _) =>
    if s.isRunning || (s.breakpointNumbers file).isEmpty then none
    else some ⟨some file, removalText ((s.breakpointNumbers file).map Int.ofNat), false⟩
  | .call _ .disconnect =>
    if s.isRunning || s.probe.isNone then none else some ⟨none, deleteAll, false⟩
  | e => (e.resumes? s).bind s.deletionAt?

/-- All delete commands that end in a run, in order. -/
def deletions (s : Session) : List (Surroundings × Event) → List Deletion
  | [] => []
  | e :: events => (s.deletion? e.2).toList ++ (s.after e.1 e.2).deletions events

/-! ## One operation -/

/-- Commands go to a debugger, which may have ended. -/
structure Holds (s : Session) (k : LaunchId) : Prop where
  current : s.current = some k
  present : ∃ ch, s.channels[k]? = some ch

/-- One operation goes on: where it waits now, if it does, and the table that it leaves. -/
structure Goes (id : CallId) (s s' : Session) (own : List Call)
    (table : List (String × List Nat)) : Prop where
  current : s'.current = s.current
  launches : s'.channels.length = s.channels.length
  calls : s'.calls = s.calls.filter (·.id != id) ++ own
  ids : ∀ c ∈ own, c.id = id
  kept : s'.breakpoints = table

/-- The numbers confirmed for a file are carried along, or kept at the end. -/
inductive Placed (k : LaunchId) (table : List (String × List Nat)) (file : String)
    (confirmed : List Breakpoint) : List Call → List (String × List Nat) → Prop
  | waits {c : Call} {t : Ticket} {i : Issue} {condition : Option String}
      {rest : List BreakpointRequest}
      (stage : c.stage = .awaitingReply k t i (.place file condition confirmed rest)) :
      Placed k table file confirmed [c] table
  | ends : Placed k table file confirmed [] (assign table file (confirmed.map (·.number)))

theorem Holds.of_eq (h : s.Holds k) (hcurrent : s'.current = s.current)
    (hlaunches : s'.channels.length = s.channels.length) : s'.Holds k where
  current := hcurrent.trans h.current
  present := by
    obtain ⟨ch, hch⟩ := h.present
    have hlt : k < s'.channels.length := hlaunches ▸ (List.getElem?_eq_some_iff.1 hch).1
    exact ⟨_, List.getElem?_eq_getElem hlt⟩

theorem Holds.isRunning_eq (h : s.Holds k) {ch : Channel} (hch : s.channels[k]? = some ch) :
    s.isRunning = !ch.isClosed := by
  rw [isRunning, currentChannel?, h.current, Option.bind_some, hch, Option.any_some]

/-- No debugger takes commands any more, whatever is noted. -/
theorem isRunning_of_eq (hcurrent : s'.current = s.current) (hchannels : s'.channels = s.channels) :
    s'.isRunning = s.isRunning := by
  rw [isRunning, isRunning, currentChannel?, currentChannel?, hcurrent, hchannels]

namespace Goes

theorem after (h : Goes id s' s'' own table) (hn : Notes s s') : Goes id s s'' own table where
  current := h.current.trans hn.current
  launches := h.launches.trans hn.launches
  calls := by rw [h.calls, hn.calls]
  ids := h.ids
  kept := h.kept

theorem noting (h : Goes id s s' own table) (hn : Notes s' s'') : Goes id s s'' own table where
  current := hn.current.trans h.current
  launches := hn.launches.trans h.launches
  calls := hn.calls.trans h.calls
  ids := h.ids
  kept := hn.breakpoints.trans h.kept

theorem answer {result : Except SessionFault Result} :
    Goes id s ({ s with breakpoints := table }.answer id result) [] table :=
  ⟨rfl, rfl, (List.append_nil _).symm, fun _ hc => absurd hc List.not_mem_nil, rfl⟩

/-- The operation waits for the answer to its command. -/
theorem awaitReply (s : Session) (id : CallId) (k : LaunchId) (t : Ticket) (i : Issue) (plan : Plan) :
    ∃ c, Goes id s (s.awaitReply id k t i plan) [c] s.breakpoints ∧
      c.stage = .awaitingReply k t i plan := by
  let c : Call := ⟨id, .awaitingReply k t i plan, s.waits, s.timeoutFor i.kind⟩
  have hwaiting : Goes id s
      (s.waiting id (.awaitingReply k t i plan) (s.timeoutFor i.kind)) [c] s.breakpoints :=
    ⟨rfl, rfl, rfl, fun _ hc => by rw [List.mem_singleton.1 hc], rfl⟩
  have hsuspended := hwaiting.noting .suspend
  refine ⟨c, ?_, rfl⟩
  unfold Session.awaitReply
  dsimp only
  split
  · exact hsuspended.noting .letGoOn
  · split
    · exact hsuspended.noting .changeChannel
    · exact hsuspended

end Goes

/-- A command that is no signal is waited for if the debugger is there to take it; if not, it has failed
at once. -/
theorem carryOut_cases (env : Surroundings) (id : CallId) (bound : Nat) {i : Issue} (plan : Plan)
    (h : s.Holds k) (hplain : i.bySignal = false) :
    (s.isRunning = true ∧ ∃ c t, Goes id s (carryOut env id bound s i plan) [c] s.breakpoints ∧
        c.stage = .awaitingReply k t i plan) ∨
      (s.isRunning = false ∧ ∃ s₁ r, Notes s s₁ ∧ s₁.channels = s.channels ∧ r.isOk = false ∧
        carryOut env id bound s i plan = s₁.goOnWith env id bound i plan r) := by
  obtain ⟨ch, hch⟩ := h.present
  have hsubmit := submit_eq env (i := i) h.current hch hplain
  have hnumbered : Notes s (s.numbered i.text) := { Notes.refl s with }
  rw [h.isRunning_eq hch, carryOut_eq, hsubmit]
  cases hsubmitted : ch.submit ⟨s.nextId, i.text⟩ with
  | error f =>
    have hclosed : ch.isClosed = true := by
      by_contra hopen
      simp only [Channel.submit, Channel.reserve, if_neg hopen] at hsubmitted
      split at hsubmitted <;> cases hsubmitted
    have hinward : Inward (s.numbered i.text)
        ((s.numbered i.text).failedReport (channelFailure f)).2 := .failedReport
    rw [hclosed]
    exact Or.inr ⟨rfl, _, _, hnumbered.trans .failedReport, hinward.channels, rfl, rfl⟩
  | ok submitted =>
    obtain ⟨t, ch'⟩ := submitted
    obtain ⟨hopen, ht, hch'⟩ := Channel.submit_eq_ok_iff.1 hsubmitted
    dsimp only
    have hwaiting :
        (((s.numbered i.text).changeChannel k fun _ => ch').outcomeOf k t).isDone = false := by
      have hreplaced : ((s.numbered i.text).changeChannel k fun _ => ch').channels[k]? = some ch' := by
        show (s.channels.modify k _)[k]? = _
        rw [List.getElem?_modify_eq, hch]
        rfl
      have hlast : ch'.outcome t = .waiting := by
        rw [Channel.outcome_eq_waiting_iff, hch', ht]
        split <;> simp [Channel.reserving, Channel.startWrite]
      rw [outcomeOf, hreplaced]
      simp [hlast, Outcome.isDone]
    obtain ⟨c, hgoes, hstage⟩ := Goes.awaitReply
      ((s.numbered i.text).changeChannel k fun _ => ch') id k t i plan
    rw [hopen, hwaiting, Bool.false_and, if_neg (by decide)]
    exact Or.inl ⟨rfl, c, t, hgoes.after (hnumbered.trans .changeChannel), hstage⟩

/-! ## Setting breakpoints -/

/-- Breakpoints are set one after another, from the first of some requests on. -/
def placing (s : Session) (env : Surroundings) (id : CallId) (file : String)
    (confirmed : List Breakpoint) (requests : List BreakpointRequest) : Session :=
  (s.nextPlacement file confirmed requests).1.continuePlan env id
    (s.nextPlacement file confirmed requests).2

theorem goOnWith_clear (s : Session) (env : Surroundings) (id : CallId) (i : Issue) (file : String)
    (requests : List BreakpointRequest) (r : Report) :
    s.goOnWith env id requests.length i (.clear file requests) r =
      s.placing env id file [] requests := by
  cases requests <;> rfl

theorem goOnWith_place (s : Session) (env : Surroundings) (id : CallId) (i : Issue) (file : String)
    (condition : Option String) (confirmed : List Breakpoint) (rest : List BreakpointRequest)
    {r : Report} (hr : r.isOk = false) :
    s.goOnWith env id rest.length i (.place file condition confirmed rest) r =
      s.placing env id file confirmed rest := by
  have hnone : BreakpointRequest.confirmed? condition r = none := by
    simp [BreakpointRequest.confirmed?, hr]
  unfold goOnWith advancePlan
  dsimp only
  rw [hnone, Option.toList_none, List.append_nil]
  cases rest <;> rfl

/-- The numbers that have been confirmed are carried along to the next command, or kept if there is
none, or none that a debugger takes. -/
theorem placing_goes (env : Surroundings) (id : CallId) (file : String)
    (confirmed : List Breakpoint) (requests : List BreakpointRequest) (h : s.Holds k) :
    ∃ own table, Goes id s (s.placing env id file confirmed requests) own table ∧
      Placed k s.breakpoints file confirmed own table := by
  induction requests generalizing s with
  | nil => exact ⟨[], _, .answer, .ends⟩
  | cons r rest ih =>
    let i := plainIssue ({ r with file := some file } : BreakpointRequest).text .addBreakpoint .hidden
    show ∃ own table, Goes id s
      (carryOut env id rest.length s i (.place file r.condition confirmed rest)) own table ∧ _
    rcases carryOut_cases env id rest.length (i := i) (.place file r.condition confirmed rest) h rfl with
      ⟨-, c, t, hgoes, hstage⟩ | ⟨-, s₁, report, hnotes, -, hfailed, heq⟩
    · exact ⟨[c], s.breakpoints, hgoes, .waits hstage⟩
    · rw [heq, goOnWith_place _ _ _ _ _ _ _ _ hfailed]
      obtain ⟨own, table, hgoes, hplaced⟩ := ih (h.of_eq hnotes.current hnotes.launches)
      rw [hnotes.breakpoints] at hplaced
      exact ⟨own, table, hgoes.after hnotes, hplaced⟩

/-! ## Disconnecting -/

/-- Disconnecting goes on with its next command, or it ends and leaves nothing on the table. -/
theorem leaving_goes (env : Surroundings) (id : CallId) (required : List Issue) (h : s.Holds k)
    (hplain : ∀ i ∈ required, i.bySignal = false) :
    (∃ i rest c t, required = i :: rest ∧ s.isRunning = true ∧
        Goes id s ((s.nextOfSequence .disconnect required []).1.continuePlan env id
          (s.nextOfSequence .disconnect required []).2) [c] s.breakpoints ∧
        c.stage = .leaving k t i rest) ∨
      ((required = [] ∨ s.isRunning = false) ∧
        Goes id s ((s.nextOfSequence .disconnect required []).1.continuePlan env id
          (s.nextOfSequence .disconnect required []).2) [] []) := by
  cases required with
  | nil => exact Or.inr ⟨Or.inl rfl, .answer⟩
  | cons i rest =>
    show (∃ i' rest' c t, _ ∧ _ ∧
        Goes id s (carryOut env id _ s i (.sequence .disconnect true rest [])) _ _ ∧ _) ∨
      _ ∧ Goes id s (carryOut env id _ s i (.sequence .disconnect true rest [])) _ _
    rcases carryOut_cases env id (Plan.remaining (.sequence .disconnect true rest []))
      (.sequence .disconnect true rest []) h (hplain i List.mem_cons_self) with
      ⟨hrunning, c, t, hgoes, hstage⟩ | ⟨hended, s₁, r, hnotes, -, hfailed, heq⟩
    · exact Or.inl ⟨i, rest, c, t, rfl, hrunning, hgoes, hstage⟩
    · have hfinish : s₁.advancePlan i.kind (.sequence .disconnect true rest []) r =
          ({ s₁ with breakpoints := [] }, .finish (.disconnected false)) := by
        unfold advancePlan
        dsimp only
        rw [hfailed]
        rfl
      rw [heq, goOnWith_of_finish hfinish]
      exact Or.inr ⟨Or.inr hended, Goes.answer.after hnotes⟩

/-! ## Steps -/

/-- In a session that holds its debugger, every operation in progress sets the breakpoints of a file or
disconnects. -/
structure Upkeep (k : LaunchId) (s : Session) : Prop where
  holds : s.Holds k
  updates : ∀ c ∈ s.calls, c.stage.Updates k
  nodup : (s.calls.map Call.id).Nodup

/-- Is nothing asked for but to set the breakpoints of a file or to disconnect, under a number of its
own? -/
def isUpkeep (s : Session) : Event → Bool
  | .call id (.setBreakpoints ..) | .call id .disconnect => (s.call? id).isNone
  | .call .. => false
  | _ => true

/-- What a step does to the table and to the operations in progress, and which number has been confirmed
and which delete command has ended in it. -/
inductive Change (k : LaunchId) (s s' : Session) : Event → Prop
  | rests {e : Event} (current : s'.current = s.current)
      (launches : s'.channels.length = s.channels.length) (calls : s'.calls = s.calls)
      (kept : s'.breakpoints = s.breakpoints) (assigns : s.assignment? e = none)
      (deletes : s.deletion? e = none) : Change k s s' e
  /-- the numbers kept for a file are to be deleted -/
  | clears {id : CallId} {file : String} {requests : List BreakpointRequest} {c : Call} {t : Ticket}
      {i : Issue} (goes : Goes id s s' [c] (unassign s.breakpoints file))
      (stage : c.stage = .awaitingReply k t i (.clear file requests))
      (text : i.text = removalText ((s.breakpointNumbers file).map Int.ofNat))
      (deletes : s.deletion? (.call id (.setBreakpoints file requests)) = none) :
      Change k s s' (.call id (.setBreakpoints file requests))
  /-- there are no numbers to be deleted, or no debugger takes the command -/
  | sets {id : CallId} {file : String} {requests : List BreakpointRequest} {own : List Call}
      {table : List (String × List Nat)} (goes : Goes id s s' own table)
      (placed : Placed k (unassign s.breakpoints file) file [] own table)
      (deletes : s.breakpointNumbers file = [] ∧
          s.deletion? (.call id (.setBreakpoints file requests)) = none ∨
        s.deletion? (.call id (.setBreakpoints file requests)) = some ⟨some file,
          removalText ((s.breakpointNumbers file).map Int.ofNat), false⟩) :
      Change k s s' (.call id (.setBreakpoints file requests))
  /-- the delete command of a file has ended -/
  | cleared {e : Event} {c : Call} {t : Ticket} {i : Issue} {file : String}
      {requests : List BreakpointRequest} {own : List Call} {table : List (String × List Nat)}
      (mem : c ∈ s.calls) (stage : c.stage = .awaitingReply k t i (.clear file requests))
      (goes : Goes c.id s s' own table) (placed : Placed k s.breakpoints file [] own table)
      (assigns : s.assignment? e = none)
      (deletes : ∃ ok, s.deletion? e = some ⟨some file, i.text, ok⟩) : Change k s s' e
  /-- setting a breakpoint has ended -/
  | placed {e : Event} {c : Call} {t : Ticket} {i : Issue} {file : String}
      {condition : Option String} {confirmed : List Breakpoint} {rest : List BreakpointRequest}
      {own : List Call} {table : List (String × List Nat)} (mem : c ∈ s.calls)
      (stage : c.stage = .awaitingReply k t i (.place file condition confirmed rest))
      (goes : Goes c.id s s' own table) (new : Option Breakpoint)
      (placed : Placed k s.breakpoints file (confirmed ++ new.toList) own table)
      (assigns : s.assignment? e = new.map fun b => ⟨file, b.number, k⟩)
      (deletes : s.deletion? e = none) : Change k s s' e
  /-- disconnecting begins -/
  | leaves {id : CallId} {c : Call} {t : Ticket} {i : Issue} {required : List Issue}
      (goes : Goes id s s' [c] s.breakpoints) (stage : c.stage = .leaving k t i required)
      (updates : c.stage.Updates k) (first : i.text = deleteAll)
      (deletes : s.deletion? (.call id .disconnect) = none) :
      Change k s s' (.call id .disconnect)
  /-- disconnecting goes on -/
  | leaving {e : Event} {c c' : Call} {t t' : Ticket} {i i' : Issue} {required required' : List Issue}
      (mem : c ∈ s.calls) (stage : c.stage = .leaving k t i required)
      (goes : Goes c.id s s' [c'] s.breakpoints) (stage' : c'.stage = .leaving k t' i' required')
      (updates : c'.stage.Updates k) (later : i'.text ≠ deleteAll)
      (assigns : s.assignment? e = none)
      (deletes : i.text = deleteAll → ∃ d, s.deletion? e = some d ∧ d.file = none) : Change k s s' e
  /-- disconnecting has ended -/
  | left {e : Event} {c : Call} {t : Ticket} {i : Issue} {required : List Issue} (mem : c ∈ s.calls)
      (stage : c.stage = .leaving k t i required) (goes : Goes c.id s s' [] [])
      (assigns : s.assignment? e = none)
      (deletes : i.text = deleteAll → ∃ d, s.deletion? e = some d ∧ d.file = none) : Change k s s' e
  /-- no debugger is there to take the command that disconnects -/
  | gone {id : CallId} (goes : Goes id s s' [] [])
      (deletes : ∃ d, s.deletion? (.call id .disconnect) = some d ∧ d.file = none) :
      Change k s s' (.call id .disconnect)

namespace Upkeep

/-- The breakpoints of a file are to be set. -/
theorem begin_setBreakpoints (h : Upkeep k s) (env : Surroundings) (id : CallId) (file : String)
    (requests : List BreakpointRequest) :
    Change k s (s.begin env id (.setBreakpoints file requests))
      (.call id (.setBreakpoints file requests)) := by
  let s₁ : Session := { s with breakpoints := unassign s.breakpoints file }
  have hholds : s₁.Holds k := h.holds.of_eq rfl rfl
  have hrunning : s₁.isRunning = s.isRunning := isRunning_of_eq rfl rfl
  have hgoes : ∀ {s' own table}, Goes id s₁ s' own table → Goes id s s' own table :=
    fun h => ⟨h.current, h.launches, h.calls, h.ids, h.kept⟩
  cases hnumbers : (s.breakpointNumbers file).isEmpty with
  | true =>
    have hbegin : s.begin env id (.setBreakpoints file requests) =
        s₁.placing env id file [] requests := if_pos hnumbers
    obtain ⟨own, table, hplacing, hplaced⟩ := placing_goes env id file [] requests hholds
    rw [hbegin]
    refine .sets (hgoes hplacing) hplaced (Or.inl ⟨List.isEmpty_iff.1 hnumbers, ?_⟩)
    simp [deletion?, hnumbers]
  | false =>
    let i := plainIssue (removalText ((s.breakpointNumbers file).map Int.ofNat)) .removeBreakpoints
      .hidden
    have hbegin : s.begin env id (.setBreakpoints file requests) =
        carryOut env id requests.length s₁ i (.clear file requests) := if_neg (by simp [hnumbers])
    rw [hbegin]
    rcases carryOut_cases env id requests.length (i := i) (.clear file requests) hholds rfl with
      ⟨htaken, c, t, hwaits, hstage⟩ | ⟨hended, s₂, r, hnotes, -, -, heq⟩
    · refine .clears (hgoes hwaits) hstage rfl ?_
      simp [deletion?, hrunning.symm.trans htaken]
    · rw [heq, goOnWith_clear]
      obtain ⟨own, table, hplacing, hplaced⟩ := placing_goes env id file [] requests
        (hholds.of_eq hnotes.current hnotes.launches)
      rw [hnotes.breakpoints] at hplaced
      refine .sets (hgoes (hplacing.after hnotes)) hplaced (Or.inr ?_)
      simp [deletion?, hrunning.symm.trans hended, hnumbers]

/-- A session is to be disconnected. -/
theorem begin_disconnect (h : Upkeep k s) (env : Surroundings) (hnew : s.call? id = none) :
    Change k s (s.begin env id .disconnect) (.call id .disconnect) := by
  have hothers : s.calls.filter (·.id != id) = s.calls := by
    rw [List.filter_eq_self]
    exact fun c hc => by simpa using List.find?_eq_none.1 hnew c hc
  show Change k s (s.pursue env id .disconnect Toolchain.disconnectCommands []) _
  unfold pursue
  split
  · rename_i hprobe
    exact .rests rfl rfl hothers rfl rfl (by simp [deletion?, hprobe])
  · rename_i p hprobe
    obtain ⟨rest, hcommands, hlater⟩ := p.toolchain.disconnectCommands_eq
    have hplain : ∀ i ∈ p.toolchain.disconnectCommands.map (goalIssue .disconnect),
        i.bySignal = false := by
      intro i hi
      obtain ⟨text, -, rfl⟩ := List.mem_map.1 hi
      rfl
    rw [hcommands] at hplain
    dsimp only
    rw [hcommands]
    rcases leaving_goes env id ((deleteAll :: rest).map (goalIssue .disconnect)) h.holds hplain with
      ⟨i, required, c, t, hrequired, hrunning, hgoes, hstage⟩ | ⟨hended, hgoes⟩
    · obtain ⟨rfl, rfl⟩ := List.cons.inj hrequired
      refine .leaves hgoes hstage ?_ rfl (by simp [deletion?, hrunning])
      rw [hstage]
      refine .leave fun j hj => ?_
      obtain ⟨text, htext, rfl⟩ := List.mem_map.1 hj
      exact ⟨rfl, fun heq => hlater (heq ▸ htext)⟩
    · have hrunning := hended.resolve_left (List.cons_ne_nil _ _)
      exact .gone hgoes ⟨⟨none, deleteAll, false⟩, by simp [deletion?, hrunning, hprobe], rfl⟩

/-- Nothing but asking for an operation ends a delete command at once. -/
theorem deletion?_of_resumes {stage : Stage} (hresumes : e.resumes? s = some stage) :
    s.deletion? e = s.deletionAt? stage := by
  cases e with
  | proceeds | timesOut =>
    show Option.bind _ _ = _
    rw [hresumes, Option.bind_some]
  | _ => cases hresumes

theorem proceed (h : Upkeep k s) (env : Surroundings) {c : Call} (hc : c ∈ s.calls)
    {t : Ticket} {i : Issue} {plan : Plan} (hstage : c.stage = .awaitingReply k t i plan)
    (hresumes : e.resumes? s = some c.stage) (hdone : (s.outcomeOf k t).isDone = true) :
    Change k s (s.proceed env c.id c.stage) e := by
  have hdeletes := deletion?_of_resumes hresumes
  have hread : Notes s (s.settledReport i (s.outcomeOf k t)).2 := .settledReport
  have hholds := h.holds.of_eq hread.current hread.launches
  have hproceeds : s.proceed env c.id c.stage = (s.settledReport i (s.outcomeOf k t)).2.resumeReply
      env c.id i plan (s.settledReport i (s.outcomeOf k t)).1 := by
    rw [hstage]
    exact if_pos hdone
  have hupdates := h.updates c hc
  rw [hproceeds]
  rw [hstage] at hupdates
  cases hupdates with
  | @clear _ _ file requests =>
    obtain ⟨own, table, hgoes, hplaced⟩ := placing_goes env c.id file [] requests hholds
    rw [hread.breakpoints] at hplaced
    refine .cleared hc hstage (hgoes.after hread) hplaced ?_
      ⟨(s.settledReport i (s.outcomeOf k t)).1.isOk, ?_⟩
    · rw [assignment?, hresumes, hstage]
    · rw [hdeletes, hstage]
      exact if_pos hdone
  | @place _ _ file condition confirmed rest =>
    obtain ⟨own, table, hgoes, hplaced⟩ := placing_goes env c.id file (confirmed ++
      (BreakpointRequest.confirmed? condition (s.settledReport i (s.outcomeOf k t)).1).toList) rest hholds
    rw [hread.breakpoints] at hplaced
    refine .placed hc hstage (hgoes.after hread) _ hplaced ?_ ?_
    · rw [assignment?, hresumes, hstage]
    · rw [hdeletes, hstage]
      rfl
  | @leave _ _ required later =>
    have hassigns : s.assignment? e = none := by rw [assignment?, hresumes, hstage]
    have hends : i.text = deleteAll → ∃ d, s.deletion? e = some d ∧ d.file = none := by
      intro htext
      refine ⟨⟨none, i.text, (s.settledReport i (s.outcomeOf k t)).1.isOk⟩, ?_, rfl⟩
      rw [hdeletes, hstage]
      exact if_pos (by simp [hdone, htext])
    generalize s.settledReport i (s.outcomeOf k t) = read at *
    obtain ⟨r, s₁⟩ := read
    dsimp only at *
    cases hok : r.isOk with
    | false =>
      have hfinish : s₁.advancePlan i.kind (.sequence .disconnect true required []) r =
          ({ s₁ with breakpoints := [] }, .finish (.disconnected false)) := by
        unfold advancePlan
        dsimp only
        rw [hok]
        rfl
      rw [resumeReply_of_finish hfinish]
      exact .left hc hstage (Goes.answer.after hread) hassigns hends
    | true =>
      have hnext : s₁.resumeReply env c.id i (.sequence .disconnect true required []) r =
          (s₁.nextOfSequence .disconnect required []).1.continuePlan env c.id
            (s₁.nextOfSequence .disconnect required []).2 := by
        unfold resumeReply advancePlan
        dsimp only
        rw [hok]
        rfl
      rw [hnext]
      rcases leaving_goes env c.id required hholds fun j hj => (later j hj).1 with
        ⟨i', rest, c', t', rfl, -, hgoes, hstage'⟩ | ⟨-, hgoes⟩
      · rw [hread.breakpoints] at hgoes
        refine .leaving hc hstage (hgoes.after hread) hstage' ?_ (later i' List.mem_cons_self).2
          hassigns hends
        rw [hstage']
        exact .leave fun j hj => later j (List.mem_cons_of_mem _ hj)
      · exact .left hc hstage (hgoes.after hread) hassigns hends

/-- Nothing ends with a command that is not settled. -/
theorem nothing_of_waiting {stage : Stage} {t : Ticket} {i : Issue} {plan : Plan}
    (hresumes : e.resumes? s = some stage) (hstage : stage = .awaitingReply k t i plan)
    (hwaits : (s.outcomeOf k t).isDone = false) :
    s.assignment? e = none ∧ s.deletion? e = none := by
  have hfailed : (s.settledReport i (s.outcomeOf k t)).1.isOk = false := by
    refine isOk_settledReport fun frame hframe => ?_
    rw [hframe] at hwaits
    cases hwaits
  rw [deletion?_of_resumes hresumes, assignment?, hresumes, hstage]
  constructor
  · split
    · rename_i heq
      cases heq
      simp [BreakpointRequest.confirmed?, hfailed]
    · rfl
  · cases plan with
    | clear => exact if_neg (by simp [hwaits])
    | sequence goal mustSucceed required optional =>
      cases goal with
      | disconnect => exact if_neg (by simp [hwaits])
      | _ => rfl
    | _ => rfl

/-- A frame of the target's own leaves the table alone. -/
theorem breakpoints_noticeFrame (s : Session) (frame : Frame) :
    (s.noticeFrame frame).breakpoints = s.breakpoints := by
  have hreport : ∀ (s : Session) location, (s.reportStop location).breakpoints = s.breakpoints := by
    intro s location
    unfold reportStop withStopTicket
    grind [newStopTicket, Session.requestAll]
  unfold noticeFrame
  split
  · exact Notes.log.breakpoints
  · split
    · split
      · rfl
      · exact Notes.log.breakpoints
    · dsimp only
      rw [hreport]
      exact (Notes.log (s := { s with runState := .stopped })).breakpoints

/-- The watcher of a debugger leaves debuggers, operations and the table alone. -/
theorem watch_rests (s : Session) (j : LaunchId) : (s.watch j).current = s.current ∧
    (s.watch j).channels.length = s.channels.length ∧ (s.watch j).calls = s.calls ∧
      (s.watch j).breakpoints = s.breakpoints := by
  have hfold : ∀ (frames : List Frame) (s : Session),
      (frames.foldl noticeFrame s).breakpoints = s.breakpoints := by
    intro frames
    induction frames with
    | nil => exact fun _ => rfl
    | cons frame frames ih => exact fun s => (ih _).trans (breakpoints_noticeFrame s frame)
  unfold watch
  split
  · exact ⟨rfl, rfl, rfl, rfl⟩
  · split
    · exact ⟨rfl, rfl, rfl, rfl⟩
    · have hmodified : Notes s (s.modifyChannel j fun ch => { ch with unsolicited := [] }) :=
        .modifyChannel
      generalize s.modifyChannel j _ = s₁ at *
      have hinward : ∀ frames : List Frame, Inward s₁ (frames.foldl noticeFrame s₁) := fun frames =>
        .foldl (fun _ _ => .noticeFrame) frames s₁
      refine ⟨(hinward _).current.trans hmodified.current, ?_,
        (hinward _).calls.trans hmodified.calls, (hfold _ _).trans hmodified.breakpoints⟩
      rw [(hinward _).channels, hmodified.launches]

/-- A step that belongs to no operation leaves debuggers, operations and the table alone. -/
theorem step_rests (env : Surroundings) (h : e.caller? = none) :
    (s.step env e).current = s.current ∧ (s.step env e).channels.length = s.channels.length ∧
      (s.step env e).calls = s.calls ∧ (s.step env e).breakpoints = s.breakpoints := by
  have hnotes : ∀ {s'}, Notes s s' → s'.current = s.current ∧ s'.channels.length = s.channels.length ∧
      s'.calls = s.calls ∧ s'.breakpoints = s.breakpoints := fun hn =>
    ⟨hn.current, hn.launches, hn.calls, hn.breakpoints⟩
  cases e with
  | call | proceeds | timesOut | launched | processEnded | bridgeLaunched | bridgeEnded => cases h
  | channel j event => exact hnotes .channel
  | watches j => exact watch_rests s j
  | bridgePrints b chunk =>
    dsimp only [Session.step]
    split
    · exact hnotes (.foldl (fun _ _ => .request rfl) _ _)
    · exact hnotes (.refl s)
  | bridgeExits b code =>
    dsimp only [Session.step]
    split
    · exact hnotes { Notes.request (s := s)
        (r := .bridgeLog ("[Exited]: exit code " ++ toString code)) rfl with }
    · exact hnotes (.refl s)

/-- What each step does to the table and to the operations in progress. -/
theorem step (h : Upkeep k s) (env : Surroundings) (he : s.isUpkeep e = true) :
    Change k s (s.step env e) e := by
  have hnotes : ∀ {s'}, Notes s s' → s.assignment? e = none → s.deletion? e = none →
      Change k s s' e := fun hn =>
    .rests hn.current hn.launches hn.calls hn.breakpoints
  have hrests : ∀ {e}, e.caller? = none → s.assignment? e = none → s.deletion? e = none →
      Change k s (s.step env e) e := by
    intro e hcaller
    obtain ⟨hcurrent, hlaunches, hcalls, hkept⟩ := step_rests (s := s) env hcaller
    exact .rests hcurrent hlaunches hcalls hkept
  have hupdates : ∀ {stage id}, s.stage? id = some stage → stage.Updates k := by
    intro stage id hstage
    obtain ⟨c, hc, -, rfl⟩ := exists_call_of_stage? hstage
    exact h.updates c hc
  cases e with
  | call id operation =>
    cases operation with
    | setBreakpoints file requests => exact h.begin_setBreakpoints env id file requests
    | disconnect => exact h.begin_disconnect env (by simpa [isUpkeep] using he)
    | _ => cases he
  | proceeds id wait =>
    dsimp only [Session.step]
    split
    · rename_i stage hresumes
      obtain ⟨c, hc, rfl, rfl⟩ := exists_call_of_stageIn? hresumes
      obtain ⟨t, i, plan, hstage⟩ := (h.updates c hc).awaits
      cases hdone : (s.outcomeOf k t).isDone with
      | true => exact h.proceed env hc hstage hresumes hdone
      | false =>
        obtain ⟨hassigns, hdeletes⟩ := nothing_of_waiting (e := .proceeds c.id wait) hresumes hstage hdone
        have hsame : s.proceed env c.id c.stage = s := by
          rw [hstage]
          exact if_neg (by simp [hdone])
        rw [hsame]
        exact hnotes (.refl s) hassigns hdeletes
    · rename_i hnone
      exact hnotes (.refl s) (by simp [assignment?, Event.resumes?, hnone])
        (by simp [deletion?, Event.resumes?, hnone])
  | timesOut id wait =>
    dsimp only [Session.step]
    split
    · rename_i stage hresumes
      obtain ⟨c, hc, rfl, rfl⟩ := exists_call_of_stageIn? hresumes
      obtain ⟨t, i, plan, hstage⟩ := (h.updates c hc).awaits
      cases hdone : (s.outcomeOf k t).isDone with
      | true =>
        have hproceeds : s.timeOut env c.id c.stage = s.proceed env c.id c.stage := by
          rw [hstage]
          exact if_pos hdone
        rw [hproceeds]
        exact h.proceed env hc hstage hresumes hdone
      | false =>
        obtain ⟨hassigns, hdeletes⟩ := nothing_of_waiting (e := .timesOut c.id wait) hresumes hstage hdone
        have hgivesUp : s.timeOut env c.id c.stage = s.giveUp k t := by
          rw [hstage]
          exact if_neg (by simp [hdone])
        rw [hgivesUp]
        exact hnotes .changeChannel hassigns hdeletes
    · rename_i hnone
      exact hnotes (.refl s) (by simp [assignment?, Event.resumes?, hnone])
        (by simp [deletion?, Event.resumes?, hnone])
  | launched | processEnded | bridgeLaunched | bridgeEnded =>
    dsimp only [Session.step]
    split
    · rename_i hstage
      cases hupdates hstage
    · exact hnotes (.refl s) rfl rfl
  | channel | watches | bridgePrints | bridgeExits => exact hrests rfl rfl rfl

/-- The operations in progress still set the breakpoints of a file or disconnect. -/
theorem change (h : Upkeep k s) (hchange : Change k s s' e) (hnodup : (s'.calls.map Call.id).Nodup) :
    Upkeep k s' := by
  have hgoes : ∀ {id own table}, Goes id s s' own table → (∀ c ∈ own, c.stage.Updates k) →
      Upkeep k s' := by
    intro id own table hgoes hown
    refine ⟨h.holds.of_eq hgoes.current hgoes.launches, fun c hc => ?_, hnodup⟩
    rw [hgoes.calls] at hc
    exact (List.mem_append.1 hc).elim (fun hc => h.updates c (List.mem_filter.1 hc).1) (hown c)
  have hplaced : ∀ {id file confirmed own base table}, Goes id s s' own table →
      Placed k base file confirmed own table → Upkeep k s' := by
    intro id file confirmed own base table hg hp
    refine hgoes hg fun c hc => ?_
    cases hp with
    | waits stage =>
      rw [List.mem_singleton.1 hc, stage]
      exact .place
    | ends => cases hc
  cases hchange with
  | rests current launches calls =>
    exact ⟨h.holds.of_eq current launches, by rw [calls]; exact h.updates, hnodup⟩
  | clears goes stage =>
    refine hgoes goes fun c hc => ?_
    rw [List.mem_singleton.1 hc, stage]
    exact .clear
  | sets goes placed => exact hplaced goes placed
  | cleared _ _ goes placed => exact hplaced goes placed
  | placed _ _ goes _ placed => exact hplaced goes placed
  | leaves goes _ updates | leaving _ _ goes _ updates =>
    exact hgoes goes fun c hc => by rwa [List.mem_singleton.1 hc]
  | left _ _ goes | gone goes => exact hgoes goes fun c hc => absurd hc List.not_mem_nil

theorem clear (h : Upkeep k s) : Upkeep k { s with outbox := [] } :=
  ⟨h.holds.of_eq rfl rfl, h.updates, h.nodup⟩

/-- What has ended in a step does not depend on what is in the outbox. -/
theorem ended_clear (s : Session) (e : Event) :
    assignment? { s with outbox := [] } e = s.assignment? e ∧
      deletion? { s with outbox := [] } e = s.deletion? e := by
  have houtcome : ∀ k t, outcomeOf { s with outbox := [] } k t = s.outcomeOf k t := fun _ _ => rfl
  have hresumes : e.resumes? { s with outbox := [] } = e.resumes? s := by cases e <;> rfl
  have hdeletion : deletionAt? { s with outbox := [] } = s.deletionAt? := by
    funext stage
    unfold deletionAt?
    simp only [houtcome, settledReport_clear]
  constructor
  · unfold assignment?
    simp only [hresumes, houtcome, settledReport_clear]
  · cases e with
    | call id operation => cases operation <;> rfl
    | proceeds id wait => exact congrArg (Option.bind (s.stageIn? id wait)) hdeletion
    | timesOut id wait => exact congrArg (Option.bind (s.stageIn? id wait)) hdeletion
    | _ => rfl

/-- What each event does to the table and to the operations in progress. -/
theorem after (h : Upkeep k s) (env : Surroundings) (he : s.isUpkeep e = true) :
    Upkeep k (s.after env e) ∧ Change k s (s.after env e) e := by
  have hchange : Change k { s with outbox := [] } (s.after env e) e := h.clear.step env he
  refine ⟨h.clear.change hchange (nodup_after h.nodup), ?_⟩
  obtain ⟨hassigns, hdeletes⟩ := ended_clear s e
  have hgoes : ∀ {id own table}, Goes id { s with outbox := [] } (s.after env e) own table →
      Goes id s (s.after env e) own table :=
    fun h => ⟨h.current, h.launches, h.calls, h.ids, h.kept⟩
  cases hchange with
  | rests current launches calls kept assigns deletes =>
    exact .rests current launches calls kept (hassigns ▸ assigns) (hdeletes ▸ deletes)
  | clears goes stage text deletes => exact .clears (hgoes goes) stage text (hdeletes ▸ deletes)
  | sets goes placed deletes => exact .sets (hgoes goes) placed (hdeletes ▸ deletes)
  | cleared mem stage goes placed assigns deletes =>
    exact .cleared mem stage (hgoes goes) placed (hassigns ▸ assigns) (hdeletes ▸ deletes)
  | placed mem stage goes new placed assigns deletes =>
    exact .placed mem stage (hgoes goes) new placed (hassigns ▸ assigns) (hdeletes ▸ deletes)
  | leaves goes stage updates first deletes =>
    exact .leaves (hgoes goes) stage updates first (hdeletes ▸ deletes)
  | leaving mem stage goes stage' updates later assigns deletes =>
    exact .leaving mem stage (hgoes goes) stage' updates later (hassigns ▸ assigns)
      (hdeletes ▸ deletes)
  | left mem stage goes assigns deletes =>
    exact .left mem stage (hgoes goes) (hassigns ▸ assigns) (hdeletes ▸ deletes)
  | gone goes deletes => exact .gone (hgoes goes) (hdeletes ▸ deletes)

end Upkeep

end Session

end DebugConsole
