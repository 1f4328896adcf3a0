import DebugConsole.Proofs.Channel.Commands
import DebugConsole.Proofs.Session.Bridging
import DebugConsole.Proofs.Session.Replies

set_option autoImplicit false

/-!
# The commands that operations give

Every command that a channel holds has been given by an operation that was asked for: by the step that
asks for it, or by a later one that goes on with what its plan still holds.  `Operation.Gives` says which
commands these are, and which texts of its caller are put into them as they are.  `Session.Hands` says of
each function of a session that it gives commands of certain texts only, and leaves operations with plans
for such.
-/

namespace DebugConsole

/-! ## Commands and the texts put into them -/

namespace Toolchain

/-- What a caller's options put behind the words of the command that attaches to the probe. -/
def attachment (o : ConnectOptions) : String :=
  let interface := if o.interface.isEmpty then "stlink3" else o.interface
  let connector := match o.connector.filter (!·.isEmpty) with
    | some name => "-port " ++ name
    | none => ""
  Text.trimmedRight (interface ++ " " ++ connector)

/-- The commands that attach to the target, each with the texts of the caller that are put into it. -/
def connectParts : Toolchain → ConnectOptions → List (String × List String)
  | st7, o =>
    printCommands.map (·, []) ++
      [(fileCommand o.executable, [o.executable]), (attachCommand o, [attachment o]),
        ("mcuname -set " ++ o.cpu, [o.cpu])]
  | sdcc, o =>
    printCommands.map (·, []) ++
      [(fileCommand o.executable, [o.executable]), ("target extended-remote localhost:3333", [])]

theorem map_fst_connectParts (t : Toolchain) (o : ConnectOptions) :
    (t.connectParts o).map Prod.fst = t.connectCommands o := by
  cases t <;> rfl

end Toolchain

/-- The texts of the caller in the command that sets a breakpoint. -/
def BreakpointRequest.pieces (r : BreakpointRequest) : List String := r.file.toList ++ r.condition.toList

/-- The texts of the caller in a query's command. -/
def Query.pieces : Query → List String
  | .value expression => [expression]
  | .disassembly (.place text) _ => [text]
  | _ => []

/-- An operation may give a command, into which some texts of its caller are put. -/
inductive Operation.Gives (probe : Option Probe) : Operation → String → List String → Prop
  | attach {p : Probe} {options prepared : ConnectOptions} {others pieces : List String} {text : String}
      (installed : probe = some p)
      (prepares : prepared = options ∨ prepared = Toolchain.forwardSlashes options)
      (mem : (text, pieces) ∈ p.toolchain.connectParts prepared) :
      Gives probe (.connect options others) text pieces
  | other {options : ConnectOptions} {others : List String} {text : String} (mem : text ∈ others) :
      Gives probe (.connect options others) text [text]
  | custom {options : ConnectOptions} {others : List String} {text : String}
      (mem : text ∈ options.customCommands) : Gives probe (.connect options others) text [text]
  | leave {p : Probe} {text : String} (installed : probe = some p)
      (mem : text ∈ p.toolchain.disconnectCommands) : Gives probe .disconnect text []
  | load {p : Probe} {extras : List String} {text : String} (installed : probe = some p)
      (mem : text ∈ p.toolchain.loadCommands) : Gives probe (.load extras) text []
  | extra {extras : List String} {text : String} (mem : text ∈ extras) :
      Gives probe (.load extras) text [text]
  | run (c : RunCommand) : Gives probe (.run c) c.text []
  | add (r : BreakpointRequest) : Gives probe (.addBreakpoint r) r.text r.pieces
  | remove (numbers : List Int) : Gives probe (.removeBreakpoints numbers) (removalText numbers) []
  | clear (file : String) (requests : List BreakpointRequest) (numbers : List Int) :
      Gives probe (.setBreakpoints file requests) (removalText numbers) []
  | place (file : String) {requests : List BreakpointRequest} {r : BreakpointRequest}
      (mem : r ∈ requests) :
      Gives probe (.setBreakpoints file requests) ({ r with file := some file } : BreakpointRequest).text
        ({ r with file := some file } : BreakpointRequest).pieces
  | ask (q : Query) : Gives probe (.ask q) q.text q.pieces
  | send (text : String) (kind : CommandKind) (level : LogLevel) :
      Gives probe (.send text kind level) text [text]

/-! ## Plans for commands -/

section Plans

variable (P : String → Prop)

/-- Has a command a text of a certain kind, or is it no text at all? -/
def Issue.Plans (i : Issue) : Prop := i.bySignal = true ∨ P i.text

/-- Does a plan hold commands of certain texts only? -/
def Plan.Plans : Plan → Prop
  | .clear file requests | .place file _ _ requests =>
    ∀ r ∈ requests, P ({ r with file := some file } : BreakpointRequest).text
  | .sequence _ _ required optional => ∀ i ∈ required ++ optional, i.Plans P
  | _ => True

/-- Is the next command of a certain text, and does what follows hold such only? -/
def Session.Next.Plans : Session.Next → Prop
  | .finish _ => True
  | .issue i plan => i.Plans P ∧ plan.Plans P

/-- Do all commands of connecting have certain texts? -/
def Probe.Connects (probe : Option Probe) (options : ConnectOptions) (others : List String) : Prop :=
  (∀ p, probe = some p → ∀ text ∈ p.toolchain.connectCommands options, P text) ∧
    (∀ text ∈ others, P text) ∧ ∀ text ∈ options.customCommands, P text

/-- Will an operation that waits give commands of certain texts only? -/
def Stage.Plans (probe : Option Probe) : Stage → Prop
  | .awaitingReply _ _ _ plan => plan.Plans P
  | .endingBridge (.connect options others) | .endingRelay (.connect options others)
  | .launchingBridge options others => Probe.Connects P probe options others
  | _ => True

/-- Has every command that an operation may give a certain text? -/
def Operation.Plans (probe : Option Probe) (operation : Operation) : Prop :=
  ∀ text pieces, operation.Gives probe text pieces → P text

end Plans

/-- Connecting gives the commands of its toolchain, and those of the caller. -/
theorem Operation.Plans.connects {P : String → Prop} {probe : Option Probe}
    {options prepared : ConnectOptions} {others : List String}
    (h : (Operation.connect options others).Plans P probe)
    (prepares : prepared = options ∨ prepared = Toolchain.forwardSlashes options) :
    Probe.Connects P probe prepared others := by
  refine ⟨fun p hp text htext => ?_, fun text htext => h _ _ (.other htext), fun text htext => ?_⟩
  · rw [← Toolchain.map_fst_connectParts] at htext
    obtain ⟨⟨text, pieces⟩, hmem, rfl⟩ := List.mem_map.1 htext
    exact h _ _ (.attach hp prepares hmem)
  · have hcustom : prepared.customCommands = options.customCommands := by
      rcases prepares with rfl | rfl <;> rfl
    rw [hcustom] at htext
    exact h _ _ (.custom htext)

namespace Session

variable {P : String → Prop} {s s' s'' : Session} {env : Surroundings} {call : CallId} {k : LaunchId}

/-- The commands that the debuggers' channels hold. -/
def commands (s : Session) : List Command := s.channels.flatMap Channel.commands

theorem mem_commands {c : Command} : c ∈ s.commands ↔ ∃ ch ∈ s.channels, c ∈ ch.commands :=
  List.mem_flatMap

/-- Only commands of certain texts are given, and operations come to wait with plans for such only. -/
structure Hands (P : String → Prop) (s s' : Session) : Prop where
  probe : s'.probe = s.probe
  commands : ∀ c ∈ s'.commands, c ∈ s.commands ∨ P c.text
  calls : ∀ c ∈ s'.calls, c ∈ s.calls ∨ c.stage.Plans P s.probe

namespace Hands

theorem trans (h : Hands P s s') (h' : Hands P s' s'') : Hands P s s'' where
  probe := h'.probe.trans h.probe
  commands := fun c hc => (h'.commands c hc).elim (h.commands c) Or.inr
  calls := fun c hc => (h'.calls c hc).elim (h.calls c) fun hplans => Or.inr (h.probe ▸ hplans)

theorem of_eq (hprobe : s'.probe = s.probe) (hchannels : s'.channels = s.channels)
    (hcalls : s'.calls = s.calls) : Hands P s s' where
  probe := hprobe
  commands := fun c hc => by
    rw [Session.commands, hchannels] at hc
    exact Or.inl hc
  calls := fun _ hc => Or.inl (hcalls ▸ hc)

theorem refl (s : Session) : Hands P s s := .of_eq rfl rfl rfl

theorem of_inward (h : Inward s s') (h' : Shuns s s') : Hands P s s' :=
  .of_eq (Prod.mk.inj h'.dock).1 h.channels h.calls

theorem foldl {α : Type} {f : Session → α → Session} (h : ∀ s a, Hands P s (f s a)) (as : List α)
    (s : Session) : Hands P s (as.foldl f s) := by
  induction as generalizing s with
  | nil => exact .refl s
  | cons a as ih => exact (h s a).trans (ih _)

/-! ### Small changes -/

theorem request {r : Request} : Hands P s (s.request r) := .of_eq rfl rfl rfl

theorem requestAll {rs : List Request} : Hands P s (s.requestAll rs) := .of_eq rfl rfl rfl

theorem letGoOn : Hands P s (s.letGoOn call) := requestAll

theorem log {level : LogLevel} {message : String} : Hands P s (s.log level message) :=
  .of_inward .log .log

theorem answer {result : Except SessionFault Result} : Hands P s (s.answer call result) :=
  ⟨rfl, fun _ hc => Or.inl hc, fun _ hc => Or.inl (List.mem_filter.1 hc).1⟩

theorem suspend {stage : Stage} {limit : Option Float} (h : stage.Plans P s.probe) :
    Hands P s (s.suspend call stage limit) := by
  obtain ⟨rs, hsuspend⟩ := s.suspend_eq call stage limit
  rw [hsuspend]
  exact ⟨rfl, fun _ hc => Or.inl hc,
    fun c hc => (mem_calls_waiting hc).imp And.left fun heq => by rw [heq]; exact h⟩

theorem modifyChannel {f : Channel → Channel}
    (h : ∀ ch, s.channels[k]? = some ch → ∀ c ∈ (f ch).commands, c ∈ ch.commands ∨ P c.text) :
    Hands P s (s.modifyChannel k f) := by
  refine ⟨rfl, fun c hc => ?_, fun _ hc => Or.inl hc⟩
  obtain ⟨ch', hch', hmem⟩ := mem_commands.1 hc
  obtain ⟨j, hj⟩ := List.mem_iff_getElem?.1 hch'
  unfold Session.modifyChannel at hj
  rw [List.getElem?_modify] at hj
  obtain ⟨ch, hch, rfl⟩ := Option.map_eq_some_iff.1 hj
  have hold : ch ∈ s.channels := List.mem_of_getElem? hch
  by_cases hkj : k = j
  · rw [if_pos hkj] at hmem
    exact (h ch (hkj ▸ hch) c hmem).imp_left fun hc => mem_commands.2 ⟨ch, hold, hc⟩
  · rw [if_neg hkj] at hmem
    exact Or.inl (mem_commands.2 ⟨ch, hold, hmem⟩)

theorem changeChannel {f : Channel → Channel}
    (h : ∀ ch, s.channels[k]? = some ch → ∀ c ∈ (f ch).commands, c ∈ ch.commands ∨ P c.text) :
    Hands P s (s.changeChannel k f) := (modifyChannel h).trans requestAll

/-- A channel changes, and comes to hold no other commands. -/
theorem changeChannel_of_subset {f : Channel → Channel} (h : ∀ ch, (f ch).commands ⊆ ch.commands) :
    Hands P s (s.changeChannel k f) := changeChannel fun ch _ _ hc => Or.inl (h ch hc)

/-! ### Executing commands -/

theorem submit {i : Issue} (hi : i.Plans P) : Hands P s (s.submit env i).2 := by
  have hnumbered : ∀ n text, Hands P s { s with nextId := n, lastCommand := some text } :=
    fun _ _ => .of_eq rfl rfl rfl
  unfold Session.submit
  split
  · exact refl s
  · rename_i k _
    split
    · exact refl s
    · rename_i ch hch
      dsimp only
      split
      · have hsignal := ch.commands_signal s.nextId s.settings.interruptSignal env.now
          (env.signalFault k s.settings.interruptSignal)
        have hkept : ∀ {ch'}, ch'.commands = ch.commands → Hands P s
            ({ s with nextId := s.nextId + 1, lastCommand := some i.text }.changeChannel k
              fun _ => ch') := fun heq =>
          (hnumbered _ _).trans (changeChannel fun ch₀ hch₀ c hc => Or.inl (by
            obtain rfl : ch = ch₀ := Option.some.inj (hch.symm.trans hch₀)
            rwa [heq] at hc))
        split <;> rename_i heq <;> rw [heq] at hsignal
        · exact hnumbered _ _
        · exact (hkept hsignal).trans request
        · exact (hkept hsignal).trans request
      · rename_i hplain
        split
        · exact hnumbered _ _
        · rename_i hsubmitted
          obtain ⟨pre, post, hold, hnew⟩ := Channel.commands_submit hsubmitted
          refine (hnumbered _ _).trans (changeChannel fun ch₀ hch₀ c hc => ?_)
          obtain rfl : ch = ch₀ := Option.some.inj (hch.symm.trans hch₀)
          rw [hnew] at hc
          rw [hold]
          rcases List.mem_append.1 hc with hc | hc
          · exact Or.inl (List.mem_append_left _ hc)
          · rcases List.mem_cons.1 hc with rfl | hc
            · exact Or.inr (hi.resolve_left hplain)
            · exact Or.inl (List.mem_append_right _ hc)

theorem giveUp {t : Ticket} : Hands P s (s.giveUp k t) :=
  changeChannel_of_subset fun ch => by
    rw [Channel.commands_cancel]
    exact List.Subset.refl _

theorem awaitReply {t : Ticket} {i : Issue} {plan : Plan} (h : plan.Plans P) :
    Hands P s (s.awaitReply call k t i plan) := by
  have hwaits : (Stage.awaitingReply k t i plan).Plans P s.probe := h
  unfold Session.awaitReply
  dsimp only
  split
  · exact (suspend hwaits).trans letGoOn
  · split
    · exact (suspend hwaits).trans giveUp
    · exact suspend hwaits

theorem plans_finishGoal {goal : Goal} {ok : Bool} : (s.finishGoal goal ok).2.Plans P := by
  cases goal <;> trivial

theorem plans_nextOfSequence {goal : Goal} {required optional : List Issue}
    (h : ∀ i ∈ required ++ optional, i.Plans P) :
    (s.nextOfSequence goal required optional).2.Plans P := by
  unfold Session.nextOfSequence
  split
  · exact ⟨h _ List.mem_cons_self, fun i hi => h i (List.mem_cons_of_mem _ hi)⟩
  · exact ⟨h _ List.mem_cons_self, fun i hi => h i (List.mem_cons_of_mem _ hi)⟩
  · exact plans_finishGoal

theorem plans_nextPlacement {file : String} {confirmed : List Breakpoint}
    {requests : List BreakpointRequest}
    (h : ∀ r ∈ requests, P ({ r with file := some file } : BreakpointRequest).text) :
    (s.nextPlacement file confirmed requests).2.Plans P := by
  cases requests with
  | nil => trivial
  | cons r rest => exact ⟨Or.inr (h r List.mem_cons_self), fun r hr => h r (List.mem_cons_of_mem _ hr)⟩

/-- What comes after a command is of the plan that it was given by. -/
theorem plans_advancePlan {kind : CommandKind} {plan : Plan} {r : Report} (h : plan.Plans P) :
    (s.advancePlan kind plan r).2.Plans P := by
  cases plan with
  | run previous =>
    obtain ⟨s', location, heq, -⟩ := s.advancePlan_run kind previous r
    rw [heq]
    trivial
  | clear file requests => exact plans_nextPlacement h
  | place file condition confirmed rest => exact plans_nextPlacement h
  | sequence goal mustSucceed required optional =>
    unfold Session.advancePlan
    dsimp only
    split
    · exact plans_finishGoal
    · exact plans_nextOfSequence h
  | _ => trivial

theorem goOnWith {bound : Nat} {i : Issue} {plan : Plan} {r : Report} (h : plan.Plans P)
    (hnext : ∀ b, bound = b + 1 → ∀ (s : Session) (i : Issue) (plan : Plan), i.Plans P →
      plan.Plans P → Hands P s (Session.carryOut env call b s i plan)) :
    Hands P s (s.goOnWith env call bound i plan r) := by
  have hadvance : Hands P s (s.advancePlan i.kind plan r).1 := .of_inward .advancePlan .advancePlan
  have hplans : (s.advancePlan i.kind plan r).2.Plans P := plans_advancePlan h
  unfold Session.goOnWith
  split
  · rename_i heq
    rw [heq] at hadvance
    exact hadvance.trans answer
  · rename_i heq
    rw [heq] at hadvance hplans
    split
    · exact hadvance
    · exact hadvance.trans (hnext _ rfl _ _ _ hplans.1 hplans.2)

theorem carryOut {bound : Nat} {i : Issue} {plan : Plan} (hi : i.Plans P) (h : plan.Plans P) :
    Hands P s (Session.carryOut env call bound s i plan) := by
  induction bound using Nat.strongRecOn generalizing s i plan with
  | _ bound ih =>
    have hgoOn : ∀ (s : Session) (r : Report), Hands P s (s.goOnWith env call bound i plan r) :=
      fun s r => goOnWith h fun b hb _ _ _ hi h => ih b (by omega) hi h
    have hsubmit : Hands P s (s.submit env i).2 := submit hi
    rw [carryOut_eq]
    split <;> rename_i heq <;> rw [heq] at hsubmit
    · exact (hsubmit.trans (.of_inward .abandonPlan .abandonPlan)).trans answer
    · exact (hsubmit.trans (.of_inward .failedReport .failedReport)).trans (hgoOn _ _)
    · refine hsubmit.trans ?_
      split
      · exact (of_inward .settledReport .settledReport).trans (hgoOn _ _)
      · exact awaitReply h

theorem perform {i : Issue} {plan : Plan} (hi : i.Plans P) (h : plan.Plans P) :
    Hands P s (s.perform env call i plan) := carryOut hi h

theorem continuePlan {next : Next} (h : next.Plans P) : Hands P s (s.continuePlan env call next) := by
  cases next with
  | finish result => exact answer
  | issue i plan => exact perform h.1 h.2

theorem resumeReply {i : Issue} {plan : Plan} {r : Report} (h : plan.Plans P) :
    Hands P s (s.resumeReply env call i plan r) :=
  (of_inward .advancePlan .advancePlan).trans (continuePlan (plans_advancePlan h))

theorem sequence {goal : Goal} {required optional : List Issue}
    (h : ∀ i ∈ required ++ optional, i.Plans P) :
    Hands P s ((s.nextOfSequence goal required optional).1.continuePlan env call
      (s.nextOfSequence goal required optional).2) :=
  (of_inward .nextOfSequence .nextOfSequence).trans (continuePlan (plans_nextOfSequence h))

theorem plans_goalIssue {goal : Goal} {text : String} (h : P text) : (goalIssue goal text).Plans P := by
  cases goal <;> exact Or.inr h

theorem connectTarget {p : Probe} {options : ConnectOptions} {others : List String}
    (hp : s.probe = some p) (h : Probe.Connects P s.probe options others) :
    Hands P s (s.connectTarget env call p.toolchain options others) := by
  refine sequence fun i hi => ?_
  rcases List.mem_append.1 hi with hi | hi
  · obtain ⟨text, htext, rfl⟩ := List.mem_map.1 hi
    exact plans_goalIssue (h.1 p hp text htext)
  · rcases List.mem_append.1 hi with hi | hi
    · obtain ⟨text, htext, rfl⟩ := List.mem_map.1 hi
      exact Or.inr (h.2.1 text htext)
    · obtain ⟨text, htext, rfl⟩ := List.mem_map.1 hi
      exact Or.inr (h.2.2 text htext)

theorem failConnect {options : ConnectOptions} {message : String} :
    Hands P s (s.failConnect call options message) := log.trans answer

theorem pursue {goal : Goal} {commands : Toolchain → List String} {optional : List Issue}
    (h : ∀ p, s.probe = some p → ∀ text ∈ commands p.toolchain, P text)
    (hoptional : ∀ i ∈ optional, i.Plans P) : Hands P s (s.pursue env call goal commands optional) := by
  unfold Session.pursue
  split
  · exact answer
  · rename_i p hp
    refine sequence fun i hi => ?_
    rcases List.mem_append.1 hi with hi | hi
    · obtain ⟨text, htext, rfl⟩ := List.mem_map.1 hi
      exact plans_goalIssue (h p hp text htext)
    · exact hoptional i hi

/-! ### Running and halting -/

theorem runTarget {i : Issue} (hi : i.Plans P) : Hands P s (s.runTarget env call i) := by
  unfold Session.runTarget
  have hrunning : Hands P s { s with runState := .running } := .of_eq rfl rfl rfl
  have hexpects : Hands P s { s with runState := .running }.expectStop :=
    hrunning.trans (.of_inward .expectStop .expectStop)
  have hcounted : ∀ s : Session, Hands P s { s with blockingRuns := s.blockingRuns + 1 } :=
    fun _ => .of_eq rfl rfl rfl
  dsimp only
  split
  · exact answer
  · split
    · exact (hexpects.trans (hcounted _)).trans (perform hi trivial)
    · exact hexpects.trans (perform hi trivial)

theorem finishStop {t : Ticket} {location : Option StopLocation} :
    Hands P s (s.finishStop call t location) := by
  have hforgone : Hands P s { s with stopTicket := none } := .of_eq rfl rfl rfl
  unfold Session.finishStop
  dsimp only
  split
  · exact hforgone.trans answer
  · exact answer

theorem waitForStop {limit : Option Float} : Hands P s (s.waitForStop call limit) := by
  have hwaits : ∀ (s : Session) t, Hands P s (s.suspend call (.awaitingStop t) limit) := fun _ _ =>
    suspend (by trivial)
  unfold Session.waitForStop
  refine (of_inward .withStopTicket .withStopTicket).trans ?_
  dsimp only
  split
  · split
    · exact (hwaits _ _).trans letGoOn
    · exact finishStop
  · split
    · exact answer
    · exact hwaits _ _

theorem interrupt : Hands P s (s.interrupt env call) := by
  unfold Session.interrupt
  split
  · exact runTarget (Or.inl rfl)
  · split
    · exact answer
    · dsimp only
      split
      · exact request.trans waitForStop
      · split
        · exact (request.trans log).trans answer
        · exact request.trans answer

theorem watch : Hands P s (s.watch k) := by
  unfold Session.watch
  split
  · exact refl s
  · split
    · exact refl s
    · have htaken : Hands P s (s.modifyChannel k fun ch => { ch with unsolicited := [] }) :=
        modifyChannel fun _ _ _ hc => Or.inl hc
      exact htaken.trans (foldl (fun _ _ => .of_inward .noticeFrame .noticeFrame) _ _)

/-! ### Bridges -/

theorem launchBridge {options : ConnectOptions} {others : List String}
    (h : Probe.Connects P s.probe options others) : Hands P s (s.launchBridge call options others) := by
  unfold Session.launchBridge
  split
  · exact answer
  · have hsuspended : ∀ r, Hands P s
        ((s.request r).suspend call (.launchingBridge options others) none) := fun _ =>
      request.trans (suspend (s := s.request _) h)
    exact (hsuspended _).trans request

theorem bridgeEnded {next : BridgeEnded} (h : (Stage.endingBridge next).Plans P s.probe) :
    Hands P s (s.bridgeEnded call next) := by
  cases next with
  | connect options others => exact launchBridge h
  | kill => exact answer

theorem relayEnded {next : BridgeEnded} (h : (Stage.endingBridge next).Plans P s.probe) :
    Hands P s (s.relayEnded call next) := by
  have hforgotten : Hands P s { s with relay := none } := .of_eq rfl rfl rfl
  exact hforgotten.trans (bridgeEnded h)

theorem endRelay {next : BridgeEnded} (h : (Stage.endingBridge next).Plans P s.probe) :
    Hands P s (s.endRelay call next) := by
  unfold Session.endRelay
  split
  · exact bridgeEnded h
  · rename_i b _
    split
    · have hunrelayed : Hands P s { s with relayed := s.relayed.filter (· != b) } := .of_eq rfl rfl rfl
      have hrelay : (Stage.endingRelay next).Plans P s.probe := by cases next <;> exact h
      exact (hunrelayed.trans (suspend hrelay)).trans letGoOn
    · exact relayEnded h

theorem endBridge {next : BridgeEnded} (h : (Stage.endingBridge next).Plans P s.probe) :
    Hands P s (s.endBridge call next) := by
  unfold Session.endBridge
  split
  · exact endRelay h
  · exact (suspend h).trans request

theorem bridgeLaunched {options : ConnectOptions} {others : List String} {ok : Bool}
    (h : Probe.Connects P s.probe options others) :
    Hands P s (s.bridgeLaunched env call options others ok) := by
  unfold Session.bridgeLaunched
  split
  · exact failConnect
  · split
    · exact answer
    · rename_i p hp
      let up : Session := { s with
        bridges := s.bridges + 1
        bridge := some s.bridges
        relay := some s.bridges
        relayed := s.relayed ++ [s.bridges] }.request (.readBridge s.bridges)
      have hup : Hands P s up := .of_eq rfl rfl rfl
      exact hup.trans (connectTarget (s := up) hp h)

theorem connect {options : ConnectOptions} {others : List String}
    (h : Probe.Connects P s.probe options others)
    (hslashes : Probe.Connects P s.probe (Toolchain.forwardSlashes options) others) :
    Hands P s (s.connect env call options others) := by
  unfold Session.connect
  split
  · exact answer
  · rename_i p hp
    split
    · split
      · exact connectTarget hp h
      · exact failConnect
    · split
      · exact connectTarget hp h
      · split
        · exact failConnect
        · exact endBridge hslashes

/-! ### Starting and closing -/

theorem launchDebugger {path folder : Option String} {args : List String} :
    Hands P s (s.launchDebugger call path args folder) := by
  unfold Session.launchDebugger
  split
  · exact answer
  · exact (suspend (by trivial)).trans request

theorem finishKill : Hands P s (s.finishKill call) := by
  unfold Session.finishKill
  split
  · exact answer
  · split
    · dsimp only
      split
      · exact answer
      · exact log.trans answer
    · split
      · exact endBridge trivial
      · exact answer

theorem finishClosing {next : Closed} : Hands P s (s.finishClosing call next) := by
  have hreported : Hands P s (s.reportStop none) := .of_inward .reportStop .reportStop
  have hforgone : Hands P s { s.reportStop none with stopTicket := none, runState := .stopped } :=
    hreported.trans (.of_eq rfl rfl rfl)
  unfold Session.finishClosing
  dsimp only
  split
  · exact hforgone.trans launchDebugger
  · exact hforgone.trans answer
  · exact hforgone.trans finishKill

theorem closeChannel {next : Closed} : Hands P s (s.closeChannel call next) := by
  unfold Session.closeChannel
  split
  · exact finishClosing
  · rename_i k _
    have hcloses : Hands P s (s.changeChannel k fun ch => ch.close .killed) :=
      changeChannel_of_subset fun ch => ch.commands_close_subset .killed
    exact (hcloses.trans (suspend (by trivial))).trans request

theorem close {next : Closed} : Hands P s (s.close call next) := by
  unfold Session.close
  split
  · exact closeChannel
  · rename_i k _
    have hunwatched : Hands P s { s with watched := s.watched.filter (· != k) } := .of_eq rfl rfl rfl
    exact (hunwatched.trans (suspend (by trivial))).trans letGoOn

theorem readerEnded {next : Closed} : Hands P s (s.readerEnded call next) := by
  have hended : Hands P s { s with current := none } := .of_eq rfl rfl rfl
  exact hended.trans finishClosing

theorem processEnded {next : Closed} : Hands P s (s.processEnded call k next) := by
  have hstops : Hands P s (s.modifyChannel k Channel.stopReader) := modifyChannel fun _ _ _ hc => Or.inl hc
  unfold Session.processEnded
  dsimp only
  split
  · exact (hstops.trans (suspend (by trivial))).trans letGoOn
  · exact hstops.trans readerEnded

/-- A debugger that comes up has been given nothing. -/
theorem launched {ok : Bool} : Hands P s (s.launched call ok) := by
  unfold Session.launched
  split
  · exact answer
  · have hentered : Hands P s ({ s with
        channels := s.channels ++ [(Channel.create s.settings.prompt).startReader]
        current := some s.channels.length }.request (.read s.channels.length)) := by
      refine ⟨rfl, fun c hc => Or.inl ?_, fun _ hc => Or.inl hc⟩
      have hnew : (s.channels ++ [(Channel.create s.settings.prompt).startReader]).flatMap
          Channel.commands = s.commands := by
        rw [List.flatMap_append, List.flatMap_singleton, Channel.commands_create, List.append_nil]
        rfl
      rw [← hnew]
      exact hc
    dsimp only
    split
    · exact hentered.trans close
    · exact hentered.trans (suspend (by trivial))

theorem start {path folder : Option String} {args : List String} :
    Hands P s (s.start call path args folder) := by
  unfold Session.start
  split
  · exact answer
  · split
    · exact close
    · exact launchDebugger

theorem welcome {banner : Frame} : Hands P s (s.welcome call k banner) := by
  have hready : ∀ s : Session, Hands P s ({ s with
      runState := .stopped
      watcher := some k
      watched := s.watched ++ [k] }.request (.watch k)) := fun _ => .of_eq rfl rfl rfl
  unfold Session.welcome
  dsimp only
  refine .trans ?_ answer
  split
  · exact hready _
  · exact log.trans (hready _)

/-! ### Steps -/

theorem begin {operation : Operation} (h : operation.Plans P s.probe) :
    Hands P s (s.begin env call operation) := by
  cases operation with
  | start => exact start
  | kill => exact close
  | connect options others => exact connect (h.connects (Or.inl rfl)) (h.connects (Or.inr rfl))
  | disconnect => exact pursue (fun p hp text ht => h _ _ (.leave hp ht)) nofun
  | load extras =>
    refine pursue (fun p hp text ht => h _ _ (.load hp ht)) fun i hi => ?_
    obtain ⟨text, htext, rfl⟩ := List.mem_map.1 hi
    exact Or.inr (h _ _ (.extra htext))
  | run c => exact runTarget (Or.inr (h _ _ (.run c)))
  | interrupt => exact interrupt
  | waitForStop => exact waitForStop
  | addBreakpoint r => exact perform (Or.inr (h _ _ (.add r))) trivial
  | removeBreakpoints numbers =>
    dsimp only [Session.begin]
    split
    · exact answer
    · exact perform (Or.inr (h _ _ (.remove numbers))) trivial
  | setBreakpoints file requests =>
    have hforgotten : Hands P s { s with breakpoints := unassign s.breakpoints file } := .of_eq rfl rfl rfl
    have hplaces : ∀ r ∈ requests, P ({ r with file := some file } : BreakpointRequest).text :=
      fun r hr => h _ _ (.place file hr)
    dsimp only [Session.begin]
    split
    · exact (hforgotten.trans (.of_inward .nextPlacement .nextPlacement)).trans
        (continuePlan (plans_nextPlacement hplaces))
    · exact hforgotten.trans (perform (Or.inr (h _ _ (.clear file requests _))) hplaces)
  | ask q => exact perform (Or.inr (h _ _ (.ask q))) trivial
  | send text kind level => exact perform (Or.inr (h _ _ (.send text kind level))) trivial

theorem proceed {stage : Stage} (h : stage.Plans P s.probe) : Hands P s (s.proceed env call stage) := by
  cases stage with
  | awaitingReply k t i plan =>
    dsimp only [Session.proceed]
    split
    · exact (of_inward .settledReport .settledReport).trans (resumeReply h)
    · exact refl s
  | awaitingStop t =>
    dsimp only [Session.proceed]
    split
    · exact finishStop
    · exact refl s
  | awaitingBanner k =>
    dsimp only [Session.proceed]
    split
    · rename_i banner ch htaken
      obtain ⟨ch₀, hch₀, htaken⟩ := Option.bind_eq_some_iff.1 htaken
      obtain ⟨rest, -, rfl⟩ := Channel.takeUnsolicited_eq_some_iff.1 htaken
      have htakes : Hands P s (s.modifyChannel k fun _ => { ch₀ with unsolicited := rest }) :=
        modifyChannel fun ch hch c hc => by
          obtain rfl : ch₀ = ch := Option.some.inj (hch₀.symm.trans hch)
          exact Or.inl hc
      exact htakes.trans welcome
    · exact refl s
  | closing step next =>
    cases step with
    | watcher =>
      have hunwatched : Hands P s { s with watcher := none } := .of_eq rfl rfl rfl
      exact hunwatched.trans closeChannel
    | process => exact refl s
    | reader => exact readerEnded
  | endingRelay next => exact relayEnded (by cases next <;> exact h)
  | launching | endingBridge | launchingBridge => exact refl s

theorem timeOut {stage : Stage} (h : stage.Plans P s.probe) : Hands P s (s.timeOut env call stage) := by
  cases stage with
  | awaitingReply k t i plan =>
    dsimp only [Session.timeOut]
    split
    · exact proceed h
    · exact giveUp
  | awaitingStop t =>
    dsimp only [Session.timeOut]
    split
    · exact proceed h
    · exact answer
  | awaitingBanner k =>
    dsimp only [Session.timeOut]
    split
    · exact proceed h
    · exact close
  | _ => exact refl s

theorem channel {event : Channel.Event} : Hands P s (s.step env (.channel k event)) := by
  cases event with
  | prints chunk =>
    have hframes : ∀ (s : Session) (lines : List String),
        Hands P s (s.changeChannel k fun ch => ch.emit lines env.now) := fun _ lines =>
      changeChannel_of_subset fun ch => by
        rw [Channel.commands_emit]
        exact List.Subset.refl _
    have htaken : Hands P s (s.modifyChannel k fun ch => (ch.takeFrames chunk).2) :=
      modifyChannel fun _ _ _ hc => Or.inl hc
    exact htaken.trans (foldl hframes _ _)
  | _ => exact changeChannel_of_subset fun ch => ch.commands_react_subset env.now _

/-- What each step gives is what the operation that is asked for may give, or what the plans of those in
progress hold. -/
theorem step (e : Event) (hasked : ∀ id operation, e = .call id operation → operation.Plans P s.probe)
    (hplans : ∀ c ∈ s.calls, c.stage.Plans P s.probe) : Hands P s (s.step env e) := by
  have hstage : ∀ {id stage}, s.stage? id = some stage → stage.Plans P s.probe := by
    intro id stage hstage
    obtain ⟨c, hc, -, rfl⟩ := exists_call_of_stage? hstage
    exact hplans c hc
  have hstageIn : ∀ {id wait stage}, s.stageIn? id wait = some stage → stage.Plans P s.probe := by
    intro id wait stage hstage
    obtain ⟨c, hc, -, rfl⟩ := exists_call_of_stageIn? hstage
    exact hplans c hc
  cases e with
  | call id operation => exact begin (hasked id operation rfl)
  | proceeds id wait =>
    dsimp only [Session.step]
    split
    · exact proceed (hstageIn ‹_›)
    · exact refl s
  | timesOut id wait =>
    dsimp only [Session.step]
    split
    · exact timeOut (hstageIn ‹_›)
    · exact refl s
  | launched id ok =>
    dsimp only [Session.step]
    split
    · exact launched
    · exact refl s
  | processEnded id =>
    dsimp only [Session.step]
    split
    · exact processEnded
    · exact refl s
  | bridgeLaunched id ok =>
    dsimp only [Session.step]
    split
    · rename_i options others heq
      have h : Probe.Connects P s.probe options others := hstage heq
      exact bridgeLaunched h
    · exact refl s
  | bridgeEnded id =>
    dsimp only [Session.step]
    split
    · have hended : Hands P s { s with bridge := none } := .of_eq rfl rfl rfl
      exact hended.trans (endRelay (hstage ‹_›))
    · exact refl s
  | channel k event => exact channel
  | watches k => exact watch
  | bridgePrints b chunk =>
    dsimp only [Session.step]
    split
    · exact foldl (fun _ _ => request) _ _
    · exact refl s
  | bridgeExits b code =>
    dsimp only [Session.step]
    split
    · exact .of_eq rfl rfl rfl
    · exact refl s

end Hands

/-! ## Runs -/

/-- A session whose channels hold commands of certain texts only, and whose operations go on to give such
only. -/
structure Allots (P : String → Prop) (s : Session) : Prop where
  commands : ∀ c ∈ s.commands, P c.text
  plans : ∀ c ∈ s.calls, c.stage.Plans P s.probe

theorem Allots.after (h : s.Allots P) (env : Surroundings) {e : Event}
    (hasked : ∀ id operation, e = .call id operation → operation.Plans P s.probe) :
    (s.after env e).Allots P := by
  have hands : Hands P { s with outbox := [] } (s.after env e) := .step e hasked h.plans
  refine ⟨fun c hc => (hands.commands c hc).elim (h.commands c) id, fun c hc => ?_⟩
  rw [hands.probe]
  exact (hands.calls c hc).elim (h.plans c) id

/-- The toolchain of a session stays. -/
theorem probe_after (s : Session) (env : Surroundings) (e : Event) : (s.after env e).probe = s.probe := by
  have hany : ∀ stage : Stage, stage.Plans (fun _ => True) s.probe := by
    intro stage
    cases stage with
    | awaitingReply k t i plan => cases plan <;> simp [Stage.Plans, Plan.Plans, Issue.Plans]
    | endingBridge next | endingRelay next => cases next <;> simp [Stage.Plans, Probe.Connects]
    | launchingBridge => simp [Stage.Plans, Probe.Connects]
    | _ => trivial
  have hands : Hands (fun _ => True) { s with outbox := [] } (s.after env e) :=
    .step e (fun _ _ _ _ _ _ => trivial) fun c _ => hany c.stage
  exact hands.probe

theorem probe_afterAll (s : Session) (events : List (Surroundings × Event)) :
    (s.afterAll events).probe = s.probe := by
  induction events generalizing s with
  | nil => rfl
  | cons e events ih => exact (ih _).trans (s.probe_after e.1 e.2)

/-- In a run from a new session, every command that a channel holds has been given by an operation that
was asked for. -/
theorem exists_operation_of_mem_commands (settings : Settings) (probe : Option Probe)
    (events : List (Surroundings × Event)) {c : Command}
    (hc : c ∈ ((create settings probe).afterAll events).commands) :
    ∃ e ∈ events, ∃ id operation pieces, e.2 = .call id operation ∧
      operation.Gives probe c.text pieces := by
  let P : String → Prop := fun text => ∃ e ∈ events, ∃ id operation pieces,
    e.2 = Event.call id operation ∧ operation.Gives probe text pieces
  have hrun : ∀ (later : List (Surroundings × Event)) (s : Session), later ⊆ events →
      s.probe = probe → s.Allots P → (s.afterAll later).Allots P := by
    intro later
    induction later with
    | nil => exact fun _ _ _ h => h
    | cons e later ih =>
      intro s hsub hprobe h
      obtain ⟨he, hsub⟩ := List.cons_subset.1 hsub
      refine ih _ hsub ((s.probe_after e.1 e.2).trans hprobe) (h.after e.1 fun id operation heq => ?_)
      intro text pieces hgives
      exact ⟨e, he, id, operation, pieces, heq, hprobe ▸ hgives⟩
  have hcreated : (create settings probe).Allots P :=
    ⟨fun _ hc => absurd hc List.not_mem_nil, fun _ hc => absurd hc List.not_mem_nil⟩
  exact (hrun events _ (List.Subset.refl _) rfl hcreated).commands c hc

end Session

end DebugConsole
