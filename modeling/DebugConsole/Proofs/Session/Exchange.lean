import DebugConsole.Proofs.Session.Coverage
import DebugConsole.Proofs.Session.Restoration

set_option autoImplicit false

/-!
# A session and its debugger

The debugger takes the texts that are written, one after another, and owes a frame for each.  A text that
sets the target running is answered when the target halts; a signal halts it, and then the frame of that
text is all that is printed.  Otherwise a signal is answered by a frame of its own.

Whatever is pending is covered by the frames that the debugger owes and the texts that it has still to take
(`Exchange.Covered`), as long as no signal reserves a place while the target runs, and no text is refused
after a frame has gone to its place (`Exchange.isOrderly`).  So when the debugger owes nothing and no write
is under way, the next frame answers the next command (`inStep_of_orderly`), however many operations have
been given up or interrupted before.
-/

namespace DebugConsole

/-! ## The debugger -/

/-- All run commands. -/
def RunCommand.all : List RunCommand :=
  [.continue, .continueBackground, .next false, .next true, .step false, .step true, .stepOut]

/-- What a debugger owes a frame for. -/
inductive Debt where
  /-- the target runs, and the frame comes when it halts -/
  | halt
  /-- the frame comes by itself -/
  | prompt
  deriving DecidableEq, Repr

namespace Debt

/-- The texts that are answered when the target halts. -/
def runTexts : List String := (RunCommand.all.filter (·.kind.blocksUntilStop)).map RunCommand.text

/-- What a debugger owes for a text that it takes. -/
def ofText (text : String) : Debt := if runTexts.contains text then .halt else .prompt

/-- A running target halts. -/
def halted : List Debt → List Debt
  | .halt :: rest => .prompt :: rest
  | owed => owed

/-- A signal halts a running target; otherwise it gets a frame of its own. -/
def interrupted : List Debt → List Debt
  | .halt :: rest => .prompt :: rest
  | owed => .prompt :: owed

/-- Some signals, one after another. -/
def signalled : Nat → List Debt → List Debt
  | 0, owed => owed
  | n + 1, owed => signalled n (interrupted owed)

@[simp] theorem length_halted (owed : List Debt) : (halted owed).length = owed.length := by
  unfold halted
  split <;> rfl

theorem length_interrupted_of_ne {owed : List Debt} (h : owed.head? ≠ some .halt) :
    (interrupted owed).length = owed.length + 1 := by
  unfold interrupted
  split
  · exact absurd rfl h
  · rfl

theorem length_le_interrupted (owed : List Debt) : owed.length ≤ (interrupted owed).length := by
  unfold interrupted
  split
  · exact Nat.le_refl _
  · exact Nat.le_succ _

theorem head?_interrupted (owed : List Debt) : (interrupted owed).head? = some .prompt := by
  unfold interrupted
  split <;> rfl

/-- Signals take no frame away. -/
theorem length_le_signalled (n : Nat) (owed : List Debt) :
    owed.length ≤ (signalled n owed).length := by
  induction n generalizing owed with
  | zero => exact Nat.le_refl _
  | succ n ih => exact Nat.le_trans (length_le_interrupted owed) (ih _)

/-- Unless the target runs, every signal brings a frame. -/
theorem length_signalled {owed : List Debt} (h : owed.head? ≠ some .halt) (n : Nat) :
    (signalled n owed).length = owed.length + n := by
  induction n generalizing owed with
  | zero => rfl
  | succ n ih =>
    have hnext : (interrupted owed).head? ≠ some .halt := by simp [head?_interrupted]
    rw [signalled, ih hnext, length_interrupted_of_ne h]
    omega

end Debt

/-! ## Moves -/

/-- A session and a debugger that owes frames. -/
structure Exchange where
  launch : LaunchId
  session : Session
  /-- the frames still to come, the next one first -/
  owed : List Debt
  /-- the commands whose text the debugger has taken -/
  taken : List CommandId

/-- What can happen between a session and its debugger. -/
inductive Move where
  /-- a caller's step, at some time; a signal would fail with `fault` -/
  | step (now : Float) (fault : Option Fault) (event : Session.Event)
  | beginWrite (now : Float) (serial : Nat)
  /-- the debugger takes the text of a write -/
  | take (serial : Nat)
  | endWrite (now : Float) (serial : Nat)
  /-- the debugger does not take the text of a write -/
  | refuse (now : Float) (serial : Nat) (fault : Fault)
  /-- a running target halts on its own -/
  | halt
  /-- frames arrive, and parts of frames -/
  | print (now : Float) (chunk : String)

namespace Exchange

/-- Nothing is owed. -/
def start (k : LaunchId) (s : Session) : Exchange := ⟨k, s, [], []⟩

/-- The debugger's channel. -/
def channel? (x : Exchange) : Option Channel := x.session.channels[x.launch]?

/-- The write with a serial. -/
def writer? (x : Exchange) (serial : Nat) : Option Writer :=
  x.channel?.bind fun ch => ch.writers.find? fun w => w.serial == serial

/-- Is a request a signal that reaches the debugger? -/
def reaches (k : LaunchId) (fault : Option Fault) : Request → Bool
  | .signal j _ => j == k && fault.isNone
  | _ => false

/-- The session after something happened to the channel. -/
def react (x : Exchange) (now : Float) (e : Channel.Event) : Session :=
  x.session.after ⟨now, fun _ _ => none⟩ (.channel x.launch e)

/-- The exchange after a move. -/
def after (x : Exchange) : Move → Exchange
  | .step now fault e =>
    let s := x.session.after ⟨now, fun _ _ => fault⟩ e
    { x with session := s, owed := Debt.signalled (s.outbox.countP (reaches x.launch fault)) x.owed }
  | .beginWrite now serial => { x with session := x.react now (.writeBegins serial) }
  | .take serial =>
    match x.writer? serial with
    | some w =>
      { x with owed := x.owed ++ [.ofText w.command.text], taken := x.taken ++ [w.command.id] }
    | none => x
  | .endWrite now serial => { x with session := x.react now (.writeEnds serial none) }
  | .refuse now serial fault => { x with session := x.react now (.writeEnds serial (some fault)) }
  | .halt => { x with owed := Debt.halted x.owed }
  | .print now chunk =>
    let frames := x.channel?.toList.flatMap fun ch => (ch.takeFrames chunk).1
    { x with session := x.react now (.prints chunk), owed := x.owed.drop frames.length }

/-- The exchange after some moves. -/
def afterAll (x : Exchange) (moves : List Move) : Exchange := moves.foldl after x

/-- Callers run and halt the target and ask about it.  A signal that is not delivered, and a text
that is not taken, fail in a way that the channel expects; a write ends well when its text has been
taken. -/
def isPossible (x : Exchange) : Move → Bool
  | .step _ fault e => e.isSingle && fault.all Channel.failsSignal
  | .take serial =>
    (x.writer? serial).any fun w => w.hasBegun && !x.taken.contains w.command.id
  | .endWrite _ serial => (x.writer? serial).any fun w => x.taken.contains w.command.id
  | .refuse _ serial fault => Channel.failsCommand fault &&
    (x.writer? serial).any fun w => w.hasBegun && !x.taken.contains w.command.id
  | .beginWrite .. | .halt | .print .. => true

/-- No place is reserved for a signal while the target runs, for then the signal gets no frame; and
no text is refused after a frame has gone to its place. -/
def isOrderly (x : Exchange) : Move → Bool
  | .step _ fault e =>
    !e.reservesSignal x.session || fault.isSome || x.owed.head? != some .halt
  | .refuse _ serial _ => (x.writer? serial).all fun w =>
    x.channel?.any fun ch => ch.pending.contains w.command.id
  | _ => true

/-- Does every one of some moves meet a condition, one after another? -/
def follows (may : Exchange → Move → Bool) (x : Exchange) : List Move → Bool
  | [] => true
  | m :: moves => may x m && follows may (x.after m) moves

/-! ## What the debugger owes covers what is pending -/

/-- Whatever is pending is covered by the frames that the debugger owes and the texts that it has
still to take. -/
def Covered (x : Exchange) : Prop :=
  x.session.Covered (fun _ => false) x.launch x.owed.length x.taken

section Covered

variable {x : Exchange} {now : Float} {serial : Nat} {w : Writer}

/-- A write that is found and meets a condition is one of the debugger's channel. -/
theorem exists_writer {p : Writer → Bool} (h : (x.writer? serial).any p = true) :
    ∃ ch w, x.channel? = some ch ∧ x.writer? serial = some w ∧ w ∈ ch.writers ∧
      w.serial = serial ∧ p w = true := by
  cases hw : x.writer? serial with
  | none =>
    rw [hw] at h
    cases h
  | some w =>
    obtain ⟨ch, hch, hfind⟩ := Option.bind_eq_some_iff.1 hw
    rw [hw] at h
    exact ⟨ch, w, hch, rfl, List.mem_of_find?_eq_some hfind, by simpa using List.find?_some hfind, h⟩

namespace Covered

theorem clear (h : x.Covered) (brings : Request → Bool) :
    Session.Covered brings x.launch x.owed.length x.taken { x.session with outbox := [] } where
  current := h.current
  last := h.last
  channel := by
    obtain ⟨ch, hch, hcovered⟩ := h.channel
    exact ⟨ch, hch, by simpa using hcovered⟩

/-- The debugger's channel changes, and perhaps what the debugger owes. -/
theorem react {e : Channel.Event} {owed : List Debt} (h : x.Covered)
    (hchannel : ∀ ch, x.channel? = some ch →
      ch.Covered x.owed.length x.taken x.session.nextId →
        (ch.react now e).Covered owed.length x.taken x.session.nextId) :
    Covered { x with session := x.react now e, owed } := by
  obtain ⟨ch, hch, hcovered⟩ := (h.clear fun _ => false).channel
  obtain ⟨hchannels, hcurrent, hnextId, hcalls⟩ := Session.step_channel
    { x.session with outbox := [] } ⟨now, fun _ _ => none⟩ x.launch e
  refine ⟨hcurrent.trans h.current, ?_, ch.react now e, ?_, ?_⟩
  · rw [Exchange.react, Session.after, hcalls]
    exact h.last
  · have hch' : x.session.channels[x.launch]? = some ch := hch
    simp [Exchange.react, Session.after, hchannels, hch']
  · rw [Exchange.react, Session.after, hnextId]
    simpa using hchannel ch hch (by simpa using hcovered)

/-- Every signal that reaches the debugger counts as a frame. -/
theorem bringsFrames (k : LaunchId) (now : Float) {fault : Option Fault}
    (hfault : fault.all Channel.failsSignal = true) :
    Surroundings.Signals ⟨now, fun _ _ => fault⟩ k (reaches k fault) where
  delivered := by
    intro name hnone
    have hnone : fault = none := hnone
    simp [reaches, hnone]
  failed := by
    intro name f hsome
    have hsome : fault = some f := hsome
    simpa [hsome] using hfault

/-- A caller's step. -/
theorem step {fault : Option Fault} {e : Session.Event} (h : x.Covered)
    (possible : x.isPossible (.step now fault e) = true)
    (orderly : x.isOrderly (.step now fault e) = true) : (x.after (.step now fault e)).Covered := by
  obtain ⟨hsingle, hfault⟩ := Bool.and_eq_true_iff.1 possible
  let s := x.session.after ⟨now, fun _ _ => fault⟩ e
  let signals := s.outbox.countP (reaches x.launch fault)
  have hlength : x.owed.length ≤ (Debt.signalled signals x.owed).length :=
    Debt.length_le_signalled ..
  cases hreserves : e.reservesSignal x.session with
  | false =>
    have hs : s.Covered (fun _ => false) x.launch x.owed.length x.taken :=
      (h.clear _).step (fun hr => absurd (hr.symm.trans hreserves) (by decide)) hsingle
    exact hs.recount (Nat.add_le_add_right hlength _)
  | true =>
    have hs : s.Covered (reaches x.launch fault) x.launch x.owed.length x.taken :=
      (h.clear _).step (fun _ => bringsFrames x.launch now hfault) hsingle
    refine hs.recount ?_
    have hcount : x.owed.length + signals ≤ (Debt.signalled signals x.owed).length := by
      cases fault with
      | some f =>
        have hnone : signals = 0 := List.countP_eq_zero.2 fun r _ => by cases r <;> simp [reaches]
        omega
      | none =>
        have hhead : x.owed.head? ≠ some .halt := by
          simpa [isOrderly, hreserves] using orderly
        exact Nat.le_of_eq (Debt.length_signalled hhead _).symm
    exact Nat.le_add_right_of_le hcount

/-- Every move that is possible and orderly keeps what is pending covered. -/
theorem after {m : Move} (h : x.Covered) (possible : x.isPossible m = true)
    (orderly : x.isOrderly m = true) : (x.after m).Covered := by
  cases m with
  | step now fault e => exact h.step possible orderly
  | beginWrite now serial => exact h.react fun ch _ hcovered => hcovered.beginWrite serial now
  | take serial =>
    obtain ⟨ch, w, hch, hw, hmem, -, hnew⟩ := exists_writer possible
    have hnew : w.command.id ∉ x.taken := by simpa using (Bool.and_eq_true_iff.1 hnew).2
    obtain ⟨ch', hch', hcovered⟩ := h.channel
    cases hch.symm.trans hch'
    rw [Exchange.after, hw]
    refine ⟨h.current, h.last, ch, hch, ?_⟩
    simpa [Nat.add_right_comm] using hcovered.take hmem hnew
  | endWrite now serial =>
    obtain ⟨ch, w, hch, -, hmem, rfl, htaken⟩ := exists_writer possible
    refine h.react fun ch' hch' hcovered => ?_
    cases hch.symm.trans hch'
    exact hcovered.endWrite hmem (by simpa using htaken)
  | refuse now serial fault =>
    obtain ⟨hfault, hwriter⟩ := Bool.and_eq_true_iff.1 possible
    obtain ⟨ch, w, hch, hw, hmem, rfl, hnew⟩ := exists_writer hwriter
    have hnew : w.command.id ∉ x.taken := by simpa using (Bool.and_eq_true_iff.1 hnew).2
    have hplace : w.command.id ∈ ch.pending := by simpa [isOrderly, hw, hch] using orderly
    refine h.react fun ch' hch' hcovered => ?_
    cases hch.symm.trans hch'
    exact hcovered.refuse hmem hfault hnew hplace
  | halt =>
    have hlength : (Debt.halted x.owed).length = x.owed.length := Debt.length_halted _
    rw [Covered, Exchange.after, hlength]
    exact h
  | print now chunk =>
    refine h.react fun ch hch hcovered => ?_
    simpa [hch, Channel.react] using hcovered.feed chunk now

/-- So does every orderly sequence of moves. -/
theorem afterAll {moves : List Move} (h : x.Covered)
    (hmoves : x.follows (fun x m => x.isPossible m && x.isOrderly m) moves = true) :
    (x.afterAll moves).Covered := by
  induction moves generalizing x with
  | nil => exact h
  | cons m moves ih =>
    obtain ⟨hm, hmoves⟩ := Bool.and_eq_true_iff.1 hmoves
    obtain ⟨possible, orderly⟩ := Bool.and_eq_true_iff.1 hm
    exact ih (h.after possible orderly) hmoves

end Covered

end Covered

/-! ## Being in step -/

/-- The debugger owes nothing, and no write is under way. -/
def isIdle (x : Exchange) : Bool := x.owed.isEmpty && x.channel?.all fun ch => ch.writers.isEmpty

/-- Nothing is pending with the current debugger, so the next command is written at once, and the
next frame is the answer to it. -/
def InStep (x : Exchange) : Prop :=
  ∃ ch, x.session.currentChannel? = some ch ∧ ch.pending = [] ∧
    ∀ text, ∃ t ch', ch.submit ⟨x.session.nextId, text⟩ = .ok (t, ch') ∧
      ch'.inFlight = some x.session.nextId ∧
      ∀ lines now, (ch'.emit lines now).outcome t =
        .answered (ch'.reply x.session.nextId lines now)

end Exchange

/-- A session whose debugger has been launched and waits for commands, while no operation is in
progress.  Numbers from `nextId` on are new. -/
structure Session.Ready (s : Session) (k : LaunchId) : Prop where
  current : s.current = some k
  calls : s.calls = []
  channel : ∃ ch, s.channels[k]? = some ch ∧ ch.isClosed = false ∧ ch.pending = [] ∧
    ch.writers = [] ∧ ∃ numbers, ch.Consistent numbers ∧ ∀ id ∈ numbers, id < s.nextId

/-- The limits of waits do not matter for that. -/
theorem Session.Ready.withSettings {s : Session} {k : LaunchId} (h : s.Ready k)
    (settings : Settings) : { s with settings }.Ready k :=
  ⟨h.current, h.calls, h.channel⟩

namespace Exchange

variable {s : Session} {k : LaunchId} {moves : List Move}

theorem Covered.start (h : s.Ready k) : (start k s).Covered := by
  obtain ⟨ch, hch, hopen, hpending, -, numbers, hc, hearlier⟩ := h.channel
  refine ⟨h.current, ?_, ch, hch, hopen, ⟨numbers, hc, hearlier⟩, nofun, ?_⟩
  · simp [Exchange.start, h.calls]
  · simp [hpending]

/-- However its operations are given up, interrupted and answered late: as long as no signal reserves
a place while the target runs, and no text is refused after a frame has gone to its place, a session
is in step with its debugger whenever the debugger owes nothing and no write is under way. -/
theorem inStep_of_orderly (ready : s.Ready k)
    (orderly : (start k s).follows (fun x m => x.isPossible m && x.isOrderly m) moves = true)
    (idle : ((start k s).afterAll moves).isIdle = true) : ((start k s).afterAll moves).InStep := by
  have hcovered := (Covered.start ready).afterAll orderly
  obtain ⟨howed, hwriters⟩ := Bool.and_eq_true_iff.1 idle
  obtain ⟨ch, hch, hcovered'⟩ := hcovered.channel
  have hch' : ((start k s).afterAll moves).channel? = some ch := hch
  rw [hch'] at hwriters
  have hframes : ch.Covered 0 ((start k s).afterAll moves).taken
      ((start k s).afterAll moves).session.nextId := by
    simpa [List.isEmpty_iff.1 howed] using hcovered'
  have hpending := hframes.pending_eq_nil (by simpa using hwriters)
  refine ⟨ch, ?_, hpending, hframes.answers_next hpending⟩
  rw [Session.currentChannel?, hcovered.current]
  exact hch

/-- A session without limits that has just been started. -/
def started : Session :=
  (Session.create { Settings.default with commandTimeout := none } none).afterAll
    [(Session.calm 0.0, .call 0 (.start (some "gdb") [] none)),
      (Session.calm 0.1, .launched 0 true),
      (Session.calm 0.2, .channel 0 (.prints "(gdb) ")),
      (Session.calm 0.2, .proceeds 0 1)]

theorem started_ready : started.Ready 0 where
  current := by decide +kernel
  calls := by rfl
  channel := by
    have hchannel : started.channels[0]? = some (Channel.create "(gdb)").startReader := by rfl
    exact ⟨_, hchannel, rfl, rfl, rfl, [], { Channel.Consistent.create "(gdb)" with }, nofun⟩

/-- The target is continued and interrupted while its caller waits, and interrupted again when it has
halted; both times the debugger prints one frame. -/
def twoInterrupts : List Move :=
  [.step 1.0 none (.call 1 (.run .continue)), .beginWrite 1.0 0, .take 0, .endWrite 1.0 0,
    .step 2.0 none (.call 2 .interrupt), .print 2.0 "main () at main.c:12\n(gdb) ",
    .step 2.0 none (.proceeds 1 2), .step 2.0 none (.proceeds 2 3),
    .step 3.0 none (.call 3 .interrupt), .print 3.0 "main () at main.c:12\n(gdb) ",
    .step 3.0 none (.proceeds 3 4)]

/-- After two interrupts, with and without a place of its own, the session is in step. -/
theorem inStep_after_interrupts :
    (start 0 started).follows (fun x m => x.isPossible m && x.isOrderly m) twoInterrupts = true ∧
      ((start 0 started).afterAll twoInterrupts).InStep := by
  have horderly : (start 0 started).follows (fun x m => x.isPossible m && x.isOrderly m)
      twoInterrupts = true := by decide +kernel
  have hidle : ((start 0 started).afterAll twoInterrupts).isIdle = true := by decide +kernel
  exact ⟨horderly, inStep_of_orderly started_ready horderly hidle⟩

end Exchange

namespace Session

/-! ## Waiting, whatever the limit -/

/-- What letting an operation wait may come to: it is woken when its limit is reached, or it is not. -/
def suspensions (s : Session) (call : CallId) (stage : Stage) (limit : Option Float) :
    List Session :=
  let waiting : Session := { s with
    calls := s.calls.filter (·.id != call) ++ [⟨call, stage, s.waits, limit⟩]
    waits := s.waits + 1 }
  [waiting, waiting.request (.wake call s.waits (limit.getD 0.0))]

theorem suspend_mem_suspensions (s : Session) (call : CallId) (stage : Stage)
    (limit : Option Float) : s.suspend call stage limit ∈ s.suspensions call stage limit := by
  unfold suspend suspensions
  dsimp only
  split
  · split
    · exact List.mem_cons_of_mem _ List.mem_cons_self
    · exact List.mem_cons_self
  · exact List.mem_cons_self

/-- What waiting for a reply may come to: the command is given up at once, or it is not. -/
def replyWaits (s : Session) (call : CallId) (k : LaunchId) (t : Ticket) (i : Issue) (plan : Plan) :
    List Session :=
  (s.suspensions call (.awaitingReply k t i plan) (s.timeoutFor i.kind)).flatMap fun s =>
    [s, s.giveUp k t]

theorem awaitReply_mem_replyWaits {s : Session} {call : CallId} {k : LaunchId} {t : Ticket}
    {i : Issue} {plan : Plan} (h : (s.outcomeOf k t).isDone = false) :
    s.awaitReply call k t i plan ∈ s.replyWaits call k t i plan := by
  have hsuspend := s.suspend_mem_suspensions call (.awaitingReply k t i plan) (s.timeoutFor i.kind)
  have hwaiting : ((s.suspend call (.awaitingReply k t i plan) (s.timeoutFor i.kind)).outcomeOf
      k t).isDone = false := by
    rw [← h, outcomeOf, outcomeOf]
    generalize s.suspend call _ _ = s' at hsuspend
    simp only [suspensions, List.mem_cons, List.not_mem_nil, or_false] at hsuspend
    rcases hsuspend with rfl | rfl <;> rfl
  unfold awaitReply
  dsimp only
  rw [hwaiting, if_neg (by decide)]
  refine List.mem_flatMap.2 ⟨_, hsuspend, ?_⟩
  split
  · exact List.mem_cons_of_mem _ List.mem_cons_self
  · exact List.mem_cons_self

/-- What setting the target running may come to, if the command is waited for. -/
def runWaits (s : Session) (env : Surroundings) (call : CallId) (i : Issue) : List Session :=
  let running := { s with runState := .running }.expectStop
  let running :=
    if i.kind.blocksUntilStop then { running with blockingRuns := running.blockingRuns + 1 }
    else running
  match running.submit env i with
  | (.waiting k t, s') =>
    if (s'.outcomeOf k t).isDone then [] else s'.replyWaits call k t i (.run s.runState)
  | _ => []

theorem runTarget_mem_runWaits {s : Session} {i : Issue} (env : Surroundings) (call : CallId)
    (hcurrent : s.current.isNone = false) (h : s.runWaits env call i ≠ []) :
    s.runTarget env call i ∈ s.runWaits env call i := by
  unfold runWaits at h ⊢
  unfold runTarget perform
  rw [hcurrent, if_neg (by decide), carryOut_eq]
  dsimp only at h ⊢
  split at h
  · rename_i heq
    split at h
    · exact absurd rfl h
    · rename_i hdone
      rw [heq]
      dsimp only
      rw [if_neg hdone, if_neg (by simp [hdone])]
      exact awaitReply_mem_replyWaits (by simpa using hdone)
  · exact absurd rfl h

end Session

/-! ## A place that nothing covers -/

namespace Exchange

/-- A session with limits that has just been started. -/
def hasty : Session :=
  { started with
    settings := { started.settings with runTimeout := some 1.0, commandTimeout := some 2.0 } }

/-- The debugger takes the text of a run command whose caller then gives it up. -/
def givingUp : List Move :=
  [.beginWrite 1.0 0, .take 0, .endWrite 1.0 0, .step 2.0 none (.timesOut 1 2),
    .step 2.0 none (.proceeds 1 2)]

/-- The frame of the run command arrives, and the caller of an interrupt gives up. -/
def givingUpAgain : List Move :=
  [.print 2.0 "main () at main.c:12\n(gdb) ", .step 4.0 none (.timesOut 2 3),
    .step 4.0 none (.proceeds 2 3)]

/-- The target is continued, given up while it runs, and then interrupted. -/
def lateInterrupt : List Move :=
  .step 1.0 none (.call 1 (.run .continue)) :: (givingUp ++
    .step 2.0 none (.call 2 .interrupt) :: givingUpAgain)

/-- The command that an interrupt gives. -/
def interruptIssue : Issue := ⟨Session.interruptText, .interrupt, .warning, true⟩

/-- What setting the target running may come to while no signal fails, if the command is waited
for. -/
def runWaits (x : Exchange) (now : Float) (call : CallId) (i : Issue) : List Exchange :=
  ({ x.session with outbox := [] }.runWaits ⟨now, fun _ _ => none⟩ call i).map fun s =>
    { x with session := s, owed := Debt.signalled (s.outbox.countP (reaches x.launch none)) x.owed }

theorem after_run_mem_runWaits {x : Exchange} {now : Float} {call : CallId} (c : RunCommand)
    (hcurrent : x.session.current.isNone = false)
    (h : x.runWaits now call (Session.plainIssue c.text c.kind .warning) ≠ []) :
    x.after (.step now none (.call call (.run c))) ∈
      x.runWaits now call (Session.plainIssue c.text c.kind .warning) := by
  refine List.mem_map.2 ⟨_, Session.runTarget_mem_runWaits _ call hcurrent ?_, rfl⟩
  exact fun hnil => h (by rw [runWaits, hnil, List.map_nil])

theorem after_interrupt_mem_runWaits {x : Exchange} {now : Float} {call : CallId}
    (hblocking : x.session.blockingRuns = 0) (hcurrent : x.session.current.isNone = false)
    (h : x.runWaits now call interruptIssue ≠ []) :
    x.after (.step now none (.call call .interrupt)) ∈ x.runWaits now call interruptIssue := by
  refine List.mem_map.2 ⟨_, Session.runTarget_mem_runWaits _ call hcurrent ?_, ?_⟩
  · exact fun hnil => h (by rw [runWaits, hnil, List.map_nil])
  · have hbegin : Session.interrupt { x.session with outbox := [] } ⟨now, fun _ _ => none⟩ call = _ :=
      if_pos (beq_iff_eq.2 hblocking)
    dsimp only
    rw [interruptIssue, ← hbegin]
    rfl

theorem follows_append (may : Exchange → Move → Bool) (x : Exchange) (moves moves' : List Move) :
    x.follows may (moves ++ moves') =
      (x.follows may moves && (x.afterAll moves).follows may moves') := by
  induction moves generalizing x with
  | nil => rfl
  | cons m moves ih =>
    rw [List.cons_append, follows, follows, ih, Bool.and_assoc]
    rfl

theorem follows_cons (may : Exchange → Move → Bool) (x : Exchange) (m : Move) (moves : List Move) :
    x.follows may (m :: moves) = (may x m && (x.after m).follows may moves) := rfl

theorem afterAll_cons (x : Exchange) (m : Move) (moves : List Move) :
    x.afterAll (m :: moves) = (x.after m).afterAll moves := rfl

theorem afterAll_append (x : Exchange) (moves moves' : List Move) :
    x.afterAll (moves ++ moves') = (x.afterAll moves).afterAll moves' :=
  List.foldl_append

/-- However the two waits begin, the place of the interrupt stays. -/
theorem place_stays :
    ∀ x ∈ (start 0 hasty).runWaits 1.0 1 (Session.plainIssue "continue" .continue .warning),
      let y := x.afterAll givingUp
      x.follows isPossible givingUp = true ∧ y.session.blockingRuns = 0 ∧
        y.session.current.isNone = false ∧ y.runWaits 2.0 2 interruptIssue ≠ [] ∧
        ∀ z ∈ y.runWaits 2.0 2 interruptIssue,
          z.follows isPossible givingUpAgain = true ∧ (z.afterAll givingUpAgain).isIdle = true ∧
            (z.afterAll givingUpAgain).session.calls.isEmpty = true ∧
            (z.afterAll givingUpAgain).session.currentChannel?.map Channel.pending = some [1] := by
  decide +kernel

/-- A run command is given up while the target runs, and then the target is interrupted: the debugger
prints the frame of the run command alone, and the place of the interrupt stays, whatever is printed
and given up. -/
theorem not_inStep_after_lateInterrupt :
    let x := (start 0 hasty).afterAll lateInterrupt
    hasty.Ready 0 ∧ hasty.settings.runTimeout = some 1.0 ∧
      hasty.settings.commandTimeout = some 2.0 ∧
      (start 0 hasty).follows isPossible lateInterrupt = true ∧
      x.isIdle = true ∧ x.session.calls = [] ∧ ¬ x.InStep := by
  intro x
  let run : Move := .step 1.0 none (.call 1 (.run .continue))
  let interrupt : Move := .step 2.0 none (.call 2 .interrupt)
  let y := ((start 0 hasty).after run).afterAll givingUp
  have hrun : (start 0 hasty).after run ∈
      (start 0 hasty).runWaits 1.0 1 (Session.plainIssue "continue" .continue .warning) :=
    after_run_mem_runWaits _ (by decide +kernel) (by decide +kernel)
  obtain ⟨hgivingUp, hblocking, hcurrent, hwaits, hplace⟩ := place_stays _ hrun
  obtain ⟨hagain, hidle, hcalls, hpending⟩ :=
    hplace _ (after_interrupt_mem_runWaits hblocking hcurrent hwaits)
  have hx : x = (y.after interrupt).afterAll givingUpAgain := by
    have hmoves : x = (start 0 hasty).afterAll lateInterrupt := rfl
    rw [hmoves, lateInterrupt, afterAll_cons, afterAll_append, afterAll_cons]
  have hfollows : (start 0 hasty).follows isPossible lateInterrupt = true := by
    have hpossible : (start 0 hasty).isPossible run = true := rfl
    have hpossible' : y.isPossible interrupt = true := rfl
    rw [lateInterrupt, follows_cons, follows_append, follows_cons, hpossible, hgivingUp, hpossible',
      hagain]
    rfl
  rw [← hx] at hidle hcalls hpending
  refine ⟨started_ready.withSettings _, rfl, rfl, hfollows, hidle, List.isEmpty_iff.1 hcalls, ?_⟩
  rintro ⟨ch, hch, hnone, -⟩
  rw [hch, Option.map_some, hnone] at hpending
  cases hpending

end Exchange

end DebugConsole
