import DebugConsole.Process.Handle
import DebugConsole.Proofs.Channel.Consistency
import Mathlib.Logic.Relation

set_option autoImplicit false

/-!
# A channel and an orderly debugger

An orderly debugger prints nothing on its own.  It answers every text and every signal that it
receives with one frame, in the order received, as late as it likes; what it refuses it does not
answer.  `Dialogue.Step` says what can happen next when a channel talks to such a debugger:
submissions with new numbers, submitters that give up, slow and refused writes, signals, answers,
the end.  When a signal may be delivered is left to the discipline of whoever uses the channel, the
predicate `mayInterrupt`.
-/

namespace DebugConsole

/-- What the debugger prints in answer to a number. -/
structure Answer where
  id : CommandId
  lines : List String
  deriving DecidableEq, Repr

/-- A channel, and what has passed between it and the debugger. -/
structure Dialogue where
  channel : Channel
  /-- the numbers submitted so far; the place of each is its ticket -/
  submitted : List CommandId
  /-- answers to what the debugger has received that are not printed yet, oldest first -/
  owed : List Answer
  /-- the answers printed so far, oldest first -/
  printed : List Answer

namespace Dialogue

/-- Nothing has passed yet. -/
def start (prompt : String) : Dialogue := ⟨.create prompt, [], [], []⟩

/-- What the debugger has received, in this order. -/
def received (d : Dialogue) : List CommandId := (d.printed ++ d.owed).map Answer.id

/-- Everything that is owed a frame has reached the debugger. -/
def IsCaughtUp (d : Dialogue) : Prop := ∀ id ∈ d.channel.pending, id ∈ d.received

/-- Every frame that has answered something is the debugger's own answer to it. -/
def AnswersOwn (d : Dialogue) : Prop :=
  ∀ t f, d.channel.outcome t = .answered f →
    d.submitted[t]? = some f.id ∧ ⟨f.id, f.lines⟩ ∈ d.printed

/-- What can happen next.  A write is under way from `beginWrite` on; in between, the debugger may
receive its text, and only then can the write end well. -/
inductive Step (mayInterrupt : Dialogue → Prop) : Dialogue → Dialogue → Prop
  | submit {d : Dialogue} {c : Command} {t : Ticket} {ch : Channel} (new : c.id ∉ d.submitted)
      (submits : d.channel.submit c = .ok (t, ch)) :
      Step mayInterrupt d { d with channel := ch, submitted := d.submitted ++ [c.id] }
  | cancel {d : Dialogue} (t : Ticket) :
      Step mayInterrupt d { d with channel := d.channel.cancel t }
  | beginWrite {d : Dialogue} (serial : Nat) (now : Float) :
      Step mayInterrupt d { d with channel := d.channel.beginWrite serial now }
  | receive {d : Dialogue} {w : Writer} (lines : List String) (writing : w ∈ d.channel.writers)
      (begun : w.hasBegun = true) (new : w.command.id ∉ d.received) :
      Step mayInterrupt d { d with owed := d.owed ++ [⟨w.command.id, lines⟩] }
  | endWrite {d : Dialogue} {w : Writer} (writing : w ∈ d.channel.writers)
      (begun : w.hasBegun = true) (known : w.command.id ∈ d.received) :
      Step mayInterrupt d { d with channel := d.channel.endWrite w.serial none }
  | refuse {d : Dialogue} {w : Writer} (fault : Fault) (writing : w ∈ d.channel.writers)
      (begun : w.hasBegun = true) (unknown : w.command.id ∉ d.received) :
      Step mayInterrupt d { d with channel := d.channel.endWrite w.serial (some fault) }
  | buffer {d : Dialogue} (b : FrameBuffer) :
      Step mayInterrupt d { d with channel := { d.channel with buffer := b } }
  | print {d : Dialogue} {a : Answer} {rest : List Answer} (now : Float)
      (next : d.owed = a :: rest) :
      Step mayInterrupt d
        { d with channel := d.channel.emit a.lines now, owed := rest, printed := d.printed ++ [a] }
  | interrupt {d : Dialogue} {id : CommandId} {name : String} {now : Float} {t : Ticket}
      {ch : Channel} (lines : List String) (may : mayInterrupt d) (new : id ∉ d.submitted)
      (submits : d.channel.signal id name now none = (.submitted t, ch)) :
      Step mayInterrupt d
        { d with
          channel := ch, submitted := d.submitted ++ [id], owed := d.owed ++ [⟨id, lines⟩] }
  | refuseSignal {d : Dialogue} {id : CommandId} {name : String} {now : Float} {fault : Fault}
      {t : Ticket} {ch : Channel} (new : id ∉ d.submitted)
      (submits : d.channel.signal id name now (some fault) = (.submitted t, ch)) :
      Step mayInterrupt d { d with channel := ch, submitted := d.submitted ++ [id] }
  | close {d : Dialogue} (fault : ChannelFault) :
      Step mayInterrupt d { d with channel := d.channel.close fault }
  | endOutput {d : Dialogue} :
      Step mayInterrupt d { d with channel := d.channel.endOutput }
  | failOutput {d : Dialogue} (cause : String) :
      Step mayInterrupt d { d with channel := d.channel.failOutput cause }

/-- What can come about from the start. -/
def Reachable (mayInterrupt : Dialogue → Prop) (prompt : String) (d : Dialogue) : Prop :=
  Relation.ReflTransGen (Step mayInterrupt) (start prompt) d

/-! ## Chunks of output -/

section Chunks

variable {mayInterrupt : Dialogue → Prop} {prompt : String} {d : Dialogue}

theorem Reachable.start : Reachable mayInterrupt prompt (start prompt) :=
  Relation.ReflTransGen.refl

theorem Reachable.next {d' : Dialogue} (h : Reachable mayInterrupt prompt d)
    (s : Step mayInterrupt d d') : Reachable mayInterrupt prompt d' :=
  Relation.ReflTransGen.tail h s

theorem Reachable.print {answers rest : List Answer} (now : Float)
    (h : Reachable mayInterrupt prompt d) (next : d.owed = answers ++ rest) :
    Reachable mayInterrupt prompt
      { d with
        channel := (answers.map Answer.lines).foldl (fun ch lines => ch.emit lines now) d.channel
        owed := rest
        printed := d.printed ++ answers } := by
  induction answers generalizing d with
  | nil =>
    rw [List.nil_append] at next
    subst next
    simpa using h
  | cons a answers ih =>
    rw [List.cons_append] at next
    have hprinted := ih (h.next (.print now next)) rfl
    simpa using hprinted

/-- Output arrives in a chunk cut anywhere: if the frames that it completes are the next answers,
the debugger has printed them. -/
theorem Reachable.feed {answers rest : List Answer} {chunk : String} (now : Float)
    (h : Reachable mayInterrupt prompt d) (next : d.owed = answers ++ rest)
    (completes : (d.channel.takeFrames chunk).1 = answers.map Answer.lines) :
    Reachable mayInterrupt prompt
      { d with
        channel := d.channel.feed chunk now
        owed := rest
        printed := d.printed ++ answers } := by
  have hbuffer := h.next (.buffer (d.channel.buffer.feed d.channel.prompt.toList chunk).2)
  have hprinted := hbuffer.print now next
  have hfeed : d.channel.feed chunk now =
      (answers.map Answer.lines).foldl (fun ch lines => ch.emit lines now)
        { d.channel with
          buffer := (d.channel.buffer.feed d.channel.prompt.toList chunk).2 } := by
    rw [← completes]
    rfl
  rw [hfeed]
  exact hprinted

end Chunks

/-! ## What every step keeps -/

/-- Nothing is received twice, and what waits has not been received. -/
structure Sound (d : Dialogue) : Prop where
  consistent : d.channel.Consistent d.submitted
  distinct : d.received.Nodup
  known : d.received ⊆ d.submitted
  unsent : ∀ c ∈ d.channel.backlog, c.id ∉ d.received

namespace Sound

variable {mayInterrupt : Dialogue → Prop} {d d' : Dialogue}

theorem start (prompt : String) : (start prompt).Sound where
  consistent := .create prompt
  distinct := List.nodup_nil
  known := List.nil_subset _
  unsent := by simp [Dialogue.start, Channel.create]

theorem withChannel {ch : Channel} (h : d.Sound) (hc : ch.Consistent d.submitted)
    (hb : ch.backlog ⊆ d.channel.backlog) : { d with channel := ch }.Sound :=
  { h with
    consistent := hc
    unsent := fun c hmem => h.unsent c (hb hmem) }

theorem submit {ch : Channel} {id : CommandId} (h : d.Sound)
    (hc : ch.Consistent (d.submitted ++ [id])) (hid : id ∉ d.submitted)
    (hb : ∀ c ∈ ch.backlog, c ∈ d.channel.backlog ∨ c.id = id) :
    { d with channel := ch, submitted := d.submitted ++ [id] }.Sound where
  consistent := hc
  distinct := h.distinct
  known := fun _ hr => List.mem_append_left _ (h.known hr)
  unsent := by
    intro c hmem hr
    rcases hb c hmem with hold | rfl
    · exact h.unsent c hold hr
    · exact hid (h.known hr)

theorem receive {a : Answer} (h : d.Sound) (hnew : a.id ∉ d.received)
    (hknown : a.id ∈ d.submitted) (hb : ∀ c ∈ d.channel.backlog, c.id ≠ a.id) :
    { d with owed := d.owed ++ [a] }.Sound := by
  have hreceived : received { d with owed := d.owed ++ [a] } = d.received ++ [a.id] := by
    simp [received]
  refine { h with distinct := ?_, known := ?_, unsent := ?_ }
  · rw [hreceived]
    exact nodup_append_singleton h.distinct hnew
  · intro id hid
    rw [hreceived, List.mem_append, List.mem_singleton] at hid
    rcases hid with hid | rfl
    · exact h.known hid
    · exact hknown
  · intro c hmem hid
    rw [hreceived, List.mem_append, List.mem_singleton] at hid
    rcases hid with hid | hid
    · exact h.unsent c hmem hid
    · exact hb c hmem hid

/-- The debugger receives the text of a write. -/
theorem receiveWrite {w : Writer} (lines : List String) (h : d.Sound)
    (writing : w ∈ d.channel.writers) (hnew : w.command.id ∉ d.received) :
    { d with owed := d.owed ++ [Answer.mk w.command.id lines] }.Sound := by
  apply h.receive hnew (h.consistent.writing w writing)
  intro c hc heq
  have hwaits : c.id ∈ d.channel.backlog.map Command.id := List.mem_map_of_mem hc
  rw [heq] at hwaits
  exact h.consistent.notMem_backlog_of_mem_writers writing hwaits

theorem print {a : Answer} {rest : List Answer} (h : d.Sound) (now : Float)
    (next : d.owed = a :: rest) :
    { d with
      channel := d.channel.emit a.lines now, owed := rest, printed := d.printed ++ [a] }.Sound := by
  have hreceived : received { d with
      channel := d.channel.emit a.lines now, owed := rest, printed := d.printed ++ [a] } =
        d.received := by
    simp [received, next]
  refine ⟨h.consistent.emit _ _, ?_, ?_, ?_⟩
  · rw [hreceived]
    exact h.distinct
  · rw [hreceived]
    exact h.known
  · intro c hmem
    rw [hreceived]
    apply h.unsent c
    cases hp : d.channel.pending with
    | nil =>
      rw [Channel.emit_of_pending_nil _ _ hp] at hmem
      exact hmem
    | cons id ids =>
      rw [Channel.emit_of_pending_cons _ _ hp] at hmem
      exact Channel.backlog_retire_subset _ _ _ hmem

/-- Every step keeps a dialogue sound. -/
theorem step (h : d.Sound) (s : Step mayInterrupt d d') : d'.Sound := by
  cases s with
  | @submit c t ch new submits =>
    apply h.submit (h.consistent.submit new submits) new
    obtain ⟨-, -, rfl⟩ := Channel.submit_eq_ok_iff.1 submits
    intro b hb
    split at hb
    · rcases List.mem_append.1 hb with hb | hb
      · exact Or.inl hb
      · exact Or.inr (by rw [List.mem_singleton.1 hb])
    · exact Or.inl hb
  | cancel t =>
    apply h.withChannel (h.consistent.cancel t)
    rw [Channel.cancel, Channel.settle_eq]
    exact List.Subset.refl _
  | beginWrite serial now =>
    apply h.withChannel (h.consistent.beginWrite serial now)
    unfold Channel.beginWrite
    split <;> exact List.Subset.refl _
  | receive lines writing _ new => exact h.receiveWrite lines writing new
  | @endWrite w writing begun known =>
    exact h.withChannel (h.consistent.endWrite _ _) (Channel.backlog_endWrite_subset _ _ _)
  | @refuse w fault writing begun unknown =>
    exact h.withChannel (h.consistent.endWrite _ _) (Channel.backlog_endWrite_subset _ _ _)
  | buffer b => exact h.withChannel { h.consistent with } (List.Subset.refl _)
  | print now next => exact h.print now next
  | @interrupt id name now t ch lines may new submits =>
    have hc := h.consistent.signal new submits
    obtain ⟨-, -, rfl⟩ := Channel.signal_none_eq_submitted_iff.1 submits
    have hsubmitted := h.submit hc new fun b hb => Or.inl hb
    refine hsubmitted.receive (a := ⟨id, lines⟩) (fun hr => new (h.known hr)) (by simp) ?_
    intro c hmem heq
    have hpending : c.id ∈ d.channel.pending :=
      h.consistent.mem_pending_of_mem_backlog (List.mem_map_of_mem hmem)
    rw [heq] at hpending
    exact new (h.consistent.mem_of_mem_pending hpending)
  | @refuseSignal id name now fault t ch new submits =>
    have hc := h.consistent.signalFailed new submits
    obtain ⟨-, -, -, rfl⟩ := Channel.signal_some_eq_submitted_iff.1 submits
    exact h.submit hc new fun b hb => Or.inl hb
  | close fault =>
    apply h.withChannel (h.consistent.close fault)
    rw [Channel.close_eq]
    exact List.nil_subset _
  | endOutput =>
    have hcleared : { d.channel with buffer := .empty }.Consistent d.submitted :=
      { h.consistent with }
    refine h.withChannel { hcleared.close .exited with } ?_
    rw [Channel.endOutput, Channel.close_eq]
    exact List.nil_subset _
  | failOutput cause =>
    refine h.withChannel { h.consistent.close (.unreadable cause) with } ?_
    rw [Channel.failOutput, Channel.close_eq]
    exact List.nil_subset _

end Sound

/-- Every dialogue that can come about is sound. -/
theorem Reachable.sound {mayInterrupt : Dialogue → Prop} {prompt : String} {d : Dialogue}
    (h : Reachable mayInterrupt prompt d) : d.Sound := by
  induction h with
  | refl => exact Sound.start prompt
  | tail _ s ih => exact ih.step s

end Dialogue

end DebugConsole
