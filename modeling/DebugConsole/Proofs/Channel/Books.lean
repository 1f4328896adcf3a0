import DebugConsole.Proofs.Channel.Chronicle

set_option autoImplicit false

/-!
# The books of a channel in every run

What is pending, whose ticket each pending number is, what is in flight and what waits: these are four
books, and every operation has to bring all of them up to date, also a write that fails when its command has
been answered already or when the channel has been closed meanwhile.  Whatever happens and in whatever
order, they agree; and a channel that has been closed stays closed (`isClosed_of_steps`), with nothing left
in any of them.

That they agree is `Channel.Consistent`, which every operation keeps by a lemma of its own; what it comes to
in every run is said by `booksAgree_of_reachable`.
-/

namespace DebugConsole

namespace Channel

/-- Nothing is owed a frame, nobody waits for one, and nothing waits or is in flight. -/
structure Void (ch : Channel) : Prop where
  pending : ch.pending = []
  registered : ch.registered = []
  backlog : ch.backlog = []
  inFlight : ch.inFlight = none

theorem Consistent.void {ch : Channel} {numbers : List CommandId} (h : ch.Consistent numbers)
    (hc : ch.isClosed = true) : ch.Void := by
  have hpending := h.shut hc
  have hline : ch.line = [] := by
    rw [← List.sublist_nil, ← hpending]
    exact h.line
  obtain ⟨hflight, hbacklog⟩ := List.append_eq_nil_iff.1 hline
  refine ⟨hpending, ?_, by simpa using hbacklog, by simpa using hflight⟩
  simpa [hpending] using h.keys

/-! ## What is closed stays closed -/

@[simp] theorem isClosed_cancel (ch : Channel) (t : Ticket) :
    (ch.cancel t).isClosed = ch.isClosed := by
  rw [cancel, settle_eq]

@[simp] theorem isClosed_beginWrite (ch : Channel) (serial : Nat) (now : Float) :
    (ch.beginWrite serial now).isClosed = ch.isClosed := by
  unfold beginWrite
  split <;> rfl

@[simp] theorem isClosed_emit (ch : Channel) (lines : List String) (now : Float) :
    (ch.emit lines now).isClosed = ch.isClosed := by
  cases hp : ch.pending with
  | nil => rw [emit_of_pending_nil lines now hp]
  | cons id rest => rw [emit_of_pending_cons lines now hp, isClosed_retire]

@[simp] theorem isClosed_feed (ch : Channel) (chunk : String) (now : Float) :
    (ch.feed chunk now).isClosed = ch.isClosed := by
  have hframes : ∀ (frames : List (List String)) (ch : Channel),
      (frames.foldl (fun ch lines => ch.emit lines now) ch).isClosed = ch.isClosed := by
    intro frames
    induction frames with
    | nil => exact fun _ => rfl
    | cons lines frames ih => exact fun ch => (ih _).trans (ch.isClosed_emit lines now)
  exact hframes _ _

@[simp] theorem isClosed_close (ch : Channel) (fault : ChannelFault) :
    (ch.close fault).isClosed = true := rfl

@[simp] theorem isClosed_endOutput (ch : Channel) : ch.endOutput.isClosed = true := rfl

@[simp] theorem isClosed_failOutput (ch : Channel) (cause : String) :
    (ch.failOutput cause).isClosed = true := rfl

/-- A closed channel refuses every command. -/
theorem submit_of_isClosed {ch : Channel} (hc : ch.isClosed = true) (c : Command) :
    ch.submit c = .error .closed := by
  simp [submit, reserve, hc]

/-- A closed channel refuses every signal. -/
theorem signal_of_isClosed {ch : Channel} (hc : ch.isClosed = true) (id : CommandId)
    (name : String) (now : Float) (fault : Option Fault) :
    ch.signal id name now fault = (.refused .closed, ch) := by
  simp [signal, reserve, hc]

theorem isClosed_submit {ch ch' : Channel} {c : Command} {t : Ticket}
    (h : ch.submit c = .ok (t, ch')) : ch'.isClosed = ch.isClosed := by
  obtain ⟨-, -, rfl⟩ := submit_eq_ok_iff.1 h
  split <;> rfl

@[simp] theorem isClosed_signal (ch : Channel) (id : CommandId) (name : String) (now : Float)
    (fault : Option Fault) : (ch.signal id name now fault).2.isClosed = ch.isClosed := by
  cases hc : ch.isClosed with
  | true => rw [signal_of_isClosed hc, hc]
  | false => rw [(flight_signal hc id name now fault).1, hc]

end Channel

namespace Chronicle

variable {mayPrint : Chronicle → Prop} {prompt : String} {d d' : Chronicle}

/-- No step opens a closed channel. -/
theorem Step.isClosed (s : Step mayPrint d d') (hc : d.channel.isClosed = true) :
    d'.channel.isClosed = true := by
  cases s with
  | submit new submits =>
    rw [Channel.submit_of_isClosed hc] at submits
    cases submits
  | signal name now fault isOpen new =>
    rw [hc] at isOpen
    cases isOpen
  | cancel t => simpa using hc
  | beginWrite now writing unbegun => simpa using hc
  | endWrite fault writing begun => simpa using hc
  | buffer b => exact hc
  | emit lines now may => simpa using hc
  | close fault => simp
  | endOutput => simp
  | failOutput cause => simp

theorem isClosed_of_steps (h : Relation.ReflTransGen (Step mayPrint) d d')
    (hc : d.channel.isClosed = true) : d'.channel.isClosed = true := by
  induction h with
  | refl => exact hc
  | tail _ s ih => exact s.isClosed ih

/-! ## In every run -/

/-- The books of a chronicle's channel agree, and once it is closed they stay empty. -/
structure BooksAgree (mayPrint : Chronicle → Prop) (d : Chronicle) : Prop where
  /-- no number is pending twice -/
  distinct : d.channel.pending.Nodup
  /-- exactly the pending numbers have a ticket -/
  keys : d.channel.registered.map Prod.fst = d.channel.pending
  /-- what is in flight is pending, and what waits stands behind it, in the same order -/
  line : ∀ id, d.channel.inFlight = some id →
    (id :: d.channel.backlog.map Command.id).Sublist d.channel.pending
  /-- nothing waits when nothing is in flight -/
  idle : d.channel.inFlight = none → d.channel.backlog = []
  /-- whatever happens to a closed channel, it stays closed and empty -/
  closed : d.channel.isClosed = true → ∀ d', Relation.ReflTransGen (Step mayPrint) d d' →
    d'.channel.isClosed = true ∧ d'.channel.Void
  /-- a closed channel accepts nothing, and is as before -/
  refuses : d.channel.isClosed = true → (∀ c, d.channel.submit c = .error .closed) ∧
    ∀ id name now fault, d.channel.signal id name now fault = (.refused .closed, d.channel)

/-- In every run the books agree, in whatever order commands and signals are submitted, fail and are
given up, writes end, frames are complete and the channel is closed. -/
theorem booksAgree_of_reachable (h : Reachable mayPrint prompt d) : d.BooksAgree mayPrint := by
  have hc := h.faithful.consistent
  refine ⟨hc.unique, hc.keys, ?_, hc.idle, ?_, ?_⟩
  · intro id hid
    have hline := hc.line
    rwa [Channel.line, hid] at hline
  · intro hclosed d' steps
    have hclosed' := isClosed_of_steps steps hclosed
    have h' : Reachable mayPrint prompt d' := Relation.ReflTransGen.trans h steps
    exact ⟨hclosed', h'.faithful.consistent.void hclosed'⟩
  · intro hclosed
    exact ⟨Channel.submit_of_isClosed hclosed, Channel.signal_of_isClosed hclosed⟩

/-- A frame of the target's own answers a command whose write is still going on; that write fails
only when the next command is in flight already, behind which a signal has taken its place. -/
theorem booksAgree_after_late_failure : ∃ d, Reachable (fun _ => True) "(gdb)" d ∧
    d.channel.outcome 0 = .answered ⟨["stopped"], 0, some (2.0 - 1.0)⟩ ∧
    d.channel.inFlight = some 1 ∧ d.channel.pending = [1, 3] ∧
    d.channel.registered = [(1, 1), (3, 3)] ∧ d.BooksAgree fun _ => True := by
  have h : Reachable (fun _ => True) "(gdb)" (start "(gdb)") := .start
  have h := h.next (.submit (c := ⟨0, "run"⟩) (by decide) rfl)
  have h := h.next (.submit (c := ⟨1, "where"⟩) (by decide) rfl)
  have h := h.next (@Step.signal _ _ 2 "SIGINT" 0.5 (some ⟨.noSuchProcess, "no process"⟩) rfl
    (by decide))
  have h := h.next (.beginWrite (w := ⟨0, ⟨0, "run"⟩, false⟩) 1.0 (by decide) rfl)
  have h := h.next (@Step.signal _ _ 3 "SIGINT" 1.5 none rfl (by decide))
  have h := h.next (.emit ["stopped"] 2.0 trivial)
  have h := h.next (.endWrite (w := ⟨0, ⟨0, "run"⟩, true⟩) (some ⟨.brokenPipe, "broken pipe"⟩)
    (by decide) rfl)
  exact ⟨_, h, rfl, rfl, rfl, rfl, booksAgree_of_reachable h⟩

end Chronicle

end DebugConsole
