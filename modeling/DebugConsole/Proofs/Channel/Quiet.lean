import DebugConsole.Proofs.Channel.Books
import DebugConsole.Proofs.Channel.Correlation
import DebugConsole.Proofs.Framing.Independence

set_option autoImplicit false

/-!
# Frames that answer nothing, left aside

What a channel does with commands does not depend on the frames that answer nothing and wait to be
taken.  So a channel may be in step with an orderly debugger (`Dialogue.Aligned`) but for such frames
(`Channel.Attuned`), and whatever its user does with commands leaves it so.
-/

namespace DebugConsole

namespace Channel

variable {ch ch' : Channel}

/-- A channel without the frames that answer nothing. -/
def quiet (ch : Channel) : Channel := { ch with unsolicited := [] }

theorem quiet_submit {c : Command} {t : Ticket} (h : ch.submit c = .ok (t, ch')) :
    ch.quiet.submit c = .ok (t, ch'.quiet) := by
  obtain ⟨hopen, rfl, rfl⟩ := submit_eq_ok_iff.1 h
  exact submit_eq_ok_iff.2 ⟨hopen, rfl, apply_ite quiet _ _ _⟩

theorem quiet_signal {id : CommandId} {name : String} {now : Float} {t : Ticket} {fault : Fault}
    (h : ch.signal id name now (some fault) = (.submitted t, ch')) :
    ch.quiet.signal id name now (some fault) = (.submitted t, ch'.quiet) := by
  obtain ⟨hfails, hopen, rfl, rfl⟩ := signal_some_eq_submitted_iff.1 h
  exact signal_some_eq_submitted_iff.2 ⟨hfails, hopen, rfl, rfl⟩

theorem quiet_cancel (ch : Channel) (t : Ticket) : (ch.cancel t).quiet = ch.quiet.cancel t := by
  rw [cancel, cancel, settle_eq, settle_eq]
  rfl

theorem quiet_close (ch : Channel) (fault : ChannelFault) :
    (ch.close fault).quiet = ch.quiet.close fault := by
  rw [close_eq, close_eq]
  rfl

theorem quiet_beginWrite (ch : Channel) (serial : Nat) (now : Float) :
    (ch.beginWrite serial now).quiet = ch.quiet.beginWrite serial now := by
  unfold beginWrite quiet
  dsimp only
  split <;> rfl

theorem quiet_flushNext (ch : Channel) : ch.flushNext.quiet = ch.quiet.flushNext := by
  unfold flushNext quiet
  dsimp only
  cases ch.backlog with
  | nil => rfl
  | cons c rest => cases ch.isClosed <;> rfl

theorem quiet_retire (ch : Channel) (id : CommandId) (o : Outcome) :
    (ch.retire id o).quiet = ch.quiet.retire id o := by
  have hflight : ∀ c : Channel,
      (if c.inFlight == some id then c.flushNext else c).quiet =
        if c.inFlight == some id then c.quiet.flushNext else c.quiet := by
    intro c
    rw [← quiet_flushNext]
    exact apply_ite quiet _ _ _
  exact hflight { ch.forget id with outcomes := ch.outcomesAfter id o }

theorem quiet_endWrite (ch : Channel) (serial : Nat) (fault : Option Fault) :
    (ch.endWrite serial fault).quiet = ch.quiet.endWrite serial fault := by
  cases hw : ch.writers.find? fun v => v.serial == serial with
  | none =>
    unfold endWrite quiet
    dsimp only
    rw [hw]
  | some w =>
    have hw' : (ch.quiet.writers.find? fun v => v.serial == serial) = some w := hw
    rw [endWrite_of_find? fault hw, endWrite_of_find? fault hw']
    cases fault with
    | none => rfl
    | some f =>
      dsimp only
      split
      · exact quiet_retire _ _ _
      · rfl

/-- Once the frames that answer nothing are left aside, it does not matter when. -/
theorem quiet_emit (ch : Channel) (lines : List String) (now : Float) :
    (ch.emit lines now).quiet = (ch.quiet.emit lines now).quiet := by
  have hsame : ch.quiet.pending = ch.pending := rfl
  cases hp : ch.pending with
  | nil =>
    rw [emit_of_pending_nil lines now hp, emit_of_pending_nil lines now (hsame.trans hp)]
    rfl
  | cons id rest =>
    rw [emit_of_pending_cons lines now hp, emit_of_pending_cons lines now (hsame.trans hp),
      ← quiet_retire]
    rfl

/-! ### What frames are for -/

/-- What a frame has answered was pending. -/
theorem answered_of_emit {lines : List String} {now : Float} {t : Ticket} {f : Frame}
    (h : (ch.emit lines now).outcome t = .answered f) :
    ch.outcome t = .answered f ∨ (f.id, t) ∈ ch.registered := by
  cases hp : ch.pending with
  | nil =>
    rw [emit_of_pending_nil lines now hp] at h
    exact Or.inl h
  | cons id rest =>
    rw [emit_of_pending_cons lines now hp] at h
    rcases answered_of_retire h with hold | ⟨hticket, -, heq⟩
    · exact Or.inl hold
    · cases heq
      exact Or.inr (mem_of_lookup hticket)

theorem registered_emit_subset (ch : Channel) (lines : List String) (now : Float) :
    (ch.emit lines now).registered ⊆ ch.registered := by
  cases hp : ch.pending with
  | nil =>
    rw [emit_of_pending_nil lines now hp]
    exact List.Subset.refl _
  | cons id rest =>
    rw [emit_of_pending_cons lines now hp, registered_retire]
    exact List.filter_subset_self _

theorem answered_of_emitAll {frames : List (List String)} {now : Float} {t : Ticket} {f : Frame}
    (h : (ch.emitAll frames now).outcome t = .answered f) :
    ch.outcome t = .answered f ∨ (f.id, t) ∈ ch.registered := by
  induction frames generalizing ch with
  | nil => exact Or.inl h
  | cons lines frames ih =>
    rcases ih h with hold | hmem
    · exact answered_of_emit hold
    · exact Or.inr (registered_emit_subset ch lines now hmem)

/-- A frame that answers a number is left to nobody else. -/
theorem unsolicited_emit (lines : List String) (now : Float) (h : ch.pending ≠ []) :
    (ch.emit lines now).unsolicited = ch.unsolicited := by
  obtain ⟨id, rest, hid⟩ := List.exists_cons_of_ne_nil h
  rw [emit_of_pending_cons lines now hid, unsolicited_retire]

/-- Frames that answer nothing wait behind those that wait already. -/
theorem unsolicited_prefix_emitAll (ch : Channel) (frames : List (List String)) (now : Float) :
    ch.unsolicited <+: (ch.emitAll frames now).unsolicited := by
  induction frames generalizing ch with
  | nil => exact List.prefix_refl _
  | cons lines frames ih =>
    have hemit : ch.unsolicited <+: (ch.emit lines now).unsolicited := by
      by_cases hp : ch.pending = []
      · rw [emit_of_pending_nil lines now hp]
        exact List.prefix_append _ _
      · exact ⟨[], by rw [List.append_nil, unsolicited_emit lines now hp]⟩
    exact hemit.trans (ih _)

/-- Output arrives that completes some frames. -/
theorem feed_of_frames {chunk : String} {frames : List (List String)} (now : Float)
    (h : (ch.takeFrames chunk).1 = frames) :
    ch.feed chunk now = (ch.takeFrames chunk).2.emitAll frames now := by
  rw [← h]
  rfl

theorem answered_of_feed {chunk : String} {now : Float} {t : Ticket} {f : Frame}
    (h : (ch.feed chunk now).outcome t = .answered f) :
    ch.outcome t = .answered f ∨ (f.id, t) ∈ ch.registered := by
  have hread : (ch.takeFrames chunk).2.outcome t = .answered f ∨
      (f.id, t) ∈ (ch.takeFrames chunk).2.registered := answered_of_emitAll h
  exact hread

theorem unsolicited_prefix_feed (ch : Channel) (chunk : String) (now : Float) :
    ch.unsolicited <+: (ch.feed chunk now).unsolicited :=
  (ch.takeFrames chunk).2.unsolicited_prefix_emitAll _ now

/-- The frames that answer nothing are left aside. -/
theorem quiet_aligned {d : Dialogue} (h : d.Aligned) :
    { d with channel := d.channel.quiet }.Aligned where
  sound := h.sound.withChannel { h.sound.consistent with } (List.Subset.refl _)
  own := h.own
  ordered := fun hopen => { h.ordered hopen with quiet := rfl }

/-! ## In step but for such frames -/

/-- A channel that has been given `numbers`, all below the `next` one, is in step with an orderly
debugger but for the frames that answer nothing. -/
structure Attuned (ch : Channel) (next : CommandId) (numbers : List CommandId)
    (owed printed : List Answer) : Prop where
  positive : 0 ≤ next
  given : ∀ id ∈ numbers, 0 ≤ id ∧ id < next
  aligned : (Dialogue.mk ch.quiet numbers owed printed).Aligned

namespace Attuned

variable {next : CommandId} {numbers : List CommandId} {owed printed : List Answer}

theorem create (prompt : String) (h : 0 ≤ next) : (Channel.create prompt).Attuned next [] [] [] :=
  ⟨h, fun _ hid => absurd hid List.not_mem_nil, .start prompt⟩

theorem consistent (h : ch.Attuned next numbers owed printed) : ch.Consistent numbers :=
  { h.aligned.sound.consistent with }

theorem notMem (h : ch.Attuned next numbers owed printed) : next ∉ numbers := fun hid =>
  absurd (h.given next hid).2 (Int.lt_irrefl _)

theorem number (h : ch.Attuned next numbers owed printed) :
    ch.Attuned (next + 1) numbers owed printed where
  positive := Int.le_trans h.positive (Int.le_of_lt (Int.lt_succ _))
  given := fun id hid => ⟨(h.given id hid).1, Int.lt_trans (h.given id hid).2 (Int.lt_succ _)⟩
  aligned := h.aligned

theorem numbered (h : ch.Attuned next numbers owed printed)
    (haligned : (Dialogue.mk ch'.quiet (numbers ++ [next]) owed printed).Aligned) :
    ch'.Attuned (next + 1) (numbers ++ [next]) owed printed where
  positive := h.number.positive
  given := by
    intro id hid
    rcases List.mem_append.1 hid with hid | hid
    · exact h.number.given id hid
    · rw [List.mem_singleton.1 hid]
      exact ⟨h.positive, Int.lt_succ _⟩
  aligned := haligned

theorem of_aligned {owed' printed' : List Answer} (h : ch.Attuned next numbers owed printed)
    (haligned : (Dialogue.mk ch'.quiet numbers owed' printed').Aligned) :
    ch'.Attuned next numbers owed' printed' := ⟨h.positive, h.given, haligned⟩

/-- A step of the dialogue that delivers no signal. -/
theorem step {d' : Dialogue} (h : ch.Attuned next numbers owed printed)
    (s : Dialogue.Step (fun _ => False) ⟨ch.quiet, numbers, owed, printed⟩ d') : d'.Aligned :=
  h.aligned.step s fun _ hfalse => hfalse.elim

/-! ## What the user of a channel does -/

theorem submit {text : String} {t : Ticket} (h : ch.Attuned next numbers owed printed)
    (submits : ch.submit ⟨next, text⟩ = .ok (t, ch')) :
    ch'.Attuned (next + 1) (numbers ++ [next]) owed printed :=
  h.numbered (h.step (.submit (c := ⟨next, text⟩) h.notMem (quiet_submit submits)))

theorem signal {name : String} {now : Float} {fault : Fault}
    (h : ch.Attuned next numbers owed printed) (hfails : failsSignal fault = true) :
    ∃ numbers', numbers <+: numbers' ∧
      (ch.signal next name now (some fault)).2.Attuned (next + 1) numbers' owed printed := by
  cases hclosed : ch.isClosed with
  | true =>
    rw [signal_of_isClosed hclosed]
    exact ⟨numbers, List.prefix_refl _, h.number⟩
  | false =>
    have submits : ch.signal next name now (some fault) = (.submitted ch.outcomes.length, _) :=
      signal_some_eq_submitted_iff.2 ⟨hfails, hclosed, rfl, rfl⟩
    rw [submits]
    refine ⟨_, List.prefix_append _ _, h.numbered ?_⟩
    exact h.step (.refuseSignal h.notMem (quiet_signal submits))

theorem cancel (h : ch.Attuned next numbers owed printed) (t : Ticket) :
    (ch.cancel t).Attuned next numbers owed printed := by
  apply h.of_aligned
  rw [quiet_cancel]
  exact h.step (.cancel t)

theorem close (h : ch.Attuned next numbers owed printed) (fault : ChannelFault) :
    (ch.close fault).Attuned next numbers owed printed := by
  apply h.of_aligned
  rw [quiet_close]
  exact h.step (.close fault)

/-- Neither the buffer nor the reader nor the frames that answer nothing matter. -/
theorem withReader (h : ch.Attuned next numbers owed printed) (buffer : FrameBuffer)
    (reader : ReaderState) (unsolicited : List Frame) :
    { ch with buffer, reader, unsolicited }.Attuned next numbers owed printed := by
  apply h.of_aligned
  have hconsistent : { ch.quiet with buffer, reader }.Consistent numbers :=
    { h.aligned.sound.consistent with }
  have hsound := h.aligned.sound.withChannel hconsistent (List.Subset.refl _)
  exact h.aligned.withChannel hsound (fun _ _ hf => hf) rfl rfl rfl rfl (fun w hw => ⟨w, hw, rfl⟩)
    rfl

/-! ## What the debugger does -/

theorem beginWrite (h : ch.Attuned next numbers owed printed) (serial : Nat) (now : Float) :
    (ch.beginWrite serial now).Attuned next numbers owed printed := by
  apply h.of_aligned
  rw [quiet_beginWrite]
  exact h.step (.beginWrite serial now)

theorem receive {w : Writer} (lines : List String) (h : ch.Attuned next numbers owed printed)
    (writing : w ∈ ch.writers) (begun : w.hasBegun = true)
    (new : w.command.id ∉ (printed ++ owed).map Answer.id) :
    ch.Attuned next numbers (owed ++ [⟨w.command.id, lines⟩]) printed :=
  h.of_aligned (h.step (.receive lines writing begun new))

theorem endWrite {w : Writer} (h : ch.Attuned next numbers owed printed) (writing : w ∈ ch.writers)
    (begun : w.hasBegun = true) (known : w.command.id ∈ (printed ++ owed).map Answer.id) :
    (ch.endWrite w.serial none).Attuned next numbers owed printed := by
  apply h.of_aligned
  rw [quiet_endWrite]
  exact h.step (.endWrite writing begun known)

theorem refuse {w : Writer} (fault : Fault) (h : ch.Attuned next numbers owed printed)
    (writing : w ∈ ch.writers) (begun : w.hasBegun = true)
    (unknown : w.command.id ∉ (printed ++ owed).map Answer.id) :
    (ch.endWrite w.serial (some fault)).Attuned next numbers owed printed := by
  apply h.of_aligned
  rw [quiet_endWrite]
  exact h.step (.refuse fault writing begun unknown)

theorem emit {a : Answer} (h : ch.Attuned next numbers (a :: owed) printed) (now : Float) :
    (ch.emit a.lines now).Attuned next numbers owed (printed ++ [a]) := by
  apply h.of_aligned
  rw [quiet_emit]
  exact quiet_aligned (h.step (.print now rfl))

theorem emitAll {frames : List (List String)} (h : ch.Attuned next numbers owed printed) (now : Float)
    (due : frames <+: owed.map Answer.lines) :
    (ch.emitAll frames now).Attuned next numbers (owed.drop frames.length)
      (printed ++ owed.take frames.length) := by
  induction frames generalizing ch owed printed with
  | nil =>
    rw [List.length_nil, List.drop_zero, List.take_zero, List.append_nil]
    exact h
  | cons lines frames ih =>
    cases owed with
    | nil => simp at due
    | cons a owed =>
      obtain ⟨rfl, hdue⟩ := List.cons_prefix_cons.1 due
      have hrest := ih (h.emit now) hdue
      rwa [List.append_assoc] at hrest

theorem feed {chunk : String} (h : ch.Attuned next numbers owed printed) (now : Float)
    (due : (ch.takeFrames chunk).1 <+: owed.map Answer.lines) :
    (ch.feed chunk now).Attuned next numbers (owed.drop (ch.takeFrames chunk).1.length)
      (printed ++ owed.take (ch.takeFrames chunk).1.length) :=
  (h.withReader _ ch.reader ch.unsolicited).emitAll now due

/-- Output arrives that completes a frame which answers nothing, and then the next answers. -/
theorem feed_unsolicited {chunk : String} {first : List String} {more : List (List String)}
    (h : ch.Attuned next numbers owed printed) (now : Float)
    (hframes : (ch.takeFrames chunk).1 = first :: more) (hpending : ch.pending = [])
    (due : more <+: owed.map Answer.lines) :
    (ch.feed chunk now).Attuned next numbers (owed.drop more.length)
        (printed ++ owed.take more.length) ∧
      ch.unsolicited ++ [⟨first, Frame.unsolicited, none⟩] <+: (ch.feed chunk now).unsolicited := by
  let read := (ch.takeFrames chunk).2
  let left : Channel :=
    { read with unsolicited := ch.unsolicited ++ [⟨first, Frame.unsolicited, none⟩] }
  have hemit : read.emit first now = left := emit_of_pending_nil first now hpending
  have hfeed : ch.feed chunk now = (read.emit first now).emitAll more now :=
    feed_of_frames now hframes
  rw [hfeed, hemit]
  exact ⟨(h.withReader _ ch.reader _).emitAll now due, left.unsolicited_prefix_emitAll more now⟩

theorem endOutput (h : ch.Attuned next numbers owed printed) :
    ch.endOutput.Attuned next numbers owed printed :=
  ((h.withReader .empty ch.reader ch.unsolicited).close .exited).withReader _ .ended _

theorem failOutput (h : ch.Attuned next numbers owed printed) (cause : String) :
    (ch.failOutput cause).Attuned next numbers owed printed :=
  (h.close (.unreadable cause)).withReader _ .ended _

end Attuned

end Channel

end DebugConsole
