import DebugConsole.Proofs.Channel.Chronicle

set_option autoImplicit false

/-!
# Answers that come before the question

A frame goes to the oldest pending number, and a number is pending from its submission on.  So when a frame
is complete in the short time between the scheduling of a write and its beginning, the command is answered
before its text is handed to the process.  This is the only way to it (`causal_iff_of_scheduled`): a command
that still waits behind another is never answered, for the write of the oldest pending number has been
scheduled at least (`Faithful.exists_unbegun`), and an answer that came too early carries no time.

What is known of each answer when it is given stays known (`Recorded.step`); only the history of a run says
what had been handed over by then.
-/

namespace DebugConsole.Chronicle

open Happening

variable {mayPrint : Chronicle → Prop} {prompt : String} {d d' : Chronicle}

/-- No command is answered by a frame that was complete before its text was handed to the
process. -/
def Causal (d : Chronicle) : Prop :=
  ∀ t f, d.channel.outcome t = .answered f → f.id ∈ commandIds d.history →
    ∃ before after, d.history = before ++ .emitted f :: after ∧ f.id ∈ handedIds before

theorem Causal.mem_handedIds {t : Ticket} {f : Frame} (h : d.Causal)
    (hf : d.channel.outcome t = .answered f) (hcommand : f.id ∈ commandIds d.history) :
    f.id ∈ handedIds d.history := by
  obtain ⟨before, after, heq, hhanded⟩ := h t f hf hcommand
  rw [heq, handedIds_append]
  exact List.mem_append_left _ hhanded

/-- Every answer is that of its ticket, the history says when it was given, and for an answer to a
command `R` holds of the frame and the texts handed over by then. -/
def Recorded (R : Frame → List CommandId → Prop) (d : Chronicle) : Prop :=
  ∀ t f, d.channel.outcome t = .answered f → d.submitted[t]? = some f.id ∧
    ∃ before after, d.history = before ++ .emitted f :: after ∧
      (f.id ∈ commandIds d.history → R f (handedIds before))

namespace Recorded

variable {R : Frame → List CommandId → Prop}

theorem start (prompt : String) : (start prompt).Recorded R := by
  intro t f hf
  simp [Channel.outcome_eq_answered_iff, Chronicle.start, Channel.create] at hf

theorem mono (h : d.Recorded R)
    (hanswered : ∀ t f, d'.channel.outcome t = .answered f → d.channel.outcome t = .answered f)
    (hsubmitted : d.submitted <+: d'.submitted) (hhistory : d.history <+: d'.history)
    (hnew : ∀ id ∈ commandIds d'.history, id ∈ commandIds d.history ∨ id ∉ d.submitted) :
    d'.Recorded R := by
  intro t f hf
  obtain ⟨hnumber, before, after, heq, hR⟩ := h t f (hanswered t f hf)
  obtain ⟨ids, hids⟩ := hsubmitted
  obtain ⟨more, hmore⟩ := hhistory
  refine ⟨?_, before, after ++ more, ?_, fun hcommand => hR ?_⟩
  · rw [← hids, List.getElem?_append_left (List.getElem?_eq_some_iff.1 hnumber).1]
    exact hnumber
  · rw [← hmore, heq]
    simp
  · exact (hnew f.id hcommand).resolve_right fun habsent =>
      habsent (List.mem_of_getElem? hnumber)

theorem emit (h : d.Recorded R) (hs : d.Faithful) (lines : List String) (now : Float)
    (hR : ∀ id rest, d.channel.pending = id :: rest → d.channel.Waits id →
      id ∈ commandIds d.history → R (d.channel.reply id lines now) (handedIds d.history)) :
    Recorded R ⟨d.channel.emit lines now, d.submitted,
      d.history ++ [.emitted (d.channel.nextFrame lines now)]⟩ := by
  have hold : ∀ t f, d.channel.outcome t = .answered f → d.submitted[t]? = some f.id ∧
      ∃ before after, d.history ++ [.emitted (d.channel.nextFrame lines now)] =
        before ++ .emitted f :: after ∧
        (f.id ∈ commandIds (d.history ++ [.emitted (d.channel.nextFrame lines now)]) →
          R f (handedIds before)) := by
    intro t f hf
    obtain ⟨hnumber, before, after, heq, hR⟩ := h t f hf
    refine ⟨hnumber, before, after ++ [.emitted (d.channel.nextFrame lines now)], ?_, ?_⟩
    · rw [heq]
      simp
    · simpa using hR
  intro t f hf
  cases hp : d.channel.pending with
  | nil =>
    rw [Channel.emit_of_pending_nil _ _ hp] at hf
    exact hold t f hf
  | cons id rest =>
    rw [Channel.emit_of_pending_cons _ _ hp] at hf
    rcases Channel.answered_of_retire hf with hf | ⟨hticket, hwaiting, heq⟩
    · exact hold t f hf
    · cases heq
      refine ⟨hs.consistent.owner _ (mem_of_lookup hticket), d.history, [], ?_, ?_⟩
      · rw [Channel.nextFrame_of_pending_cons _ _ hp]
      · intro hcommand
        refine hR id rest hp ⟨t, hticket, hwaiting⟩ ?_
        simpa using hcommand

/-- A step keeps answers recorded, if `R` holds of every frame that is given to a command. -/
theorem step (h : d.Recorded R) (hs : d.Faithful) (s : Step mayPrint d d')
    (hR : ∀ lines now id rest, mayPrint d → d.channel.pending = id :: rest → d.channel.Waits id →
      id ∈ commandIds d.history → R (d.channel.reply id lines now) (handedIds d.history)) :
    d'.Recorded R := by
  cases s with
  | @submit c t ch new submits =>
    refine h.mono (fun _ _ hf => Channel.answered_of_submit submits hf) (List.prefix_append _ _)
      (List.prefix_append _ _) fun id hid => ?_
    rw [commandIds_append, List.mem_append] at hid
    rcases hid with hid | hid
    · exact Or.inl hid
    · apply Or.inr
      rw [List.mem_singleton.1 hid]
      exact new
  | signal name now fault isOpen new =>
    exact h.mono (fun _ _ hf => Channel.answered_of_signal isOpen hf) (List.prefix_append _ _)
      (List.prefix_append _ _) fun id hid => Or.inl (by simpa using hid)
  | cancel t =>
    exact h.mono (fun _ _ hf => Channel.answered_of_cancel hf) (List.prefix_refl _)
      (List.prefix_refl _) fun id hid => Or.inl hid
  | beginWrite now writing unbegun =>
    refine h.mono (fun t f hf => ?_) (List.prefix_refl _) (List.prefix_append _ _)
      fun id hid => Or.inl (by simpa using hid)
    rwa [Channel.outcome_beginWrite] at hf
  | endWrite fault writing begun =>
    exact h.mono (fun _ _ hf => Channel.answered_of_endWrite hf) (List.prefix_refl _)
      (List.prefix_refl _) fun id hid => Or.inl hid
  | buffer b => exact h
  | emit lines now may => exact h.emit hs lines now fun id rest => hR lines now id rest may
  | close fault =>
    exact h.mono (fun _ _ hf => Channel.answered_of_close hf) (List.prefix_refl _)
      (List.prefix_refl _) fun id hid => Or.inl hid
  | endOutput =>
    refine h.mono (fun t f hf => ?_) (List.prefix_refl _) (List.prefix_refl _)
      fun id hid => Or.inl hid
    have hclosed : ({ d.channel with buffer := .empty }.close .exited).outcome t = .answered f := hf
    have hold := Channel.answered_of_close hclosed
    exact hold
  | failOutput cause =>
    refine h.mono (fun t f hf => ?_) (List.prefix_refl _) (List.prefix_refl _)
      fun id hid => Or.inl hid
    have hclosed : (d.channel.close (.unreadable cause)).outcome t = .answered f := hf
    exact Channel.answered_of_close hclosed

end Recorded

/-! ## What an answer tells -/

/-! ## Exactly when an answer comes too early -/

/-- The oldest pending number, if it is a command whose text has not been handed over, is about to
be: its write has been scheduled and has not begun. -/
theorem Faithful.exists_unbegun {id : CommandId} {rest : List CommandId} (h : d.Faithful)
    (hp : d.channel.pending = id :: rest) (hcommand : id ∈ commandIds d.history)
    (hnew : id ∉ handedIds d.history) :
    ∃ w ∈ d.channel.writers, w.command.id = id ∧ w.hasBegun = false := by
  have hmem : id ∈ d.channel.pending := by
    rw [hp]
    exact List.mem_cons_self
  have hflight : d.channel.inFlight = some id := by
    have hline := h.accounted.lined id hmem hcommand
    rw [Channel.line, List.mem_append, Option.mem_toList] at hline
    exact hline.resolve_right (h.consistent.notMem_backlog_of_pending_cons hp)
  exact (h.accounted.flying id hflight).2 hnew

/-- In every run commands are answered only after their text has been handed to the process exactly
if no frame is complete while a write has been scheduled but has not begun, and its command is the
oldest that waits. -/
theorem causal_iff_of_scheduled (mayPrint : Chronicle → Prop) (prompt : String) :
    (∀ d, Reachable mayPrint prompt d → d.Causal) ↔
      ∀ d, Reachable mayPrint prompt d → mayPrint d →
        ∀ w ∈ d.channel.writers, w.hasBegun = false → d.channel.Waits w.command.id →
          d.channel.pending.head? ≠ some w.command.id := by
  constructor
  · intro hcausal d hr hmay w hw hb hwaits hhead
    have hs := hr.faithful
    obtain ⟨hcommand, hunhanded⟩ := hs.accounted.writing w hw
    obtain ⟨rest, hp⟩ : ∃ rest, d.channel.pending = w.command.id :: rest :=
      List.head?_eq_some_iff.1 hhead
    obtain ⟨t, ht⟩ := hwaits.answered hp [] 0
    -- the frame is the last thing that has happened, so nothing was handed over since
    have hhanded : w.command.id ∈ handedIds
        (d.history ++ [.emitted (d.channel.nextFrame [] 0)]) :=
      (hcausal _ (hr.next (.emit [] 0 hmay))).mem_handedIds ht (by simpa using hcommand)
    exact hunhanded hb (by simpa using hhanded)
  · intro hscheduled d hr
    have hrecorded : d.Recorded fun f handed => f.id ∈ handed := by
      induction hr with
      | refl => exact .start prompt
      | tail hr s ih =>
        have hs := Reachable.faithful hr
        apply ih.step hs s
        intro lines now id rest hmay hp hwaits hcommand
        by_contra hnew
        obtain ⟨w, hw, rfl, hb⟩ := hs.exists_unbegun hp hcommand hnew
        exact hscheduled _ hr hmay w hw hb hwaits (by rw [hp]; rfl)
    intro t f hf hcommand
    obtain ⟨-, before, after, heq, hhanded⟩ := hrecorded t f hf
    exact ⟨before, after, heq, hhanded hcommand⟩

/-- Two frames are complete at once while a command waits behind the one in flight: the second goes
to the command that waits, before its text is handed to the process. -/
theorem answered_before_handed : ∃ d, Reachable (fun _ => True) "(gdb)" d ∧
    d.channel.outcome 1 = .answered ⟨["stopped"], 1, none⟩ ∧ handedIds d.history = [0] ∧
    ¬d.Causal := by
  have h : Reachable (fun _ => True) "(gdb)" (start "(gdb)") := .start
  have h := h.next (.submit (c := ⟨0, "next"⟩) (by decide) rfl)
  have h := h.next (.submit (c := ⟨1, "where"⟩) (by decide) rfl)
  have h := h.next (.beginWrite (w := ⟨0, ⟨0, "next"⟩, false⟩) 1.0 (by decide) rfl)
  have h := h.next (.emit ["done"] 2.0 trivial)
  have h := h.next (.emit ["stopped"] 2.0 trivial)
  refine ⟨_, h, rfl, rfl, ?_⟩
  intro hcausal
  have hmem : (1 : CommandId) ∈ ([0] : List CommandId) :=
    hcausal.mem_handedIds (t := 1) (f := ⟨["stopped"], 1, none⟩) rfl (by decide)
  revert hmem
  decide

end DebugConsole.Chronicle
