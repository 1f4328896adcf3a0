import DebugConsole.Proofs.Channel.Dialogue

set_option autoImplicit false

/-!
# Every reply goes to its own request

Frames carry no number, so a reply finds its request by the order of things alone.  With an orderly debugger
the numbers owed a frame are first those of the answers still to be printed and then those that the debugger
has not received, each in order (`Dialogue.Ordered`).  Every step keeps this (`Aligned.step`), as long as a
signal is delivered only when nothing else is on its way to the debugger; so every dialogue in which signals
wait that long stays aligned (`Reachable.aligned`).

Where there are no signals nothing is left to be asked for: each reply goes to its own request, and no frame
is taken for one that answers nothing (`answersOwn_of_writes`), whatever is slow, refused or given up.
-/

namespace DebugConsole.Dialogue

variable {mayInterrupt : Dialogue → Prop} {d d' : Dialogue}

/-- What is in flight or waits and has not reached the debugger. -/
def unreceived (d : Dialogue) : List CommandId := d.channel.line.filter fun id => id ∉ d.received

/-- The numbers owed a frame, in order: the `next` answers, what the debugger has not received, and
the numbers that came `late`. -/
structure Ordered (d : Dialogue) (next : List Answer) (late : List CommandId) : Prop where
  isOpen : d.channel.isClosed = false
  pending : d.channel.pending = next.map Answer.id ++ (d.unreceived ++ late)
  /-- a write whose text has not been received is the one in flight -/
  awaited : ∀ w ∈ d.channel.writers, w.command.id ∉ d.received →
    d.channel.inFlight = some w.command.id
  quiet : d.channel.unsolicited = []

namespace Sound

/-- Nothing that waits has been received. -/
theorem filter_backlog (h : d.Sound) :
    ((d.channel.backlog.map Command.id).filter fun id => id ∉ d.received) =
      d.channel.backlog.map Command.id := by
  rw [List.filter_eq_self]
  intro id hid
  obtain ⟨c, hc, rfl⟩ := List.mem_map.1 hid
  simpa using h.unsent c hc

/-- What is in flight and not received comes before all that waits. -/
theorem unreceived_of_inFlight {id : CommandId} (h : d.Sound) (hf : d.channel.inFlight = some id)
    (hid : id ∉ d.received) : d.unreceived = id :: d.channel.backlog.map Command.id := by
  rw [unreceived, Channel.line, hf, List.filter_append, h.filter_backlog]
  simp [hid]

/-- Once what is in flight has been received, the rest is what waits. -/
theorem unreceived_of_mem_received {id : CommandId} (h : d.Sound)
    (hf : d.channel.inFlight = some id) (hid : id ∈ d.received) :
    d.unreceived = d.channel.backlog.map Command.id := by
  rw [unreceived, Channel.line, hf, List.filter_append, h.filter_backlog]
  simp [hid]

/-- When the debugger has caught up, everything has been received. -/
theorem unreceived_of_isCaughtUp (h : d.Sound) (hcaught : d.IsCaughtUp) : d.unreceived = [] := by
  rw [unreceived, List.filter_eq_nil_iff]
  intro id hid
  simpa using hcaught id (h.consistent.line.subset hid)

end Sound

/-! ## What keeps the order -/

namespace Ordered

variable {next : List Answer} {late : List CommandId}

/-- The channel changes, but neither what is pending nor what is on its way. -/
theorem withChannel {ch : Channel} (h : d.Ordered next late)
    (hclosed : ch.isClosed = d.channel.isClosed) (hpending : ch.pending = d.channel.pending)
    (hflight : ch.inFlight = d.channel.inFlight) (hbacklog : ch.backlog = d.channel.backlog)
    (hwriters : ∀ w ∈ ch.writers, ∃ v ∈ d.channel.writers, v.command = w.command)
    (hquiet : ch.unsolicited = d.channel.unsolicited) :
    { d with channel := ch }.Ordered next late := by
  have hline : ch.line = d.channel.line := by simp only [Channel.line, hflight, hbacklog]
  refine ⟨hclosed.trans h.isOpen, ?_, ?_, hquiet.trans h.quiet⟩
  · simp only [unreceived, hline]
    exact hpending.trans h.pending
  · intro w hw hnew
    obtain ⟨v, hv, heq⟩ := hwriters w hw
    rw [hflight, ← heq]
    apply h.awaited v hv
    rw [heq]
    exact hnew

/-- Something retires: what is owed a frame is as before, without it. -/
theorem retire {id : CommandId} {next' : List Answer} {ids : List CommandId}
    (h : d.Ordered next late) (o : Outcome)
    (hids : ((d.channel.retire id o).line.filter fun id => id ∉ d.received) = ids)
    (hpending : d.channel.pending.erase id = next'.map Answer.id ++ (ids ++ late))
    (hwriters : ∀ w ∈ d.channel.writers, w.command.id = id → id ∈ d.received) :
    { d with channel := d.channel.retire id o }.Ordered next' late := by
  subst hids
  refine ⟨by simpa using h.isOpen, ?_, ?_, by simpa using h.quiet⟩
  · simpa [unreceived, received] using hpending
  · intro w hw hnew
    rcases Channel.mem_writers_retire hw with hold | ⟨-, hflight⟩
    · have hflight := h.awaited w hold hnew
      refine (Channel.inFlight_retire_of_not_inFlight o ?_).trans hflight
      rw [hflight]
      intro heq
      have hid : w.command.id = id := Option.some.inj heq
      exact hnew (hid ▸ hwriters w hold hid)
    · exact hflight

theorem submit {c : Command} {t : Ticket} {ch : Channel} (h : d.Ordered next []) (hs : d.Sound)
    (hc : c.id ∉ d.submitted) (submits : d.channel.submit c = .ok (t, ch)) :
    { d with channel := ch, submitted := d.submitted ++ [c.id] }.Ordered next [] := by
  have hpending := Channel.pending_submit submits
  have hline := Channel.line_submit hs.consistent.idle submits
  have hunreceived : unreceived { d with channel := ch, submitted := d.submitted ++ [c.id] } =
      d.unreceived ++ [c.id] := by
    have hnew : c.id ∉ d.received := fun hr => hc (hs.known hr)
    have hfilter : ([c.id].filter fun id => id ∉ d.received) = [c.id] := by simp [hnew]
    rw [unreceived, hline, List.filter_append]
    exact congrArg (d.unreceived ++ ·) hfilter
  obtain ⟨hopen, -, hch⟩ := Channel.submit_eq_ok_iff.1 submits
  refine ⟨?_, ?_, ?_, ?_⟩
  · dsimp only
    rw [hch]
    split <;> exact hopen
  · rw [hunreceived]
    dsimp only
    rw [hpending, h.pending]
    simp
  · intro w hw hr
    dsimp only at hw ⊢
    rw [hch] at hw ⊢
    split at hw
    · rename_i hf
      rw [if_pos hf]
      exact h.awaited w hw hr
    · rename_i hf
      rw [if_neg hf]
      rcases List.mem_append.1 hw with hold | hw
      · -- nothing was in flight, so no older write was unreceived
        simp [h.awaited w hold hr] at hf
      · rw [List.mem_singleton.1 hw]
        rfl
  · dsimp only
    rw [hch]
    split <;> exact h.quiet

theorem receive {w : Writer} (lines : List String) (h : d.Ordered next late) (hs : d.Sound)
    (hw : w ∈ d.channel.writers) (hnew : w.command.id ∉ d.received) :
    { d with owed := d.owed ++ [Answer.mk w.command.id lines] }.Ordered
      (next ++ [Answer.mk w.command.id lines]) late := by
  have hsound := hs.receiveWrite lines hw hnew
  have hflight := h.awaited w hw hnew
  refine ⟨h.isOpen, ?_, ?_, h.quiet⟩
  · rw [hsound.unreceived_of_mem_received hflight (by simp [received])]
    apply h.pending.trans
    rw [hs.unreceived_of_inFlight hflight hnew]
    simp
  · intro v hv hr
    refine h.awaited v hv fun hold => hr ?_
    simp only [received, List.map_append, List.mem_append] at hold ⊢
    rcases hold with hold | hold
    · exact Or.inl hold
    · exact Or.inr (Or.inl hold)

theorem withdraw {id : CommandId} (h : d.Ordered next late) (hs : d.Sound) (o : Outcome)
    (hflight : d.channel.inFlight = some id) (hnew : id ∉ d.received)
    (hnext : ∀ a ∈ next, a.id ∈ d.received)
    (hwriters : ∀ w ∈ d.channel.writers, w.command.id ≠ id) :
    { d with channel := d.channel.retire id o }.Ordered next late := by
  have hids : ((d.channel.retire id o).line.filter fun id => id ∉ d.received) =
      d.channel.backlog.map Command.id := by
    rw [Channel.line_retire_of_inFlight o h.isOpen hflight]
    exact hs.filter_backlog
  have hpending : d.channel.pending.erase id =
      next.map Answer.id ++ (d.channel.backlog.map Command.id ++ late) := by
    have hnotMem : id ∉ next.map Answer.id := by
      intro hmem
      obtain ⟨a, ha, rfl⟩ := List.mem_map.1 hmem
      exact hnew (hnext a ha)
    rw [h.pending, hs.unreceived_of_inFlight hflight hnew, List.erase_append_right _ hnotMem]
    simp
  exact h.retire o hids hpending fun w hw heq => absurd heq (hwriters w hw)

theorem refuse {w : Writer} (fault : Fault) (h : d.Ordered next late) (hs : d.Sound)
    (hnext : ∀ a ∈ next, a.id ∈ d.received) (hw : w ∈ d.channel.writers)
    (hnew : w.command.id ∉ d.received) :
    { d with channel := d.channel.endWrite w.serial (some fault) }.Ordered next late := by
  have hended : { d with channel := d.channel.without w.serial }.Ordered next late :=
    h.withChannel rfl rfl rfl rfl (fun v hv => ⟨v, List.mem_of_mem_filter hv, rfl⟩) rfl
  have hsound : { d with channel := d.channel.without w.serial }.Sound :=
    hs.withChannel (hs.consistent.without _) (List.Subset.refl _)
  rcases hs.consistent.endWrite_cases hw (some fault) with heq | ⟨f, -, heq⟩
  · rwa [heq]
  · rw [heq]
    apply hended.withdraw hsound _ (h.awaited w hw hnew) hnew hnext
    exact fun v hv => hs.consistent.ne_of_mem_without hw hv

theorem print {a : Answer} {rest : List Answer} (h : d.Ordered (a :: next) late) (now : Float)
    (howed : d.owed = a :: rest) :
    { d with
      channel := d.channel.emit a.lines now, owed := rest, printed := d.printed ++ [a] }.Ordered
      next late := by
  have hmem : a.id ∈ d.received := by simp [received, howed]
  have hpending : d.channel.pending = a.id :: (next.map Answer.id ++ (d.unreceived ++ late)) :=
    h.pending
  have hline : ((d.channel.retire a.id (.answered (d.channel.reply a.id a.lines now))).line.filter
      fun id => id ∉ d.received) = d.unreceived :=
    Channel.filter_line_retire _ h.isOpen (by simp [hmem])
  have hretired := h.retire _ hline (by rw [hpending, List.erase_cons_head]) (fun _ _ _ => hmem)
  have hreceived : (d.printed ++ [a] ++ rest).map Answer.id = d.received := by
    simp [received, howed]
  rw [Channel.emit_of_pending_cons _ _ hpending]
  refine ⟨hretired.isOpen, ?_, ?_, hretired.quiet⟩
  · rw [unreceived, received, hreceived]
    exact hretired.pending
  · rw [received, hreceived]
    exact hretired.awaited

theorem interrupt {id : CommandId} {name : String} {now : Float} {t : Ticket} {ch : Channel}
    (lines : List String) (h : d.Ordered next late) (hs : d.Sound) (hid : id ∉ d.submitted)
    (submits : d.channel.signal id name now none = (.submitted t, ch)) :
    { d with
      channel := ch, submitted := d.submitted ++ [id], owed := d.owed ++ [Answer.mk id lines] }.Ordered
      next (late ++ [id]) := by
  obtain ⟨hopen, -, rfl⟩ := Channel.signal_none_eq_submitted_iff.1 submits
  have hreceived : (d.printed ++ (d.owed ++ [Answer.mk id lines])).map Answer.id =
      d.received ++ [id] := by
    simp [received]
  have hunreceived : (d.channel.line.filter fun a => a ∉ d.received ++ [id]) = d.unreceived := by
    apply List.filter_congr
    intro a ha
    have hne : a ≠ id := by
      rintro rfl
      exact hid (hs.consistent.mem_of_mem_pending (hs.consistent.line.subset ha))
    simp [hne]
  refine ⟨hopen, ?_, ?_, h.quiet⟩
  · have hpending : d.channel.pending ++ [id] =
        next.map Answer.id ++ (d.unreceived ++ (late ++ [id])) := by
      rw [h.pending]
      simp
    rw [unreceived, received, hreceived]
    apply hpending.trans
    rw [← hunreceived]
    rfl
  · intro w hw hr
    rw [received, hreceived] at hr
    exact h.awaited w hw fun hold => hr (List.mem_append_left _ hold)

end Ordered

/-! ## What keeps answers with their own -/

namespace AnswersOwn

theorem mono (h : d.AnswersOwn)
    (hanswered : ∀ t f, d'.channel.outcome t = .answered f → d.channel.outcome t = .answered f)
    (hsubmitted : d.submitted <+: d'.submitted) (hprinted : d.printed ⊆ d'.printed) :
    d'.AnswersOwn := by
  intro t f hf
  obtain ⟨hnumber, hmem⟩ := h t f (hanswered t f hf)
  obtain ⟨more, heq⟩ := hsubmitted
  refine ⟨?_, hprinted hmem⟩
  rw [← heq]
  exact List.getElem?_append_left (List.getElem?_eq_some_iff.1 hnumber).1 ▸ hnumber

theorem print {a : Answer} {ids : List CommandId} {rest : List Answer} (h : d.AnswersOwn)
    (hs : d.Sound) (now : Float) (hpending : d.channel.pending = a.id :: ids) :
    { d with
      channel := d.channel.emit a.lines now, owed := rest
      printed := d.printed ++ [a] }.AnswersOwn := by
  intro t f hf
  rw [Channel.emit_of_pending_cons _ _ hpending] at hf
  rcases Channel.answered_of_retire hf with hold | ⟨hticket, -, heq⟩
  · obtain ⟨hnumber, hmem⟩ := h t f hold
    exact ⟨hnumber, List.mem_append_left _ hmem⟩
  · cases heq
    refine ⟨hs.consistent.owner _ (mem_of_lookup hticket), ?_⟩
    exact List.mem_append_right _ (List.mem_singleton.2 rfl)

end AnswersOwn

/-! ## In step with the debugger -/

/-- As long as the channel is open, what is owed a frame stands in the order of the frames to
come. -/
structure Aligned (d : Dialogue) : Prop where
  sound : d.Sound
  own : d.AnswersOwn
  ordered : d.channel.isClosed = false → d.Ordered d.owed []

namespace Aligned

theorem start (prompt : String) : (start prompt).Aligned where
  sound := .start prompt
  own := by
    intro t f hf
    simp [Channel.outcome_eq_answered_iff, Dialogue.start, Channel.create] at hf
  ordered := by
    intro _
    constructor <;> simp [Dialogue.start, Channel.create, unreceived, Channel.line]

/-- The channel changes, but neither what is pending nor what is on its way, and answers
nothing. -/
theorem withChannel {ch : Channel} (h : d.Aligned) (hs : { d with channel := ch }.Sound)
    (hanswered : ∀ t f, ch.outcome t = .answered f → d.channel.outcome t = .answered f)
    (hclosed : ch.isClosed = d.channel.isClosed) (hpending : ch.pending = d.channel.pending)
    (hflight : ch.inFlight = d.channel.inFlight) (hbacklog : ch.backlog = d.channel.backlog)
    (hwriters : ∀ w ∈ ch.writers, ∃ v ∈ d.channel.writers, v.command = w.command)
    (hquiet : ch.unsolicited = d.channel.unsolicited) : { d with channel := ch }.Aligned where
  sound := hs
  own := h.own.mono hanswered (List.prefix_refl _) (List.Subset.refl _)
  ordered := fun hopen =>
    (h.ordered (hclosed ▸ hopen)).withChannel hclosed hpending hflight hbacklog hwriters hquiet

theorem close {ch : Channel} (fault : ChannelFault) (h : d.Aligned)
    (hs : { d with channel := ch }.Sound) (hclosed : ch.isClosed = true)
    (houtcomes : ch.outcomes = (d.channel.close fault).outcomes) :
    { d with channel := ch }.Aligned where
  sound := hs
  own := by
    refine h.own.mono (fun t f hf => ?_) (List.prefix_refl _) (List.Subset.refl _)
    rw [Channel.outcome_eq_answered_iff] at hf
    dsimp only at hf
    rw [houtcomes] at hf
    exact Channel.answered_of_close (Channel.outcome_eq_answered_iff.2 hf)
  ordered := by simp [hclosed]

/-- The debugger prints the next answer.  A channel that owes nothing by then has been closed. -/
theorem print {a : Answer} {rest : List Answer} (h : d.Aligned) (now : Float)
    (next : d.owed = a :: rest) :
    { d with
      channel := d.channel.emit a.lines now, owed := rest
      printed := d.printed ++ [a] }.Aligned := by
  cases hclosed : d.channel.isClosed with
  | true =>
    have hp := h.sound.consistent.shut hclosed
    have hsound := h.sound.print now next
    rw [Channel.emit_of_pending_nil _ _ hp] at hsound ⊢
    refine ⟨hsound, h.own.mono (fun _ _ hf => hf) (List.prefix_refl _) ?_, ?_⟩
    · exact List.subset_append_left _ _
    · simp [hclosed]
  | false =>
    have hordered := h.ordered hclosed
    rw [next] at hordered
    exact ⟨h.sound.print now next, h.own.print h.sound now hordered.pending,
      fun _ => hordered.print now next⟩

/-- A signal is delivered when nothing else is on its way to the debugger. -/
theorem interrupt {id : CommandId} {name : String} {now : Float} {t : Ticket} {ch : Channel}
    (lines : List String) (h : d.Aligned) (hcaught : d.IsCaughtUp) (hid : id ∉ d.submitted)
    (submits : d.channel.signal id name now none = (.submitted t, ch))
    (hs : Sound { d with
      channel := ch, submitted := d.submitted ++ [id], owed := d.owed ++ [⟨id, lines⟩] }) :
    Aligned { d with
      channel := ch, submitted := d.submitted ++ [id], owed := d.owed ++ [⟨id, lines⟩] } where
  sound := hs
  own := h.own.mono (fun _ _ hf => Channel.answered_of_signal_none submits hf)
    (List.prefix_append _ _) (List.Subset.refl _)
  ordered := by
    intro _
    have hopen := (Channel.signal_none_eq_submitted_iff.1 submits).1
    have hordered := (h.ordered hopen).interrupt lines h.sound hid submits
    have hcaught' : IsCaughtUp { d with
        channel := ch, submitted := d.submitted ++ [id], owed := d.owed ++ [⟨id, lines⟩] } := by
      intro a ha
      obtain ⟨-, -, rfl⟩ := Channel.signal_none_eq_submitted_iff.1 submits
      have hreceived : (d.printed ++ (d.owed ++ [Answer.mk id lines])).map Answer.id =
          d.received ++ [id] := by
        simp [received]
      rw [received, hreceived]
      rcases List.mem_append.1 ha with ha | ha
      · exact List.mem_append_left _ (hcaught a ha)
      · exact List.mem_append_right _ ha
    refine { hordered with pending := ?_ }
    rw [hordered.pending, hs.unreceived_of_isCaughtUp hcaught']
    simp

/-- A step keeps alignment, if it delivers a signal only when the debugger has caught up. -/
theorem step (h : d.Aligned) (s : Step mayInterrupt d d')
    (hmay : d.channel.isClosed = false → mayInterrupt d → d.IsCaughtUp) : d'.Aligned := by
  have hsound := h.sound.step s
  cases s with
  | @submit c t ch new submits =>
    have hopen := (Channel.submit_eq_ok_iff.1 submits).1
    refine ⟨hsound, h.own.mono ?_ (List.prefix_append _ _) (List.Subset.refl _), fun _ => ?_⟩
    · exact fun _ _ hf => Channel.answered_of_submit submits hf
    · exact (h.ordered hopen).submit h.sound new submits
  | cancel t =>
    refine h.withChannel hsound (fun _ _ hf => Channel.answered_of_cancel hf) ?_ ?_ ?_ ?_ ?_ ?_
    all_goals rw [Channel.cancel, Channel.settle_eq]
    exact fun w hw => ⟨w, hw, rfl⟩
  | beginWrite serial now =>
    cases hw : d.channel.writers.find? fun w => w.serial == serial && !w.hasBegun with
    | none =>
      rw [Channel.beginWrite_of_find?_eq_none now hw]
      exact h
    | some w =>
      rw [Channel.beginWrite_of_find? now hw] at hsound ⊢
      refine h.withChannel hsound (fun _ _ hf => hf) rfl rfl rfl rfl (fun v hv => ?_) rfl
      obtain ⟨u, hu, rfl⟩ := List.mem_map.1 hv
      exact ⟨u, hu, by simp⟩
  | @receive w lines writing begun new =>
    refine ⟨hsound, h.own, ?_⟩
    exact fun hopen => (h.ordered hopen).receive lines h.sound writing new
  | @endWrite w writing begun known =>
    rw [Channel.endWrite_of_find? none (h.sound.consistent.find?_serial writing)] at hsound ⊢
    refine h.withChannel hsound (fun _ _ hf => hf) rfl rfl rfl rfl (fun v hv => ?_) rfl
    exact ⟨v, List.mem_of_mem_filter hv, rfl⟩
  | @refuse w fault writing begun unknown =>
    refine ⟨hsound, h.own.mono ?_ (List.prefix_refl _) (List.Subset.refl _), fun hopen => ?_⟩
    · exact fun _ _ hf => Channel.answered_of_endWrite hf
    · refine (h.ordered ?_).refuse fault h.sound (fun a ha => ?_) writing unknown
      · simpa using hopen
      · exact List.mem_map_of_mem (List.mem_append_right _ ha)
  | buffer b =>
    exact h.withChannel hsound (fun _ _ hf => hf) rfl rfl rfl rfl (fun w hw => ⟨w, hw, rfl⟩) rfl
  | print now next => exact h.print now next
  | interrupt lines may new submits =>
    have hopen := (Channel.signal_none_eq_submitted_iff.1 submits).1
    exact h.interrupt lines (hmay hopen may) new submits hsound
  | @refuseSignal id name now fault t ch new submits =>
    refine ⟨hsound, h.own.mono ?_ (List.prefix_append _ _) (List.Subset.refl _), fun _ => ?_⟩
    · exact fun _ _ hf => Channel.answered_of_signal_some submits hf
    · have hpending := Channel.pending_signal_some
        (fun hp => new (h.sound.consistent.mem_of_mem_pending hp)) submits
      obtain ⟨-, hopen, -, hch⟩ := Channel.signal_some_eq_submitted_iff.1 submits
      have hordered : Ordered { d with channel := ch } d.owed [] := by
        refine (h.ordered hopen).withChannel ?_ hpending ?_ ?_ ?_ ?_
        all_goals rw [hch]; try rfl
        exact fun w hw => ⟨w, hw, rfl⟩
      exact { hordered with }
  | close fault => exact h.close fault hsound (by rw [Channel.close_eq]) rfl
  | endOutput =>
    apply h.close .exited hsound (by rw [Channel.endOutput, Channel.close_eq])
    rw [Channel.endOutput, Channel.close_eq, Channel.close_eq]
  | failOutput cause =>
    exact h.close (.unreadable cause) hsound (by rw [Channel.failOutput, Channel.close_eq]) rfl

end Aligned

/-- If signals are delivered only when the debugger has caught up, every dialogue stays aligned. -/
theorem Reachable.aligned {prompt : String}
    (hmay : ∀ d, Reachable mayInterrupt prompt d → d.channel.isClosed = false → mayInterrupt d →
      d.IsCaughtUp)
    (h : Reachable mayInterrupt prompt d) : d.Aligned := by
  induction h with
  | refl => exact .start prompt
  | tail hr s ih => exact ih.step s (hmay _ hr)

/-! ## Without signals -/

/-- Whoever only writes commands gets their own answers: with a debugger that prints one frame for
every text that it takes and nothing else, whatever is slow, refused or given up, each frame that
answers a command is the one printed for it, and as long as the channel is open no frame is taken
for one that answers nothing. -/
theorem answersOwn_of_writes {prompt : String} (h : Reachable (fun _ => False) prompt d) :
    d.AnswersOwn ∧ (d.printed.map Answer.id).Nodup ∧
      (d.channel.isClosed = false → d.channel.unsolicited = []) := by
  have haligned := h.aligned fun _ _ _ hfalse => hfalse.elim
  refine ⟨haligned.own, ?_, fun hopen => (haligned.ordered hopen).quiet⟩
  have hdistinct := haligned.sound.distinct
  rw [received, List.map_append] at hdistinct
  exact (List.nodup_append.1 hdistinct).1

/-- A second command gets its own answer although the first was given up while the debugger was
busy with it. -/
theorem answersOwn_after_cancel : ∃ d, Reachable (fun _ => False) "(gdb)" d ∧
    d.channel.outcome 0 = .cancelled ∧
    d.channel.outcome 1 = .answered ⟨["two"], 1, some (4.0 - 3.0)⟩ ∧
    (d.AnswersOwn ∧ (d.printed.map Answer.id).Nodup ∧
      (d.channel.isClosed = false → d.channel.unsolicited = [])) := by
  have h : Reachable (fun _ => False) "(gdb)" (start "(gdb)") := .start
  have h := h.next (.submit (c := ⟨0, "run"⟩) (by decide) rfl)
  have h := h.next (.submit (c := ⟨1, "where"⟩) (by decide) rfl)
  have h := h.next (.beginWrite 0 1.0)
  have h := h.next (.receive (w := ⟨0, ⟨0, "run"⟩, true⟩) ["one"] (by decide) rfl (by decide))
  have h := h.next (.cancel 0)
  have h := h.next (.print 2.0 rfl)
  have h := h.next (.beginWrite 1 3.0)
  have h := h.next (.receive (w := ⟨1, ⟨1, "where"⟩, true⟩) ["two"] (by decide) rfl (by decide))
  have h := h.next (.print 4.0 rfl)
  exact ⟨_, h, rfl, rfl, answersOwn_of_writes h⟩

end DebugConsole.Dialogue
