import DebugConsole.Proofs.Channel.Delivery
import Mathlib.Data.Fintype.EquivFin

set_option autoImplicit false

/-!
# When commands overtake one another

The next command is written when the one in flight has been answered, not when its write has ended.  So a
frame that answers a command whose write is still in progress lets a second write begin beside the first;
and if the process has not taken the first text by then, the second may come before it.  These are the only
ways to either: there is one writer at a time exactly if no frame comes while the write of the command that
it answers goes on, and texts are taken in the order of submission exactly if no frame comes before the text
of the command that it answers has been taken (`oneWriter_and_inOrder_iff`).

Both are questions about the writes of certain commands, all of them or those whose texts are still to be
taken, so the channel is followed for any choice of commands (`Lone`, `Advances`).  The texts that have been
taken, the one on its way and those that wait stand in one queue (`Queued`).
-/

namespace DebugConsole

/-- A member of a list with one member at most is all of it. -/
theorem eq_singleton_of_mem {α : Type} {l : List α} {a : α} (h : l.length ≤ 1) (ha : a ∈ l) :
    l = [a] := by
  match l, h with
  | [], _ => cases ha
  | [c], _ => rw [List.mem_singleton.1 ha]

/-- In a list without repetitions two members stand in one order only. -/
theorem not_sublist_swap {α : Type} {l : List α} {a b : α} (h : l.Nodup)
    (hab : [a, b].Sublist l) : ¬[b, a].Sublist l := by
  induction l with
  | nil => cases hab
  | cons c l ih =>
    obtain ⟨hc, hl⟩ := List.nodup_cons.1 h
    intro hba
    -- whichever of the two comes first is not repeated behind
    rcases List.sublist_cons_iff.1 hab with hbehind | ⟨r, hr, htail⟩
    · rcases List.sublist_cons_iff.1 hba with hbehind' | ⟨r, hr, -⟩
      · exact ih hl hbehind hbehind'
      · cases hr
        exact hc (hbehind.subset (List.mem_cons_of_mem _ (List.mem_singleton.2 rfl)))
    · cases hr
      rcases List.sublist_cons_iff.1 hba with hbehind | ⟨r, hr, -⟩
      · exact hc (hbehind.subset (List.mem_cons_of_mem _ (List.mem_singleton.2 rfl)))
      · cases hr
        exact hc (htail.subset (List.mem_singleton.2 rfl))

/-! ## One unfinished write at most -/

namespace Channel

/-- The writes that have not ended of commands that `p` holds of. -/
def unfinished (ch : Channel) (p : Command → Bool) : List Writer :=
  ch.writers.filter fun w => p w.command

theorem mem_unfinished {ch : Channel} {p : Command → Bool} {w : Writer} :
    w ∈ ch.unfinished p ↔ w ∈ ch.writers ∧ p w.command = true :=
  List.mem_filter

/-- One write at most is unfinished, and in an open channel it is that of what is in flight. -/
structure Lone (ch : Channel) (p : Command → Bool) : Prop where
  alone : (ch.unfinished p).length ≤ 1
  flying : ∀ w ∈ ch.unfinished p, ch.isClosed = false → ch.inFlight = some w.command.id

/-- The commands of the unfinished writes, and then all that wait. -/
def queue (ch : Channel) (p : Command → Bool) : List Command :=
  (ch.unfinished p).map Writer.command ++ ch.backlog

/-- The channel goes on from `ch`: it still has one unfinished write at most, and `new` is all that
may have joined the queue. -/
structure Advances (p : Command → Bool) (ch : Channel) (new : List Command) (ch' : Channel) :
    Prop where
  lone : ch'.Lone p
  queue : (ch'.queue p).Sublist (ch.queue p ++ new)

theorem Advances.trans {ch ch' ch'' : Channel} {p : Command → Bool}
    (h : Advances p ch [] ch') (h' : Advances p ch' [] ch'') : Advances p ch [] ch'' where
  lone := h'.lone
  queue := by
    have hqueue := h.queue
    have hqueue' := h'.queue
    rw [List.append_nil] at hqueue hqueue' ⊢
    exact hqueue'.trans hqueue

namespace Lone

variable {ch ch' : Channel} {p : Command → Bool} {numbers : List CommandId} {id : CommandId}

theorem create (prompt : String) : (Channel.create prompt).Lone p := by
  constructor <;> simp [Channel.create, unfinished]

/-- Neither what is in flight nor what waits nor the writes change. -/
theorem still (h : ch.Lone p) (hclosed : ch'.isClosed = ch.isClosed)
    (hflight : ch'.inFlight = ch.inFlight) (hbacklog : ch'.backlog = ch.backlog)
    (hwriters : ch'.writers = ch.writers) : Advances p ch [] ch' := by
  have hsame : ch'.unfinished p = ch.unfinished p := by rw [unfinished, hwriters, unfinished]
  refine ⟨⟨by rw [hsame]; exact h.alone, ?_⟩, ?_⟩
  · rw [hsame, hclosed, hflight]
    exact h.flying
  · rw [queue, hsame, hbacklog, List.append_nil]
    exact List.Sublist.refl _

theorem close (h : ch.Lone p) (hclosed : ch'.isClosed = true) (hbacklog : ch'.backlog = [])
    (hwriters : ch'.writers = ch.writers) : Advances p ch [] ch' := by
  have hsame : ch'.unfinished p = ch.unfinished p := by rw [unfinished, hwriters, unfinished]
  refine ⟨⟨by rw [hsame]; exact h.alone, by simp [hclosed]⟩, ?_⟩
  rw [queue, hsame, hbacklog, List.append_nil, List.append_nil]
  exact List.sublist_append_left _ _

theorem startWrite {c : Command} (hnone : ch.unfinished p = []) :
    (ch.startWrite c).Lone p ∧ ((ch.startWrite c).queue p).Sublist (c :: ch.backlog) := by
  have hnew : ((ch.startWrite c).unfinished p).Sublist [⟨ch.writes, c, false⟩] := by
    have happend : (ch.startWrite c).unfinished p =
        ch.unfinished p ++ [⟨ch.writes, c, false⟩].filter fun w => p w.command :=
      List.filter_append ..
    rw [happend, hnone, List.nil_append]
    exact List.filter_sublist
  refine ⟨⟨hnew.length_le, fun w hw _ => ?_⟩, (hnew.map Writer.command).append_right _⟩
  rw [List.mem_singleton.1 (hnew.subset hw)]
  rfl

theorem retire (h : ch.Lone p) (hc : ch.Consistent numbers)
    (hid : ∀ w ∈ ch.unfinished p, w.command.id ≠ id) (o : Outcome) :
    Advances p ch [] (ch.retire id o) := by
  by_cases hf : ch.inFlight = some id
  · have hopen := hc.isClosed_of_inFlight hf
    have hnone : ch.unfinished p = [] := by
      rw [List.eq_nil_iff_forall_not_mem]
      intro w hw
      have hflight := h.flying w hw hopen
      rw [hf] at hflight
      exact hid w hw (Option.some.inj hflight).symm
    cases hb : ch.backlog with
    | nil =>
      rw [retire_of_backlog_nil o hf hb]
      refine ⟨⟨h.alone, fun w hw => ?_⟩, ?_⟩
      · have hw' : w ∈ ch.unfinished p := hw
        rw [hnone] at hw'
        cases hw'
      · rw [List.append_nil]
        exact List.Sublist.refl _
    | cons c rest =>
      rw [retire_of_backlog_cons o hopen hf hb]
      have hnone' : unfinished { ch with backlog := rest } p = [] := hnone
      obtain ⟨hlone, hqueue⟩ := Lone.startWrite (c := c) hnone'
      refine ⟨{ hlone with }, hqueue.trans ?_⟩
      rw [queue, hb, List.append_nil]
      exact List.sublist_append_right _ _
  · rw [retire_of_not_inFlight o hf]
    exact h.still rfl rfl rfl rfl

theorem submit {c : Command} {t : Ticket} (h : ch.Lone p)
    (hidle : ch.inFlight = none → ch.backlog = []) (hs : ch.submit c = .ok (t, ch')) :
    Advances p ch [c] ch' := by
  obtain ⟨hopen, -, rfl⟩ := submit_eq_ok_iff.1 hs
  cases hf : ch.inFlight with
  | some id =>
    refine ⟨⟨h.alone, h.flying⟩, ?_⟩
    rw [queue, queue, List.append_assoc]
    exact List.Sublist.refl _
  | none =>
    -- an unfinished write would be the one of what is in flight
    have hnone : (ch.reserving c.id).unfinished p = [] := by
      rw [List.eq_nil_iff_forall_not_mem]
      intro w hw
      have hflight := h.flying w hw hopen
      rw [hf] at hflight
      cases hflight
    obtain ⟨hlone, hqueue⟩ := Lone.startWrite (c := c) hnone
    refine ⟨hlone, hqueue.trans ?_⟩
    have hbacklog : (ch.reserving c.id).backlog = [] := hidle hf
    rw [hbacklog]
    exact List.sublist_append_right _ _

theorem beginWrite (h : ch.Lone p) (serial : Nat) (now : Float) :
    Advances p ch [] (ch.beginWrite serial now) := by
  cases hw : ch.writers.find? fun v => v.serial == serial && !v.hasBegun with
  | none =>
    rw [beginWrite_of_find?_eq_none now hw]
    exact h.still rfl rfl rfl rfl
  | some w =>
    rw [beginWrite_of_find? now hw]
    have hmarked : unfinished { ch with
        startedAt := assign ch.startedAt w.command.id now
        writers := ch.writers.map (Writer.marked serial) } p =
          (ch.unfinished p).map (Writer.marked serial) := by
      simp [unfinished, List.filter_map, Function.comp_def]
    refine ⟨⟨?_, ?_⟩, ?_⟩
    · simpa [hmarked] using h.alone
    · simpa [hmarked] using h.flying
    · simp [queue, hmarked, Function.comp_def]

theorem endWrite {w : Writer} (h : ch.Lone p) (hc : ch.Consistent numbers) (hw : w ∈ ch.writers)
    (fault : Option Fault) : Advances p ch [] (ch.endWrite w.serial fault) := by
  have hfewer : ((ch.without w.serial).unfinished p).Sublist (ch.unfinished p) :=
    List.filter_sublist.filter _
  have hended : Advances p ch [] (ch.without w.serial) := by
    refine ⟨⟨hfewer.length_le.trans h.alone, fun v hv => h.flying v (hfewer.subset hv)⟩, ?_⟩
    rw [List.append_nil]
    exact (hfewer.map _).append_right _
  rcases hc.endWrite_cases hw fault with heq | ⟨f, -, heq⟩
  · rwa [heq]
  · rw [heq]
    exact hended.trans (hended.lone.retire (hc.without _)
      (fun v hv => hc.ne_of_mem_without hw (mem_unfinished.1 hv).1) _)

/-- A frame is complete, and answers no command whose write is unfinished. -/
theorem emit (h : ch.Lone p) (hc : ch.Consistent numbers) (lines : List String) (now : Float)
    (hquiet : ∀ w ∈ ch.unfinished p, ch.pending.head? ≠ some w.command.id) :
    Advances p ch [] (ch.emit lines now) := by
  cases hp : ch.pending with
  | nil =>
    rw [emit_of_pending_nil lines now hp]
    exact h.still rfl rfl rfl rfl
  | cons id rest =>
    rw [emit_of_pending_cons lines now hp]
    refine h.retire hc (fun w hw heq => hquiet w hw ?_) _
    rw [hp, List.head?_cons, heq]

end Lone

end Channel

namespace Chronicle

open Happening

variable {mayPrint : Chronicle → Prop} {prompt : String} {d d' : Chronicle}

/-- What is in flight and what waits stand in the order of submission. -/
theorem Reachable.line_sublist (h : Reachable mayPrint prompt d) :
    d.channel.line.Sublist d.submitted :=
  h.faithful.consistent.line.trans ((List.sublist_append_right _ _).trans h.inTurn)

/-- A step keeps to one unfinished write, if a frame that may be complete now answers no command
whose write is unfinished. -/
theorem Step.advances {p : Command → Bool} (s : Step mayPrint d d') (hs : d.Faithful)
    (h : d.channel.Lone p)
    (hquiet : mayPrint d → ∀ w ∈ d.channel.unfinished p,
      d.channel.pending.head? ≠ some w.command.id) :
    ∃ new, commands d'.history = commands d.history ++ new ∧
      Channel.Advances p d.channel new d'.channel := by
  have hc := hs.consistent
  cases s with
  | @submit c t ch new submits =>
    exact ⟨[c], by simp, h.submit hc.idle submits⟩
  | @signal id name now fault isOpen new =>
    obtain ⟨hclosed, hflight, hbacklog, hwriters⟩ :=
      Channel.flight_signal isOpen id name now fault
    exact ⟨[], by simp, h.still hclosed hflight hbacklog hwriters⟩
  | cancel t =>
    refine ⟨[], by simp, ?_⟩
    rw [Channel.cancel, Channel.settle_eq]
    exact h.still rfl rfl rfl rfl
  | beginWrite now writing unbegun => exact ⟨[], by simp, h.beginWrite _ now⟩
  | endWrite fault writing begun => exact ⟨[], by simp, h.endWrite hc writing fault⟩
  | buffer b => exact ⟨[], by simp, h.still rfl rfl rfl rfl⟩
  | emit lines now may => exact ⟨[], by simp, h.emit hc lines now (hquiet may)⟩
  | close fault =>
    refine ⟨[], by simp, h.close rfl ?_ ?_⟩ <;> rw [Channel.close_eq]
  | endOutput =>
    refine ⟨[], by simp, h.close rfl ?_ ?_⟩ <;> rw [Channel.endOutput, Channel.close_eq]
  | failOutput cause =>
    refine ⟨[], by simp, h.close rfl ?_ ?_⟩ <;> rw [Channel.failOutput, Channel.close_eq]

end Chronicle

namespace Delivery

open Happening

variable {mayPrint : Delivery → Prop} {prompt : String} {d d' : Delivery}

/-- At most one write is in progress. -/
def OneWriter (d : Delivery) : Prop := d.inProgress.length ≤ 1

/-- The texts have been taken in the order in which their commands were submitted. -/
def InOrder (d : Delivery) : Prop := d.taken.Sublist (commands d.chronicle.history)

/-- The text of a command has not been taken. -/
def awaits (d : Delivery) (c : Command) : Bool := !d.taken.contains c

theorem awaits_iff {c : Command} : d.awaits c = true ↔ c ∉ d.taken := by
  simp [awaits]

/-! ## What keeps to one writer -/

/-- If every frame answers a command whose write has ended, there is one write at most, that of what
is in flight. -/
theorem Reachable.lone
    (hquiet : ∀ d, Reachable mayPrint prompt d → mayPrint d → ∀ w ∈ d.channel.writers,
      d.channel.pending.head? ≠ some w.command.id)
    (h : Reachable mayPrint prompt d) : d.channel.Lone fun _ => true := by
  induction h with
  | refl => exact .create prompt
  | tail hr s ih =>
    rcases s.cases with ⟨s, -⟩ | ⟨w, -, -, rfl⟩
    · obtain ⟨new, -, hadvances⟩ := s.advances (Reachable.chronicle hr).faithful ih
        fun hmay w hw => hquiet _ hr hmay w (Channel.mem_unfinished.1 hw).1
      exact hadvances.lone
    · exact ih

/-! ## What keeps the order -/

/-- The text of one unfinished write at most is still to be taken; and what has been taken, that
text, and what waits stand in the order of submission. -/
structure Queued (d : Delivery) : Prop where
  lone : d.channel.Lone d.awaits
  ordered : (d.taken ++ d.channel.queue d.awaits).Sublist (commands d.chronicle.history)

namespace Queued

theorem start (prompt : String) : (start prompt).Queued := ⟨.create prompt, List.Sublist.refl _⟩

/-- The process takes the one text that is still to be taken. -/
theorem take {w : Writer} (h : d.Queued) (hw : w ∈ d.channel.writers)
    (hnew : w.command ∉ d.taken) : Queued { d with taken := d.taken ++ [w.command] } := by
  have hone : d.channel.unfinished d.awaits = [w] :=
    eq_singleton_of_mem h.lone.alone (Channel.mem_unfinished.2 ⟨hw, awaits_iff.2 hnew⟩)
  have hnone : d.channel.unfinished (awaits { d with taken := d.taken ++ [w.command] }) = [] := by
    rw [List.eq_nil_iff_forall_not_mem]
    intro v hv
    obtain ⟨hv, hawaits⟩ := Channel.mem_unfinished.1 hv
    have hmissing := awaits_iff.1 hawaits
    rw [List.mem_append, List.mem_singleton, not_or] at hmissing
    have hmem : v ∈ d.channel.unfinished d.awaits :=
      Channel.mem_unfinished.2 ⟨hv, awaits_iff.2 hmissing.1⟩
    rw [hone, List.mem_singleton] at hmem
    exact hmissing.2 (congrArg Writer.command hmem)
  refine ⟨⟨by simp [hnone], by simp [hnone]⟩, ?_⟩
  have hordered := h.ordered
  rw [Channel.queue, hone] at hordered
  rw [Channel.queue, hnone]
  simpa using hordered

/-- A step keeps the order, if a frame that may be complete now answers no command whose text is
still to be taken. -/
theorem step (h : d.Queued) (hs : d.chronicle.Faithful) (s : Step mayPrint d d')
    (hquiet : mayPrint d → ∀ w ∈ d.channel.writers, w.command ∉ d.taken →
      d.channel.pending.head? ≠ some w.command.id) : d'.Queued := by
  rcases s.cases with ⟨s, htaken⟩ | ⟨w, writing, hnew, rfl⟩
  · obtain ⟨new, hhistory, hadvances⟩ := s.advances hs h.lone fun hmay w hw =>
      hquiet hmay w (Channel.mem_unfinished.1 hw).1 (awaits_iff.1 (Channel.mem_unfinished.1 hw).2)
    have hawaits : d'.awaits = d.awaits := by
      funext c
      rw [awaits, awaits, htaken]
    refine ⟨by rw [hawaits]; exact hadvances.lone, ?_⟩
    rw [hawaits, htaken, hhistory]
    refine (hadvances.queue.append_left _).trans ?_
    rw [← List.append_assoc]
    exact h.ordered.append_right new
  · exact h.take (mem_inProgress.1 writing).1 hnew

end Queued

/-- If every frame answers a command whose text has been taken, the order is kept. -/
theorem Reachable.queued
    (hquiet : ∀ d, Reachable mayPrint prompt d → mayPrint d → ∀ w ∈ d.channel.writers,
      w.command ∉ d.taken → d.channel.pending.head? ≠ some w.command.id)
    (h : Reachable mayPrint prompt d) : d.Queued := by
  induction h with
  | refl => exact .start prompt
  | tail hr s ih => exact ih.step (Reachable.chronicle hr).faithful s (hquiet _ hr)

/-! ## How a command is overtaken -/

theorem Reachable.begin {w : Writer} (h : Reachable mayPrint prompt d)
    (hw : w ∈ d.channel.writers) :
    ∃ d', Reachable mayPrint prompt d' ∧ d'.taken = d.taken ∧
      d'.chronicle.submitted = d.chronicle.submitted ∧
      { w with hasBegun := true } ∈ d'.channel.writers ∧
      ∀ v ∈ d.channel.writers, v.serial ≠ w.serial → v ∈ d'.channel.writers := by
  cases hb : w.hasBegun with
  | true =>
    have hself : { w with hasBegun := true } = w := by rw [← hb]
    exact ⟨d, h, rfl, rfl, hself ▸ hw, fun v hv _ => hv⟩
  | false =>
    have hc := h.chronicle.faithful.consistent
    have hbegun := Channel.beginWrite_of_find? 0 (hc.find?_unbegun hw hb)
    have hnext := h.next (.proceed (.beginWrite 0 hw hb) (by
      intro v hv
      dsimp only
      rw [hbegun]
      simpa using ⟨v, hv, rfl⟩))
    refine ⟨_, hnext, rfl, rfl, hc.mem_writers_beginWrite hw hb 0, fun v hv hne => ?_⟩
    change v ∈ (d.channel.beginWrite w.serial 0).writers
    rw [hbegun]
    refine List.mem_map.2 ⟨v, hv, ?_⟩
    simp [Writer.marked, hne]

/-- A frame answers a command whose write is unfinished: another write is scheduled beside it, of a
command that was submitted later and whose text has not been taken. -/
theorem Reachable.exists_scheduled {w : Writer} (h : Reachable mayPrint prompt d)
    (hmay : mayPrint d) (hw : w ∈ d.channel.writers)
    (hhead : d.channel.pending.head? = some w.command.id) :
    ∃ d' c, Reachable mayPrint prompt d' ∧ d'.taken = d.taken ∧ c ∉ d.taken ∧
      d'.channel.writers = d.channel.writers ++ [⟨d.channel.writes, c, false⟩] ∧
      [w.command.id, c.id].Sublist d'.chronicle.submitted := by
  have hs := h.chronicle.faithful
  obtain ⟨rest, hp⟩ : ∃ rest, d.channel.pending = w.command.id :: rest :=
    List.head?_eq_some_iff.1 hhead
  have hflight : d.channel.inFlight = some w.command.id :=
    hs.inFlight_of_mem_writers hw (by rw [hp]; exact List.mem_cons_self)
  have hopen := hs.consistent.isClosed_of_inFlight hflight
  have hline : (w.command.id :: d.channel.backlog.map Command.id).Sublist
      d.chronicle.submitted := by
    have hline := h.chronicle.line_sublist
    rwa [Channel.line, hflight] at hline
  have hemit := Channel.emit_of_pending_cons [] 0 hp
  cases hb : d.channel.backlog with
  | cons c rest' =>
    rw [Channel.retire_of_backlog_cons _ hopen hflight hb] at hemit
    have huntaken : c ∉ d.taken := h.traced.untaken c (by rw [hb]; exact List.mem_cons_self)
    refine ⟨_, c, h.emit hmay [] 0, rfl, huntaken, congrArg Channel.writers hemit, ?_⟩
    rw [hb] at hline
    exact (List.Sublist.cons_cons _ (List.Sublist.cons_cons _ (List.nil_sublist _))).trans hline
  | nil =>
    rw [Channel.retire_of_backlog_nil _ hflight hb] at hemit
    -- nothing waits, so something new is submitted
    obtain ⟨id, hid⟩ := Infinite.exists_notMem_finset d.chronicle.submitted.toFinset
    have hnew : id ∉ d.chronicle.submitted := fun hmem => hid (List.mem_toFinset.2 hmem)
    have huntaken : ⟨id, ""⟩ ∉ d.taken := fun hmem => hnew (h.traced.known _ hmem)
    have hsubmit : (d.channel.emit [] 0).submit ⟨id, ""⟩ = .ok (_,
        ((d.channel.emit [] 0).reserving id).startWrite ⟨id, ""⟩) :=
      Channel.submit_eq_ok_iff.2 ⟨by rw [hemit]; exact hopen, rfl, by rw [hemit]; rfl⟩
    have hnext := (h.emit hmay [] 0).next (.proceed (.submit hnew hsubmit)
      fun v hv => List.mem_map_of_mem (List.mem_append_left _ hv))
    refine ⟨_, ⟨id, ""⟩, hnext, rfl, huntaken, ?_, ?_⟩
    · change (d.channel.emit [] 0).writers ++ [⟨(d.channel.emit [] 0).writes, ⟨id, ""⟩, false⟩] = _
      rw [hemit]
      rfl
    · rw [hb] at hline
      exact hline.append_right [id]

/-- Then both writes can be in progress at the same time. -/
theorem Reachable.exists_beside {w : Writer} (h : Reachable mayPrint prompt d)
    (hmay : mayPrint d) (hw : w ∈ d.channel.writers)
    (hhead : d.channel.pending.head? = some w.command.id) :
    ∃ d', Reachable mayPrint prompt d' ∧ d'.taken = d.taken ∧
      ∃ v ∈ d'.inProgress, ∃ u ∈ d'.inProgress, v.command = w.command ∧ u.command ∉ d.taken ∧
        [v.command.id, u.command.id].Sublist d'.chronicle.submitted := by
  obtain ⟨d₁, c, h₁, htaken₁, huntaken, hwriters, horder⟩ := h.exists_scheduled hmay hw hhead
  have hserial : d.channel.writes ≠ w.serial :=
    Nat.ne_of_gt (h.chronicle.faithful.consistent.earlier w hw)
  obtain ⟨d₂, h₂, htaken₂, hsubmitted₂, hbegun₂, hothers₂⟩ :=
    h₁.begin (w := w) (by rw [hwriters]; exact List.mem_append_left _ hw)
  have hnew := hothers₂ ⟨d.channel.writes, c, false⟩ (by rw [hwriters]; simp) hserial
  obtain ⟨d₃, h₃, htaken₃, hsubmitted₃, hbegun₃, hothers₃⟩ := h₂.begin hnew
  refine ⟨d₃, h₃, htaken₃.trans (htaken₂.trans htaken₁), { w with hasBegun := true },
    mem_inProgress.2 ⟨hothers₃ _ hbegun₂ hserial.symm, rfl⟩, ⟨d.channel.writes, c, true⟩,
    mem_inProgress.2 ⟨hbegun₃, rfl⟩, rfl, huntaken, ?_⟩
  rw [hsubmitted₃, hsubmitted₂]
  exact horder

/-- Two writes can be in progress after such a frame. -/
theorem Reachable.exists_not_oneWriter {w : Writer} (h : Reachable mayPrint prompt d)
    (hmay : mayPrint d) (hw : w ∈ d.channel.writers)
    (hhead : d.channel.pending.head? = some w.command.id) :
    ∃ d', Reachable mayPrint prompt d' ∧ ¬d'.OneWriter := by
  obtain ⟨d', h', -, v, hv, u, hu, -, -, horder⟩ := h.exists_beside hmay hw hhead
  refine ⟨d', h', fun hone => ?_⟩
  have hsame : u = v := by
    rwa [eq_singleton_of_mem hone hv, List.mem_singleton] at hu
  rw [hsame] at horder
  exact List.nodup_iff_sublist.1 h'.chronicle.faithful.consistent.distinct _ horder

/-- And the text submitted later can be taken first, if the earlier one has not been taken yet. -/
theorem Reachable.exists_not_inOrder {w : Writer} (h : Reachable mayPrint prompt d)
    (hmay : mayPrint d) (hw : w ∈ d.channel.writers) (hnew : w.command ∉ d.taken)
    (hhead : d.channel.pending.head? = some w.command.id) :
    ∃ d', Reachable mayPrint prompt d' ∧ ¬d'.InOrder := by
  obtain ⟨d', h', htaken, v, hv, u, hu, hvw, hunew, horder⟩ := h.exists_beside hmay hw hhead
  have hdistinct := h'.chronicle.faithful.consistent.distinct
  have hne : v.command ≠ u.command := by
    intro heq
    rw [heq] at horder
    exact List.nodup_iff_sublist.1 hdistinct _ horder
  have hlater := h'.next (.take hu (by rw [htaken]; exact hunew))
  have hboth := hlater.next (.take (w := v) hv (by
    rw [htaken, hvw, List.mem_append, List.mem_singleton, not_or]
    exact ⟨hnew, hvw ▸ hne⟩))
  refine ⟨_, hboth, fun hinOrder => ?_⟩
  have hids := (List.Sublist.map Command.id hinOrder).trans h'.chronicle.commands_sublist
  refine not_sublist_swap hdistinct horder (.trans ?_ hids)
  simp

/-! ## Exactly when -/

/-- If every frame answers a command whose write has ended, one write at most is in progress. -/
theorem oneWriter_of_lone (h : d.channel.Lone fun _ => true) : d.OneWriter := by
  refine le_trans (List.Sublist.length_le ?_) h.alone
  have hall : (d.channel.unfinished fun _ => true) = d.channel.writers :=
    List.filter_eq_self.2 fun _ _ => rfl
  rw [hall]
  exact List.filter_sublist

/-- In every run one write at most is in progress exactly if no frame is complete while the write of
the command that it answers has not ended; and the process takes the texts in the order in which
their commands were submitted exactly if no frame is complete while such a write goes on whose text
has not been taken. -/
theorem oneWriter_and_inOrder_iff (mayPrint : Delivery → Prop) (prompt : String) :
    ((∀ d, Reachable mayPrint prompt d → d.OneWriter) ↔
      ∀ d, Reachable mayPrint prompt d → mayPrint d → ∀ w ∈ d.channel.writers,
        d.channel.pending.head? ≠ some w.command.id) ∧
    ((∀ d, Reachable mayPrint prompt d → d.InOrder) ↔
      ∀ d, Reachable mayPrint prompt d → mayPrint d → ∀ w ∈ d.channel.writers,
        w.command ∉ d.taken → d.channel.pending.head? ≠ some w.command.id) := by
  constructor
  · constructor
    · intro hone d h hmay w hw hhead
      obtain ⟨d', h', hnot⟩ := h.exists_not_oneWriter hmay hw hhead
      exact hnot (hone d' h')
    · intro hquiet d h
      exact oneWriter_of_lone (h.lone hquiet)
  · constructor
    · intro horder d h hmay w hw hnew hhead
      obtain ⟨d', h', hnot⟩ := h.exists_not_inOrder hmay hw hnew hhead
      exact hnot (horder d' h')
    · intro hquiet d h
      exact (List.sublist_append_left _ _).trans (h.queued hquiet).ordered

/-- A frame of the target's own comes while the first text is still on its way: the second is
written beside it, and taken before it. -/
theorem taken_out_of_order : ∃ d, Reachable (fun _ => True) "(gdb)" d ∧
    commands d.chronicle.history = [⟨0, "slow"⟩, ⟨1, "fast"⟩] ∧
    d.taken = [⟨1, "fast"⟩, ⟨0, "slow"⟩] ∧ d.inProgress.length = 2 ∧
    ¬d.OneWriter ∧ ¬d.InOrder := by
  have h : Reachable (fun _ => True) "(gdb)" (start "(gdb)") := .start
  have h := h.next (.proceed (.submit (c := ⟨0, "slow"⟩) (by decide) rfl) (by decide))
  have h := h.next (.proceed (.submit (c := ⟨1, "fast"⟩) (by decide) rfl) (by decide))
  have h := h.next (.proceed (.beginWrite (w := ⟨0, ⟨0, "slow"⟩, false⟩) 1.0 (by decide) rfl)
    (by decide))
  have h := h.next (.proceed (.emit ["stopped"] 2.0 trivial) (by decide))
  have h := h.next (.proceed (.beginWrite (w := ⟨1, ⟨1, "fast"⟩, false⟩) 3.0 (by decide) rfl)
    (by decide))
  have h := h.next (.take (w := ⟨1, ⟨1, "fast"⟩, true⟩) (by decide) (by decide))
  have h := h.next (.take (w := ⟨0, ⟨0, "slow"⟩, true⟩) (by decide) (by decide))
  refine ⟨_, h, rfl, rfl, rfl, ?_, ?_⟩
  · intro hone
    have hone : 2 ≤ 1 := hone
    revert hone
    decide
  · intro horder
    have hswapped : [(⟨1, "fast"⟩ : Command), ⟨0, "slow"⟩].Sublist [⟨0, "slow"⟩, ⟨1, "fast"⟩] :=
      horder
    revert hswapped
    decide

end Delivery

end DebugConsole
