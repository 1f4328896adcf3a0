import DebugConsole.Proofs.Channel.Correlation
import Mathlib.Data.Fintype.EquivFin

set_option autoImplicit false

/-!
# When signals cross replies

A signal reaches the debugger at once, but its place is behind all that waits to be written.  So its frame,
which comes before theirs, is taken for an answer to them.  Signals cross no replies exactly if each is
delivered when everything that is owed a frame has reached the debugger (`answersOwn_iff_isCaughtUp`).

That this suffices is the order of things in `Reachable.aligned`.  That it is needed is shown by going on
from a signal that has overtaken a text: its frame goes to what is in flight (`Ordered.stale`), and then the
number of the signal waits for a frame that has gone by (`Stale`), so that the debugger has only to answer
what is left in line (`Stale.cross`).
-/

namespace DebugConsole

namespace Channel

variable {ch : Channel} {numbers : List CommandId}

/-- A write begins and fails: that is what becomes of its command. -/
theorem Consistent.endWrite_beginWrite {w : Writer} (fault : Fault) (h : ch.Consistent numbers)
    (hw : w ∈ ch.writers) (hb : w.hasBegun = false) (now : Float)
    (hf : failsCommand fault = true) :
    ∃ startedAt writers, { ch with startedAt, writers }.Consistent numbers ∧
      (ch.beginWrite w.serial now).endWrite w.serial (some fault) =
        { ch with startedAt, writers }.retire w.command.id
          (.failed (.unwritten fault.message)) := by
  have hbegun := h.beginWrite w.serial now
  have hended := hbegun.without w.serial
  have hfind := hbegun.find?_serial (h.mem_writers_beginWrite hw hb now)
  rw [endWrite_of_find? (some fault) hfind]
  rw [beginWrite_of_find? now (h.find?_unbegun hw hb)] at hended ⊢
  dsimp only
  rw [if_pos hf]
  exact ⟨_, _, hended, rfl⟩

/-- Whatever is in flight is written by a write that has not begun. -/
def Startable (ch : Channel) : Prop :=
  ∀ id, ch.inFlight = some id → ∃ w ∈ ch.writers, w.command.id = id ∧ w.hasBegun = false

end Channel

namespace Dialogue

variable {mayInterrupt : Dialogue → Prop} {prompt : String} {d : Dialogue}

/-! ## A signal whose frame has gone by -/

/-- The debugger has answered a number, but the frame went to another; behind `ids`, which the
debugger has not received, the number still waits. -/
structure Stale (d : Dialogue) (id : CommandId) (ids : List CommandId) : Prop where
  isOpen : d.channel.isClosed = false
  spent : id ∈ d.printed.map Answer.id
  quiet : d.owed = []
  pending : d.channel.pending = ids ++ [id]
  line : d.channel.line = ids
  unknown : ∀ a ∈ ids, a ∉ d.received
  waits : d.channel.Waits id

namespace Stale

variable {id a : CommandId} {ids : List CommandId}

/-- The first in line is in flight, and the others wait. -/
theorem inFlight_and_backlog (h : d.Stale id (a :: ids)) (hc : d.channel.Consistent d.submitted) :
    d.channel.inFlight = some a ∧ d.channel.backlog.map Command.id = ids := by
  have hline := h.line
  rw [Channel.line] at hline
  cases hf : d.channel.inFlight with
  | none =>
    rw [hf, hc.idle hf] at hline
    cases hline
  | some b =>
    rw [hf] at hline
    obtain ⟨hb, hids⟩ := List.cons.inj hline
    exact ⟨by rw [hb], hids⟩

theorem retire (h : d.Stale id (a :: ids)) (hc : d.channel.Consistent d.submitted) (o : Outcome) :
    { d with channel := d.channel.retire a o }.Stale id ids ∧ (d.channel.retire a o).Startable := by
  obtain ⟨hflight, hbacklog⟩ := h.inFlight_and_backlog hc
  have hid : id ≠ a := by
    rintro rfl
    apply h.unknown id List.mem_cons_self
    rw [received, List.map_append]
    exact List.mem_append_left _ h.spent
  constructor
  · exact {
      isOpen := by simpa using h.isOpen
      spent := h.spent
      quiet := h.quiet
      pending := by simp [h.pending]
      line := (Channel.line_retire_of_inFlight o h.isOpen hflight).trans hbacklog
      unknown := fun b hb => h.unknown b (List.mem_cons_of_mem _ hb)
      waits := h.waits.retire hc hid o }
  · exact fun b hb => Channel.exists_writer_of_inFlight_retire h.isOpen hflight hb

theorem refuse (hr : Reachable mayInterrupt prompt d) (h : d.Stale id (a :: ids))
    (hstart : d.channel.Startable) :
    ∃ d', Reachable mayInterrupt prompt d' ∧ d'.Stale id ids ∧ d'.channel.Startable := by
  have hc := hr.sound.consistent
  obtain ⟨w, hw, rfl, hb⟩ := hstart a (h.inFlight_and_backlog hc).1
  have hnew := h.unknown w.command.id List.mem_cons_self
  let fault : Fault := ⟨.brokenPipe, ""⟩
  have hrefused := (hr.next (.beginWrite w.serial 0)).next
    (.refuse fault (hc.mem_writers_beginWrite hw hb 0) rfl hnew)
  obtain ⟨startedAt, writers, hc', heq⟩ := hc.endWrite_beginWrite fault hw hb 0 rfl
  have hbegun : { d with channel := { d.channel with startedAt, writers } }.Stale id
      (w.command.id :: ids) := { h with }
  obtain ⟨hstale, hstart'⟩ := hbegun.retire hc' (.failed (.unwritten fault.message))
  refine ⟨_, hrefused, ?_, ?_⟩
  · dsimp only
    rw [heq]
    exact hstale
  · dsimp only
    rw [heq]
    exact hstart'

/-- With nothing left in line, the reply to the next command goes to the signal. -/
theorem cross_of_nil (hr : Reachable mayInterrupt prompt d) (h : d.Stale id []) :
    ∃ d', Reachable mayInterrupt prompt d' ∧ ¬d'.AnswersOwn := by
  obtain ⟨fresh, hfresh⟩ := Infinite.exists_notMem_finset d.submitted.toFinset
  rw [List.mem_toFinset] at hfresh
  obtain ⟨a, ha, rfl⟩ := List.mem_map.1 h.spent
  have hflight : d.channel.inFlight = none := by
    have hline := (List.append_eq_nil_iff.1 h.line).1
    simpa using hline
  -- a new command is submitted, and its write begins
  let c : Command := ⟨fresh, ""⟩
  let w : Writer := ⟨d.channel.writes, c, false⟩
  have hsubmits : d.channel.submit c =
      .ok (d.channel.outcomes.length, (d.channel.reserving fresh).startWrite c) := by
    refine Channel.submit_eq_ok_iff.2 ⟨h.isOpen, rfl, ?_⟩
    rw [hflight]
    rfl
  have hsubmitted := hr.next (.submit hfresh hsubmits)
  have hc := hsubmitted.sound.consistent
  have hw : w ∈ ((d.channel.reserving fresh).startWrite c).writers :=
    List.mem_append_right _ (List.mem_singleton.2 rfl)
  have hbegun := hsubmitted.next (.beginWrite w.serial 0)
  have hwaits : ((d.channel.reserving fresh).startWrite c).Waits a.id :=
    h.waits.submit hr.sound.consistent hfresh hsubmits
  -- the debugger answers it with lines that it has not printed for the signal
  have hnew : fresh ∉ d.received := fun hmem => hfresh (hr.sound.known hmem)
  have hreceived := hbegun.next (.receive ("" :: a.lines) (hc.mem_writers_beginWrite hw rfl 0) rfl
    hnew)
  have hprinted := hreceived.next (.print (a := ⟨fresh, "" :: a.lines⟩) 0 (by rw [h.quiet]; rfl))
  refine ⟨_, hprinted, ?_⟩
  intro hown
  have hdistinct := hprinted.sound.distinct
  rw [received, List.map_append] at hdistinct
  have holdest : (((d.channel.reserving fresh).startWrite c).beginWrite w.serial 0).pending =
      [a.id, fresh] := by
    rw [Channel.pending_beginWrite, Channel.pending_submit hsubmits, h.pending]
    rfl
  obtain ⟨t, ht⟩ := (hwaits.beginWrite w.serial 0).answered holdest ("" :: a.lines) 0
  have hmem := (hown t _ ht).2
  have heq := List.inj_on_of_nodup_map (List.nodup_append.1 hdistinct).1 hmem
    (List.mem_append_left _ ha) rfl
  exact absurd (congrArg Answer.lines heq) (List.cons_ne_self _ _)

/-- However many are left in line, a reply ends up with the signal. -/
theorem cross (hr : Reachable mayInterrupt prompt d) (h : d.Stale id ids)
    (hstart : d.channel.Startable) : ∃ d', Reachable mayInterrupt prompt d' ∧ ¬d'.AnswersOwn := by
  induction ids generalizing d with
  | nil => exact h.cross_of_nil hr
  | cons a ids ih =>
    obtain ⟨d', hr', h', hstart'⟩ := h.refuse hr hstart
    exact ih hr' h' hstart'

end Stale

/-! ## A signal that overtakes -/

/-- The debugger prints all that comes before the signal, and the signal still waits. -/
theorem Ordered.printOwed {next rest : List Answer} {late : List CommandId} {id : CommandId}
    (hr : Reachable mayInterrupt prompt d) (h : d.Ordered next late) (howed : d.owed = next ++ rest)
    (hwaits : d.channel.Waits id) (hid : id ∉ next.map Answer.id) :
    ∃ d', Reachable mayInterrupt prompt d' ∧ d'.Ordered [] late ∧ d'.owed = rest ∧
      d'.unreceived = d.unreceived ∧ d'.channel.Waits id := by
  induction next generalizing d with
  | nil => exact ⟨d, hr, h, howed, rfl, hwaits⟩
  | cons a next ih =>
    rw [List.map_cons, List.mem_cons, not_or] at hid
    have hpending : d.channel.pending = a.id :: (next.map Answer.id ++ (d.unreceived ++ late)) :=
      h.pending
    have hprinted := h.print 0 howed
    have hwaits' : (d.channel.emit a.lines 0).Waits id := by
      rw [Channel.emit_of_pending_cons _ _ hpending]
      exact hwaits.retire hr.sound.consistent hid.1 _
    obtain ⟨d', hr', h', howed', hsame, hw'⟩ := ih (hr.next (.print 0 howed)) hprinted rfl hwaits'
      hid.2
    refine ⟨d', hr', h', howed', hsame.trans ?_, hw'⟩
    -- what is pending is as before without its first, so what is not received is as before
    have hpending' := hprinted.pending
    rw [Channel.emit_of_pending_cons _ _ hpending] at hpending' ⊢
    dsimp only at hpending'
    rw [Channel.pending_retire, hpending, List.erase_cons_head] at hpending'
    exact (List.append_cancel_right (List.append_cancel_left hpending')).symm

/-- When the frame of the signal comes next, what the debugger has not received is led by what is
in flight. -/
theorem Ordered.inFlight_of_late {u id : CommandId} {us : List CommandId}
    (h : d.Ordered [] [id]) (hs : d.Sound) (hu : d.unreceived = u :: us) :
    d.channel.inFlight = some u ∧ d.channel.backlog.map Command.id = us := by
  cases hf : d.channel.inFlight with
  | none =>
    rw [unreceived, Channel.line, hf, hs.consistent.idle hf] at hu
    cases hu
  | some x =>
    by_cases hx : x ∈ d.received
    · -- then all that is pending would be the line, and the signal would not come last
      exfalso
      have hbacklog := hs.unreceived_of_mem_received hf hx
      have hline := hs.consistent.line
      rw [Channel.line, hf, ← hbacklog, h.pending] at hline
      have heq := hline.eq_of_length (by simp)
      rw [hu] at heq
      have hux : x = u := (List.cons.inj heq).1
      have hmem : u ∈ d.unreceived := by
        rw [hu]
        exact List.mem_cons_self
      have hnew := (List.mem_filter.1 hmem).2
      rw [← hux] at hnew
      simp [hx] at hnew
    · have hbacklog := hs.unreceived_of_inFlight hf hx
      rw [hu] at hbacklog
      obtain ⟨rfl, rfl⟩ := List.cons.inj hbacklog
      exact ⟨rfl, rfl⟩

/-- The frame of the signal goes to what is in flight. -/
theorem Ordered.stale {a : Answer} {u : CommandId} {us : List CommandId}
    (hr : Reachable mayInterrupt prompt d) (h : d.Ordered [] [a.id]) (howed : d.owed = [a])
    (hu : d.unreceived = u :: us) (hwaits : d.channel.Waits a.id) :
    ∃ d', Reachable mayInterrupt prompt d' ∧ d'.Stale a.id us ∧ d'.channel.Startable := by
  obtain ⟨hflight, hbacklog⟩ := h.inFlight_of_late hr.sound hu
  have hpending : d.channel.pending = u :: (us ++ [a.id]) := by
    rw [h.pending, hu]
    rfl
  have hne : a.id ≠ u := by
    rintro heq
    have hunique := hr.sound.consistent.unique
    rw [hpending, ← heq] at hunique
    simp at hunique
  have hunknown : ∀ b ∈ us, b ∉ d.received := by
    intro b hb
    have hmem : b ∈ d.unreceived := by
      rw [hu]
      exact List.mem_cons_of_mem _ hb
    simpa using (List.mem_filter.1 hmem).2
  refine ⟨_, hr.next (.print 0 howed), ?_, ?_⟩
  · rw [Channel.emit_of_pending_cons _ _ hpending]
    exact {
      isOpen := by simpa using h.isOpen
      spent := by simp
      quiet := rfl
      pending := by simp [hpending]
      line := (Channel.line_retire_of_inFlight _ h.isOpen hflight).trans hbacklog
      unknown := by simpa [received, howed] using hunknown
      waits := hwaits.retire hr.sound.consistent hne _ }
  · rw [Channel.emit_of_pending_cons _ _ hpending]
    exact fun b hb => Channel.exists_writer_of_inFlight_retire h.isOpen hflight hb

/-- A signal that overtakes what the debugger has not received can always be made to cross a
reply. -/
theorem Aligned.exists_cross (hr : Reachable mayInterrupt prompt d) (h : d.Aligned)
    (hopen : d.channel.isClosed = false) (hmay : mayInterrupt d) (hbehind : ¬d.IsCaughtUp) :
    ∃ d', Reachable mayInterrupt prompt d' ∧ ¬d'.AnswersOwn := by
  obtain ⟨fresh, hfresh⟩ := Infinite.exists_notMem_finset d.submitted.toFinset
  rw [List.mem_toFinset] at hfresh
  have hs := hr.sound
  have hordered := h.ordered hopen
  -- something has not been received
  have hsome : d.unreceived ≠ [] := by
    intro hnone
    apply hbehind
    intro id hid
    rw [hordered.pending, hnone, List.append_nil, List.append_nil] at hid
    rw [received, List.map_append]
    exact List.mem_append_right _ hid
  -- the signal is delivered
  let a : Answer := ⟨fresh, []⟩
  let ch : Channel :=
    { d.channel.reserving fresh with startedAt := assign d.channel.startedAt fresh 0 }
  have hsubmits : d.channel.signal fresh "SIGINT" 0 none =
      (.submitted d.channel.outcomes.length, ch) :=
    Channel.signal_none_eq_submitted_iff.2 ⟨hopen, rfl, rfl⟩
  have hr' := hr.next (.interrupt a.lines hmay hfresh hsubmits)
  have hordered' := hordered.interrupt a.lines hs hfresh hsubmits
  have hwaits : ch.Waits fresh := hs.consistent.waits_reserving hfresh
  have hsame : unreceived { d with
      channel := ch, submitted := d.submitted ++ [fresh], owed := d.owed ++ [a] } =
        d.unreceived := by
    have hpending : d.channel.pending ++ [fresh] = _ := hordered'.pending
    rw [hordered.pending, List.append_nil, List.nil_append, List.append_assoc] at hpending
    exact (List.append_cancel_right (List.append_cancel_left hpending)).symm
  -- all that comes before it is printed, then its own frame
  have hnotMem : fresh ∉ d.owed.map Answer.id := by
    intro hmem
    refine hfresh (hs.known ?_)
    rw [received, List.map_append]
    exact List.mem_append_right _ hmem
  obtain ⟨d₁, hr₁, hordered₁, howed₁, hsame₁, hwaits₁⟩ :=
    hordered'.printOwed hr' rfl hwaits hnotMem
  cases hu : d₁.unreceived with
  | nil => exact absurd (hsame.symm.trans (hsame₁.symm.trans hu)) hsome
  | cons u us =>
    obtain ⟨d₂, hr₂, hstale, hstart⟩ := Ordered.stale (a := a) hr₁ hordered₁ howed₁ hu hwaits₁
    exact hstale.cross hr₂ hstart

/-! ## Exactly when signals cross replies -/

/-- No reply ever goes to another's request exactly if every signal is delivered when the debugger
has received everything that is owed a frame. -/
theorem answersOwn_iff_isCaughtUp (mayInterrupt : Dialogue → Prop) (prompt : String) :
    (∀ d, Reachable mayInterrupt prompt d → d.AnswersOwn) ↔
      ∀ d, Reachable mayInterrupt prompt d → d.channel.isClosed = false → mayInterrupt d →
        d.IsCaughtUp := by
  constructor
  · intro hown d hr hopen hmay
    have haligned : ∀ d, Reachable mayInterrupt prompt d → d.Aligned := by
      intro d hr
      induction hr with
      | refl => exact .start prompt
      | @tail d d' hr s ih =>
        apply ih.step s
        intro hopen hmay
        by_contra hbehind
        obtain ⟨d'', hr'', hcross⟩ := ih.exists_cross hr hopen hmay hbehind
        exact hcross (hown d'' hr'')
    by_contra hbehind
    obtain ⟨d'', hr'', hcross⟩ := (haligned d hr).exists_cross hr hopen hmay hbehind
    exact hcross (hown d'' hr'')
  · intro hcaught d hr
    exact (hr.aligned hcaught).own

/-- A signal that is delivered while a command waits: the command that waits gets the frame of the
signal before its own text is written. -/
theorem signal_crosses_reply : ∃ d, Reachable (fun _ => True) "(gdb)" d ∧
    d.channel.outcome 1 = .answered ⟨["stopped"], 1, none⟩ ∧
    d.printed = [⟨0, ["running"]⟩, ⟨2, ["stopped"]⟩] ∧ ¬d.AnswersOwn := by
  have h : Reachable (fun _ => True) "(gdb)" (start "(gdb)") := .start
  have h := h.next (.submit (c := ⟨0, "run"⟩) (by decide) rfl)
  have h := h.next (.submit (c := ⟨1, "where"⟩) (by decide) rfl)
  have h := h.next (.beginWrite 0 1.0)
  have h := h.next (.receive (w := ⟨0, ⟨0, "run"⟩, true⟩) ["running"] (by decide) rfl (by decide))
  have h := h.next (@Step.interrupt _ _ 2 "SIGINT" 2.0 _ _ ["stopped"] trivial (by decide) rfl)
  have h := h.next (.print 3.0 rfl)
  have h := h.next (.print 4.0 rfl)
  refine ⟨_, h, rfl, rfl, ?_⟩
  intro hown
  have hmem := (hown 1 _ rfl).2
  revert hmem
  decide

end Dialogue

end DebugConsole
